/-
ProcBook/Proofs/JsonMembers.lean

Records from objects with any members.

Where `RecordText` is the grammar of records and has known keys only, `ObjectText` is the one of objects:
any keys with any values.  `Takes` says what one member does to the fields found before it, and `Fills`
what all of them do.  The reader does just that (`decides_object`):

    layout.read (text ++ rest) = .ok (fields, left) ↔
      (Fills layout [] members fields ∧ layout.missing? fields = none) ∧ left = rest.

Of `Fills` itself, without texts: a record holds what the members say, each field once (`Fills.keys`,
`Fills.nodup`, `Fills.content`), and members that say what some record holds fill a part of it
(`exists_fills`).  Records of the grammar are the case of known keys only (`read_of_recordText`), with
`parse_of_recordText` for whole texts.
-/
import Mathlib.Data.List.Nodup
import ProcBook.Proofs.JsonContent

namespace ProcBook.Json

/-! ### The members of an object -/

/-- A key, its colon and a value of any kind. -/
inductive PairText : List Char → String × List Char → Prop
  | mk {name left right value : List Char} {key : String} : StringText name key → Spaces left →
      Spaces right → ValueText value →
      PairText (name ++ (left ++ ':' :: (right ++ value))) (key, value)

/-- Keys and the texts of their values, in the order in which they are written. -/
abbrev Members := List (String × List Char)

/-- An object with its members. -/
abbrev ObjectText : List Char → Members → Prop := Enclosed '\x7b' '\x7d' PairText

/-- What a member does to the fields found before it: a key that the layout does not know does nothing,
any other adds the content of its field, which must be new. -/
inductive Takes (layout : Layout) (found : Fields) : String × List Char → Fields → Prop
  | unknown {key : String} {value : List Char} : layout.field? key = none →
      Takes layout found (key, value) found
  | field {key : String} {value : List Char} {field : Field} {content : Content} :
      layout.field? key = some field → found.lookup field.key = none → ContentText value content →
      content.shape = field.shape → Takes layout found (key, value) ((field.key, content) :: found)

/-- What the members of an object do, one after the other. -/
inductive Fills (layout : Layout) : Fields → Members → Fields → Prop
  | nil {found : Fields} : Fills layout found [] found
  | cons {found found' fields : Fields} {member : String × List Char}
      {members : Members} : Takes layout found member found' →
      Fills layout found' members fields → Fills layout found (member :: members) fields

/-- What the reader makes of a key, with `text` behind it. -/
def takeMember (layout : Layout) (found : Fields) (key : String) (text : List Char) :
    Except Fault (Fields × List Char) :=
  match layout.field? key with
  | none => (skipMember text).map (found, ·)
  | some field =>
    if (found.lookup field.key).isSome then .error (duplicateFault field.key text)
    else (readMember field.shape text).map fun (content, rest) => ((field.key, content) :: found, rest)

variable {layout : Layout} {found found' fields : Fields} {member : String × List Char}
  {members : Members} {key : String} {value : List Char} {field : Field}

theorem PairText.exists_cons {text : List Char} (h : PairText text member) :
    ∃ c rest, text = c :: rest ∧ c = '"' := by
  cases h with
  | mk hname _ _ _ =>
    cases hname with
    | mk _ => exact ⟨'"', _, rfl, rfl⟩

/-- A key that the layout does not know leaves the fields as they are. -/
theorem takes_of_unknown (h : layout.field? key = none) :
    Takes layout found (key, value) found' ↔ found' = found := by
  constructor
  · intro htakes
    cases htakes with
    | unknown _ => rfl
    | field hsome _ _ _ =>
      rw [h] at hsome
      cases hsome
  · rintro rfl
    exact .unknown h

/-- A key of the layout adds its field, unless it is there already. -/
theorem takes_of_field (h : layout.field? key = some field) :
    Takes layout found (key, value) found' ↔ found.lookup field.key = none ∧
      ∃ content, (ContentText value content ∧ content.shape = field.shape) ∧
        found' = (field.key, content) :: found := by
  constructor
  · intro htakes
    cases htakes with
    | unknown hnone =>
      rw [h] at hnone
      cases hnone
    | field hsome hnew hcontent hshape =>
      rw [h] at hsome
      cases hsome
      exact ⟨hnew, _, ⟨hcontent, hshape⟩, rfl⟩
  · rintro ⟨hnew, content, ⟨hcontent, hshape⟩, rfl⟩
    exact .field h hnew hcontent hshape

/-- Behind a key the reader makes one step and goes on with what it has found. -/
theorem readMembers_key {first : Bool} {input rest₀ rest₁ key : List Char}
    (hnext : nextKey first input = .ok (.element rest₀))
    (hkey : readString rest₀ = .ok (key, rest₁)) :
    readMembers layout found first input =
      match takeMember layout found (String.ofList key) rest₁ with
      | .error fault => .error fault
      | .ok (found', rest) => readMembers layout found' false rest := by
  -- The reader is defined over the two ways to take a member at once, so both are opened here.
  rw [readMembers]
  split
  · next h => rw [hnext] at h; cases h
  · next h => rw [hnext] at h; cases h
  · next h =>
    rw [hnext] at h
    cases h
    split
    · next h' => rw [hkey] at h'; cases h'
    · next h' =>
      rw [hkey] at h'
      cases h'
      unfold takeMember
      cases hfield : layout.field? (String.ofList key) with
      | none =>
        dsimp only
        split
        · next hskip => simp only [hskip, Except.map]
        · next hskip => simp only [hskip, Except.map]
      | some field =>
        dsimp only
        split
        · rfl
        · split
          · next hread => simp only [hread, Except.map]
          · next hread => simp only [hread, Except.map]

/-- Whatever follows, a member is taken as a whole or not at all. -/
theorem takeMember_iff {left right rest rest' : List Char} (hleft : Spaces left) (hright : Spaces right)
    (hvalue : ValueText value) (hends : Ends rest) :
    takeMember layout found key (left ++ ':' :: (right ++ (value ++ rest))) = .ok (found', rest') ↔
      Takes layout found (key, value) found' ∧ rest' = rest := by
  unfold takeMember
  -- A key without a field is skipped. One with a field is refused the second time.
  cases hfield : layout.field? key with
  | none =>
    have hskip : skipMember (left ++ ':' :: (right ++ (value ++ rest))) = .ok rest := by
      rw [skipMember, readColon_append hleft]
      show skipValue [] (right ++ (value ++ rest)) = .ok rest
      rw [skipValue_gap hright, skipValue_of_valueText hvalue hends, skipOn]
    simp only [hskip, Except.map, takes_of_unknown hfield, Except.ok.injEq, Prod.mk.injEq, eq_comm]
  | some field =>
    have hmember : readMember field.shape (left ++ ':' :: (right ++ (value ++ rest))) =
        field.shape.reader.run (right ++ (value ++ rest)) := by
      rw [readMember, readColon_append hleft]
    rw [takes_of_field hfield]
    cases hlookup : found.lookup field.key with
    | some content => simp [hlookup]
    | none =>
      simp only [hlookup, Option.isSome_none, Bool.false_eq_true, if_false, hmember, true_and]
      constructor
      · intro h
        obtain ⟨⟨content, left'⟩, hrun, h⟩ := map_eq_ok_iff.1 h
        cases h
        obtain ⟨hcontent, hrest⟩ := (contents_iff hright hvalue field.shape).1 hrun
        exact ⟨⟨content, hcontent, rfl⟩, hrest⟩
      · rintro ⟨⟨content, hcontent, rfl⟩, rfl⟩
        rw [(contents_iff hright hvalue field.shape).2 ⟨hcontent, rfl⟩]
        rfl

/-- One step of an object: a member is taken, and the reader goes on behind it. -/
theorem readMembers_pair_iff {first : Bool} {input text tail rest : List Char}
    {result : Fields × List Char} (hpair : PairText text member) (htext : text = '"' :: tail)
    (hnext : nextKey first input = .ok (.element (tail ++ rest))) (hends : Ends rest) :
    readMembers layout found first input = .ok result ↔
      ∃ found', Takes layout found member found' ∧
        readMembers layout found' false rest = .ok result := by
  cases hpair with
  | @mk name left right value key hname hleft hright hvalue =>
    cases hname with
    | @mk written string hspells =>
      have htail : tail ++ rest = written ++ '"' :: (left ++ ':' :: (right ++ (value ++ rest))) := by
        rw [List.cons_append, List.cons.injEq] at htext
        rw [← htext.2]
        simp
      rw [htail] at hnext
      rw [readMembers_key hnext (readString_of_spells hspells _)]
      constructor
      · intro h
        split at h
        · cases h
        · next found' rest' htake =>
          obtain ⟨htakes, rfl⟩ := (takeMember_iff hleft hright hvalue hends).1 htake
          exact ⟨found', htakes, h⟩
      · rintro ⟨found', htakes, h⟩
        rw [(takeMember_iff hleft hright hvalue hends).2 ⟨htakes, rfl⟩]
        exact h

/-- At the closing brace the reader yields the fields it found, if none is missing. -/
theorem readMembers_close_iff {first : Bool} {gap rest left : List Char} (hgap : Spaces gap) :
    readMembers layout found first (gap ++ '\x7d' :: rest) = .ok (fields, left) ↔
      (fields = found ∧ layout.missing? fields = none) ∧ left = rest := by
  have hnext : nextKey first (gap ++ '\x7d' :: rest) = .ok (.closed rest) := nextKey_close hgap
  rw [readMembers]
  split
  · next h => rw [hnext] at h; cases h
  · next h =>
    rw [hnext] at h
    cases h
    cases hmissing : layout.missing? found with
    | none =>
      constructor
      · intro h
        cases h
        exact ⟨⟨rfl, hmissing⟩, rfl⟩
      · rintro ⟨⟨rfl, -⟩, rfl⟩
        rfl
    | some key =>
      constructor
      · intro h
        cases h
      · rintro ⟨⟨rfl, h⟩, -⟩
        rw [hmissing] at h
        cases h
  · next h => rw [hnext] at h; cases h

theorem fills_cons_iff :
    Fills layout found (member :: members) fields ↔
      ∃ found', Takes layout found member found' ∧ Fills layout found' members fields := by
  constructor
  · rintro (- | ⟨htakes, hfills⟩)
    exact ⟨_, htakes, hfills⟩
  · rintro ⟨found', htakes, hfills⟩
    exact .cons htakes hfills

theorem fills_nil_iff : Fills layout found [] fields ↔ fields = found := by
  constructor
  · rintro ⟨⟩
    rfl
  · rintro rfl
    exact .nil

/-- Members are taken in order up to the closing bracket, where no required field may be missing. -/
theorem readMembers_iff {text : List Char} (h : Elements PairText text members) (rest : List Char)
    {first : Bool} {input tail left : List Char}
    (htail : skipSpace (text ++ '\x7d' :: rest) = '"' :: tail)
    (hnext : nextKey first input = .ok (.element tail)) :
    readMembers layout found first input = .ok (fields, left) ↔
      (Fills layout found members fields ∧ layout.missing? fields = none) ∧ left = rest := by
  -- The induction is on the members, where the reader stands at the first of those left.
  induction h generalizing found first input tail with
  | @last gap text right member hgap hitem hright =>
    obtain ⟨-, text, rfl, rfl⟩ := hitem.exists_cons
    have hskip : skipSpace (gap ++ ('"' :: text ++ right) ++ '\x7d' :: rest) =
        '"' :: (text ++ (right ++ '\x7d' :: rest)) := by
      rw [List.append_assoc, List.append_assoc]
      exact skipSpace_append hgap (by rfl)
    rw [hskip, List.cons.injEq] at htail
    rw [← htail.2] at hnext
    have hends : Ends (right ++ '\x7d' :: rest) := ends_append hright rfl
    rw [readMembers_pair_iff hitem rfl hnext hends, fills_cons_iff]
    simp only [readMembers_close_iff hright, fills_nil_iff, ← and_assoc, exists_and_right]
  | @more gap text right others member members hgap hitem hright hothers ih =>
    obtain ⟨-, text, rfl, rfl⟩ := hitem.exists_cons
    have hskip : skipSpace (gap ++ ('"' :: text ++ (right ++ ',' :: others)) ++ '\x7d' :: rest) =
        '"' :: (text ++ (right ++ ',' :: (others ++ '\x7d' :: rest))) := by
      simp only [List.append_assoc, List.cons_append]
      exact skipSpace_append hgap (by rfl)
    rw [hskip, List.cons.injEq] at htail
    rw [← htail.2] at hnext
    obtain ⟨gap', -, tail', hgap', rfl, htail'⟩ :=
      hothers.exists_cons PairText.exists_cons ('\x7d' :: rest)
    have hskip' : skipSpace (others ++ '\x7d' :: rest) = '"' :: tail' := by
      rw [htail']
      exact skipSpace_append hgap' (by rfl)
    have hnext' : nextKey false (right ++ ',' :: (others ++ '\x7d' :: rest)) =
        .ok (.element tail') := by
      rw [htail']
      exact nextKey_comma hright hgap'
    have hends : Ends (right ++ ',' :: (others ++ '\x7d' :: rest)) := ends_append hright rfl
    rw [readMembers_pair_iff hitem rfl hnext hends, fills_cons_iff]
    simp only [ih hskip' hnext', ← and_assoc, exists_and_right]

/-- **An object is read as a record exactly if its members fill one** in which nothing is missing. -/
theorem decides_object (layout : Layout) :
    Decides layout.reader ObjectText fun members fields =>
      Fills layout [] members fields ∧ layout.missing? fields = none where
  starts := by
    rintro text members (- | -)
    · exact ⟨'\x7b', _, rfl, by decide⟩
    · exact ⟨'\x7b', _, rfl, by decide⟩
  blanks := by
    intro gap text hgap
    show layout.read (gap ++ text) = layout.read text
    rw [Layout.read, skipSpace_gap hgap, ← Layout.read]
  run := by
    intro text members hobject rest left fields
    show layout.read (text ++ rest) = _ ↔ _
    rw [Layout.read]
    -- An empty object is closed at once. In any other the reader stands before its first key.
    cases hobject with
    | empty hgap =>
      rw [List.cons_append, skipSpace_of_head (by rfl), List.append_assoc, fills_nil_iff]
      exact readMembers_close_iff hgap
    | @full text members helems =>
      rw [List.cons_append, skipSpace_of_head (by rfl), List.append_assoc]
      obtain ⟨gap, -, tail, hgap, rfl, htail⟩ :=
        helems.exists_cons PairText.exists_cons ('\x7d' :: rest)
      have hskip : skipSpace (text ++ '\x7d' :: rest) = '"' :: tail := by
        rw [htail]
        exact skipSpace_append hgap (by rfl)
      apply readMembers_iff helems rest hskip
      rw [List.singleton_append, htail]
      exact nextKey_first hgap

/-! ### What is filled -/

/-- The fields that the members of an object name, as often as they name them. -/
def Layout.named (layout : Layout) (members : Members) : List String :=
  members.filterMap fun member => (layout.field? member.1).map (·.key)

theorem named_of_unknown (h : layout.field? key = none) :
    layout.named ((key, value) :: members) = layout.named members := by
  simp [Layout.named, h]

theorem named_of_field (h : layout.field? key = some field) :
    layout.named ((key, value) :: members) = field.key :: layout.named members := by
  simp [Layout.named, h]

/-- The fields found are those that the members name, the last one first. -/
theorem Fills.keys (h : Fills layout found members fields) :
    fields.map Prod.fst = (layout.named members).reverse ++ found.map Prod.fst := by
  induction h with
  | nil => rfl
  | cons htakes _ ih =>
    cases htakes with
    | unknown hfield => rw [ih, named_of_unknown hfield]
    | field hfield _ _ _ => simp [ih, named_of_field hfield]

theorem lookup_eq_none_iff_not_mem :
    fields.lookup key = none ↔ key ∉ fields.map Prod.fst := by
  rw [List.lookup_eq_none_iff]
  constructor
  · intro h hmem
    obtain ⟨p, hp, rfl⟩ := List.mem_map.1 hmem
    exact bne_iff_ne.1 (h p hp) rfl
  · intro h p hp
    exact bne_iff_ne.2 fun he => h (he ▸ List.mem_map_of_mem hp)

/-- Nothing is missing if all required fields are there. -/
theorem Layout.missing?_eq_none_iff :
    layout.missing? fields = none ↔
      ∀ field ∈ layout.fields, field.required = true → field.key ∈ fields.map Prod.fst := by
  rw [Layout.missing?, Option.map_eq_none_iff, List.find?_eq_none]
  refine forall₂_congr fun field _ => ?_
  rw [Bool.and_eq_true, Option.isNone_iff_eq_none, lookup_eq_none_iff_not_mem, not_and, not_not]

/-- No field is found twice. -/
theorem Fills.nodup (h : Fills layout found members fields)
    (hfound : (found.map Prod.fst).Nodup) : (fields.map Prod.fst).Nodup := by
  induction h with
  | nil => exact hfound
  | cons htakes _ ih =>
    apply ih
    cases htakes with
    | unknown _ => exact hfound
    | field _ hnew _ _ =>
      exact List.nodup_cons.2 ⟨lookup_eq_none_iff_not_mem.1 hnew, hfound⟩

/-- What has been found is kept. -/
theorem Fills.lookup (h : Fills layout found members fields) {content : Content}
    (hfound : found.lookup key = some content) : fields.lookup key = some content := by
  induction h with
  | nil => exact hfound
  | cons htakes _ ih =>
    apply ih
    cases htakes with
    | unknown _ => exact hfound
    | @field _ _ field _ _ hnew _ _ =>
      have hne : key ≠ field.key := by
        rintro rfl
        rw [hnew] at hfound
        cases hfound
      rw [List.lookup_cons, beq_false_of_ne hne]
      exact hfound

/-- The field that a member names holds what the member says. -/
theorem Fills.content (h : Fills layout found members fields) (hmember : member ∈ members)
    (hfield : layout.field? member.1 = some field) :
    ∃ content, fields.lookup field.key = some content ∧ ContentText member.2 content ∧
      content.shape = field.shape := by
  induction h with
  | nil => cases hmember
  | @cons found found' fields first members htakes hfills ih =>
    rcases List.mem_cons.1 hmember with rfl | hmember
    · obtain ⟨-, content, ⟨hcontent, hshape⟩, rfl⟩ := (takes_of_field hfield).1 htakes
      exact ⟨content, hfills.lookup List.lookup_cons_self, hcontent, hshape⟩
    · exact ih hmember

/-- Members that say what `contents` holds, and name no field twice, fill a part of `contents`. -/
theorem exists_fills {contents : Fields}
    (hcontent : ∀ member ∈ members, ∀ field, layout.field? member.1 = some field →
      ∃ content, contents.lookup field.key = some content ∧ ContentText member.2 content ∧
        content.shape = field.shape)
    (hnodup : (layout.named members).Nodup) (found : Fields)
    (hfound : ∀ key content, found.lookup key = some content → contents.lookup key = some content)
    (hnew : ∀ key ∈ layout.named members, found.lookup key = none) :
    ∃ fields, Fills layout found members fields ∧
      ∀ key content, fields.lookup key = some content → contents.lookup key = some content := by
  -- The induction carries that what is found so far is a part of `contents` and none of the members
  -- left is.
  induction members generalizing found with
  | nil => exact ⟨found, .nil, hfound⟩
  | cons member members ih =>
    obtain ⟨key, value⟩ := member
    have hrest := fun member hmember => hcontent member (List.mem_cons_of_mem (key, value) hmember)
    cases hfield : layout.field? key with
    | none =>
      rw [named_of_unknown hfield] at hnodup hnew
      obtain ⟨fields, hfills, hfields⟩ := ih hrest hnodup found hfound hnew
      exact ⟨fields, .cons (.unknown hfield) hfills, hfields⟩
    | some field =>
      rw [named_of_field hfield] at hnodup hnew
      obtain ⟨hother, hnodup⟩ := List.nodup_cons.1 hnodup
      obtain ⟨content, hlookup, htext, hshape⟩ := hcontent _ List.mem_cons_self field hfield
      have htakes : Takes layout found (key, value) ((field.key, content) :: found) :=
        .field hfield (hnew _ List.mem_cons_self) htext hshape
      have hfound' : ∀ key' content', ((field.key, content) :: found).lookup key' = some content' →
          contents.lookup key' = some content' := by
        intro key' content' h
        -- The field just found is in `contents`, and the others were.
        by_cases hkey : key' = field.key
        · subst hkey
          rw [List.lookup_cons_self] at h
          rw [hlookup, h]
        · rw [List.lookup_cons, beq_false_of_ne hkey] at h
          exact hfound key' content' h
      have hnew' : ∀ key' ∈ layout.named members, ((field.key, content) :: found).lookup key' = none := by
        intro key' hkey'
        have hne : key' ≠ field.key := by
          rintro rfl
          exact hother hkey'
        rw [List.lookup_cons, beq_false_of_ne hne]
        exact hnew key' (List.mem_cons_of_mem _ hkey')
      obtain ⟨fields, hfills, hfields⟩ := ih hrest hnodup _ hfound' hnew'
      exact ⟨fields, .cons htakes hfills, hfields⟩

/-! ### Records of the grammar -/

/-- A member of the writer's grammar adds its field. -/
theorem MemberText.exists_takes {text : List Char} {entry : String × Content}
    (h : MemberText layout text entry) (hnew : found.lookup entry.1 = none) :
    ∃ member, PairText text member ∧ Takes layout found member (entry :: found) := by
  cases h with
  | mk hname hfield hshape hleft hright hcontent =>
    exact ⟨_, .mk hname hleft hright (valueText_of_contentText hcontent),
      .field hfield hnew hcontent hshape⟩

/-- A record of the grammar is an object that fills it.  The last entry comes first. -/
theorem Elements.exists_fills {text : List Char} {entries : Fields}
    (h : Elements (MemberText layout) text entries)
    (hnodup : ((entries.reverse ++ found).map Prod.fst).Nodup) :
    ∃ members, Elements PairText text members ∧
      Fills layout found members (entries.reverse ++ found) := by
  have hlookup : ∀ {later : Fields} {entry : String × Content} {found : Fields},
      ((later ++ entry :: found).map Prod.fst).Nodup → found.lookup entry.1 = none := by
    intro later entry found hnodup
    rw [List.map_append, List.map_cons] at hnodup
    exact lookup_eq_none_iff_not_mem.2 (List.nodup_cons.1 (List.nodup_append.1 hnodup).2.1).1
  induction h generalizing found with
  | @last left text right entry hleft hitem hright =>
    obtain ⟨member, hpair, htakes⟩ :=
      hitem.exists_takes (hlookup (show (([] ++ entry :: found).map Prod.fst).Nodup from hnodup))
    exact ⟨[member], .last hleft hpair hright, .cons htakes .nil⟩
  | more hleft hitem hright _ ih =>
    rw [List.reverse_cons, List.append_assoc, List.singleton_append] at hnodup ⊢
    obtain ⟨member, hpair, htakes⟩ := hitem.exists_takes (hlookup hnodup)
    obtain ⟨members, hmembers, hfills⟩ := ih hnodup
    exact ⟨member :: members, .more hleft hpair hright hmembers, .cons htakes hfills⟩

/-- A record is read in its object form.  The fields come back with the last one first. -/
theorem read_of_recordText {text : List Char} (h : RecordText layout text fields)
    (hnodup : (fields.map Prod.fst).Nodup) (hcomplete : layout.missing? fields.reverse = none)
    (rest : List Char) : layout.read (text ++ rest) = .ok (fields.reverse, rest) := by
  obtain ⟨members, hobject, hfills⟩ : ∃ members, ObjectText text members ∧
      Fills layout [] members fields.reverse := by
    cases h with
    | empty hgap => exact ⟨[], .empty hgap, .nil⟩
    | full helems =>
      have hreverse : ((fields.reverse ++ []).map Prod.fst).Nodup := by
        rw [List.append_nil, List.map_reverse]
        exact List.nodup_reverse.2 hnodup
      obtain ⟨members, hmembers, hfills⟩ := helems.exists_fills hreverse
      rw [List.append_nil] at hfills
      exact ⟨members, .full hmembers, hfills⟩
  exact ((decides_object layout).run hobject).2 ⟨⟨hfills, hcomplete⟩, rfl⟩

/-- A text of a record without repeated fields that has all required ones, and what its fields
make. -/
def Describes {α : Type} (layout : Layout) (ofFields : Fields → α) (text : List Char) (a : α) :
    Prop :=
  ∃ fields, RecordText layout text fields ∧ (fields.map Prod.fst).Nodup ∧
    layout.missing? fields.reverse = none ∧ ofFields fields.reverse = a

/-- The reader of records accepts what the grammar of described objects allows. -/
theorem reads_record {α : Type} (layout : Layout) (ofFields : Fields → α) :
    Reads (layout.reader.map ofFields) (Describes layout ofFields) where
  starts := by
    rintro text a ⟨fields, - | -, -⟩
    · exact ⟨'\x7b', _, rfl, rfl, by decide⟩
    · exact ⟨'\x7b', _, rfl, rfl, by decide⟩
  run := by
    rintro text a ⟨fields, htext, hnodup, hcomplete, rfl⟩ rest
    show (layout.read (text ++ rest)).map _ = _
    rw [read_of_recordText htext hnodup hcomplete]
    rfl

/-- **A record with blanks around it is a whole text.** -/
theorem parse_of_recordText {α : Type} {ofFields : Fields → α} {text : List Char}
    (h : RecordText layout text fields) (hnodup : (fields.map Prod.fst).Nodup)
    (hcomplete : layout.missing? fields.reverse = none) (post : List Char) (hpost : Spaces post) :
    (layout.reader.map ofFields).parse (text ++ post) = .ok (ofFields fields.reverse) :=
  (reads_record layout ofFields).parse ⟨fields, h, hnodup, hcomplete, rfl⟩ hpost

end ProcBook.Json
