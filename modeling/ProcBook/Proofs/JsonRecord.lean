/-
ProcBook/Proofs/JsonRecord.lean

Records in a JSON text, in both of their forms.

A record is written as an object or as a list (`RecordForm`).  An object has any members, which fill the
record in their order; a list has the contents of the fields in the order of the layout, and those at the
end may be missing unless they are required (`Positions`).  `read_iff` says that nothing else is read:

    layout.read text = .ok (fields, rest) ↔ Leads (RecordForm layout · fields) text rest,

and `parse_iff` is the same for whole texts.
-/
import ProcBook.Proofs.JsonMembers
import ProcBook.Proofs.JsonSound

namespace ProcBook.Json

variable {layout : Layout} {found found' fields : Fields}

/-! ### Records as objects -/

/-- An object is closed, has a first key or goes on behind a comma. -/
theorem nextKey_cases {first : Bool} {text : List Char} {next : Continuation}
    (h : nextKey first text = .ok next) : ∃ gap, Spaces gap ∧
      ((∃ rest, next = .closed rest ∧ text = gap ++ '\x7d' :: rest) ∨
        (∃ rest, next = .element rest ∧ first = true ∧ text = gap ++ '"' :: rest) ∨
        ∃ gap' rest, next = .element rest ∧ first = false ∧ Spaces gap' ∧
          text = gap ++ ',' :: (gap' ++ '"' :: rest)) := by
  -- The first character behind the blanks decides.
  unfold nextKey at h
  split at h
  · cases h
  · next hskip =>
    obtain ⟨gap, hgap, -, rfl⟩ := exists_gap hskip
    refine ⟨gap, hgap, ?_⟩
    split at h
    · next hc =>
      cases h
      obtain rfl := eq_of_beq hc
      exact .inl ⟨_, rfl, rfl⟩
    split at h
    · next hfirst =>
      split at h
      · next hquote =>
        cases h
        obtain rfl := eq_of_beq hquote
        exact .inr (.inl ⟨_, rfl, hfirst, rfl⟩)
      · cases h
    · next hfirst =>
      split at h
      · next hcomma =>
        -- Behind a comma there may be blanks again, and a closing brace is no key.
        obtain rfl := eq_of_beq hcomma
        split at h
        · cases h
        · next hskip' =>
          obtain ⟨gap', hgap', -, rfl⟩ := exists_gap hskip'
          split at h
          · next hquote =>
            cases h
            obtain rfl := eq_of_beq hquote
            exact .inr (.inr ⟨gap', _, rfl, Bool.eq_false_iff.2 hfirst, hgap', rfl⟩)
          · split at h <;> cases h
      · cases h

theorem nextKey_closed {first : Bool} {text rest : List Char}
    (h : nextKey first text = .ok (.closed rest)) :
    ∃ gap, Spaces gap ∧ text = gap ++ '\x7d' :: rest := by
  obtain ⟨gap, hgap, ⟨_, hnext, htext⟩ | ⟨_, hnext, -⟩ | ⟨_, _, hnext, -⟩⟩ := nextKey_cases h
  · cases hnext
    exact ⟨gap, hgap, htext⟩
  · cases hnext
  · cases hnext

theorem nextKey_first_sound {text rest : List Char} (h : nextKey true text = .ok (.element rest)) :
    ∃ gap, Spaces gap ∧ text = gap ++ '"' :: rest := by
  obtain ⟨gap, hgap, ⟨_, hnext, -⟩ | ⟨_, hnext, -, htext⟩ | ⟨_, _, -, hfirst, -⟩⟩ := nextKey_cases h
  · cases hnext
  · cases hnext
    exact ⟨gap, hgap, htext⟩
  · cases hfirst

theorem nextKey_comma_sound {text rest : List Char} (h : nextKey false text = .ok (.element rest)) :
    ∃ before gap, Spaces before ∧ Spaces gap ∧ text = before ++ ',' :: (gap ++ '"' :: rest) := by
  obtain ⟨before, hbefore, ⟨_, hnext, -⟩ | ⟨_, -, hfirst, -⟩ | ⟨gap, _, hnext, -, hgap, htext⟩⟩ :=
    nextKey_cases h
  · cases hnext
  · cases hfirst
  · cases hnext
    exact ⟨before, gap, hbefore, hgap, htext⟩

/-- Behind a key a colon and a value are taken, whether the key is known or not. -/
theorem takeMember_sound {key : String} {text rest : List Char}
    (h : takeMember layout found key text = .ok (found', rest)) :
    ∃ left text', Spaces left ∧ text = left ++ ':' :: text' ∧ Leads ValueText text' rest := by
  -- A key without a field is skipped with its value, one with a field is read by its shape.
  unfold takeMember at h
  split at h
  · obtain ⟨rest, hskip, h⟩ := map_eq_ok_iff.1 h
    cases h
    unfold skipMember at hskip
    split at hskip
    · cases hskip
    · next text' hcolon =>
      obtain ⟨left, hleft, rfl⟩ := readColon_sound hcolon
      obtain ⟨rest', hvalue, hrest⟩ := skipValue_sound hskip
      rw [skipOn] at hrest
      cases hrest
      exact ⟨left, text', hleft, rfl, hvalue⟩
  · next field _ =>
    split at h
    · cases h
    · obtain ⟨⟨content, rest⟩, hread, h⟩ := map_eq_ok_iff.1 h
      cases h
      unfold readMember at hread
      split at hread
      · cases hread
      · next text' hcolon =>
        obtain ⟨left, hleft, rfl⟩ := readColon_sound hcolon
        have hvalue := ((sound_content field.shape).leads hread).mono fun _ htoken =>
          valueText_of_contentText htoken.1
        exact ⟨left, text', hleft, rfl, hvalue⟩

/-- An object is at its end or goes on with a member. -/
theorem readMembers_cases {first : Bool} {input rest : List Char}
    (h : readMembers layout found first input = .ok (fields, rest)) :
    nextKey first input = .ok (.closed rest) ∨
      ∃ tail member found' rest', nextKey first input = .ok (.element tail) ∧
        (∃ pair, PairText pair member ∧ '"' :: tail = pair ++ rest') ∧
        readMembers layout found' false rest' = .ok (fields, rest) := by
  -- The reader can only go on where a key was found and spelled.
  cases hnext : nextKey first input with
  | error fault =>
    rw [readMembers] at h
    split at h
    · cases h
    · next h' => rw [hnext] at h'; cases h'
    · next h' => rw [hnext] at h'; cases h'
  | ok next =>
    cases next with
    | closed left =>
      obtain ⟨gap, hgap, rfl⟩ := nextKey_closed hnext
      obtain ⟨-, rfl⟩ := (readMembers_close_iff hgap).1 h
      exact .inl rfl
    | element tail =>
      cases hkey : readString tail with
      | error fault =>
        rw [readMembers] at h
        split at h
        · cases h
        · next h' => rw [hnext] at h'; cases h'
        · next h' =>
          rw [hnext] at h'
          cases h'
          split at h
          · cases h
          · next h' => rw [hkey] at h'; cases h'
      | ok key =>
        obtain ⟨key, text⟩ := key
        rw [readMembers_key hnext hkey] at h
        split at h
        · cases h
        · next found' rest' htake =>
          obtain ⟨written, hspells, rfl⟩ := readString_sound hkey
          obtain ⟨left, _, hleft, rfl, right, value, hright, hvalue, rfl⟩ := takeMember_sound htake
          exact .inr ⟨_, (String.ofList key, value), found', rest', rfl,
            ⟨_, .mk (.mk hspells) hleft hright hvalue, by simp⟩, h⟩

/-- Behind a member stand the others and the closing bracket. -/
theorem readMembers_sound {found : Fields} {text rest' rest : List Char}
    {member : String × List Char} (hpair : Leads (PairText · member) text rest')
    (h : readMembers layout found false rest' = .ok (fields, rest)) :
    ∃ elements members, Elements PairText elements (member :: members) ∧
      text = elements ++ '\x7d' :: rest := by
  obtain ⟨left, token, hleft, htoken, rfl⟩ := hpair
  rcases readMembers_cases h with hclosed | ⟨tail, next, _, rest'', hnext, ⟨pair, hpair, htail⟩, hmore⟩
  · obtain ⟨right, hright, rfl⟩ := nextKey_closed hclosed
    exact ⟨_, [], .last hleft htoken hright, by simp⟩
  · obtain ⟨right, gap, hright, hgap, hrest'⟩ := nextKey_comma_sound hnext
    rw [htail] at hrest'
    have hlength : rest''.length < rest'.length := by
      simp only [hrest', List.length_append, List.length_cons]
      omega
    obtain ⟨elements, members, helements, htext⟩ := readMembers_sound ⟨gap, pair, hgap, hpair, rfl⟩ hmore
    refine ⟨_, next :: members, .more hleft htoken hright helements, ?_⟩
    rw [hrest', htext]
    simp
termination_by rest'.length

/-! ### Records as lists -/

/-- The contents of some fields in their order.  Fields at the end may be left out unless they are
required. -/
inductive Positions : List Field → List Content → Fields → Prop
  | done {fields : List Field} : (∀ field ∈ fields, field.required = false) → Positions fields [] []
  | next {field : Field} {fields : List Field} {content : Content} {contents : List Content}
      {found : Fields} : content.shape = field.shape → Positions fields contents found →
      Positions (field :: fields) (content :: contents) ((field.key, content) :: found)

/-- An array may end early where no field behind is required. -/
theorem positions_nil_iff {fields : List Field} :
    Positions fields [] found ↔ (∀ field ∈ fields, field.required = false) ∧ found = [] := by
  constructor
  · intro h
    cases h with
    | done hrequired => exact ⟨hrequired, rfl⟩
  · rintro ⟨hrequired, rfl⟩
    exact .done hrequired

/-- No field is asked for exactly if none of those left is required. -/
theorem requiredFrom?_eq_none_iff {index : Nat} {fields : List Field} :
    requiredFrom? index fields = none ↔ ∀ field ∈ fields, field.required = false := by
  induction fields generalizing index with
  | nil => simp [requiredFrom?]
  | cons field fields ih =>
    rw [requiredFrom?]
    split
    · next hrequired => simp [hrequired]
    · next hrequired => simp [ih, hrequired]

/-- An array is closed by its bracket and by nothing else. -/
theorem closeList_eq_ok_iff {text rest : List Char} :
    closeList text = .ok rest ↔ ∃ gap, Spaces gap ∧ text = gap ++ ']' :: rest := by
  constructor
  · intro h
    unfold closeList at h
    split at h
    · cases h
    · next hskip =>
      split at h
      · next hc =>
        cases h
        obtain rfl := eq_of_beq hc
        obtain ⟨gap, hgap, -, htext⟩ := exists_gap hskip
        exact ⟨gap, hgap, htext⟩
      · split at h <;> cases h
  · rintro ⟨gap, hgap, rfl⟩
    rw [closeList, skipSpace_append hgap (by rfl)]
    rfl

/-- A list ends where no required field is left. -/
theorem readPositions_close {title : String} {index : Nat} {fields : List Field} {gap rest : List Char}
    (hgap : Spaces gap) (h : ∀ field ∈ fields, field.required = false) :
    readPositions title index fields (gap ++ ']' :: rest) = .ok ([], rest) := by
  cases fields with
  | nil =>
    rw [readPositions, closeList_eq_ok_iff.2 ⟨gap, hgap, rfl⟩]
    rfl
  | cons field fields =>
    have hnext : nextElement (index == 0) (gap ++ ']' :: rest) = .ok (.closed rest) :=
      nextElement_close hgap
    rw [readPositions]
    simp only [hnext, requiredFrom?_eq_none_iff.2 h]

/-- The reader of a shape accepts the contents of this shape. -/
theorem reads_content (shape : Shape) :
    Reads shape.reader fun text content => ContentText text content ∧ content.shape = shape where
  starts := by
    rintro text content ⟨hcontent, -⟩
    obtain ⟨c, rest, rfl, hc⟩ := (valueText_of_contentText hcontent).exists_cons
    exact ⟨c, rest, rfl, hc.isSpace, hc.ne_closing .list⟩
  run := by
    rintro text content hcontent rest
    exact (contents_iff spaces_nil (valueText_of_contentText hcontent.1) shape).2 ⟨hcontent, rfl⟩

theorem skipSpace_content {gap token : List Char} {content : Content} (hgap : Spaces gap)
    (htoken : ContentText token content) (rest : List Char) :
    skipSpace (gap ++ (token ++ rest)) = token ++ rest := by
  obtain ⟨c, token, rfl, hc⟩ := (valueText_of_contentText htoken).exists_cons
  exact skipSpace_append hgap (by simpa using hc.isSpace)

/-- Contents are read in the order of the fields. -/
theorem readPositions_of_elements {title : String} {index : Nat} {fields : List Field}
    {contents : List Content} {text input : List Char} (h : Elements ContentText text contents)
    (hfields : Positions fields contents found) (rest : List Char)
    (hnext : nextElement (index == 0) input = .ok (.element (skipSpace (text ++ ']' :: rest)))) :
    readPositions title index fields input = .ok (found, rest) := by
  induction h generalizing fields found index input with
  | @last left token right content hleft htoken hright =>
    cases hfields with
    | @next field fields _ _ _ hshape hdone =>
      obtain ⟨hrequired, rfl⟩ := positions_nil_iff.1 hdone
      have hskip : skipSpace (left ++ (token ++ right) ++ ']' :: rest) =
          token ++ (right ++ ']' :: rest) := by
        simpa only [List.append_assoc] using skipSpace_content hleft htoken (right ++ ']' :: rest)
      rw [readPositions]
      simp only [hnext, hskip, (reads_content field.shape).run ⟨htoken, hshape⟩,
        readPositions_close hright hrequired]
      rfl
  | @more left token right others content contents hleft htoken hright hothers ih =>
    cases hfields with
    | @next field fields _ _ found hshape hmore =>
      have hskip : skipSpace (left ++ (token ++ (right ++ ',' :: others)) ++ ']' :: rest) =
          token ++ (right ++ ',' :: (others ++ ']' :: rest)) := by
        simpa only [List.append_assoc, List.cons_append] using
          skipSpace_content hleft htoken (right ++ ',' :: (others ++ ']' :: rest))
      -- Behind the comma the reader stands before the first of the other contents.
      have hnext' : nextElement (index + 1 == 0) (right ++ ',' :: (others ++ ']' :: rest)) =
          .ok (.element (skipSpace (others ++ ']' :: rest))) := by
        obtain ⟨gap, c, tail, hgap, hc, htail⟩ := hothers.exists_cons
          (fun h => (valueText_of_contentText h).exists_cons) (']' :: rest)
        rw [htail, skipSpace_append hgap (by simpa using hc.isSpace)]
        exact nextElement_comma hright hgap hc.isSpace (hc.ne_closing .list)
      rw [readPositions]
      simp only [hnext, hskip, (reads_content field.shape).run ⟨htoken, hshape⟩, ih hmore hnext']
      rfl

/-- A list is at its end or goes on with the content of the next field. -/
theorem readPositions_cases {title : String} {index : Nat} {fields : List Field}
    {text rest : List Char} (h : readPositions title index fields text = .ok (found, rest)) :
    (∃ gap, Spaces gap ∧ text = gap ++ ']' :: rest ∧ Positions fields [] found) ∨
      ∃ field fields' text' content rest' found', fields = field :: fields' ∧
        nextElement (index == 0) text = .ok (.element text') ∧
        (Leads (ContentText · content) text' rest' ∧ content.shape = field.shape) ∧
        readPositions title (index + 1) fields' rest' = .ok (found', rest) ∧
        found = (field.key, content) :: found' := by
  -- Without a field left only the bracket may come.
  cases fields with
  | nil =>
    obtain ⟨rest, hclose, h⟩ := map_eq_ok_iff.1 h
    cases h
    obtain ⟨gap, hgap, htext⟩ := closeList_eq_ok_iff.1 hclose
    exact .inl ⟨gap, hgap, htext, .done (by simp)⟩
  | cons field fields =>
    rw [readPositions] at h
    split at h
    · cases h
    · next hnext =>
      split at h
      · cases h
      · next hrequired =>
        cases h
        obtain ⟨gap, hgap, htext⟩ := nextElement_closed hnext
        exact .inl ⟨gap, hgap, htext, .done (requiredFrom?_eq_none_iff.1 hrequired)⟩
    · next text' hnext =>
      split at h
      · cases h
      · next content rest' hrun =>
        obtain ⟨⟨found', left⟩, hmore, h⟩ := map_eq_ok_iff.1 h
        cases h
        obtain ⟨gap, token, hgap, ⟨htoken, hshape⟩, htext⟩ := (sound_content field.shape).leads hrun
        exact .inr ⟨field, fields, text', content, rest', found', rfl, hnext,
          ⟨⟨gap, token, hgap, htoken, htext⟩, hshape⟩, hmore, rfl⟩

/-- Behind a content stand the others and the closing bracket. -/
theorem readPositions_sound {title : String} {index : Nat} {fields : List Field} {found : Fields}
    {content : Content} {text rest' rest : List Char}
    (hcontent : Leads (ContentText · content) text rest')
    (h : readPositions title (index + 1) fields rest' = .ok (found, rest)) :
    ∃ elements contents, Elements ContentText elements (content :: contents) ∧
      Positions fields contents found ∧ text = elements ++ ']' :: rest := by
  obtain ⟨left, token, hleft, htoken, rfl⟩ := hcontent
  rcases readPositions_cases h with ⟨right, hright, rfl, hdone⟩ |
    ⟨field, fields', text', content', rest'', found', rfl, hnext, ⟨hcontent, hshape⟩, hmore, rfl⟩
  · exact ⟨_, [], .last hleft htoken hright, hdone, by simp⟩
  · obtain ⟨right, gap, hright, hgap, rfl⟩ := nextElement_comma_sound hnext
    obtain ⟨elements, contents, helements, hpositions, htext⟩ :=
      readPositions_sound (hcontent.gap hgap) hmore
    refine ⟨_, content' :: contents, .more hleft htoken hright helements, .next hshape hpositions, ?_⟩
    rw [htext]
    simp

/-! ### Records -/

/-- A record in either form, and its fields. -/
inductive RecordForm (layout : Layout) : List Char → Fields → Prop
  | object {text : List Char} {members : Members} {fields : Fields} : ObjectText text members →
      Fills layout [] members fields → layout.missing? fields = none → RecordForm layout text fields
  | list {text : List Char} {contents : List Content} {fields : Fields} :
      Enclosed '[' ']' ContentText text contents → Positions layout.fields contents fields →
      RecordForm layout text fields

/-- Behind its opening bracket, what is read of an object is one. -/
theorem object_of_readMembers {text rest : List Char}
    (h : readMembers layout [] true text = .ok (fields, rest)) :
    ∃ token members, ObjectText token members ∧ '\x7b' :: text = token ++ rest := by
  rcases readMembers_cases h with
    hclosed | ⟨tail, member, found, rest', hnext, ⟨pair, hpair, htail⟩, hmore⟩
  · obtain ⟨gap, hgap, rfl⟩ := nextKey_closed hclosed
    exact ⟨_, [], .empty hgap, by simp⟩
  · obtain ⟨gap, hgap, htext⟩ := nextKey_first_sound hnext
    rw [htail] at htext
    obtain ⟨elements, members, helements, rfl⟩ :=
      readMembers_sound ⟨gap, pair, hgap, hpair, htext⟩ hmore
    exact ⟨_, _, .full helements, by simp⟩

/-- What is read by position is an array whose elements go to the fields in order. -/
theorem list_of_readPositions {title : String} {fields : List Field} {text rest : List Char}
    (h : readPositions title 0 fields text = .ok (found, rest)) :
    ∃ token contents, Enclosed '[' ']' ContentText token contents ∧
      Positions fields contents found ∧ '[' :: text = token ++ rest := by
  rcases readPositions_cases h with ⟨gap, hgap, rfl, hdone⟩ |
    ⟨field, fields', text', content, rest', found', rfl, hnext, ⟨hcontent, hshape⟩, hmore, rfl⟩
  · exact ⟨_, [], .empty hgap, hdone, by simp⟩
  · obtain ⟨gap, hgap, rfl⟩ := nextElement_first_sound hnext
    obtain ⟨elements, contents, helements, hpositions, htext⟩ :=
      readPositions_sound (hcontent.gap hgap) hmore
    exact ⟨_, _, .full helements, .next hshape hpositions, by rw [htext]; simp⟩

/-- What the reader of records takes off a text is a record in one of its two forms. -/
theorem sound_record (layout : Layout) : Sound layout.reader (RecordForm layout) where
  leads := by
    intro text rest fields h
    have hread : layout.read text = .ok (fields, rest) := h
    unfold Layout.read at hread
    split at hread
    · next hskip =>
      obtain ⟨token, contents, hlist, hpositions, htext⟩ := list_of_readPositions hread
      exact leads_of_skipSpace (.list hlist hpositions) (hskip.trans htext)
    · next text' hskip =>
      obtain ⟨token, members, hobject, htext⟩ := object_of_readMembers hread
      -- Once the object is known, what its members do is known as well.
      obtain ⟨gap, hgap, htext'⟩ := exists_skipSpace text
      rw [htext', (decides_object layout).blanks _ hgap, hskip, htext,
        (decides_object layout).run hobject] at h
      obtain ⟨⟨hfills, hmissing⟩, -⟩ := h
      exact leads_of_skipSpace (.object hobject hfills hmissing) (hskip.trans htext)
    · cases hread

/-- Conversely either form of a record is read, and nothing behind it is taken. -/
theorem read_of_recordForm {gap token : List Char} (hgap : Spaces gap)
    (h : RecordForm layout token fields) (rest : List Char) :
    layout.reader.run (gap ++ (token ++ rest)) = .ok (fields, rest) := by
  rw [(decides_object layout).blanks _ hgap]
  cases h with
  | object hobject hfills hmissing =>
    exact ((decides_object layout).run hobject).2 ⟨⟨hfills, hmissing⟩, rfl⟩
  | list hlist hpositions =>
    show layout.read (token ++ rest) = _
    rw [Layout.read]
    cases hlist with
    | @empty gap hgap =>
      obtain ⟨hrequired, rfl⟩ := positions_nil_iff.1 hpositions
      rw [List.cons_append, skipSpace_of_head (by rfl), List.append_assoc]
      exact readPositions_close hgap hrequired
    | @full text contents helements =>
      rw [List.cons_append, skipSpace_of_head (by rfl), List.append_assoc]
      apply readPositions_of_elements helements hpositions
      obtain ⟨gap, c, tail, hgap, hc, htail⟩ := helements.exists_cons
        (fun h => (valueText_of_contentText h).exists_cons) (']' :: rest)
      rw [List.singleton_append, htail, skipSpace_append hgap (by simpa using hc.isSpace)]
      exact nextElement_first hgap hc.isSpace (hc.ne_closing .list)

/-- **A record is read exactly from its two forms.** -/
theorem read_iff {text rest : List Char} :
    layout.read text = .ok (fields, rest) ↔ Leads (RecordForm layout · fields) text rest := by
  constructor
  · exact (sound_record layout).leads
  · rintro ⟨gap, token, hgap, hform, rfl⟩
    exact read_of_recordForm hgap hform rest

/-- A text is read as a whole if it is a record with blanks around it. -/
theorem parse_iff {α : Type} {ofFields : Fields → α} {text : List Char} {a : α} :
    (layout.reader.map ofFields).parse text = .ok a ↔ ∃ rest fields,
      Leads (RecordForm layout · fields) text rest ∧ Spaces rest ∧ ofFields fields = a := by
  rw [parse_eq_ok_iff]
  constructor
  · rintro ⟨rest, hrun, hrest⟩
    obtain ⟨⟨fields, left⟩, hread, h⟩ := map_eq_ok_iff.1 hrun
    cases h
    exact ⟨rest, fields, read_iff.1 hread, hrest, rfl⟩
  · rintro ⟨rest, fields, hleads, hrest, rfl⟩
    exact ⟨rest, map_eq_ok_iff.2 ⟨(fields, rest), read_iff.2 hleads, rfl⟩, hrest⟩

end ProcBook.Json
