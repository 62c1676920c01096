/-
ProcBook/Proofs/DocsRecord.lean

The records of documentation blocks.

A block is written as an object, in which its two fields stand once each and in any order among any other
members, or as a list of its two contents (`DocsBlock.RecordText`).  `DocsBlock.ofJson_iff` says that these
texts are read, with blanks around them, and no others.  No reader is mentioned in what a record looks
like.
-/
import ProcBook.Proofs.JsonRecord
import ProcBook.Sql.DocsBlock

namespace ProcBook.Sql.DocsBlock

open Json

/-- Members, in any order and with others among them, that say what a block says. -/
structure DescribedBy (docs : DocsBlock) (members : Members) : Prop where
  /-- Neither field is named twice. -/
  nodup : ((members.map Prod.fst).filter (· ∈ ["description", "returns"])).Nodup
  description_mem : "description" ∈ members.map Prod.fst
  returns_mem : "returns" ∈ members.map Prod.fst
  description : ∀ value, ("description", value) ∈ members → StringText value docs.description
  returns : ∀ value, ("returns", value) ∈ members → Enclosed '[' ']' StringText value docs.returns

/-- The record of a block. -/
inductive RecordText (docs : DocsBlock) : List Char → Prop
  | object {text : List Char} {members : Members} : ObjectText text members →
      docs.DescribedBy members → RecordText docs text
  | list {left description right left' returns right' : List Char} : Spaces left →
      StringText description docs.description → Spaces right → Spaces left' →
      Enclosed '[' ']' StringText returns docs.returns → Spaces right' →
      RecordText docs
        ('[' :: (left ++ (description ++ (right ++ ',' :: (left' ++ (returns ++ (right' ++ [']'])))))))

/-- A record with blanks around it. -/
def WrittenAs (docs : DocsBlock) (text : List Char) : Prop :=
  ∃ left record right, Spaces left ∧ docs.RecordText record ∧ Spaces right ∧
    text = left ++ (record ++ right)

/-! ### The layout of blocks -/

/-- The fields of a docs record: both are needed, neither has another name. -/
theorem field?_eq_some_iff {key : String} {field : Field} :
    layout.field? key = some field ↔
      key = "description" ∧ field = ⟨"description", none, .text, true⟩ ∨
        key = "returns" ∧ field = ⟨"returns", none, .texts, true⟩ := by
  by_cases hdescription : key = "description"
  · simp [Layout.field?, layout, hdescription, eq_comm]
  by_cases hreturns : key = "returns"
  · simp [Layout.field?, layout, hreturns, eq_comm]
  · simp [Layout.field?, layout, hdescription, hreturns]

/-- Which members name a field. -/
theorem named_eq (members : Members) :
    layout.named members = (members.map Prod.fst).filter (· ∈ ["description", "returns"]) := by
  have hkey : ∀ key : String, (layout.field? key).map (·.key) =
      if key ∈ ["description", "returns"] then some key else none := by
    intro key
    by_cases hdescription : key = "description"
    · simp [Layout.field?, layout, hdescription]
    by_cases hreturns : key = "returns"
    · simp [Layout.field?, layout, hreturns]
    · simp [Layout.field?, layout, hdescription, hreturns]
  induction members with
  | nil => rfl
  | cons member members ih =>
    rw [Layout.named, List.filterMap_cons, hkey, List.map_cons, List.filter_cons, ← ih]
    by_cases hmem : member.1 ∈ ["description", "returns"]
    · simp only [hmem, if_true, decide_true, Layout.named]
    · simp only [hmem, if_false, decide_false, Bool.false_eq_true, Layout.named]

/-- Nothing is missing once both fields are there, in whatever order. -/
theorem missing?_eq_none_iff (fields : Fields) :
    layout.missing? fields = none ↔
      "description" ∈ fields.map Prod.fst ∧ "returns" ∈ fields.map Prod.fst := by
  simp [Layout.missing?_eq_none_iff, layout]

/-! ### Objects -/

/-- What the reader collects from an object describes the docs. -/
theorem describedBy_of_fills {members : Members} {fields : Fields}
    (h : Fills layout [] members fields) (hmissing : layout.missing? fields = none) :
    (ofFields fields).DescribedBy members := by
  have hkeys : fields.map Prod.fst =
      ((members.map Prod.fst).filter (· ∈ ["description", "returns"])).reverse := by
    rw [h.keys, named_eq, List.map_nil, List.append_nil]
  have hnodup : (fields.map Prod.fst).Nodup := h.nodup List.nodup_nil
  obtain ⟨hdescription, hreturns⟩ := (missing?_eq_none_iff fields).1 hmissing
  rw [hkeys] at hnodup hdescription hreturns
  refine ⟨List.nodup_reverse.1 hnodup, (List.mem_filter.1 (List.mem_reverse.1 hdescription)).1,
    (List.mem_filter.1 (List.mem_reverse.1 hreturns)).1, ?_, ?_⟩
  · intro value hmember
    -- A field is found with the content of its member, and the shape excludes the other kind.
    obtain ⟨content, hlookup, hcontent, hshape⟩ :=
      h.content hmember (field?_eq_some_iff.2 (.inl ⟨rfl, rfl⟩))
    cases hcontent with
    | text hstring =>
      rw [ofFields, Fields.text, hlookup]
      exact hstring
    | texts _ => cases hshape
  · intro value hmember
    obtain ⟨content, hlookup, hcontent, hshape⟩ :=
      h.content hmember (field?_eq_some_iff.2 (.inr ⟨rfl, rfl⟩))
    cases hcontent with
    | text _ => cases hshape
    | texts hstrings =>
      rw [ofFields, Fields.texts, hlookup]
      exact hstrings

/-- Members that describe the docs are collected, with other members between them. -/
theorem exists_fills_of_describedBy {docs : DocsBlock} {members : Members}
    (h : docs.DescribedBy members) :
    ∃ fields, (Fills layout [] members fields ∧ layout.missing? fields = none) ∧
      ofFields fields = docs := by
  -- Each member with the name of a field holds what the block has there.
  have hcontent : ∀ member ∈ members, ∀ field, layout.field? member.1 = some field →
      ∃ content, List.lookup field.key [("description", .text docs.description),
          ("returns", .texts docs.returns)] = some content ∧
        ContentText member.2 content ∧ content.shape = field.shape := by
    rintro ⟨key, value⟩ hmember field hfield
    rcases field?_eq_some_iff.1 hfield with ⟨hkey, rfl⟩ | ⟨hkey, rfl⟩
    · subst hkey
      exact ⟨_, rfl, .text (h.description value hmember), rfl⟩
    · subst hkey
      exact ⟨_, rfl, .texts (h.returns value hmember), rfl⟩
  have hnodup : (layout.named members).Nodup := by
    rw [named_eq]
    exact h.nodup
  obtain ⟨fields, hfills, hagree⟩ :=
    exists_fills hcontent hnodup [] (fun _ _ hnil => nomatch hnil) (fun _ _ => rfl)
  have hmem : ∀ key ∈ ["description", "returns"], key ∈ members.map Prod.fst →
      key ∈ fields.map Prod.fst := by
    intro key hkey hmember
    rw [hfills.keys, named_eq, List.map_nil, List.append_nil, List.mem_reverse]
    exact List.mem_filter.2 ⟨hmember, decide_eq_true hkey⟩
  have hmissing : layout.missing? fields = none := (missing?_eq_none_iff fields).2
    ⟨hmem _ (by simp) h.description_mem, hmem _ (by simp) h.returns_mem⟩
  -- What is found under a key is what the block has there, and both keys are there.
  have hlookup : ∀ key, key ∈ fields.map Prod.fst → ∀ content,
      List.lookup key [("description", Content.text docs.description),
        ("returns", .texts docs.returns)] = some content → fields.lookup key = some content := by
    intro key hkey content hcontent
    cases hfound : fields.lookup key with
    | none => exact absurd hkey (lookup_eq_none_iff_not_mem.1 hfound)
    | some content' => rw [← hcontent, hagree key content' hfound]
  obtain ⟨hdescription, hreturns⟩ := (missing?_eq_none_iff fields).1 hmissing
  refine ⟨fields, ⟨hfills, hmissing⟩, ?_⟩
  rw [ofFields, Fields.text, hlookup _ hdescription _ rfl, Fields.texts, hlookup _ hreturns _ rfl]

/-! ### Lists -/

/-- A record written as an array has its fields by position. -/
theorem positions_iff {contents : List Content} {fields : Fields} :
    Positions layout.fields contents fields ↔ ∃ description returns,
      contents = [.text description, .texts returns] ∧
        fields = [("description", .text description), ("returns", .texts returns)] := by
  constructor
  · intro h
    -- Both fields are required, so the array has an element for each and none behind.
    change Positions [_, _] contents fields at h
    cases h with
    | done hrequired => exact absurd (hrequired _ List.mem_cons_self) (by decide)
    | @next _ _ first _ _ hfirst hmore =>
      cases hmore with
      | done hrequired => exact absurd (hrequired _ List.mem_cons_self) (by decide)
      | @next _ _ second _ _ hsecond hdone =>
        cases hdone with
        | done _ =>
          cases first with
          | texts _ => cases hfirst
          | text description =>
            cases second with
            | text _ => cases hsecond
            | texts returns => exact ⟨description, returns, rfl, rfl⟩
  · rintro ⟨description, returns, rfl, rfl⟩
    exact .next rfl (.next rfl (.done (by simp)))

/-- The text of such an array, down to the blanks around its comma. -/
theorem enclosed_pair_iff {text : List Char} {description : String} {returns : List String} :
    Enclosed '[' ']' ContentText text [.text description, .texts returns] ↔
      ∃ left first right left' second right', Spaces left ∧ StringText first description ∧
        Spaces right ∧ Spaces left' ∧ Enclosed '[' ']' StringText second returns ∧ Spaces right' ∧
        text = '[' :: (left ++ (first ++ (right ++ ',' :: (left' ++ (second ++ (right' ++ [']'])))))) := by
  constructor
  · intro h
    cases h with
    | full helements =>
      cases helements with
      | @more left first right _ _ _ hleft hfirst hright hmore =>
        cases hmore with
        | @last left' second right' _ hleft' hsecond hright' =>
          cases hfirst with
          | text hfirst =>
            cases hsecond with
            | texts hsecond =>
              exact ⟨left, first, right, left', second, right', hleft, hfirst, hright, hleft',
                hsecond, hright', by simp⟩
        | more _ _ _ hnone => cases hnone
  · rintro ⟨left, first, right, left', second, right', hleft, hfirst, hright, hleft', hsecond,
      hright', rfl⟩
    have helements : Elements ContentText _ _ :=
      .more hleft (.text hfirst) hright (.last hleft' (.texts hsecond) hright')
    simpa using Enclosed.full helements

/-! ### Reading -/

/-- The grammar of docs is the grammar of records at the layout of docs. -/
theorem recordText_iff {docs : DocsBlock} {text : List Char} :
    docs.RecordText text ↔ ∃ fields, RecordForm layout text fields ∧ ofFields fields = docs := by
  constructor
  · rintro (⟨hobject, hdescribed⟩ | ⟨hleft, hfirst, hright, hleft', hsecond, hright'⟩)
    · obtain ⟨fields, ⟨hfills, hmissing⟩, hfields⟩ := exists_fills_of_describedBy hdescribed
      exact ⟨fields, .object hobject hfills hmissing, hfields⟩
    · have hlist := enclosed_pair_iff.2
        ⟨_, _, _, _, _, _, hleft, hfirst, hright, hleft', hsecond, hright', rfl⟩
      exact ⟨_, .list hlist (positions_iff.2 ⟨_, _, rfl, rfl⟩), rfl⟩
  · rintro ⟨fields, ⟨hobject, hfills, hmissing⟩ | ⟨hlist, hpositions⟩, rfl⟩
    · exact .object hobject (describedBy_of_fills hfills hmissing)
    · obtain ⟨description, returns, rfl, rfl⟩ := positions_iff.1 hpositions
      obtain ⟨left, first, right, left', second, right', hleft, hfirst, hright, hleft', hsecond,
        hright', rfl⟩ := enclosed_pair_iff.1 hlist
      exact .list hleft hfirst hright hleft' hsecond hright'

/-- **A text is read as a block exactly if the block is written so.** -/
theorem ofJson_iff {docs : DocsBlock} {text : List Char} :
    ofJson text = .ok docs ↔ docs.WrittenAs text := by
  rw [ofJson, parse_iff]
  constructor
  · rintro ⟨right, fields, ⟨left, record, hleft, hform, rfl⟩, hright, hfields⟩
    exact ⟨left, record, right, hleft, recordText_iff.2 ⟨fields, hform, hfields⟩, hright, rfl⟩
  · rintro ⟨left, record, right, hleft, hrecord, hright, rfl⟩
    obtain ⟨fields, hform, hfields⟩ := recordText_iff.1 hrecord
    exact ⟨right, fields, ⟨left, record, hleft, hform, rfl⟩, hright, hfields⟩

end ProcBook.Sql.DocsBlock
