/-
ProcBook/Proofs/RecordKeys.lean

Procedures from objects, whatever the order and the spelling of their keys.

`fieldOf?` lists the keys of a record, two for each field.  A procedure is `DescribedBy` the members of an
object if no field is named twice, the name is named, every member that names a field writes what the
procedure has there, and what is not named is empty.  Nothing is asked of other members, and nothing of
the order.  `ofJson_members` says that an object is read as exactly the procedures that its members
describe, alone or in a catalog.
-/
import ProcBook.Proofs.JsonWriter

namespace ProcBook.Procedure

open Json

/-! ### Members that describe a procedure -/

/-- The field that a key names, by either of its spellings. -/
def fieldOf? : String → Option String
  | "name" | "Name" => some "name"
  | "body" | "Body" => some "body"
  | "description" | "Desc" => some "description"
  | "parameters" | "Params" => some "parameters"
  | "returns" | "Returns" => some "returns"
  | "references" | "Refs" => some "references"
  | "meta" | "Meta" => some "meta"
  | _ => none

/-- The fields that the members of an object name, as often as they name them. -/
def named (members : Members) : List String :=
  members.filterMap fun member => fieldOf? member.1

/-- Members, in any order and with others among them, that say what a procedure is. -/
structure DescribedBy (procedure : Procedure) (members : Members) : Prop where
  /-- No field is named twice, under whichever spelling. -/
  nodup : (named members).Nodup
  /-- The name is there. -/
  name : "name" ∈ named members
  /-- A member that names a field writes what the procedure has there. -/
  content : ∀ member ∈ members, ∀ key, fieldOf? member.1 = some key →
    ∃ content, procedure.toFields.lookup key = some content ∧ ContentText member.2 content
  /-- A field that no member names is empty. -/
  empty : ∀ key content, procedure.toFields.lookup key = some content → key ∉ named members →
    content = .text "" ∨ content = .texts []

/-! ### The layout of procedures -/

theorem map_key_field? (key : String) : (layout.field? key).map (·.key) = fieldOf? key := by
  unfold fieldOf?
  split
  -- A key that is none of the fourteen.
  case h_15 => simp_all [Layout.field?, layout]
  all_goals rfl

/-- Which members name a field of a record. -/
theorem named_eq (members : Members) : layout.named members = named members := by
  unfold Layout.named named
  simp only [map_key_field?]

theorem map_fst_of_fills {members : Members} {fields : Fields} (h : Fills layout [] members fields) :
    fields.map Prod.fst = (named members).reverse := by
  rw [h.keys, named_eq, List.map_nil, List.append_nil]

/-- Only the name is required. -/
theorem missing?_eq_none_iff (fields : Fields) :
    layout.missing? fields = none ↔ "name" ∈ fields.map Prod.fst := by
  simp [Layout.missing?_eq_none_iff, layout]

/-- What a procedure has in a field is of the field's shape. -/
theorem shape_of_lookup_toFields {procedure : Procedure} {key : String} {field : Field} {content : Content}
    (hfield : layout.field? key = some field)
    (h : procedure.toFields.lookup field.key = some content) : content.shape = field.shape := by
  have hmem : field ∈ layout.fields := List.mem_of_find?_eq_some hfield
  simp only [layout, List.mem_cons, List.not_mem_nil, or_false] at hmem
  rcases hmem with rfl | rfl | rfl | rfl | rfl | rfl | rfl
  all_goals
    cases h
    rfl

/-- A content that was read is what the procedure has. -/
theorem lookup_toFields_ofFields {fields : Fields} {key : String} {field : Field} {content : Content}
    (hfield : layout.field? key = some field) (h : fields.lookup field.key = some content)
    (hshape : content.shape = field.shape) :
    (ofFields fields).toFields.lookup field.key = some content := by
  have hmem : field ∈ layout.fields := List.mem_of_find?_eq_some hfield
  simp only [layout, List.mem_cons, List.not_mem_nil, or_false] at hmem
  rcases hmem with rfl | rfl | rfl | rfl | rfl | rfl | rfl
  all_goals
    cases content <;> simp_all [Content.shape, toFields, ofFields, Fields.text, Fields.texts,
      List.lookup_cons]

/-- What was not read is empty. -/
theorem empty_of_lookup_eq_none {fields : Fields} {key : String} {content : Content}
    (h : (ofFields fields).toFields.lookup key = some content) (hnone : fields.lookup key = none) :
    content = .text "" ∨ content = .texts [] := by
  have hmem : (key, content) ∈ (ofFields fields).toFields := by
    obtain ⟨front, back, heq, -⟩ := List.lookup_eq_some_iff.1 h
    rw [heq]
    exact List.mem_append_right front List.mem_cons_self
  simp only [toFields, ofFields, List.mem_cons, List.not_mem_nil, or_false, Prod.mk.injEq] at hmem
  rcases hmem with ⟨rfl, rfl⟩ | ⟨rfl, rfl⟩ | ⟨rfl, rfl⟩ | ⟨rfl, rfl⟩ | ⟨rfl, rfl⟩ | ⟨rfl, rfl⟩ |
    ⟨rfl, rfl⟩
  all_goals simp [Fields.text, Fields.texts, hnone]

theorem text_of_lookup {fields : Fields} {key value : String}
    (h : fields.lookup key = some (.text value) ∨ fields.lookup key = none ∧ value = "") :
    fields.text key = value := by
  rcases h with h | ⟨h, rfl⟩
  · simp only [Fields.text, h]
  · simp only [Fields.text, h]

theorem texts_of_lookup {fields : Fields} {key : String} {values : List String}
    (h : fields.lookup key = some (.texts values) ∨ fields.lookup key = none ∧ values = []) :
    fields.texts key = values := by
  rcases h with h | ⟨h, rfl⟩
  · simp only [Fields.texts, h]
  · simp only [Fields.texts, h]

/-! ### Reading -/

/-- What the reader collects from an object describes the record. -/
theorem describedBy_of_fills {members : Members} {fields : Fields}
    (h : Fills layout [] members fields) (hmissing : layout.missing? fields = none) :
    (ofFields fields).DescribedBy members := by
  have hkeys := map_fst_of_fills h
  have hnodup : (fields.map Prod.fst).Nodup := h.nodup List.nodup_nil
  have hname : "name" ∈ fields.map Prod.fst := (missing?_eq_none_iff fields).1 hmissing
  rw [hkeys] at hnodup hname
  refine ⟨List.nodup_reverse.1 hnodup, List.mem_reverse.1 hname, ?_, ?_⟩
  · intro member hmember key hkey
    rw [← map_key_field?] at hkey
    obtain ⟨field, hfield, rfl⟩ := Option.map_eq_some_iff.1 hkey
    obtain ⟨content, hlookup, hcontent, hshape⟩ := h.content hmember hfield
    exact ⟨content, lookup_toFields_ofFields hfield hlookup hshape, hcontent⟩
  · intro key content hlookup hnot
    apply empty_of_lookup_eq_none hlookup
    rw [lookup_eq_none_iff_not_mem, hkeys]
    exact fun hmem => hnot (List.mem_reverse.1 hmem)

/-- A procedure is made from any fields that hold what it has, save what is empty. -/
theorem ofFields_eq {procedure : Procedure} {fields : Fields}
    (h : ∀ key content, procedure.toFields.lookup key = some content →
      fields.lookup key = some content ∨
        fields.lookup key = none ∧ (content = .text "" ∨ content = .texts [])) :
    ofFields fields = procedure := by
  have htext : ∀ key value, procedure.toFields.lookup key = some (.text value) →
      fields.text key = value := by
    intro key value hlookup
    apply text_of_lookup
    simpa using h key _ hlookup
  have htexts : ∀ key values, procedure.toFields.lookup key = some (.texts values) →
      fields.texts key = values := by
    intro key values hlookup
    apply texts_of_lookup
    simpa using h key _ hlookup
  rw [ofFields, htext "name" procedure.name rfl, htext "body" procedure.body rfl,
    htext "description" procedure.description rfl, htexts "parameters" procedure.parameters rfl,
    htexts "returns" procedure.returns rfl, htexts "references" procedure.references rfl,
    htext "meta" procedure.notes rfl]

/-- Members that describe a record are collected, in whatever order they stand. -/
theorem exists_fills_of_describedBy {members : Members} {procedure : Procedure}
    (h : procedure.DescribedBy members) :
    ∃ fields, (Fills layout [] members fields ∧ layout.missing? fields = none) ∧
      ofFields fields = procedure := by
  -- Each member with the name of a field holds what the record has there.
  have hcontent : ∀ member ∈ members, ∀ field, layout.field? member.1 = some field →
      ∃ content, procedure.toFields.lookup field.key = some content ∧
        ContentText member.2 content ∧ content.shape = field.shape := by
    intro member hmember field hfield
    have hkey : fieldOf? member.1 = some field.key := by
      rw [← map_key_field?, hfield]
      rfl
    obtain ⟨content, hlookup, htext⟩ := h.content member hmember field.key hkey
    exact ⟨content, hlookup, htext, shape_of_lookup_toFields hfield hlookup⟩
  have hnodup : (layout.named members).Nodup := by
    rw [named_eq]
    exact h.nodup
  obtain ⟨fields, hfills, hagree⟩ :=
    exists_fills hcontent hnodup [] (fun _ _ hnil => nomatch hnil) (fun _ _ => rfl)
  have hkeys := map_fst_of_fills hfills
  refine ⟨fields, ⟨hfills, ?_⟩, ofFields_eq ?_⟩
  · rw [missing?_eq_none_iff, hkeys, List.mem_reverse]
    exact h.name
  · intro key content hlookup
    cases hfield : fields.lookup key with
    | some content' =>
      have hsame := hagree key content' hfield
      rw [hlookup] at hsame
      exact .inl hsame.symm
    | none =>
      rw [lookup_eq_none_iff_not_mem, hkeys, List.mem_reverse] at hfield
      exact .inr ⟨rfl, h.empty key content hlookup hfield⟩

/-- An object is read as a procedure exactly if its members describe it. -/
theorem decides_procedure :
    Decides reader ObjectText fun members procedure => procedure.DescribedBy members := by
  have hobject := (decides_object layout).map ofFields
  have hiff : ∀ members procedure, (∃ fields, (Fills layout [] members fields ∧
      layout.missing? fields = none) ∧ ofFields fields = procedure) ↔
        procedure.DescribedBy members := by
    intro members procedure
    constructor
    · rintro ⟨fields, ⟨hfills, hmissing⟩, rfl⟩
      exact describedBy_of_fills hfills hmissing
    · exact exists_fills_of_describedBy
  simp only [hiff] at hobject
  exact hobject

/-- **A record is what its members say, whatever their order and spelling.**  An object is read as a
procedure exactly if its members describe it, with any others among them.  If they name a field twice,
nothing is read.  The same goes for the objects of a catalog. -/
theorem ofJson_members :
    (∀ {left text right : List Char} {members : Members},
      Spaces left → ObjectText text members → Spaces right →
      (∀ procedure, ofJson (String.ofList (left ++ (text ++ right))) = .ok procedure ↔
        procedure.DescribedBy members) ∧
      (¬ (named members).Nodup →
        ∃ error, ofJson (String.ofList (left ++ (text ++ right))) = .error error)) ∧
    ∀ {left text right : List Char} {objects : List Members},
      Spaces left → Enclosed '[' ']' ObjectText text objects → Spaces right →
      (∀ procedures, catalogOfJson (String.ofList (left ++ (text ++ right))) = .ok procedures ↔
        List.Forall₂ (fun members procedure => procedure.DescribedBy members) objects procedures) ∧
      ((∃ members ∈ objects, ¬ (named members).Nodup) →
        ∃ error, catalogOfJson (String.ofList (left ++ (text ++ right))) = .error error) := by
  simp only [ofJson, catalogOfJson, String.toList_ofList]
  constructor
  · intro left text right members hleft hobject hright
    refine ⟨decides_procedure.parse_iff hobject hleft hright, ?_⟩
    intro hrepeated
    apply decides_procedure.parse_eq_error hobject hleft hright
    intro procedure hdescribed
    exact hrepeated hdescribed.nodup
  · intro left text right objects hleft hlist hright
    refine ⟨decides_procedure.list.parse_iff hlist hleft hright, ?_⟩
    rintro ⟨members, hmembers, hrepeated⟩
    apply decides_procedure.list.parse_eq_error hlist hleft hright
    intro procedures hall
    have hnodup : List.Forall₂ (fun members procedure => (named members).Nodup ∧
        DescribedBy procedure members) objects procedures :=
      hall.imp fun members procedure h => ⟨h.nodup, h⟩
    exact hrepeated (((List.forall₂_and_left _ _).1 hnodup).1 members hmembers)

/-- An object with a blank around each member. -/
def renderMembers (members : Members) : List Char :=
  '\x7b' :: ([' '] ++ ([',', ' '].intercalate (members.map fun member =>
    (quote member.1).toList ++ ([] ++ ':' :: ([' '] ++ member.2))) ++ [' ']) ++ ['\x7d'])

/-- Members written one after the other are the text of an object. -/
theorem objectText_renderMembers {members : Members} (hne : members ≠ [])
    (h : ∀ member ∈ members, ValueText member.2) : ObjectText (renderMembers members) members := by
  have hgap : Spaces [' '] := by decide
  refine .full (elements_intercalate _ hgap hgap hne fun member hmember => padded_of_item ?_)
  exact .mk (stringText_quote member.1) spaces_nil hgap (h member hmember)

/-- A record with an unknown key in front, two second keys, and most fields left out. -/
def shuffledMembers : Members := [
  ("version", "\x7b\"parts\":[12,null]\x7d".toList),
  ("Desc", (Content.text "Totals").render.toList),
  ("Refs", (Content.texts []).render.toList),
  ("name", (Content.text "Orders").render.toList)]

def shuffledText : String :=
  "\x7b \"version\": \x7b\"parts\":[12,null]\x7d, \"Desc\": \"Totals\", " ++
    "\"Refs\": [], \"name\": \"Orders\" \x7d"

def shuffledProcedure : Procedure := ⟨"Orders", "", "Totals", [], [], [], ""⟩

theorem valueText_shuffledMembers : ∀ member ∈ shuffledMembers, ValueText member.2 := by
  have htwelve : NumberText ([] ++ (['1', '2'] ++ ([] ++ []))) :=
    .mk (by decide) ⟨⟨List.cons_ne_nil _ _, List.all_eq_true.1 rfl⟩, by decide⟩ .none .none
  have hnull : PlainText "null".toList := .word (by decide)
  have hlist : EntriesText .list (['1', '2'] ++ ',' :: "null".toList) :=
    .more spaces_nil .list spaces_nil (.plain (.number htwelve)) spaces_nil
      (.last spaces_nil .list spaces_nil (.plain hnull) spaces_nil)
  have hlabel : LabelText .object _ :=
    .object (passable_of_spells (spells_flatMap "parts".toList)) spaces_nil
  have hobject := ValueText.full .object
    (.last spaces_nil hlabel spaces_nil (.full .list hlist) spaces_nil)
  intro member hmember
  simp only [shuffledMembers, List.mem_cons, List.not_mem_nil, or_false] at hmember
  rcases hmember with rfl | rfl | rfl | rfl
  · exact hobject
  all_goals exact valueText_of_contentText (contentText_render _)

theorem describedBy_shuffledMembers : shuffledProcedure.DescribedBy shuffledMembers where
  nodup := by decide
  name := by decide
  content := by
    intro member hmember key hkey
    simp only [shuffledMembers, List.mem_cons, List.not_mem_nil, or_false] at hmember
    rcases hmember with rfl | rfl | rfl | rfl
    · cases hkey
    all_goals
      cases hkey
      exact ⟨_, rfl, contentText_render _⟩
  empty := by
    intro key content hlookup hnot
    have hfields : shuffledProcedure =
        ofFields [("name", .text "Orders"), ("description", .text "Totals")] := rfl
    have hnamed : ["name", "description"] ⊆ named shuffledMembers := by decide
    rw [hfields] at hlookup
    apply empty_of_lookup_eq_none hlookup
    rw [lookup_eq_none_iff_not_mem]
    exact fun hmem => hnot (hnamed hmem)

/-- A record that gives its name twice, under both of its keys. -/
def repeatedMembers : Members := [
  ("name", (Content.text "Orders").render.toList),
  ("Name", (Content.text "Orders").render.toList)]

/-- Members out of order, with unknown ones and gaps between them, alone and in a list; and an object
that names a field twice. -/
theorem ofJson_members_shuffledMembers :
    ofJson shuffledText = .ok shuffledProcedure ∧
    catalogOfJson ("[" ++ shuffledText ++ "]") = .ok [shuffledProcedure] ∧
    ∃ error, ofJson "\x7b \"name\": \"Orders\", \"Name\": \"Orders\" \x7d" = .error error := by
  have hshuffled := objectText_renderMembers (List.cons_ne_nil _ _) valueText_shuffledMembers
  refine ⟨?_, ?_, ?_⟩
  · have htext : String.ofList ([] ++ (renderMembers shuffledMembers ++ [])) = shuffledText := by
      decide +kernel
    rw [← htext]
    exact ((ofJson_members.1 spaces_nil hshuffled spaces_nil).1 _).2 describedBy_shuffledMembers
  · have hlist : Enclosed '[' ']' ObjectText _ [shuffledMembers] :=
      .full (.last spaces_nil hshuffled spaces_nil)
    have htext : String.ofList
        ([] ++ ('[' :: ([] ++ (renderMembers shuffledMembers ++ []) ++ [']']) ++ [])) =
        "[" ++ shuffledText ++ "]" := by decide +kernel
    rw [← htext]
    exact ((ofJson_members.2 spaces_nil hlist spaces_nil).1 _).2
      (.cons describedBy_shuffledMembers .nil)
  · have htext : String.ofList ([] ++ (renderMembers repeatedMembers ++ [])) =
        "\x7b \"name\": \"Orders\", \"Name\": \"Orders\" \x7d" := by decide +kernel
    have hvalue : ∀ member ∈ repeatedMembers, ValueText member.2 := by
      simpa [repeatedMembers] using valueText_of_contentText (contentText_render (.text "Orders"))
    have hrepeated := objectText_renderMembers (List.cons_ne_nil _ _) hvalue
    rw [← htext]
    exact (ofJson_members.1 spaces_nil hrepeated spaces_nil).2 (by decide)

end ProcBook.Procedure
