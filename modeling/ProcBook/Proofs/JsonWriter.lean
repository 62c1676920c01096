/-
ProcBook/Proofs/JsonWriter.lean

What the writer writes is a JSON text for what was written, and so it is read back.

The argument goes through the grammar and never opens a reader: `spells_escapeChar` for one character,
`elements_intercalate` for the lines of a list or of an object, and from there up to
`recordText_renderFields` for a record.  `ofJson_toJson` and `catalogOfJson_intercalate` put the writer
and the readers of procedures together.
-/
import ProcBook.Procedure.Record
import ProcBook.Proofs.JsonMembers

namespace ProcBook.Json

/-! ### Strings -/

theorem hexDigit?_hexChar : ∀ n < 16, Text.hexDigit? (hexChar n) = some n := by
  decide

/-- A control character is escaped by its number. -/
theorem hex4_control {c : Char} (hc : c < ' ') :
    Hex4 ['0', '0', hexChar (c.toNat / 16), hexChar (c.toNat % 16)] c.toNat := by
  have hlt : c.toNat < 32 := hc
  have hvalue : ((0 * 16 + 0) * 16 + c.toNat / 16) * 16 + c.toNat % 16 = c.toNat := by omega
  have hex := Hex4.mk (a := '0') (b := '0') (i := 0) (j := 0) rfl rfl
    (hexDigit?_hexChar (c.toNat / 16) (by omega)) (hexDigit?_hexChar (c.toNat % 16) (by omega))
  rwa [hvalue] at hex

/-- The writer escapes a character to something that spells it. -/
theorem spells_escapeChar (c : Char) {written value : List Char} (h : Spells written value) :
    Spells (escapeChar c ++ written) (c :: value) := by
  unfold escapeChar
  split
  -- The characters with a letter of their own come first.
  · exact .escape rfl h
  · exact .escape rfl h
  · exact .escape rfl h
  · exact .escape rfl h
  · exact .escape rfl h
  · exact .escape rfl h
  · exact .escape rfl h
  · next hquote hbackslash _ _ _ _ _ =>
    split
    · -- A control character is no half of a pair.
      next hc =>
      have hlt : c.toNat < 32 := hc
      have hunit := Spells.unit (hex4_control hc) (by simp [isTrailing]; omega)
        (by simp [isLeading]; omega) h
      rwa [Char.ofNat_toNat] at hunit
    · next hc => exact .plain hquote hbackslash hc h

theorem spells_flatMap (value : List Char) : Spells (value.flatMap escapeChar) value := by
  induction value with
  | nil => exact .nil
  | cons c value ih =>
    rw [List.flatMap_cons]
    exact spells_escapeChar c ih

/-- A quoted text is a string of the grammar. -/
theorem stringText_quote (value : String) : StringText (quote value).toList value := by
  have h := StringText.mk (spells_flatMap value.toList)
  rw [String.ofList_toList] at h
  simpa [quote] using h

/-! ### Lines -/

/-- A text of an element with blanks around it. -/
def Padded {α : Type} (item : List Char → α → Prop) (written : List Char) (a : α) : Prop :=
  ∃ left text right, written = left ++ (text ++ right) ∧ Spaces left ∧ Spaces right ∧ item text a

theorem padded_of_item {α : Type} {item : List Char → α → Prop} {text : List Char} {a : α}
    (h : item text a) : Padded item text a :=
  ⟨[], text, [], by simp, spaces_nil, spaces_nil, h⟩

/-- Elements with a comma and some blanks between them. -/
theorem elements_intercalate {α : Type} {item : List Char → α → Prop} (render : α → List Char)
    {gap post : List Char} (hgap : Spaces gap) (hpost : Spaces post) {as : List α} (hne : as ≠ [])
    (h : ∀ a ∈ as, Padded item (render a) a) :
    Elements item (gap ++ ((',' :: gap).intercalate (as.map render) ++ post)) as := by
  induction as with
  | nil => exact absurd rfl hne
  | cons a as ih =>
    obtain ⟨left, text, right, hrender, hleft, hright, hitem⟩ := h a List.mem_cons_self
    have hspaces := spaces_append hgap hleft
    cases as with
    | nil =>
      rw [List.map_cons, List.map_nil, List.intercalate_singleton, hrender]
      have := Elements.last hspaces hitem (spaces_append hright hpost)
      simpa only [List.append_assoc] using this
    | cons b as =>
      have hrest := ih (by simp) (fun c hc => h c (List.mem_cons_of_mem _ hc))
      -- The gap behind a comma belongs to the elements that follow.
      rw [List.map_cons, List.map_cons, List.intercalate_cons_cons, ← List.map_cons, hrender]
      have := Elements.more hspaces hitem hright hrest
      simpa only [List.append_assoc, List.cons_append] using this

/-- Contents are written as texts of the grammar. -/
theorem contentText_render (content : Content) : ContentText content.render.toList content := by
  cases content with
  | text value => exact .text (stringText_quote value)
  | texts values =>
    cases values with
    | nil => exact .texts (.empty spaces_nil)
    | cons value values =>
      have hgap : Spaces "\n    ".toList := by decide
      have hpost : Spaces "\n  ".toList := by decide
      have helems := elements_intercalate (fun v => (quote v).toList) hgap hpost
        (List.cons_ne_nil value values)
        (fun v _ => padded_of_item (stringText_quote v))
      have htext : (Content.render (.texts (value :: values))).toList =
          '[' :: ("\n    ".toList ++ ((',' :: "\n    ".toList).intercalate
            ((value :: values).map fun v => (quote v).toList) ++ "\n  ".toList) ++ [']']) := by
        rw [Content.render]
        · simp [Function.comp_def]
        · simp
      rw [htext]
      exact .texts (.full helems)

/-- A field is written as a member that the layout knows. -/
theorem memberText_renderField {layout : Layout} {member : String × Content} {field : Field}
    (hfield : layout.field? member.1 = some field) (hkey : field.key = member.1)
    (hshape : member.2.shape = field.shape) :
    Padded (MemberText layout) (renderField member).toList member := by
  have hgap : Spaces [' '] := by decide
  have htext := MemberText.mk (stringText_quote member.1) hfield hshape spaces_nil hgap
    (contentText_render member.2)
  rw [hkey] at htext
  have hindent : Spaces [' ', ' '] := by decide
  have hline : (renderField member).toList = [' ', ' '] ++
      ((quote member.1).toList ++ ([] ++ ':' :: ([' '] ++ member.2.render.toList)) ++ []) := by
    simp [renderField]
  exact ⟨_, _, _, hline, hindent, spaces_nil, htext⟩

/-- A layout knows a field under its own key, and the content has the field's shape. -/
def Layout.Covers (layout : Layout) (fields : Fields) : Prop :=
  ∀ member ∈ fields, ∃ field, layout.field? member.1 = some field ∧ field.key = member.1 ∧
    member.2.shape = field.shape

/-- What is written for a record is a text of the record. -/
theorem recordText_renderFields {layout : Layout} {fields : Fields} (hne : fields ≠ [])
    (h : layout.Covers fields) : RecordText layout (renderFields fields).toList fields := by
  have hgap : Spaces ['\n'] := by decide
  have helems := elements_intercalate (fun member => (renderField member).toList) hgap hgap hne
    (fun member hmember => by
      obtain ⟨field, hfield, hkey, hshape⟩ := h member hmember
      exact memberText_renderField hfield hkey hshape)
  have htext : (renderFields fields).toList =
      '\x7b' :: (['\n'] ++ ((',' :: ['\n']).intercalate
        (fields.map fun member => (renderField member).toList) ++ ['\n']) ++ ['\x7d']) := by
    simp [renderFields, Function.comp_def]
  rw [htext]
  exact .full helems

end ProcBook.Json

namespace ProcBook.Procedure

open Json

/-- What is written for a procedure describes it. -/
theorem describes_toJson (procedure : Procedure) :
    Describes layout ofFields procedure.toJson.toList procedure := by
  have hcovers : layout.Covers procedure.toFields := by
    intro member hmember
    simp only [toFields, List.mem_cons, List.not_mem_nil, or_false] at hmember
    rcases hmember with rfl | rfl | rfl | rfl | rfl | rfl | rfl <;> exact ⟨_, rfl, rfl, rfl⟩
  have hnodup : (procedure.toFields.map Prod.fst).Nodup := by
    simp [toFields]
  exact ⟨_, recordText_renderFields (List.cons_ne_nil _ _) hcovers, hnodup, rfl, rfl⟩

/-- **A procedure that was written is read back**, whatever blanks follow it. -/
theorem ofJson_toJson (procedure : Procedure) (post : String) (hpost : Spaces post.toList) :
    ofJson (procedure.toJson ++ post) = .ok procedure := by
  rw [ofJson, String.toList_append]
  exact (reads_record layout ofFields).parse procedure.describes_toJson hpost

/-- **Procedures that were written are read back as a list**, whatever blanks follow each of them. -/
theorem catalogOfJson_intercalate (procedures : List Procedure) (post : String)
    (hpost : Spaces post.toList) :
    catalogOfJson ("[" ++ ",".intercalate (procedures.map fun procedure =>
      procedure.toJson ++ post) ++ "]") = .ok procedures := by
  have htext : ("[" ++ ",".intercalate (procedures.map fun procedure =>
      procedure.toJson ++ post) ++ "]").toList =
        '[' :: ([','].intercalate (procedures.map fun procedure =>
          (procedure.toJson ++ post).toList) ++ [']']) := by
    simp [Function.comp_def]
  have hlist : Enclosed '[' ']' (Describes layout ofFields)
      ('[' :: ([','].intercalate (procedures.map fun procedure =>
        (procedure.toJson ++ post).toList) ++ [']'])) procedures := by
    cases procedures with
    | nil => exact .empty spaces_nil
    | cons procedure procedures =>
      have helems := elements_intercalate (fun procedure => (procedure.toJson ++ post).toList)
        spaces_nil spaces_nil (List.cons_ne_nil procedure procedures)
        (fun other _ => ⟨[], other.toJson.toList, post.toList, by simp, spaces_nil, hpost,
          other.describes_toJson⟩)
      rw [List.nil_append, List.append_nil] at helems
      exact .full helems
  rw [catalogOfJson, htext, ← List.append_nil (_ :: _)]
  exact (reads_record layout ofFields).list.parse hlist spaces_nil

end ProcBook.Procedure
