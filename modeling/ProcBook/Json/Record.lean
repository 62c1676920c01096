/-
ProcBook/Json/Record.lean

Records in a JSON text.  A layout lists the fields of a record, each with its key, perhaps a second
key, and the shape of its content.  A record may be written

* as an object: fields come in any order, each at most once, and unknown keys are passed over;
* as a list: the contents stand in the order of the layout, and fields at the end may be left out.

Either way a required field has to be there.  What was read is a list of keys and contents, in which
`List.lookup` finds a field under its first key.
-/
import ProcBook.Json.Skip

namespace ProcBook.Json

/-- What a field can hold. -/
inductive Shape where
  | text
  | texts
deriving Repr, DecidableEq

/-- What a field holds. -/
inductive Content where
  | text (value : String)
  | texts (values : List String)
deriving Repr, DecidableEq

/-- A field of a record. -/
structure Field where
  key : String
  /-- A second key under which the field may be found. -/
  alias? : Option String := none
  shape : Shape
  required : Bool := false
deriving Repr, DecidableEq

/-- The fields of a record, and what messages call it. -/
structure Layout where
  title : String
  fields : List Field
deriving Repr, DecidableEq

/-- Keys and contents. -/
abbrev Fields := List (String × Content)

namespace Layout

/-- The field that a key names. -/
def field? (layout : Layout) (key : String) : Option Field :=
  layout.fields.find? fun field => key == field.key || some key == field.alias?

/-- The first required field that is not among those found. -/
def missing? (layout : Layout) (found : Fields) : Option String :=
  (layout.fields.find? fun field => field.required && (found.lookup field.key).isNone).map (·.key)

/-- What messages call the list form of a record. -/
def listTitle (layout : Layout) : String :=
  layout.title ++ " with " ++ toString layout.fields.length ++ " elements"

end Layout

/-! ### Contents -/

/-- Reads what `reader` reads and applies `f` to it. -/
def Reader.map {α β : Type} (f : α → β) (reader : Reader α) : Reader β where
  run text := (reader.run text).map fun (a, rest) => (f a, rest)
  shrinks {text b rest} h := by
    cases hr : reader.run text with
    | error fault => simp [hr, Except.map] at h
    | ok p =>
      simp only [hr, Except.map, Except.ok.injEq, Prod.mk.injEq] at h
      rw [← h.2]
      exact reader.shrinks (a := p.1) hr

/-- The reader of contents of a shape. -/
def Shape.reader : Shape → Reader Content
  | text => Reader.text.map .text
  | texts => (Reader.list Reader.text).map .texts

/-! ### Records as lists -/

/-- Reads the closing bracket of a list that has room for no further element. -/
def closeList (text : List Char) : Except Fault (List Char) :=
  match skipSpace text with
  | [] => .error (.here .endInList [])
  | c :: rest =>
    if c == ']' then .ok rest
    else if c == ',' then
      let rest := skipSpace rest
      .error (.next (if rest.head? == some ']' then .trailingComma else .trailingCharacters) rest)
    else .error (.next .trailingCharacters (c :: rest))

/-- The place, counted from `index`, of the first required field. -/
def requiredFrom? (index : Nat) : List Field → Option Nat
  | [] => none
  | field :: fields => if field.required then some index else requiredFrom? (index + 1) fields

/-- Reads the contents of fields in their order and the closing bracket.  `index` contents have been
read before. -/
def readPositions (title : String) (index : Nat) :
    List Field → List Char → Except Fault (Fields × List Char)
  | [], text => (closeList text).map ([], ·)
  | field :: fields, text =>
    match nextElement (index == 0) text with
    | .error fault => .error fault
    | .ok (.closed rest) =>
      match requiredFrom? index (field :: fields) with
      | some missing => .error (.here (.invalidLength missing title) rest)
      | none => .ok ([], rest)
    | .ok (.element rest) =>
      match field.shape.reader.run rest with
      | .error fault => .error fault
      | .ok (content, rest) =>
        (readPositions title (index + 1) fields rest).map fun (found, rest) =>
          ((field.key, content) :: found, rest)

/-! ### Records as objects -/

/-- Finds the next key of an object: the text after its opening quotation mark, or the text after the
closing bracket. -/
def nextKey (first : Bool) (text : List Char) : Except Fault Continuation :=
  match skipSpace text with
  | [] => .error (.here .endInObject [])
  | c :: rest =>
    if c == '\x7d' then .ok (.closed rest)
    else if first then
      if c == '"' then .ok (.element rest) else .error (.next .keyNotString (c :: rest))
    else if c == ',' then
      match skipSpace rest with
      | [] => .error (.here .endInValue [])
      | d :: rest =>
        if d == '"' then .ok (.element rest)
        else if d == '\x7d' then .error (.next .trailingComma (d :: rest))
        else .error (.next .keyNotString (d :: rest))
    else .error (.next .expectedObjectEnd (c :: rest))

/-- Reads the colon after a key and a content of the given shape. -/
def readMember (shape : Shape) (text : List Char) : Except Fault (Content × List Char) :=
  match readColon text with
  | .error fault => .error fault
  | .ok rest => shape.reader.run rest

/-- Passes over the colon after a key and any value. -/
def skipMember (text : List Char) : Except Fault (List Char) :=
  match readColon text with
  | .error fault => .error fault
  | .ok rest => skipValue [] rest

/-- The fault of a key that occurs a second time, where `text` follows the key.  It shows at the next
token, or after it if that token closes the object. -/
def duplicateFault (key : String) (text : List Char) : Fault :=
  .here (.duplicateField key) <|
    match skipSpace text with
    | '\x7d' :: rest => rest
    | other => other

/-! ### Every step takes something -/

theorem length_of_closeList {text rest : List Char} (h : closeList text = .ok rest) :
    rest.length < text.length := by
  unfold closeList at h
  split at h
  · simp at h
  · next c r hr =>
    split at h
    · obtain rfl := Except.ok.inj h
      exact length_of_skipSpace hr
    · split at h <;> simp at h

theorem length_of_nextKey {first : Bool} {text rest : List Char} {next : Continuation}
    (h : nextKey first text = .ok next) (hrest : next = .element rest ∨ next = .closed rest) :
    rest.length < text.length := by
  unfold nextKey at h
  split at h
  · simp at h
  · next c r hr =>
    have h₀ := length_of_skipSpace hr
    split at h
    · obtain rfl := Except.ok.inj h
      simp_all
    split at h
    · split at h
      · obtain rfl := Except.ok.inj h
        simp_all
      · simp at h
    split at h
    · split at h
      · simp at h
      · next d r' hr' =>
        have h₁ := length_of_skipSpace hr'
        split at h
        · obtain rfl := Except.ok.inj h
          simp only [Continuation.element.injEq, reduceCtorEq, or_false] at hrest
          rw [← hrest]
          omega
        · split at h <;> simp at h
    · simp at h

theorem length_of_readMember {shape : Shape} {text rest : List Char} {content : Content}
    (h : readMember shape text = .ok (content, rest)) : rest.length < text.length := by
  unfold readMember at h
  split at h
  · simp at h
  · next r hr => exact Nat.lt_trans (shape.reader.shrinks h) (length_of_readColon hr)

theorem length_of_skipMember {text rest : List Char} (h : skipMember text = .ok rest) :
    rest.length < text.length := by
  unfold skipMember at h
  split at h
  · simp at h
  · next r hr => exact Nat.lt_trans (length_of_skipValue h) (length_of_readColon hr)

/-- Reads the members of an object and its closing bracket.  `found` holds the fields read so far. -/
def readMembers (layout : Layout) (found : Fields) (first : Bool) (text : List Char) :
    Except Fault (Fields × List Char) :=
  match h : nextKey first text with
  | .error fault => .error fault
  | .ok (.closed rest) =>
    match layout.missing? found with
    | some key => .error (.here (.missingField key) rest)
    | none => .ok (found, rest)
  | .ok (.element rest) =>
    have := length_of_nextKey h (.inl rfl)
    match h₁ : readString rest with
    | .error fault => .error fault
    | .ok (key, rest₁) =>
      have := length_of_readString h₁
      match layout.field? (String.ofList key) with
      | none =>
        match h₂ : skipMember rest₁ with
        | .error fault => .error fault
        | .ok rest₂ =>
          have := length_of_skipMember h₂
          readMembers layout found false rest₂
      | some field =>
        if (found.lookup field.key).isSome then .error (duplicateFault field.key rest₁)
        else
          match h₂ : readMember field.shape rest₁ with
          | .error fault => .error fault
          | .ok (content, rest₂) =>
            have := length_of_readMember h₂
            readMembers layout ((field.key, content) :: found) false rest₂
termination_by text.length
decreasing_by all_goals omega

theorem length_of_readMembers {layout : Layout} {found fields : Fields} {first : Bool}
    {text rest : List Char} (h : readMembers layout found first text = .ok (fields, rest)) :
    rest.length < text.length := by
  fun_induction readMembers layout found first text with
  | case3 found first text r hn _ =>
    obtain ⟨-, rfl⟩ := Prod.mk.inj (Except.ok.inj h)
    exact length_of_nextKey hn (.inr rfl)
  | case6 =>
    rename_i ih
    have := ih h
    omega
  | case9 =>
    rename_i ih
    have := ih h
    omega
  | case1 | case2 | case4 | case5 | case7 | case8 => simp at h

theorem length_of_readPositions {title : String} {index : Nat} {fields : List Field}
    {found : Fields} {text rest : List Char}
    (h : readPositions title index fields text = .ok (found, rest)) :
    rest.length < text.length := by
  induction fields generalizing index text found rest with
  | nil =>
    cases hc : closeList text with
    | error fault => simp [readPositions, hc, Except.map] at h
    | ok r =>
      simp only [readPositions, hc, Except.map, Except.ok.injEq, Prod.mk.injEq] at h
      rw [← h.2]
      exact length_of_closeList hc
  | cons field fields ih =>
    rw [readPositions] at h
    split at h
    · simp at h
    · next r hn =>
      split at h
      · simp at h
      · obtain ⟨-, rfl⟩ := Prod.mk.inj (Except.ok.inj h)
        exact length_of_nextElement.2 hn
    · next r hn =>
      split at h
      · simp at h
      · next content r' hr =>
        cases hp : readPositions title (index + 1) fields r' with
        | error fault => simp [hp, Except.map] at h
        | ok p =>
          simp only [hp, Except.map, Except.ok.injEq, Prod.mk.injEq] at h
          have h₁ := length_of_nextElement.1 hn
          have h₂ := field.shape.reader.shrinks hr
          have h₃ := @ih (index + 1) p.1 r' p.2 hp
          rw [← h.2]
          omega

/-! ### Records -/

namespace Layout

/-- Reads a record in either form. -/
def read (layout : Layout) (text : List Char) : Except Fault (Fields × List Char) :=
  match skipSpace text with
  | '[' :: rest => readPositions layout.listTitle 0 layout.fields rest
  | '\x7b' :: rest => readMembers layout [] true rest
  | other => .error (mismatch layout.title other)

/-- The reader of records. -/
def reader (layout : Layout) : Reader Fields where
  run := layout.read
  shrinks {text fields rest} h := by
    unfold Layout.read at h
    split at h
    · next r hr => exact Nat.lt_trans (length_of_readPositions h) (length_of_skipSpace hr)
    · next r hr => exact Nat.lt_trans (length_of_readMembers h) (length_of_skipSpace hr)
    · simp at h

end Layout

/-! ### Looking contents up -/

namespace Fields

/-- The text under a key; a field that is missing is empty. -/
def text (fields : Fields) (key : String) : String :=
  match fields.lookup key with
  | some (.text value) => value
  | _ => ""

/-- The list of texts under a key; a field that is missing is empty. -/
def texts (fields : Fields) (key : String) : List String :=
  match fields.lookup key with
  | some (.texts values) => values
  | _ => []

end Fields

end ProcBook.Json
