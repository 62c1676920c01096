/-
ProcBook/Procedure.lean

The documentation record of a stored procedure, the rule for names that can name a page, and the two
parts of a parameter.
-/
import ProcBook.Text.Blank

namespace ProcBook

/-- What is known about one stored procedure. -/
structure Procedure where
  name : String
  /-- The source text of the procedure, comments included. -/
  body : String := ""
  description : String := ""
  /-- Parameters in the order of their declaration, each as its name and its type. -/
  parameters : List String := []
  returns : List String := []
  /-- Names of the objects that the body refers to, each once, in the order of first occurrence. -/
  references : List String := []
  /-- Free text; records that are read off a source have none. -/
  notes : String := ""
deriving Repr, DecidableEq, Inhabited

/-- Whether a name can be the stem of a page's file inside a directory: it is a single path component
that stays in the directory. -/
def isPageName (name : String) : Bool :=
  name != "" && !name.toList.any (fun c => c == '/' || c == '\\') && name != "." && name != ".."

theorem not_mem_of_isPageName {name : String} (h : isPageName name = true) {c : Char}
    (hc : c ∈ ['/', '\\']) : c ∉ name.toList := by
  simp only [isPageName, Bool.and_eq_true, Bool.not_eq_true', List.any_eq_false] at h
  intro hmem
  have hplain : ¬ (c = '/' ∨ c = '\\') := by simpa using h.1.1.2 c hmem
  exact hplain (by simpa using hc)

/-! ### Parameters -/

/-- A parameter as its name and, if it has one, its type. -/
structure Parameter where
  name : String
  type? : Option String
deriving Repr, DecidableEq

namespace Parameter

/-- The first word of a parameter is its name and all the rest its type, so that a type such as
`DECIMAL(10, 2)` stays whole. -/
def ofString (parameter : String) : Parameter :=
  let text := Text.trim parameter.toList
  let name := text.takeWhile (! Text.isBlank ·)
  match Text.trim (text.dropWhile (! Text.isBlank ·)) with
  | [] => ⟨String.ofList name, none⟩
  | type => ⟨String.ofList name, some (String.ofList type)⟩

end Parameter

end ProcBook
