/-
ProcBook/Sql/Header.lean

The header of a procedure: its name and its parameters, between the keyword `PROCEDURE` and the first
`AS` after it.

`HeaderCut.ofText` cuts a text at the two keywords and `HeaderCut.header` reads the region between
them.  Up to its first `@` the region holds the name, from there on the parameters.  A text without any
`@` is refused, but one that has its first `@` in the body belongs to a procedure without parameters.
-/
import ProcBook.Procedure
import ProcBook.Sql.Fault
import ProcBook.Sql.Parameters
import ProcBook.Text.Cut
import ProcBook.Text.Phrase

namespace ProcBook.Sql

open Text (Phrase)

/-- The keyword before the name. -/
def procedureKeyword : Phrase := [['p', 'r', 'o', 'c', 'e', 'd', 'u', 'r', 'e']]

/-- The keyword before the body. -/
def bodyKeyword : Phrase := [['a', 's']]

/-! ### Cutting a text at its keywords -/

/-- A text cut at its keywords.  The lead ends with the first keyword and the body starts with the
second. -/
structure HeaderCut where
  lead : List Char
  region : List Char
  body : List Char
deriving Repr, DecidableEq

/-- Cuts a text at its keywords.  The first marker that is missing decides the fault. -/
def HeaderCut.ofText (text : List Char) : Except Fault HeaderCut :=
  match Text.find? procedureKeyword none text with
  | none => .error (.missingMarker .procedure)
  | some keyword =>
    -- The sign may stand anywhere, also before the keyword or in a comment.
    if !text.contains '@' then .error (.missingMarker .atSign)
    else
      match Text.find? bodyKeyword keyword.matched.getLast? keyword.after with
      | none => .error (.missingMarker .body)
      | some body =>
        .ok ⟨keyword.before ++ keyword.matched, body.before, body.matched ++ body.after⟩

/-! ### The name -/

/-- Whether a character belongs to a part of a qualified name that is written without brackets. -/
def isBare (c : Char) : Bool := c != '.' && c != '[' && c != ']'

/-- The parts of a qualified name, each without its brackets.  A bracket that is never closed and dots
are passed over. -/
def nameParts (text : List Char) : List (List Char) :=
  match text with
  | [] => []
  | c :: rest =>
    if c == '[' then
      match h : rest.dropWhile (· != ']') with
      | [] => nameParts rest
      | _ :: after =>
        have := Text.length_of_dropWhile h
        rest.takeWhile (· != ']') :: nameParts after
    else if isBare c then
      have := Text.length_dropWhile_le isBare rest
      (c :: rest.takeWhile isBare) :: nameParts (rest.dropWhile isBare)
    else nameParts rest
termination_by text.length
decreasing_by all_goals simp only [List.length_cons]; omega

/-- The last part of a qualified name, trimmed. -/
def unqualify (text : List Char) : List Char := Text.trim ((nameParts text).getLast?.getD [])

/-- The text without the opening parentheses at its end. -/
def dropOpenings (text : List Char) : List Char := (text.reverse.dropWhile (· == '(')).reverse

/-! ### The header -/

/-- The name and the parameters of a procedure, and the byte offset of the keyword before its body. -/
structure Header where
  name : String
  parameters : List String
  bodyStart : Nat
deriving Repr, DecidableEq

namespace HeaderCut

/-- The region up to the first parameter, trimmed. -/
def namePart (cut : HeaderCut) : List Char := Text.trim (cut.region.takeWhile (· != '@'))

/-- The region from the first parameter on. -/
def parameterPart (cut : HeaderCut) : List Char := cut.region.dropWhile (· != '@')

/-- The name of the procedure, which may be empty. -/
def name (cut : HeaderCut) : String :=
  String.ofList (unqualify (Text.trimEnd (dropOpenings cut.namePart)))

/-- The parameters of the procedure. -/
def parameters (cut : HeaderCut) : List String :=
  (splitParameters (cut.namePart.getLast? == some '(') cut.parameterPart).map String.ofList

/-- The byte offset of the body. -/
def bodyStart (cut : HeaderCut) : Nat := Text.byteLength (cut.lead ++ cut.region)

/-- Reads the header, unless it has no name or one that cannot name a page. -/
def header (cut : HeaderCut) : Except Fault Header :=
  if cut.name == "" then .error (.missingMarker .name)
  else if !isPageName cut.name then .error (.invalidName cut.name)
  else .ok ⟨cut.name, cut.parameters, cut.bodyStart⟩

end HeaderCut

/-- Reads the header of a text. -/
def Header.ofText (text : List Char) : Except Fault Header :=
  match HeaderCut.ofText text with
  | .error fault => .error fault
  | .ok cut => cut.header

end ProcBook.Sql
