/-
ProcBook/Sql/Parameters.lean

The parameter list of a header.  Commas divide it, except inside parentheses, so that a type such as
`DECIMAL(10, 2)` stays whole.  A list that was opened by a parenthesis after the name gives up the one
that closes it.
-/
import ProcBook.Text.Blank

namespace ProcBook.Sql

/-- The depth of parentheses after a character.  A closing parenthesis without an opening one has no
effect. -/
def depthAfter (depth : Nat) (c : Char) : Nat :=
  if c == '(' then depth + 1 else if c == ')' then depth - 1 else depth

/-- The pieces of a text between its commas outside parentheses, of which there is at least one;
`depth` parentheses are open before the text. -/
def splitCommas (depth : Nat) : List Char → List (List Char)
  | [] => [[]]
  | c :: text =>
    if c == ',' && depth == 0 then [] :: splitCommas 0 text
    else (splitCommas (depthAfter depth c) text).modifyHead (c :: ·)

/-- The text without the parenthesis at its end, if it has one there. -/
def dropClosing (text : List Char) : List Char :=
  if text.getLast? == some ')' then text.dropLast else text

/-- The text of a parameter list, trimmed; `opened` says that a parenthesis was opened before it. -/
def parameterRegion (opened : Bool) (region : List Char) : List Char :=
  let region := Text.trim region
  if opened then Text.trimEnd (dropClosing region) else region

/-- The parameters of a list, trimmed, without empty ones. -/
def splitParameters (opened : Bool) (region : List Char) : List (List Char) :=
  ((splitCommas 0 (parameterRegion opened region)).map Text.trim).filter (!·.isEmpty)

end ProcBook.Sql
