/-
ProcBook/Text/Quoted.lean

Texts in quotation marks, as messages show them.  A quotation mark and a backslash get a backslash, the
common control characters a letter, and every other character that a reader could not see or could not
tell apart is shown by its number.
-/
import ProcBook.Text.HiddenTable
import ProcBook.Text.Word

namespace ProcBook.Text

/-- Whether a character is shown by its number: it is no visible character, or it attaches to the one
before it. -/
def isHidden (c : Char) : Bool :=
  if c.toNat < 0x80 then c.toNat < 0x20 || c.toNat == 0x7f else insideFlips hiddenFlips c.toNat

/-- One character inside quotation marks. -/
def quotedChar (c : Char) : List Char :=
  match c with
  | '"' => ['\\', '"']
  | '\\' => ['\\', '\\']
  | '\t' => ['\\', 't']
  | '\n' => ['\\', 'n']
  | '\r' => ['\\', 'r']
  | _ =>
    if c.toNat == 0 then ['\\', '0']
    else if isHidden c then ['\\', 'u', '\x7b'] ++ Nat.toDigits 16 c.toNat ++ ['\x7d']
    else [c]

/-- A text in quotation marks. -/
def quoted (text : String) : String :=
  "\"" ++ String.ofList (text.toList.flatMap quotedChar) ++ "\""

end ProcBook.Text
