/-
ProcBook/Json/Writer.lean

Records as JSON texts, with a line for each field and for each element of a list.  Only what has to be
escaped is escaped: quotation marks, backslashes and control characters.
-/
import ProcBook.Json.Record

namespace ProcBook.Json

/-- A hexadecimal digit in lower case. -/
def hexChar (n : Nat) : Char := if n < 10 then Char.ofNat (n + 48) else Char.ofNat (n + 87)

/-- One character inside a string. -/
def escapeChar (c : Char) : List Char :=
  match c with
  | '"' => ['\\', '"']
  | '\\' => ['\\', '\\']
  | '\x08' => ['\\', 'b']
  | '\t' => ['\\', 't']
  | '\n' => ['\\', 'n']
  | '\x0c' => ['\\', 'f']
  | '\r' => ['\\', 'r']
  | _ =>
    if c < ' ' then ['\\', 'u', '0', '0', hexChar (c.toNat / 16), hexChar (c.toNat % 16)] else [c]

/-- A string of a JSON text. -/
def quote (value : String) : String :=
  "\"" ++ String.ofList (value.toList.flatMap escapeChar) ++ "\""

/-- The content of a field. -/
def Content.render : Content → String
  | text value => quote value
  | texts [] => "[]"
  | texts values => "[\n    " ++ ",\n    ".intercalate (values.map quote) ++ "\n  ]"

/-- One field of an object. -/
def renderField (field : String × Content) : String :=
  "  " ++ quote field.1 ++ ": " ++ field.2.render

/-- A record as an object. -/
def renderFields (fields : Fields) : String :=
  "\x7b\n" ++ ",\n".intercalate (fields.map renderField) ++ "\n\x7d"

end ProcBook.Json
