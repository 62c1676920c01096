/-
ProcBook/Json/Fault.lean

What can be wrong with a JSON text, where, and how it is worded.

While a text is read, a fault remembers what was still unread and how many bytes beyond that point the
fault lies.  Only when reading has ended does `Fault.locate` turn this into a line and a column, which
count bytes.
-/
import ProcBook.Text.Quoted
import ProcBook.Text.Utf8

namespace ProcBook.Json

/-- A value where another kind of value was expected. -/
inductive Unexpected where
  | null
  | boolean (value : Bool)
  | integer (value : Int)
  | float (shown : String)
  | text (value : String)
  | sequence
  | map
deriving Repr, DecidableEq

/-- The wording of an unexpected value. -/
def Unexpected.describe : Unexpected → String
  | null => "null"
  | boolean value => "boolean `" ++ (if value then "true" else "false") ++ "`"
  | integer value => "integer `" ++ toString value ++ "`"
  | float shown => "floating point `" ++ shown ++ "`"
  | text value => "string " ++ Text.quoted value
  | sequence => "sequence"
  | map => "map"

/-- What is wrong with a JSON text. -/
inductive Problem where
  /-- The text ends where a value should stand. -/
  | endInValue
  | endInList
  | endInObject
  | endInString
  | expectedValue
  | expectedColon
  | expectedListEnd
  | expectedObjectEnd
  /-- A word other than `null`, `true` and `false`. -/
  | expectedWord
  | keyNotString
  | trailingComma
  | trailingCharacters
  | invalidNumber
  | numberOutOfRange
  | invalidEscape
  | controlCharacter
  | loneSurrogate
  /-- The first half of a surrogate pair without a second escape. -/
  | halfPair
  | invalidType (found : Unexpected) (expected : String)
  | missingField (key : String)
  | duplicateField (key : String)
  | invalidLength (length : Nat) (expected : String)
deriving Repr, DecidableEq

/-- The wording of a problem. -/
def Problem.describe : Problem → String
  | endInValue => "EOF while parsing a value"
  | endInList => "EOF while parsing a list"
  | endInObject => "EOF while parsing an object"
  | endInString => "EOF while parsing a string"
  | expectedValue => "expected value"
  | expectedColon => "expected `:`"
  | expectedListEnd => "expected `,` or `]`"
  | expectedObjectEnd => "expected `,` or `\x7d`"
  | expectedWord => "expected ident"
  | keyNotString => "key must be a string"
  | trailingComma => "trailing comma"
  | trailingCharacters => "trailing characters"
  | invalidNumber => "invalid number"
  | numberOutOfRange => "number out of range"
  | invalidEscape => "invalid escape"
  | controlCharacter => "control character (\\u0000-\\u001F) found while parsing a string"
  | loneSurrogate => "lone leading surrogate in hex escape"
  | halfPair => "unexpected end of hex escape"
  | invalidType found expected => "invalid type: " ++ found.describe ++ ", expected " ++ expected
  | missingField key => "missing field `" ++ key ++ "`"
  | duplicateField key => "duplicate field `" ++ key ++ "`"
  | invalidLength length expected => "invalid length " ++ toString length ++ ", expected " ++ expected

/-! ### Faults and their places -/

/-- A problem met while reading: `rest` was unread, and the problem shows `ahead` bytes further on. -/
structure Fault where
  problem : Problem
  rest : List Char
  ahead : Nat := 0
deriving Repr, DecidableEq

namespace Fault

/-- A problem with what has been read so far. -/
def here (problem : Problem) (rest : List Char) : Fault := ⟨problem, rest, 0⟩

/-- A problem with the next byte. -/
def next (problem : Problem) (rest : List Char) : Fault := ⟨problem, rest, 1⟩

end Fault

/-- A problem and its place in the text: the line, counted from one, and the bytes of that line up to
the place. -/
structure Error where
  problem : Problem
  line : Nat
  column : Nat
deriving Repr, DecidableEq

/-- The wording of an error. -/
def Error.message (e : Error) : String :=
  e.problem.describe ++ " at line " ++ toString e.line ++ " column " ++ toString e.column

/-- The line and column `index` bytes into a text that starts at the given line and column.  An index
inside a character counts that character's bytes up to it. -/
def place (index line column : Nat) : List Char → Nat × Nat
  | [] => (line, column)
  | c :: text =>
    if index < c.utf8Size then (line, column + index)
    else if c == '\n' then place (index - c.utf8Size) (line + 1) 0 text
    else place (index - c.utf8Size) line (column + c.utf8Size) text

/-- The error that a fault met in `text` amounts to.  No place lies beyond the end of the text. -/
def Fault.locate (text : List Char) (fault : Fault) : Error :=
  let total := Text.byteLength text
  let index := min total (total - Text.byteLength fault.rest + fault.ahead)
  let (line, column) := place index 1 0 text
  ⟨fault.problem, line, column⟩

end ProcBook.Json
