/-
ProcBook/Sql/DocsBlock.lean

The documentation block of a source document: a JSON record between the markers `start docs` and
`end docs`.  The line of the opening marker belongs to the marker, and so does the line of the closing
one unless the record ends on it; a block on a single line is taken as it is.
-/
import ProcBook.Json.Record
import ProcBook.Sql.Fault
import ProcBook.Text.Cut
import ProcBook.Text.Phrase

namespace ProcBook.Sql

open Text (Phrase)

/-- The marker that opens a block. -/
def startDocs : Phrase := [['s', 't', 'a', 'r', 't'], ['d', 'o', 'c', 's']]

/-- The marker that closes a block. -/
def endDocs : Phrase := [['e', 'n', 'd'], ['d', 'o', 'c', 's']]

/-- What a documentation block says. -/
structure DocsBlock where
  description : String
  returns : List String
deriving Repr, DecidableEq

/-! ### The text of a block -/

/-- The text after its first line, or all of it if it is a single line. -/
def dropFirstLine (text : List Char) : List Char := (Text.after? '\n' text).getD text

/-- The text before its last line, unless it is a single line or that line closes a record. -/
def dropMarkerLine (text : List Char) : List Char :=
  let last := (text.reverse.takeWhile (· != '\n')).reverse
  if !text.contains '\n' || last.contains '\x7d' then text
  else text.take (text.length - last.length - 1)

/-- The record's text in what stands between the markers. -/
def recordText (inner : List Char) : List Char :=
  Text.trim (dropMarkerLine (dropFirstLine inner))

/-! ### Reading a block -/

namespace DocsBlock

/-- The fields of a block, both of which are required. -/
def layout : Json.Layout where
  title := "struct DocsBlock"
  fields := [⟨"description", none, .text, true⟩, ⟨"returns", none, .texts, true⟩]

/-- What a record says. -/
def ofFields (fields : Json.Fields) : DocsBlock := ⟨fields.text "description", fields.texts "returns"⟩

/-- Reads the record of a block. -/
def ofJson (text : List Char) : Except Json.Error DocsBlock := (layout.reader.map ofFields).parse text

/-- Finds and reads the block of a text. -/
def ofText (text : List Char) : Except Fault DocsBlock :=
  match Text.findPair? startDocs endDocs text with
  | none => .error .missingDocs
  | some (_, closing) =>
    match ofJson (recordText closing.before) with
    | .error error => .error (.malformedDocs error)
    | .ok block => .ok block

end DocsBlock

end ProcBook.Sql
