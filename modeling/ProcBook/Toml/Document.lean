/-
ProcBook/Toml/Document.lean

TOML documents.  `readDocument` gives the root table of a text, or nothing if the text is not
well-formed or defines something twice.  What stands where a further value, key or line could start is
handed on to the next reader only if it is shorter than what this one was given, so reading ends.
-/
import ProcBook.Toml.Item
import ProcBook.Toml.Scalar
import ProcBook.Toml.Text

namespace ProcBook.Toml

/-! ### Blanks and comments -/

/-- The text after a comment's characters, which have to reach up to a line end or the end. -/
def skipComment (text : List Char) : Option (List Char) :=
  let rest := text.dropWhile isPlain
  if rest.isEmpty || (lineEnd? rest).isSome then some rest else none

/-- The text after blanks, line ends and comments; `comment` says whether it starts inside one. -/
def skipTrivia (comment : Bool) : List Char → Option (List Char)
  | [] => some []
  | '\r' :: '\n' :: rest => skipTrivia false rest
  | c :: rest =>
    if c == '\n' then skipTrivia false rest
    else if comment then if isPlain c then skipTrivia true rest else none
    else if isGap c then skipTrivia false rest
    else if c == '#' then skipTrivia true rest
    else some (c :: rest)

/-- The text after the end of a line, before which blanks and a comment may stand. -/
def endLine (text : List Char) : Option (List Char) :=
  let rest := skipGap text
  let rest? := if rest.head? == some '#' then skipComment rest else some rest
  match rest? with
  | none => none
  | some [] => some []
  | some rest => lineEnd? rest

/-! ### Values -/

/-- Reads an item off a text. -/
abbrev ItemReader := List Char → Option (Item × List Char)

/-- Characters that end a number, a date or a word. -/
def endsWord (c : Char) : Bool :=
  isGap c || c == '\n' || c == '\r' || c == ',' || c == ']' || c == '\x7d' || c == '#'

/-- The number, date, time or word at the front of a text.  One blank may part a date from its time. -/
def cutWord (text : List Char) : List Char × List Char :=
  let word := text.takeWhile (!endsWord ·)
  let rest := text.dropWhile (!endsWord ·)
  match rest with
  -- The time of a date may follow after a blank instead of a letter.
  | ' ' :: c :: tail =>
    if isDate word && c.isDigit then
      (word ++ ' ' :: (c :: tail).takeWhile (!endsWord ·), (c :: tail).dropWhile (!endsWord ·))
    else (word, rest)
  | _ => (word, rest)

/-- Reads a number, a date, a time, `true` or `false`. -/
def readWord : ItemReader := fun text =>
  let (word, rest) := cutWord text
  if word == ['t', 'r', 'u', 'e'] then some (.boolean true, rest)
  else if word == ['f', 'a', 'l', 's', 'e'] then some (.boolean false, rest)
  else if isScalar word then some (.scalar, rest)
  else none

/-- Reads the elements of a list and its closing bracket.  A comma may follow the last element. -/
def readElements (value : ItemReader) (text : List Char) : Option (List Item × List Char) :=
  match skipTrivia false text with
  | none => none
  | some (']' :: rest) => some ([], rest)
  | some start =>
    match value start with
    | none => none
    | some (item, rest) =>
      match skipTrivia false rest with
      | some (']' :: rest) => some ([item], rest)
      | some (',' :: rest) =>
        if rest.length < text.length then
          (readElements value rest).map fun (items, rest) => (item :: items, rest)
        else none
      | _ => none
termination_by text.length

/-- Reads a key, an equals sign and a value. -/
def readPair (value : ItemReader) (text : List Char) :
    Option ((List String × String) × Item × List Char) :=
  match readKey text with
  | some (key, '=' :: rest) =>
    (value (skipGap rest)).map fun (item, rest) => (key, item, rest)
  | _ => none

/-- Reads the pairs of a table in braces and its closing brace, and adds them to `entries`. -/
def readPairs (value : ItemReader) (entries : Entries) (text : List Char) :
    Option (Entries × List Char) :=
  match readPair value text with
  | none => none
  | some ((path, key), item, rest) =>
    match entries.insert path key item with
    | none => none
    | some entries =>
      match skipGap rest with
      | '\x7d' :: rest => some (entries, rest)
      | ',' :: rest =>
        if rest.length < text.length then readPairs value entries rest else none
      | _ => none
termination_by text.length

/-- How deep lists and tables in braces may be nested. -/
def maxDepth : Nat := 79

/-- Reads a value in which lists and tables are nested at most `depth` deep. -/
def readValue : Nat → ItemReader
  | depth, '[' :: rest =>
    match depth with
    | 0 => none
    | depth + 1 =>
      (readElements (readValue depth) rest).map fun (items, rest) => (.list items, rest)
  | depth, '\x7b' :: rest =>
    match depth with
    | 0 => none
    | depth + 1 =>
      match skipGap rest with
      | '\x7d' :: rest => some (.table .inline [], rest)
      | rest =>
        (readPairs (readValue depth) [] rest).map fun (entries, rest) =>
          (.table .inline entries, rest)
  | _, text =>
    match text.head? with
    | some '"' | some '\'' => (readString text).map fun (value, rest) => (.text value, rest)
    | _ => readWord text

/-! ### Documents -/

/-- The root table so far, and the header under which the next lines stand. -/
structure Draft where
  root : Entries := []
  header : List String := []

/-- Reads a header after its first bracket. -/
def readHeader (draft : Draft) (text : List Char) : Option (Draft × List Char) :=
  match text with
  | '[' :: rest =>
    match readKey rest with
    | some ((path, key), ']' :: ']' :: rest) =>
      (draft.root.openElement path key).map fun root => (⟨root, path ++ [key]⟩, rest)
    | _ => none
  | _ =>
    match readKey text with
    | some ((path, key), ']' :: rest) =>
      (draft.root.openTable path key).map fun root => (⟨root, path ++ [key]⟩, rest)
    | _ => none

/-- Reads a header or a pair. -/
def readLine (draft : Draft) (text : List Char) : Option (Draft × List Char) :=
  match text with
  | '[' :: rest => readHeader draft rest
  | _ =>
    match readPair (readValue maxDepth) text with
    | none => none
    | some ((path, key), item, rest) =>
      (draft.root.insertBelow draft.header path key item).map fun root => ({ draft with root }, rest)

/-- Reads the lines of a document. -/
def readLines (draft : Draft) (text : List Char) : Option Entries :=
  match skipTrivia false text with
  | none => none
  | some [] => some draft.root
  | some start =>
    match readLine draft start with
    | none => none
    | some (draft, rest) =>
      match endLine rest with
      | none => none
      | some rest => if rest.length < text.length then readLines draft rest else none
termination_by text.length

/-- The root table of a document.  A byte order mark at its front does not count. -/
def readDocument (text : String) : Option Entries :=
  match text.toList with
  | '\ufeff' :: rest => readLines {} rest
  | text => readLines {} text

end ProcBook.Toml
