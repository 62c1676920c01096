/-
ProcBook/Toml/Text.lean

Strings and keys of a TOML document.  A string is first cut off the text up to its closing quotation
marks and then decoded.  Strings in single marks stand for themselves; strings in triple marks may span
lines, and a line end in them is a line feed however it is written.
-/
import ProcBook.Text.Digit

namespace ProcBook.Toml

/-- Blanks inside a line. -/
def isGap (c : Char) : Bool := c == ' ' || c == '\t'

/-- Characters that may stand in strings and comments. -/
def isPlain (c : Char) : Bool := c == '\t' || (' ' ≤ c && c != '\x7f')

/-- The text after the blanks at its front. -/
def skipGap (text : List Char) : List Char := text.dropWhile isGap

/-- The text after a line end at its front, if there is one. -/
def lineEnd? : List Char → Option (List Char)
  | '\n' :: rest => some rest
  | '\r' :: '\n' :: rest => some rest
  | _ => none

/-! ### Escapes -/

/-- The character that a letter after a backslash stands for. -/
def simpleEscape? : Char → Option Char
  | 'b' => some '\x08'
  | 't' => some '\t'
  | 'n' => some '\n'
  | 'f' => some '\x0c'
  | 'r' => some '\r'
  | '"' => some '"'
  | '\\' => some '\\'
  | _ => none

/-- The character whose number is written in hexadecimal digits. -/
def hexChar? (digits : List Char) : Option Char :=
  match digits.mapM Text.hexDigit? with
  | none => none
  | some values =>
    let n := values.foldl (fun n value => n * 16 + value) 0
    if n.isValidChar then some (Char.ofNat n) else none

/-- Whether a backslash before this text continues a line: only blanks stand before the line end. -/
def continuesLine (text : List Char) : Bool := (lineEnd? (skipGap text)).isSome

/-- Decodes a string with escapes.  `lines` says whether it may span lines; while `skipping`, blanks and
line ends after a continued line are passed over. -/
def unescape (lines skipping : Bool) : List Char → Option (List Char)
  | [] => some []
  | '\\' :: 'u' :: a :: b :: c :: d :: rest =>
    match hexChar? [a, b, c, d] with
    | none => none
    | some value => (unescape lines false rest).map (value :: ·)
  | '\\' :: 'U' :: a :: b :: c :: d :: e :: f :: g :: h :: rest =>
    match hexChar? [a, b, c, d, e, f, g, h] with
    | none => none
    | some value => (unescape lines false rest).map (value :: ·)
  | '\\' :: c :: rest =>
    match simpleEscape? c with
    | some value => (unescape lines false rest).map (value :: ·)
    | none => if lines && continuesLine (c :: rest) then unescape lines true (c :: rest) else none
  | '\r' :: '\n' :: rest =>
    if !lines then none
    else if skipping then unescape lines true rest
    else (unescape lines false rest).map ('\n' :: ·)
  | c :: rest =>
    if c == '\n' then
      if !lines then none
      else if skipping then unescape lines true rest
      else (unescape lines false rest).map ('\n' :: ·)
    else if skipping && isGap c then unescape lines true rest
    else if c == '\\' || !isPlain c then none
    else (unescape lines false rest).map (c :: ·)

/-! ### Cutting strings off -/

/-- Cuts a string in double marks off a text, after the opening mark. -/
def cutBasic : List Char → Option (List Char × List Char)
  | [] => none
  | '"' :: rest => some ([], rest)
  | '\\' :: c :: rest => (cutBasic rest).map fun (raw, rest) => ('\\' :: c :: raw, rest)
  | c :: rest => (cutBasic rest).map fun (raw, rest) => (c :: raw, rest)

/-- Cuts a string in triple marks off a text, after the opening marks.  Up to two further marks before
the closing ones belong to the string. -/
def cutLines (mark : Char) (escapes : Bool) : List Char → Option (List Char × List Char)
  | [] => none
  | a :: b :: c :: d :: e :: rest =>
    if a == mark && b == mark && c == mark then
      if d == mark && e == mark then some ([mark, mark], rest)
      else if d == mark then some ([mark], e :: rest)
      else some ([], d :: e :: rest)
    else if escapes && a == '\\' then
      (cutLines mark escapes (c :: d :: e :: rest)).map fun (raw, rest) => (a :: b :: raw, rest)
    else (cutLines mark escapes (b :: c :: d :: e :: rest)).map fun (raw, rest) => (a :: raw, rest)
  | [a, b, c, d] =>
    if a == mark && b == mark && c == mark then
      if d == mark then some ([mark], []) else some ([], [d])
    else if escapes && a == '\\' then none
    else (cutLines mark escapes [b, c, d]).map fun (raw, rest) => (a :: raw, rest)
  | [a, b, c] => if a == mark && b == mark && c == mark then some ([], []) else none
  | _ => none

/-- The text without a line end at its front. -/
def dropLineEnd (text : List Char) : List Char := (lineEnd? text).getD text

/-- Decodes a string in single marks: its characters stand for themselves. -/
def plainText (lines : Bool) : List Char → Option (List Char)
  | [] => some []
  | '\r' :: '\n' :: rest => if lines then (plainText lines rest).map ('\n' :: ·) else none
  | c :: rest =>
    if (lines && c == '\n') || isPlain c then (plainText lines rest).map (c :: ·) else none

/-- Cuts off and decodes a string, given by how it is cut and how it is decoded. -/
def decodeCut (decode : List Char → Option (List Char)) :
    Option (List Char × List Char) → Option (String × List Char)
  | none => none
  | some (raw, rest) => (decode raw).map fun value => (String.ofList value, rest)

/-- Cuts a string in single marks off a text, after the opening mark. -/
def cutLiteral (text : List Char) : Option (List Char × List Char) :=
  match text.dropWhile (· != '\'') with
  | [] => none
  | _ :: rest => some (text.takeWhile (· != '\''), rest)

/-- Reads a string of one line. -/
def readLineString : List Char → Option (String × List Char)
  | '"' :: rest => decodeCut (unescape false false) (cutBasic rest)
  | '\'' :: rest => decodeCut (plainText false) (cutLiteral rest)
  | _ => none

/-- Reads a string. -/
def readString : List Char → Option (String × List Char)
  | '"' :: '"' :: '"' :: rest =>
    decodeCut (unescape true false) (cutLines '"' true (dropLineEnd rest))
  | '\'' :: '\'' :: '\'' :: rest =>
    decodeCut (plainText true) (cutLines '\'' false (dropLineEnd rest))
  | text => readLineString text

/-! ### Keys -/

/-- Characters of a key without quotation marks. -/
def isBare (c : Char) : Bool := c.isAlphanum || c == '_' || c == '-'

/-- Reads one part of a key. -/
def readKeyPart (text : List Char) : Option (String × List Char) :=
  match text.takeWhile isBare with
  | [] => readLineString text
  | part => some (String.ofList part, text.dropWhile isBare)

/-- The greatest number of parts in a key. -/
def maxParts : Nat := 79

/-- Reads a key with at most `limit` parts, and the blanks around it. -/
def readKeyParts : Nat → List Char → Option (List String × List Char)
  | 0, _ => none
  | limit + 1, text =>
    match readKeyPart (skipGap text) with
    | none => none
    | some (part, rest) =>
      match skipGap rest with
      | '.' :: rest => (readKeyParts limit rest).map fun (parts, rest) => (part :: parts, rest)
      | rest => some ([part], rest)

/-- Reads a key: the parts before its last dot, and the last part. -/
def readKey (text : List Char) : Option ((List String × String) × List Char) :=
  match readKeyParts maxParts text with
  | none => none
  | some (parts, rest) => parts.getLast?.map fun key => ((parts.dropLast, key), rest)

end ProcBook.Toml
