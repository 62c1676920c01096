/-
ProcBook/Json/Reader.lean

Readers of JSON values of an expected kind.  A reader works on the unread text and stops at the first
fault; that it always takes something is part of the type, so that lists of values end.

* `Reader.text` reads a string,
* `Reader.list` reads a list of what another reader reads,
* `Reader.parse` reads a whole text, after which nothing but blanks may follow.

A value of another kind is read as far as is needed to say what it is.
-/
import ProcBook.Json.Number
import ProcBook.Json.Text

namespace ProcBook.Json

/-- Blanks between the tokens of a JSON text. -/
def isSpace (c : Char) : Bool := c == ' ' || c == '\n' || c == '\t' || c == '\r'

/-- The text from its first token on. -/
def skipSpace (text : List Char) : List Char := text.dropWhile isSpace

theorem length_skipSpace_le (text : List Char) : (skipSpace text).length ≤ text.length :=
  Text.length_dropWhile_le _ _

theorem length_of_skipSpace {text rest : List Char} {c : Char} (h : skipSpace text = c :: rest) :
    rest.length < text.length := by
  have := length_skipSpace_le text
  rw [h] at this
  exact this

/-- Reads values of type `α`, and always takes something off the text. -/
structure Reader (α : Type) where
  run : List Char → Except Fault (α × List Char)
  shrinks : ∀ {text : List Char} {a : α} {rest : List Char},
    run text = .ok (a, rest) → rest.length < text.length

/-! ### Words and values of a wrong kind -/

/-- Reads the letters of a word that is known by its first letter. -/
def readLetters : List Char → List Char → Except Fault (List Char)
  | [], text => .ok text
  | _ :: _, [] => .error (.here .endInValue [])
  | l :: letters, c :: text =>
    if l == c then readLetters letters text else .error (.next .expectedWord (c :: text))

theorem length_of_readLetters {letters text rest : List Char}
    (h : readLetters letters text = .ok rest) : rest.length ≤ text.length := by
  induction letters generalizing text with
  | nil => simp_all [readLetters]
  | cons l letters ih =>
    cases text with
    | nil => simp [readLetters] at h
    | cons c text =>
      by_cases hc : (l == c) = true
      · simp only [readLetters, hc, if_true] at h
        exact Nat.le_succ_of_le (ih h)
      · simp [readLetters, hc] at h

/-- What stands at the front of a text, and the text after it.  Of a list and of an object nothing is
read. -/
def readUnexpected (text : List Char) : Except Fault (Unexpected × List Char) :=
  match text with
  | [] => .error (.here .endInValue [])
  | c :: rest =>
    if c == 'n' then (readLetters ['u', 'l', 'l'] rest).map (.null, ·)
    else if c == 't' then (readLetters ['r', 'u', 'e'] rest).map (.boolean true, ·)
    else if c == 'f' then (readLetters ['a', 'l', 's', 'e'] rest).map (.boolean false, ·)
    else if c == '"' then
      (readString rest).map fun (value, rest) => (.text (String.ofList value), rest)
    else if c == '[' then .ok (.sequence, text)
    else if c == '\x7b' then .ok (.map, text)
    else if c == '-' || c.isDigit then
      let digits := if c == '-' then rest else text
      match scanNumeral .endInValue (c == '-') digits with
      | .error fault => .error fault
      | .ok (numeral, rest) => (numeral.value rest).map (·, rest)
    else .error (.next .expectedValue text)

/-- The fault of a text that starts with a value other than the expected one. -/
def mismatch (expected : String) (text : List Char) : Fault :=
  match readUnexpected text with
  | .error fault => fault
  | .ok (found, rest) => .here (.invalidType found expected) rest

/-! ### Strings -/

/-- Reads a string. -/
def readText (text : List Char) : Except Fault (String × List Char) :=
  match skipSpace text with
  | '"' :: rest => (readString rest).map fun (value, rest) => (String.ofList value, rest)
  | other => .error (mismatch "a string" other)

theorem length_of_readText {text rest : List Char} {s : String}
    (h : readText text = .ok (s, rest)) : rest.length < text.length := by
  unfold readText at h
  split at h
  · next r hr =>
    cases hs : readString r with
    | error fault => simp [hs, Except.map] at h
    | ok p =>
      simp only [hs, Except.map, Except.ok.injEq, Prod.mk.injEq] at h
      have h₁ := @length_of_readString r p.1 p.2 hs
      have h₂ := length_of_skipSpace hr
      rw [← h.2]
      omega
  · simp at h

/-- The reader of strings. -/
def Reader.text : Reader String := ⟨readText, length_of_readText⟩

/-! ### Lists -/

/-- What a list goes on with: the text of its next element, or the text after its closing bracket. -/
inductive Continuation where
  | element (text : List Char)
  | closed (rest : List Char)
deriving Repr, DecidableEq

/-- Finds the next element of a list.  Elements are divided by commas; `first` says that none has been
read. -/
def nextElement (first : Bool) (text : List Char) : Except Fault Continuation :=
  match skipSpace text with
  | [] => .error (.here .endInList [])
  | c :: rest =>
    if c == ']' then .ok (.closed rest)
    else if first then .ok (.element (c :: rest))
    else if c == ',' then
      match skipSpace rest with
      | [] => .error (.here .endInValue [])
      | d :: rest => if d == ']' then .error (.next .trailingComma (d :: rest)) else .ok (.element (d :: rest))
    else .error (.next .expectedListEnd (c :: rest))

theorem length_of_nextElement {first : Bool} {text rest : List Char} :
    (nextElement first text = .ok (.element rest) → rest.length ≤ text.length) ∧
      (nextElement first text = .ok (.closed rest) → rest.length < text.length) := by
  unfold nextElement
  split
  · simp
  · next c r hr =>
    have h₀ := length_of_skipSpace hr
    split
    · simp only [Except.ok.injEq, Continuation.closed.injEq, reduceCtorEq, false_implies, true_and]
      rintro rfl
      omega
    · split
      · simp only [Except.ok.injEq, Continuation.element.injEq, reduceCtorEq, false_implies, and_true]
        rintro rfl
        exact h₀
      · split
        · split
          · simp
          · next d r' hr' =>
            have h₁ := length_of_skipSpace hr'
            split
            · simp
            · simp only [Except.ok.injEq, Continuation.element.injEq, reduceCtorEq, false_implies,
                and_true]
              rintro rfl
              simp only [List.length_cons]
              omega
        · simp

/-- Reads the elements of a list and its closing bracket. -/
def readElements {α : Type} (item : Reader α) (first : Bool) (text : List Char) :
    Except Fault (List α × List Char) :=
  match h : nextElement first text with
  | .error fault => .error fault
  | .ok (.closed rest) => .ok ([], rest)
  | .ok (.element rest) =>
    match h' : item.run rest with
    | .error fault => .error fault
    | .ok (a, rest') =>
      have := length_of_nextElement.1 h
      have := item.shrinks h'
      (readElements item false rest').map fun (as, rest) => (a :: as, rest)
termination_by text.length
decreasing_by omega

theorem length_of_readElements {α : Type} {item : Reader α} {first : Bool} {text rest : List Char}
    {as : List α} (h : readElements item first text = .ok (as, rest)) :
    rest.length < text.length := by
  fun_induction readElements item first text generalizing as rest with
  | case1 => simp at h
  | case2 first text r hn =>
    obtain ⟨-, rfl⟩ := Prod.mk.inj (Except.ok.inj h)
    exact length_of_nextElement.2 hn
  | case3 => simp at h
  | case4 first text r hn a r' hi h₁ h₂ ih =>
    cases hs : readElements item false r' with
    | error fault => simp [hs, Except.map] at h
    | ok p =>
      simp only [hs, Except.map, Except.ok.injEq, Prod.mk.injEq] at h
      have := @ih p.2 p.1 hs
      rw [← h.2]
      omega

/-- Reads a list. -/
def readList {α : Type} (item : Reader α) (text : List Char) : Except Fault (List α × List Char) :=
  match skipSpace text with
  | '[' :: rest => readElements item true rest
  | other => .error (mismatch "a sequence" other)

theorem length_of_readList {α : Type} {item : Reader α} {text rest : List Char} {as : List α}
    (h : readList item text = .ok (as, rest)) : rest.length < text.length := by
  unfold readList at h
  split at h
  · next r hr =>
    exact Nat.lt_trans (length_of_readElements h) (length_of_skipSpace hr)
  · simp at h

/-- The reader of lists whose elements `item` reads. -/
def Reader.list {α : Type} (item : Reader α) : Reader (List α) :=
  ⟨readList item, length_of_readList⟩

/-! ### Whole texts -/

/-- Reads a whole text.  After the value only blanks may follow. -/
def Reader.parse {α : Type} (reader : Reader α) (text : List Char) : Except Error α :=
  match reader.run text with
  | .error fault => .error (fault.locate text)
  | .ok (a, rest) =>
    match skipSpace rest with
    | [] => .ok a
    | other => .error ((Fault.next .trailingCharacters other).locate text)

end ProcBook.Json
