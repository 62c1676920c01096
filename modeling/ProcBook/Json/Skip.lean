/-
ProcBook/Json/Skip.lean

Passing over a JSON value of any kind.  The brackets that are open around the present place are kept
in a list, innermost first.  `skipValue` stands before a value, `skipOn` after one or after an opening
bracket.  Only the form of the value is looked at: numbers may be of any size.
-/
import ProcBook.Json.Reader

namespace ProcBook.Json

/-- An open bracket. -/
inductive Bracket where
  | list
  | object
deriving Repr, DecidableEq

namespace Bracket

/-- The character that closes a bracket. -/
def closing : Bracket → Char
  | list => ']'
  | object => '\x7d'

/-- The problem with a text that ends inside a bracket. -/
def atEnd : Bracket → Problem
  | list => .endInList
  | object => .endInObject

/-- The problem with a value that is followed by neither a comma nor the closing bracket. -/
def expectedEnd : Bracket → Problem
  | list => .expectedListEnd
  | object => .expectedObjectEnd

end Bracket

/-! ### Scalars and keys -/

/-- Passes over a number, a string or a word. -/
def skipScalar (text : List Char) : Except Fault (List Char) :=
  match text with
  | [] => .error (.here .endInValue [])
  | c :: rest =>
    if c == 'n' then readLetters ['u', 'l', 'l'] rest
    else if c == 't' then readLetters ['r', 'u', 'e'] rest
    else if c == 'f' then readLetters ['a', 'l', 's', 'e'] rest
    else if c == '"' then skipString rest
    else if c == '-' then (scanNumeral .invalidNumber true rest).map (·.2)
    else if c.isDigit then (scanNumeral .invalidNumber false text).map (·.2)
    else .error (.next .expectedValue text)

theorem length_of_skipScalar {text rest : List Char} (h : skipScalar text = .ok rest) :
    rest.length < text.length := by
  unfold skipScalar at h
  split at h
  · simp at h
  · next c r =>
    split at h
    · exact Nat.lt_succ_of_le (length_of_readLetters h)
    split at h
    · exact Nat.lt_succ_of_le (length_of_readLetters h)
    split at h
    · exact Nat.lt_succ_of_le (length_of_readLetters h)
    split at h
    · exact Nat.lt_succ_of_lt (length_of_skipString h)
    split at h
    · cases hn : scanNumeral .invalidNumber true r with
      | error fault => simp [hn, Except.map] at h
      | ok p =>
        simp only [hn, Except.map, Except.ok.injEq] at h
        have := @length_of_scanNumeral .invalidNumber true r p.2 p.1 hn
        rw [← h]
        exact Nat.lt_succ_of_lt this
    split at h
    · cases hn : scanNumeral .invalidNumber false (c :: r) with
      | error fault => simp [hn, Except.map] at h
      | ok p =>
        simp only [hn, Except.map, Except.ok.injEq] at h
        have := @length_of_scanNumeral .invalidNumber false (c :: r) p.2 p.1 hn
        rw [← h]
        exact this
    · simp at h

/-- Reads the colon between a key and its value. -/
def readColon (text : List Char) : Except Fault (List Char) :=
  match skipSpace text with
  | [] => .error (.here .endInObject [])
  | c :: rest => if c == ':' then .ok rest else .error (.next .expectedColon (c :: rest))

theorem length_of_readColon {text rest : List Char} (h : readColon text = .ok rest) :
    rest.length < text.length := by
  unfold readColon at h
  split at h
  · simp at h
  · next c r hr =>
    split at h
    · obtain rfl := Except.ok.inj h
      exact length_of_skipSpace hr
    · simp at h

/-- Passes over a key and its colon. -/
def skipKey (text : List Char) : Except Fault (List Char) :=
  match skipSpace text with
  | [] => .error (.here .endInObject [])
  | c :: rest =>
    if c == '"' then
      match skipString rest with
      | .error fault => .error fault
      | .ok rest => readColon rest
    else .error (.next .keyNotString (c :: rest))

theorem length_of_skipKey {text rest : List Char} (h : skipKey text = .ok rest) :
    rest.length < text.length := by
  unfold skipKey at h
  split at h
  · simp at h
  · next c r hr =>
    have h₀ := length_of_skipSpace hr
    split at h
    · split at h
      · simp at h
      · next r' hs =>
        have h₁ := length_of_skipString hs
        have h₂ := length_of_readColon h
        omega
    · simp at h

/-- Passes over what a bracket has before each of its values: a key in an object, nothing in a list. -/
def skipLabel (bracket : Bracket) (text : List Char) : Except Fault (List Char) :=
  match bracket with
  | .list => .ok text
  | .object => skipKey text

theorem length_of_skipLabel {bracket : Bracket} {text rest : List Char}
    (h : skipLabel bracket text = .ok rest) : rest.length ≤ text.length := by
  cases bracket with
  | list => simp_all [skipLabel]
  | object => exact Nat.le_of_lt (length_of_skipKey h)

/-! ### Values -/

mutual

/-- Passes over a value and then over the rest of the brackets that are open around it. -/
def skipValue (opened : List Bracket) (text : List Char) : Except Fault (List Char) :=
  match h : skipSpace text with
  | [] => .error (.here .endInValue [])
  | c :: rest =>
    have := length_of_skipSpace h
    if c == '[' then skipOn (.list :: opened) false rest
    else if c == '\x7b' then skipOn (.object :: opened) false rest
    else
      match h' : skipScalar (c :: rest) with
      | .error fault => .error fault
      | .ok rest' =>
        have : rest'.length < rest.length + 1 := length_of_skipScalar h'
        skipOn opened true rest'
termination_by 2 * text.length
decreasing_by all_goals omega

/-- Passes over the rest of the brackets that are open.  `filled` says whether the innermost one holds
a value already; only then may a comma follow. -/
def skipOn (opened : List Bracket) (filled : Bool) (text : List Char) :
    Except Fault (List Char) :=
  match opened with
  | [] => .ok text
  | bracket :: outer =>
    match h : skipSpace text with
    | [] => .error (.here bracket.atEnd [])
    | c :: rest =>
      have := length_of_skipSpace h
      if c == bracket.closing then skipOn outer true rest
      else if filled then
        if c == ',' then
          match h' : skipLabel bracket rest with
          | .error fault => .error fault
          | .ok rest' =>
            have := length_of_skipLabel h'
            skipValue opened rest'
        else .error (.next bracket.expectedEnd (c :: rest))
      else
        match h' : skipLabel bracket (c :: rest) with
        | .error fault => .error fault
        | .ok rest' =>
          have : rest'.length ≤ rest.length + 1 := length_of_skipLabel h'
          skipValue opened rest'
termination_by 2 * text.length + 1
decreasing_by all_goals omega

end

mutual

theorem length_of_skipValue {opened : List Bracket} {text rest : List Char}
    (h : skipValue opened text = .ok rest) : rest.length < text.length := by
  rw [skipValue] at h
  split at h
  · simp at h
  · next c r hr =>
    have h₀ := length_of_skipSpace hr
    simp only at h
    split at h
    · exact Nat.lt_of_le_of_lt (length_of_skipOn h) h₀
    split at h
    · exact Nat.lt_of_le_of_lt (length_of_skipOn h) h₀
    split at h
    · simp at h
    · next r' hs =>
      have h₁ : r'.length < r.length + 1 := length_of_skipScalar hs
      have h₂ := length_of_skipOn h
      omega
termination_by 2 * text.length

theorem length_of_skipOn {opened : List Bracket} {filled : Bool} {text rest : List Char}
    (h : skipOn opened filled text = .ok rest) : rest.length ≤ text.length := by
  rw [skipOn.eq_def] at h
  split at h
  · obtain rfl := Except.ok.inj h
    exact Nat.le_refl _
  · next bracket outer =>
    split at h
    · simp at h
    · next c r hr =>
      have h₀ := length_of_skipSpace hr
      simp only at h
      split at h
      · have := length_of_skipOn h
        omega
      split at h
      · split at h
        · split at h
          · simp at h
          · next r' hl =>
            have h₁ := length_of_skipLabel hl
            have h₂ := length_of_skipValue h
            omega
        · simp at h
      · split at h
        · simp at h
        · next r' hl =>
          have h₁ : r'.length ≤ r.length + 1 := length_of_skipLabel hl
          have h₂ := length_of_skipValue h
          omega
termination_by 2 * text.length + 1

end

end ProcBook.Json
