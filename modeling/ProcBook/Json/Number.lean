/-
ProcBook/Json/Number.lean

Numbers in a JSON text.  `scanNumeral` cuts a number into its digits and checks its form;
`Numeral.value` says which number it is.  A number is an integer if it has neither point nor exponent
and fits 64 bits, and otherwise a double, which is worded by its shortest decimal.
-/
import ProcBook.Decimal.Shortest
import ProcBook.Json.Fault
import ProcBook.Text.Cut
import ProcBook.Text.Digit

namespace ProcBook.Json

/-- The digits of a number, without the point and the exponent's letter. -/
structure Numeral where
  negative : Bool
  whole : List Char
  fraction : List Char
  /-- Whether the exponent is negative, and its digits. -/
  exponent? : Option (Bool × List Char)
deriving Repr, DecidableEq

/-! ### The form of a number -/

/-- Reads the digits before the point.  The number 0 has no further digit.  `atEnd` is the problem
with a number that the text breaks off. -/
def scanWhole (atEnd : Problem) (text : List Char) : Except Fault (List Char × List Char) :=
  match text with
  | [] => .error (.here atEnd [])
  | c :: rest =>
    if c == '0' then
      if rest.head?.any Char.isDigit then .error (.next .invalidNumber rest) else .ok (['0'], rest)
    else if c.isDigit then .ok (c :: rest.takeWhile Char.isDigit, rest.dropWhile Char.isDigit)
    else .error (.next .invalidNumber text)

/-- Reads a point and at least one digit after it, if there is a point. -/
def scanFraction (atEnd : Problem) (text : List Char) : Except Fault (List Char × List Char) :=
  match text with
  | '.' :: rest =>
    match rest.takeWhile Char.isDigit with
    | [] => .error (if rest.isEmpty then .here atEnd [] else .next .invalidNumber rest)
    | digits => .ok (digits, rest.dropWhile Char.isDigit)
  | _ => .ok ([], text)

/-- Reads the digits of an exponent, of which there has to be one. -/
def scanExponentDigits (atEnd : Problem) (negative : Bool) (text : List Char) :
    Except Fault (Option (Bool × List Char) × List Char) :=
  match text.takeWhile Char.isDigit with
  | [] => .error (if text.isEmpty then .here atEnd [] else .next .invalidNumber text)
  | digits => .ok (some (negative, digits), text.dropWhile Char.isDigit)

/-- Reads an exponent, if there is one. -/
def scanExponent (atEnd : Problem) (text : List Char) :
    Except Fault (Option (Bool × List Char) × List Char) :=
  match text with
  | [] => .ok (none, [])
  | c :: rest =>
    if c == 'e' || c == 'E' then
      match rest with
      | '-' :: rest => scanExponentDigits atEnd true rest
      | '+' :: rest => scanExponentDigits atEnd false rest
      | _ => scanExponentDigits atEnd false rest
    else .ok (none, text)

/-- Reads a number after its sign. -/
def scanNumeral (atEnd : Problem) (negative : Bool) (text : List Char) :
    Except Fault (Numeral × List Char) :=
  match scanWhole atEnd text with
  | .error fault => .error fault
  | .ok (whole, text) =>
    match scanFraction atEnd text with
    | .error fault => .error fault
    | .ok (fraction, text) =>
      (scanExponent atEnd text).map fun (exponent?, text) =>
        (⟨negative, whole, fraction, exponent?⟩, text)

/-! ### The value of a number -/

/-- Appends digits to a number as long as it stays within `limit`: the number, and the digits that
found no room. -/
def absorb (limit value : Nat) : List Char → Nat × List Char
  | [] => (value, [])
  | c :: digits =>
    let longer := value * 10 + Text.digitValue c
    if limit < longer then (value, c :: digits) else absorb limit longer digits

/-- The greatest significand that is kept exactly. -/
def maxSignificand : Nat := Nat.pow 2 64 - 1

/-- The greatest exponent that is looked at. -/
def maxExponent : Nat := Nat.pow 2 31 - 1

/-- How doubles are written in messages. -/
def floatFormat : DecimalFormat := ⟨-5, 16⟩

/-- The wording of a double. -/
def floatText (negative : Bool) (a : Double) : String :=
  (if negative then "-" else "") ++
    if a.mantissa == 0 then "0.0" else a.shortest.render floatFormat

/-- The significand of a number and the power of ten that belongs to it.  Digits beyond the greatest
significand only count as places before the point, and not at all after it. -/
def Numeral.significand (a : Numeral) : Nat × Int :=
  let (value, dropped) := absorb maxSignificand 0 a.whole
  let (value', unused) := absorb maxSignificand value a.fraction
  (value', dropped.length - ((a.fraction.length - unused.length : Nat) : Int))

/-- Whether a number is written as an integer that fits 64 bits, and which one it is.  Minus zero is
no integer. -/
def Numeral.integer? (a : Numeral) : Option Int :=
  if !a.fraction.isEmpty || a.exponent?.isSome then none
  else
    match absorb maxSignificand 0 a.whole with
    | (value, []) =>
      if !a.negative then some value
      else if value == 0 || Nat.pow 2 63 < value then none
      else some (-value)
    | _ => none

/-- The number, where `rest` follows it in the text. -/
def Numeral.value (a : Numeral) (rest : List Char) : Except Fault Unexpected :=
  match a.integer? with
  | some n => .ok (.integer n)
  | none =>
    let (digits, power) := a.significand
    let (negativePower, exponentDigits) := a.exponent?.getD (false, [])
    match absorb maxExponent 0 exponentDigits with
    -- The exponent does not end within its limit: the number is zero or out of range.
    | (_, _ :: unread) =>
      if digits != 0 && !negativePower then .error (.here .numberOutOfRange (unread ++ rest))
      else .ok (.float (if a.negative then "-0.0" else "0.0"))
    | (exponent, []) =>
      let power := if negativePower then power - exponent else power + exponent
      match Double.ofDecimal? digits power with
      | some double => .ok (.float (floatText a.negative double))
      | none => .error (.here .numberOutOfRange rest)

/-! ### Every number takes something -/

theorem length_of_scanWhole {atEnd : Problem} {text digits rest : List Char}
    (h : scanWhole atEnd text = .ok (digits, rest)) : rest.length < text.length := by
  unfold scanWhole at h
  split at h
  · simp at h
  · next c r =>
    split at h
    · split at h
      · simp at h
      · obtain ⟨-, rfl⟩ := Prod.mk.inj (Except.ok.inj h)
        simp
    · split at h
      · obtain ⟨-, rfl⟩ := Prod.mk.inj (Except.ok.inj h)
        exact Nat.lt_succ_of_le (Text.length_dropWhile_le _ _)
      · simp at h

theorem length_of_scanFraction {atEnd : Problem} {text digits rest : List Char}
    (h : scanFraction atEnd text = .ok (digits, rest)) : rest.length ≤ text.length := by
  unfold scanFraction at h
  split at h
  · next r =>
    split at h
    · simp at h
    · obtain ⟨-, rfl⟩ := Prod.mk.inj (Except.ok.inj h)
      exact Nat.le_succ_of_le (Text.length_dropWhile_le _ _)
  · obtain ⟨-, rfl⟩ := Prod.mk.inj (Except.ok.inj h)
    exact Nat.le_refl _

theorem length_of_scanExponentDigits {atEnd : Problem} {negative : Bool} {text rest : List Char}
    {e : Option (Bool × List Char)} (h : scanExponentDigits atEnd negative text = .ok (e, rest)) :
    rest.length ≤ text.length := by
  unfold scanExponentDigits at h
  split at h
  · simp at h
  · obtain ⟨-, rfl⟩ := Prod.mk.inj (Except.ok.inj h)
    exact Text.length_dropWhile_le _ _

theorem length_of_scanExponent {atEnd : Problem} {text rest : List Char}
    {e : Option (Bool × List Char)} (h : scanExponent atEnd text = .ok (e, rest)) :
    rest.length ≤ text.length := by
  unfold scanExponent at h
  split at h
  · obtain ⟨-, rfl⟩ := Prod.mk.inj (Except.ok.inj h)
    exact Nat.le_refl _
  · next c r =>
    split at h
    · split at h
      · next r' => exact Nat.le_succ_of_le (Nat.le_succ_of_le (length_of_scanExponentDigits h))
      · next r' => exact Nat.le_succ_of_le (Nat.le_succ_of_le (length_of_scanExponentDigits h))
      · exact Nat.le_succ_of_le (length_of_scanExponentDigits h)
    · obtain ⟨-, rfl⟩ := Prod.mk.inj (Except.ok.inj h)
      exact Nat.le_refl _

theorem length_of_scanNumeral {atEnd : Problem} {negative : Bool} {text rest : List Char}
    {a : Numeral} (h : scanNumeral atEnd negative text = .ok (a, rest)) :
    rest.length < text.length := by
  unfold scanNumeral at h
  split at h
  · simp at h
  · next whole r hw =>
    split at h
    · simp at h
    · next fraction r' hf =>
      cases he : scanExponent atEnd r' with
      | error fault => simp [he, Except.map] at h
      | ok p =>
        simp only [he, Except.map, Except.ok.injEq, Prod.mk.injEq] at h
        have h₁ := length_of_scanWhole hw
        have h₂ := length_of_scanFraction hf
        have h₃ := @length_of_scanExponent atEnd r' p.2 p.1 he
        rw [← h.2]
        omega

end ProcBook.Json
