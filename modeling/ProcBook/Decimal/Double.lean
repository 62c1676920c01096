/-
ProcBook/Decimal/Double.lean

Double-precision numbers in exact arithmetic.  A finite double without its sign is
`mantissa * 2 ^ exponent`; every operation computes the exact quotient of two naturals and rounds it
once, to the nearest double and to the even mantissa on a tie.  A result beyond the largest double is
`none`.
-/

namespace ProcBook

/-- A finite, non-negative double: `mantissa * 2 ^ exponent`.  The mantissa stays below `2 ^ 53`, and
below `2 ^ 52` only with the least exponent. -/
structure Double where
  mantissa : Nat
  exponent : Int
deriving Repr, DecidableEq

namespace Double

/-- The least exponent of a double. -/
def minExponent : Int := -1074

/-- The greatest exponent of a double. -/
def maxExponent : Int := 971

/-- The quotient `num / den` rounded to the nearest natural, and to the even one on a tie. -/
def roundDiv (num den : Nat) : Nat :=
  let q := num / den
  let r := 2 * (num % den)
  if r < den then q else if den < r then q + 1 else q + q % 2

/-- The numerator and denominator of `num / den * 2 ^ e`. -/
def shift (num den : Nat) (e : Int) : Nat × Nat :=
  (num * Nat.pow 2 e.toNat, den * Nat.pow 2 (-e).toNat)

/-- The double nearest to `num / den`. -/
def ofQuotient? (num den : Nat) : Option Double :=
  if num == 0 then some ⟨0, minExponent⟩
  else
    -- At `least` the quotient has 53 or 54 bits, so one more halving at most leaves 53.
    let least := max ((num.log2 : Int) - den.log2 - 53) minExponent
    let (n, d) := shift num den (-least)
    let exponent := if Nat.pow 2 53 ≤ n / d then least + 1 else least
    let (n, d) := shift num den (-exponent)
    let mantissa := roundDiv n d
    -- Rounding may carry into a bit of its own.
    let (mantissa, exponent) :=
      if mantissa == Nat.pow 2 53 then (Nat.pow 2 52, exponent + 1) else (mantissa, exponent)
    if maxExponent < exponent then none else some ⟨mantissa, exponent⟩

/-- The product, rounded. -/
def mul? (a b : Double) : Option Double :=
  let (n, d) := shift (a.mantissa * b.mantissa) 1 (a.exponent + b.exponent)
  ofQuotient? n d

/-- The quotient, rounded. -/
def div? (a b : Double) : Option Double :=
  let (n, d) := shift a.mantissa b.mantissa (a.exponent - b.exponent)
  ofQuotient? n d

/-- The greatest power of ten that is a double. -/
def maxPower : Nat := 308

/-- The double nearest to a power of ten. -/
def power? (n : Nat) : Option Double := ofQuotient? (Nat.pow 10 n) 1

/-- `digits * 10 ^ exponent`, where `top` is the greatest power of ten that is a double.  Powers of ten
that are no doubles are divided out piece by piece. -/
def scale? (top digits : Double) (exponent : Int) : Option Double :=
  if exponent.natAbs ≤ maxPower then
    (power? exponent.natAbs).bind fun power =>
      if 0 ≤ exponent then digits.mul? power else digits.div? power
  else if digits.mantissa == 0 then some digits
  else if 0 ≤ exponent then none
  else
    match digits.div? top with
    | none => none
    | some less => scale? top less (exponent + maxPower)
termination_by exponent.natAbs
decreasing_by
  simp only [maxPower] at *
  omega

/-- `digits * 10 ^ exponent` in doubles: the digits are rounded first, then multiplied or divided by a
rounded power of ten. -/
def ofDecimal? (digits : Nat) (exponent : Int) : Option Double :=
  match ofQuotient? digits 1, power? maxPower with
  | some digits, some top => scale? top digits exponent
  | _, _ => none

end Double

end ProcBook
