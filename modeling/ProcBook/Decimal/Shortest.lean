/-
ProcBook/Decimal/Shortest.lean

The shortest decimal of a double.  Every real number between the halves of the way to a double's two
neighbours reads back as that double.  Of the decimals in this interval `shortest` takes one with the
fewest digits, and of two such ones the nearer.
-/
import ProcBook.Decimal.Double

namespace ProcBook

/-- The natural number `digits`, scaled by a power of ten. -/
structure Decimal where
  digits : Nat
  exponent : Int
deriving Repr, DecidableEq

/-- The same number without zeros at its end, of which at most `fuel` are dropped. -/
def Decimal.reduce (a : Decimal) : Nat → Decimal
  | 0 => a
  | fuel + 1 =>
    if a.digits != 0 && a.digits % 10 == 0 then reduce ⟨a.digits / 10, a.exponent + 1⟩ fuel else a

namespace Double

/-! ### The interval of a double -/

/-- The double and the ends of its interval, in units of a quarter of its last place.  The neighbour
below a power of two is only half as far as the one above. -/
def quarters (a : Double) : Nat × Nat × Nat :=
  let value := 4 * a.mantissa
  let low :=
    if a.mantissa == Nat.pow 2 52 && minExponent < a.exponent then value - 1 else value - 2
  (low, value, value + 2)

/-- Compares `digits * 10 ^ e` with `units` quarters of the last place of `a`. -/
def compareDecimal (a : Double) (digits : Nat) (e : Int) (units : Nat) : Ordering :=
  let q := a.exponent - 2
  compare (digits * Nat.pow 10 e.toNat * Nat.pow 2 (-q).toNat)
    (units * Nat.pow 2 q.toNat * Nat.pow 10 (-e).toNat)

/-- Whether `digits * 10 ^ e` reads back as `a`.  The ends of the interval do if the mantissa is
even. -/
def readsBack (a : Double) (digits : Nat) (e : Int) : Bool :=
  let (low, _, high) := a.quarters
  let even := a.mantissa % 2 == 0
  match a.compareDecimal digits e low, a.compareDecimal digits e high with
  | .gt, .lt => true
  | .eq, _ => even
  | _, .eq => even
  | _, _ => false

/-! ### The search -/

/-- The greatest `digits` with `digits * 10 ^ e ≤ a`. -/
def floorDecimal (a : Double) (e : Int) : Nat :=
  let (n, d) := shift a.mantissa 1 a.exponent
  (n * Nat.pow 10 (-e).toNat) / (d * Nat.pow 10 e.toNat)

/-- The exponent of the leading digit, searched upwards from `e` for at most `fuel` steps. -/
def leadingExponent (a : Double) : Nat → Int → Int
  | 0, e => e
  | fuel + 1, e => if a.floorDecimal (e + 1) == 0 then e else leadingExponent a fuel (e + 1)

/-- The neighbour of `a` on the grid of step `10 ^ e` that reads back as `a`, if one does. -/
def onGrid? (a : Double) (e : Int) : Option Nat :=
  let below := a.floorDecimal e
  let above := below + 1
  match a.readsBack below e && below != 0, a.readsBack above e with
  | true, true =>
    -- The double lies above the middle of its neighbours exactly if their sum is below its double.
    let (_, value, _) := a.quarters
    match a.compareDecimal (below + above) e (2 * value) with
    | .lt => some above
    | .gt => some below
    | .eq => some (if below % 2 == 0 then below else above)
  | true, false => some below
  | false, true => some above
  | false, false => none

/-- Searches the finest `left` grids of at most 17 digits, the coarsest of them first, for a decimal that
reads back as `a`. -/
def searchGrids (a : Double) (leading : Int) : Nat → Decimal
  | 0 => ⟨a.floorDecimal (leading - 16), leading - 16⟩
  | left + 1 =>
    let e := leading - (16 - left : Nat)
    match a.onGrid? e with
    | some digits => ⟨digits, e⟩
    | none => searchGrids a leading left

/-- The shortest decimal that reads back as the double. -/
def shortest (a : Double) : Decimal :=
  if a.mantissa == 0 then ⟨0, 0⟩ else (searchGrids a (a.leadingExponent 700 (-330)) 17).reduce 17

end Double

/-! ### Writing a decimal -/

/-- How a decimal is written: the exponents of the leading digit from `positionalFrom` up to, but not
including, `scientificFrom` give positional notation, all others a power of ten. -/
structure DecimalFormat where
  positionalFrom : Int
  scientificFrom : Int

namespace Decimal

/-- The decimal as a text.  Positional notation has at least one place after the point; a power of ten
always shows its sign. -/
def render (format : DecimalFormat) (a : Decimal) : String :=
  let digits := Nat.toDigits 10 a.digits
  let point : Int := digits.length + a.exponent
  let leading := point - 1
  if format.positionalFrom ≤ leading && leading < format.scientificFrom then
    if 0 ≤ a.exponent then String.ofList (digits ++ List.replicate a.exponent.toNat '0') ++ ".0"
    else if 0 < point then
      String.ofList (digits.take point.toNat) ++ "." ++ String.ofList (digits.drop point.toNat)
    else "0." ++ String.ofList (List.replicate (-point).toNat '0' ++ digits)
  else
    let fraction := digits.drop 1
    let mantissa := digits.take 1 ++ (if fraction.isEmpty then [] else '.' :: fraction)
    let sign := if leading < 0 then "-" else "+"
    String.ofList mantissa ++ "e" ++ sign ++ toString leading.natAbs

end Decimal

end ProcBook
