import PlayerSlots.Numeric.Digit
import PlayerSlots.Numeric.Floating

/-! # The shortest decimal that reads back

`Floating.shortest` finds, for a finite positive magnitude, the decimal with the fewest digits that
lies within the interval of the reals which round to it. The bounds belong to the interval when the
significand is even. On each grid of decimals only the two neighbors of the value can be the
nearest, so it looks at those: the first grid with a hit wins, of two hits the nearer one, and of
two equally near ones the even one.
-/

namespace PlayerSlots
set_option autoImplicit false

/-- A decimal `digits * 10 ^ exponent`. -/
structure Decimal where
  digits : Nat
  exponent : Int
deriving DecidableEq, Repr

namespace Decimal

/-- The same decimal without trailing zeros. -/
def normalize (d : Decimal) : Decimal :=
  if h : d.digits ≠ 0 ∧ d.digits % 10 = 0 then
    normalize ⟨d.digits / 10, d.exponent + 1⟩
  else d
termination_by d.digits
decreasing_by omega

end Decimal

def decimalLength (n : Nat) : Nat := (digitsOf n).length

/-- The greatest exponent `e` with `10 ^ e ≤ num / den`, of positive numbers. -/
def quotientLog10 (num den : Nat) : Int :=
  if den ≤ num then (decimalLength (num / den) : Int) - 1
  else -(decimalLength ((den + num - 1) / num - 1) : Int)

namespace Floating

variable {f : BinaryFormat}

/-- The bounds of the reals that round to a finite positive number, and the number itself, over one
denominator, with whether the bounds belong to them. -/
structure Interval where
  lower : Nat
  value : Nat
  upper : Nat
  denominator : Nat
  closed : Bool

/-- The reals that round to a finite positive number. Below a power of two the neighbor is half
as far away as above, unless the number is among the smallest. -/
def interval (x : Floating f) : Interval :=
  let (m, q) := x.significand
  let below := if m = 1 <<< f.fractionBits ∧ q ≠ f.leastExponent then 1 else 2
  let scale := (q - 2).toNat
  { lower := (4 * m - below) <<< scale
    value := (4 * m) <<< scale
    upper := (4 * m + 2) <<< scale
    denominator := 1 <<< (2 - q).toNat
    closed := m % 2 == 0 }

/-- Whether `digits * 10 ^ exponent` lies in an interval. -/
def Interval.contains (i : Interval) (d : Decimal) : Bool :=
  let n := d.digits * Nat.pow 10 d.exponent.toNat * i.denominator
  let s := Nat.pow 10 (-d.exponent).toNat
  if i.closed then i.lower * s ≤ n && n ≤ i.upper * s
  else i.lower * s < n && n < i.upper * s

/-- The decimal of the grid `10 ^ exponent` in the interval that is nearest to its value. -/
def Interval.onGrid? (i : Interval) (exponent : Int) : Option Decimal :=
  let num := i.value * Nat.pow 10 (-exponent).toNat
  let den := i.denominator * Nat.pow 10 exponent.toNat
  let below : Decimal := ⟨num / den, exponent⟩
  let above : Decimal := ⟨num / den + 1, exponent⟩
  match i.contains below, i.contains above with
  | true, true => some ⟨roundQuotient num den, exponent⟩
  | true, false => some below
  | false, true => some above
  | false, false => none

/-- The most digits that a number of either format needs. -/
def mostDigits : Nat := 17

/-- The shortest decimal that rounds to a finite number other than zero. -/
def shortest (x : Floating f) : Decimal :=
  let i := x.interval
  let e := quotientLog10 i.value i.denominator
  let found := (List.range mostDigits).findSome? fun (n : Nat) => i.onGrid? (e - n)
  (found.getD ⟨i.value / i.denominator, 0⟩).normalize

end Floating

end PlayerSlots
