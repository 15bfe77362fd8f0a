/-! # Binary floating-point numbers

The two interchange formats `binary32` and `binary64` in exact arithmetic. A `Floating f` is a sign
and a magnitude; magnitudes are numbered in ascending order from zero to infinity, which is how
their encoding orders them. There is no number that is not a number.

* `Floating.ofRatio`: the number nearest to a quotient, ties to the even magnitude.
* `Floating.significand`: a finite magnitude as `m * 2 ^ q`.
-/

namespace PlayerSlots
set_option autoImplicit false

/-- A binary interchange format, by the widths of its two fields. -/
structure BinaryFormat where
  fractionBits : Nat
  exponentBits : Nat

namespace BinaryFormat

def binary32 : BinaryFormat := ⟨23, 8⟩

def binary64 : BinaryFormat := ⟨52, 11⟩

def infinity (f : BinaryFormat) : Nat := (1 <<< f.exponentBits - 1) <<< f.fractionBits

/-- The power of two that the last place of the smallest numbers stands for. -/
def leastExponent (f : BinaryFormat) : Int :=
  2 - (1 <<< (f.exponentBits - 1) : Nat) - f.fractionBits

end BinaryFormat

/-- The quotient of two numbers, rounded to the nearest, ties to the even one. -/
def roundQuotient (num den : Nat) : Nat :=
  let q := num / den
  let r := num % den
  if 2 * r < den then q
  else if den < 2 * r then q + 1
  else q + q % 2

/-- The greatest exponent `e` with `2 ^ e ≤ num / den`, of positive numbers. -/
def quotientLog2 (num den : Nat) : Int :=
  let a := num.log2
  let b := den.log2
  if den <<< (a - b) ≤ num <<< (b - a) then (a : Int) - b else (a : Int) - b - 1

/-- A number of a binary format: infinities, but nothing that is not a number. -/
structure Floating (f : BinaryFormat) where
  negative : Bool
  magnitude : Nat
  le_infinity : magnitude ≤ f.infinity := by decide
deriving DecidableEq, Repr

abbrev Binary32 := Floating .binary32

abbrev Binary64 := Floating .binary64

namespace Floating

variable {f : BinaryFormat}

/-- Whether the number is not an infinity. -/
abbrev IsFinite (x : Floating f) : Prop := x.magnitude < f.infinity

/-- Zero, with a sign. -/
def zero (negative : Bool) : Floating f := ⟨negative, 0, Nat.zero_le _⟩

instance : Inhabited (Floating f) := ⟨zero false⟩

/-- The magnitude nearest to `num / den`, ties to the even one. -/
def nearest (f : BinaryFormat) (num den : Nat) : Nat :=
  if num = 0 then 0
  else
    let q := max (quotientLog2 num den - f.fractionBits) f.leastExponent
    let m := roundQuotient (num <<< (-q).toNat) (den <<< q.toNat)
    min ((q - f.leastExponent).toNat <<< f.fractionBits + m) f.infinity

theorem nearest_le_infinity (f : BinaryFormat) (num den : Nat) :
    nearest f num den ≤ f.infinity := by
  simp only [nearest]
  split
  · exact Nat.zero_le _
  · exact Nat.min_le_right _ _

/-- The number nearest to `num / den` with a sign. -/
def ofRatio (negative : Bool) (num den : Nat) : Floating f :=
  ⟨negative, nearest f num den, nearest_le_infinity f num den⟩

def ofInt (n : Int) : Floating f := ofRatio (n < 0) n.natAbs 1

/-- A finite magnitude as `m * 2 ^ q`, with the largest `m` that the format holds. -/
def significand (x : Floating f) : Nat × Int :=
  let e := x.magnitude >>> f.fractionBits
  let m := x.magnitude % 1 <<< f.fractionBits
  if e = 0 then (m, f.leastExponent)
  else (m + 1 <<< f.fractionBits, f.leastExponent + (e - 1 : Nat))

/-- The absolute value of a finite number, as a quotient. -/
def ratio (x : Floating f) : Nat × Nat :=
  let (m, q) := x.significand
  (m <<< q.toNat, 1 <<< (-q).toNat)

/-- The number of another format that is nearest. -/
def convert {g : BinaryFormat} (x : Floating f) : Floating g :=
  if x.IsFinite then ofRatio x.negative x.ratio.1 x.ratio.2
  else ⟨x.negative, g.infinity, Nat.le_refl _⟩

/-- The number nearest to the product of two finite ones. -/
def mul (x y : Floating f) : Floating f :=
  ofRatio (x.negative != y.negative) (x.ratio.1 * y.ratio.1) (x.ratio.2 * y.ratio.2)

/-- The number nearest to the quotient of two finite ones, of which the second is not zero. -/
def div (x y : Floating f) : Floating f :=
  ofRatio (x.negative != y.negative) (x.ratio.1 * y.ratio.2) (x.ratio.2 * y.ratio.1)

end Floating

end PlayerSlots
