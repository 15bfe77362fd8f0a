import PlayerSlots.Numeric.Shortest

/-! # Numerals

A number as JSON writes it, and the values that it stands for.

* `Numeral.render`: the text of a numeral.
* `Numeral.value?`: an integer if the numeral has neither fraction nor exponent and fits a word,
  otherwise a double-precision number, or nothing if that would be infinite.
* `Numeral.ofFloating`: the shortest numeral that reads back, in the layout of a `DecimalStyle`.

A fraction or exponent is not read to the nearest number in one step. The leading digits that fit
a 64-bit word are rounded, and the result is multiplied or divided by a power of ten, rounded once
more; digits beyond the word count only by their places. So the last bit may differ from that of
the nearest number.
-/

namespace PlayerSlots
set_option autoImplicit false

/-- A number as it is written: the whole part has no leading zeros, the fraction may be missing. -/
structure Numeral where
  negative : Bool
  whole : Nat
  fraction : List Digit
  exponent : Option Int
deriving DecidableEq, Repr

/-- The value of a numeral. -/
inductive Number where
  | integer (n : Int)
  | real (x : Binary64)
deriving DecidableEq, Repr

namespace Numeral

def ofInt (n : Int) : Numeral := ⟨n < 0, n.natAbs, [], none⟩

def renderExponent (e : Int) : List Char :=
  'e' :: (if e < 0 then '-' else '+') :: decimal e.natAbs

def render (n : Numeral) : List Char :=
  (if n.negative then ['-'] else []) ++ decimal n.whole ++
    (if n.fraction = [] then [] else '.' :: n.fraction.map Digit.toChar) ++
    (n.exponent.map renderExponent).getD []

/-! ## Reading a value -/

/-- Appends digits to a number as long as it fits a 64-bit word; also the digits left over. -/
def fillWord (n : Nat) : List Digit → Nat × List Digit
  | [] => (n, [])
  | d :: ds =>
    if 10 * n + d.val < UInt64.size then fillWord (10 * n + d.val) ds else (n, d :: ds)

/-- The greatest power of ten that is a finite double-precision number. -/
def greatestPower : Nat := 308

def powerOfTen (k : Nat) : Binary64 := .ofRatio false (Nat.pow 10 k) 1

/-- Divides by a power of ten, in steps that stay finite. -/
def divideByPower (x : Binary64) (k : Nat) : Binary64 :=
  if k ≤ greatestPower then x.div (powerOfTen k)
  else if x.magnitude = 0 then x
  else divideByPower (x.div (powerOfTen greatestPower)) (k - greatestPower)
termination_by k
decreasing_by simp only [greatestPower] at *; omega

/-- Multiplies by a power of ten, unless the product is infinite. -/
def multiplyByPower? (x : Binary64) (k : Nat) : Option Binary64 :=
  if k ≤ greatestPower then
    let y := x.mul (powerOfTen k)
    if y.IsFinite then some y else none
  else if x.magnitude = 0 then some x
  else none

/-- The number `n * 10 ^ e` with a sign, unless it is infinite. -/
def scaled? (negative : Bool) (n : Nat) (e : Int) : Option Binary64 :=
  let x : Binary64 := .ofRatio negative n 1
  if e < 0 then some (divideByPower x e.natAbs) else multiplyByPower? x e.natAbs

/-- The greatest exponent that is taken at its value. -/
def exponentLimit : Int := 0x7FFFFFFF

/-- The value of a numeral as a double-precision number, unless it is infinite. -/
def real? (n : Numeral) : Option Binary64 :=
  let (w, beyond) := fillWord 0 (digitsOf n.whole)
  let (m, unused) := fillWord w n.fraction
  let places : Int := beyond.length - (n.fraction.length - unused.length : Nat)
  match n.exponent with
  | none => scaled? n.negative m places
  | some e =>
    if exponentLimit < e.natAbs then
      if m ≠ 0 ∧ 0 < e then none else some (.zero n.negative)
    else
      scaled? n.negative m (max (-exponentLimit - 1) (min exponentLimit (places + e)))

/-- The value of a numeral, unless it is infinite. -/
def value? (n : Numeral) : Option Number :=
  if n.fraction = [] ∧ n.exponent = none ∧ n.whole < UInt64.size then
    if ¬n.negative then some (.integer n.whole)
    else if n.whole = 0 ∨ 0x8000000000000000 < n.whole then some (.real (.ofRatio true n.whole 1))
    else some (.integer (-n.whole))
  else (real? n).map .real

/-! ## Writing a value -/

/-- Which numbers are written without an exponent: those whose first digit stands at a power of
ten between these two. -/
structure DecimalStyle where
  least : Int
  greatest : Int

/-- Single-precision numbers from one millionth up to below ten to the thirteenth are written
without an exponent. -/
def singleStyle : DecimalStyle := ⟨-6, 12⟩

/-- Double-precision numbers from one hundred-thousandth up to below ten to the sixteenth are
written without an exponent. -/
def doubleStyle : DecimalStyle := ⟨-5, 15⟩

/-- A decimal without trailing zeros as a numeral: a plain one has at least one decimal place, one
with an exponent has one digit before the point. -/
def ofDecimal (style : DecimalStyle) (negative : Bool) (d : Decimal) : Numeral :=
  let ds := digitsOf d.digits
  let first : Int := d.exponent + ds.length - 1
  if style.least ≤ first ∧ first ≤ style.greatest then
    if 0 ≤ d.exponent then ⟨negative, d.digits * Nat.pow 10 d.exponent.toNat, [0], none⟩
    else
      let places := d.exponent.natAbs
      let padded := List.replicate (places + 1 - ds.length) 0 ++ ds
      let cut := padded.length - places
      ⟨negative, valueOf (padded.take cut), padded.drop cut, none⟩
  else
    ⟨negative, valueOf (ds.take 1), ds.drop 1, some first⟩

/-- The shortest numeral that rounds to a finite number. -/
def ofFloating {f : BinaryFormat} (style : DecimalStyle) (x : Floating f) : Numeral :=
  if x.magnitude = 0 then ⟨x.negative, 0, [0], none⟩
  else ofDecimal style x.negative x.shortest

end Numeral

end PlayerSlots
