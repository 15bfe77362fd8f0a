import Mathlib
import PlayerSlots.Numeric.Floating

/-! # Rounding to a binary format

Exact fractions, as rational numbers, and what is left of them in a binary format.

* `quotientLog2_spec`: the binade of a quotient.
* `Floating.size`, `Floating.size_of_magnitude`: what the bits of a number stand for, also those
  that rounding leaves with a full significand.
* `Floating.abs_size_ofRatio_sub_le`: rounding misses by half of the last place at most.
* `Floating.isFinite_ofRatio`, `Floating.size_lt_overflow`: a quotient becomes a finite double
  below `Floating.overflow`, and every finite double is below it.
-/

namespace PlayerSlots
set_option autoImplicit false

/-- Rounding to an integer misses by a half at most. -/
theorem abs_roundQuotient_sub_le (num : Nat) {den : Nat} (h : 0 < den) :
    |(roundQuotient num den : ℚ) - num / den| ≤ 1 / 2 := by
  have hden : (0 : ℚ) < den := by exact_mod_cast h
  have hdiv : (num : ℚ) / den = (num / den : Nat) + (num % den : Nat) / den := by
    have hsplit : ((den * (num / den) + num % den : Nat) : ℚ) = num := by
      rw [Nat.div_add_mod]
    rw [← hsplit]
    push_cast
    field_simp
  have hrest : ((num % den : Nat) : ℚ) / den * den = (num % den : Nat) := by
    field_simp
  have hpos : 0 ≤ ((num % den : Nat) : ℚ) / den := by positivity
  rw [hdiv]
  unfold roundQuotient
  simp only
  split
  · next hlow =>
    have hlow' : 2 * ((num % den : Nat) : ℚ) < den := by exact_mod_cast hlow
    rw [abs_le]
    constructor <;> nlinarith
  · next hlow =>
    have hlow' : (den : ℚ) ≤ 2 * (num % den : Nat) := by exact_mod_cast Nat.le_of_not_lt hlow
    have hlt : ((num % den : Nat) : ℚ) < den := by exact_mod_cast Nat.mod_lt num h
    split
    · next hhigh =>
      have hhigh' : (den : ℚ) < 2 * (num % den : Nat) := by exact_mod_cast hhigh
      push_cast
      rw [abs_le]
      constructor <;> nlinarith
    · next hhigh =>
      have hhigh' : 2 * ((num % den : Nat) : ℚ) ≤ den := by exact_mod_cast Nat.le_of_not_lt hhigh
      have hbit : ((num / den % 2 : Nat) : ℚ) ≤ 1 := by
        exact_mod_cast Nat.le_of_lt_succ (Nat.mod_lt _ (by decide))
      have hbit' : 0 ≤ ((num / den % 2 : Nat) : ℚ) := by positivity
      push_cast
      rw [abs_le]
      constructor <;> nlinarith

section Log

variable {num den : Nat}

theorem shiftLeft_le_iff (hden : 0 < den) (a b : Nat) :
    den <<< (a - b) ≤ num <<< (b - a) ↔ (2 : ℚ) ^ ((a : Int) - b) ≤ num / den := by
  have hden' : (0 : ℚ) < den := by exact_mod_cast hden
  have hscale : (2 : ℚ) ^ ((a : Int) - b) = 2 ^ (a - b) / 2 ^ (b - a) := by
    rcases Nat.le_total b a with hle | hle
    · rw [Nat.sub_eq_zero_of_le hle, pow_zero, div_one, ← zpow_natCast, Nat.cast_sub hle]
    · rw [Nat.sub_eq_zero_of_le hle, pow_zero, one_div, ← zpow_natCast, ← zpow_neg,
        Nat.cast_sub hle, neg_sub]
  rw [hscale, div_le_div_iff₀ (by positivity) hden', Nat.shiftLeft_eq, Nat.shiftLeft_eq]
  constructor
  · intro h
    have h' : ((den * 2 ^ (a - b) : Nat) : ℚ) ≤ (num * 2 ^ (b - a) : Nat) := by exact_mod_cast h
    push_cast at h'
    linarith
  · intro h
    have h' : ((den * 2 ^ (a - b) : Nat) : ℚ) ≤ (num * 2 ^ (b - a) : Nat) := by
      push_cast
      linarith
    exact_mod_cast h'

theorem log2_spec {n : Nat} (h : 0 < n) :
    (2 : ℚ) ^ (n.log2 : Int) ≤ n ∧ (n : ℚ) < 2 ^ ((n.log2 : Int) + 1) := by
  constructor
  · rw [zpow_natCast]
    exact_mod_cast Nat.log2_self_le h.ne'
  · rw [← Nat.cast_succ, zpow_natCast]
    exact_mod_cast Nat.lt_log2_self

theorem quotientLog2_spec (hnum : 0 < num) (hden : 0 < den) :
    (2 : ℚ) ^ quotientLog2 num den ≤ num / den ∧
      (num : ℚ) / den < 2 ^ (quotientLog2 num den + 1) := by
  have hnum' : (0 : ℚ) < num := by exact_mod_cast hnum
  have hden' : (0 : ℚ) < den := by exact_mod_cast hden
  obtain ⟨hnumlow, hnumhigh⟩ := log2_spec hnum
  obtain ⟨hdenlow, hdenhigh⟩ := log2_spec hden
  have htwo : (2 : ℚ) ≠ 0 := by decide
  unfold quotientLog2
  simp only
  split
  · next hle =>
    refine ⟨(shiftLeft_le_iff hden _ _).1 hle, ?_⟩
    calc (num : ℚ) / den < 2 ^ ((num.log2 : Int) + 1) / 2 ^ (den.log2 : Int) :=
          div_lt_div₀ hnumhigh hdenlow (by positivity) (by positivity)
      _ = 2 ^ ((num.log2 : Int) - den.log2 + 1) := by
          rw [← zpow_sub₀ htwo]
          congr 1
          omega
  · next hle =>
    have hlt : (num : ℚ) / den < 2 ^ ((num.log2 : Int) - den.log2) :=
      lt_of_not_ge fun h => hle ((shiftLeft_le_iff hden _ _).2 h)
    refine ⟨?_, by simpa using hlt⟩
    calc (2 : ℚ) ^ ((num.log2 : Int) - den.log2 - 1)
        = 2 ^ (num.log2 : Int) / 2 ^ ((den.log2 : Int) + 1) := by
          rw [← zpow_sub₀ htwo]
          congr 1
          omega
      _ ≤ num / den := div_le_div₀ hnum'.le hnumlow hden' hdenhigh.le

end Log

namespace Floating

variable {f : BinaryFormat}

/-- The absolute value of a finite number. -/
def size (x : Floating f) : ℚ := x.significand.1 * 2 ^ x.significand.2

theorem size_nonneg (x : Floating f) : 0 ≤ x.size := by
  unfold size
  positivity

theorem significand_fst_lt (x : Floating f) : x.significand.1 < 2 ^ (f.fractionBits + 1) := by
  have hmod : x.magnitude % 1 <<< f.fractionBits < 1 <<< f.fractionBits :=
    Nat.mod_lt _ (by rw [Nat.one_shiftLeft]; exact Nat.two_pow_pos _)
  rw [Nat.one_shiftLeft] at hmod
  unfold significand
  simp only [Nat.one_shiftLeft, pow_succ]
  split <;> simp only <;> omega

theorem significand_fst_of_normal {x : Floating f} (h : x.magnitude / 2 ^ f.fractionBits ≠ 0) :
    x.significand.1 = x.magnitude % 2 ^ f.fractionBits + 2 ^ f.fractionBits := by
  unfold significand
  simp only [Nat.one_shiftLeft, Nat.shiftRight_eq_div_pow, if_neg h]

theorem significand_snd (x : Floating f) :
    x.significand.2 = f.leastExponent + (x.magnitude / 2 ^ f.fractionBits - 1 : Nat) := by
  unfold significand
  simp only [Nat.shiftRight_eq_div_pow]
  split
  · next hzero =>
    rw [hzero]
    exact (Int.add_zero _).symm
  · rfl

theorem ratio_pos (x : Floating f) : 0 < x.ratio.2 := by
  show 0 < 1 <<< (-x.significand.2).toNat
  rw [Nat.one_shiftLeft]
  exact Nat.two_pow_pos _

/-- Powers of two with either sign, as shifts on the two sides of a quotient. -/
theorem shiftLeft_div_shiftLeft (num den : Nat) (q : Int) :
    ((num <<< q.toNat : Nat) : ℚ) / (den <<< (-q).toNat : Nat) = num / den * 2 ^ q := by
  rw [Nat.shiftLeft_eq, Nat.shiftLeft_eq]
  push_cast
  rcases Int.le_total 0 q with hq | hq
  · obtain ⟨n, rfl⟩ := Int.eq_ofNat_of_zero_le hq
    have hneg : (-(n : Int)).toNat = 0 := by omega
    rw [hneg, Int.toNat_natCast, pow_zero, mul_one, zpow_natCast]
    ring
  · obtain ⟨n, hn⟩ := Int.eq_ofNat_of_zero_le (Int.neg_nonneg_of_nonpos hq)
    obtain rfl : q = -n := by omega
    have hneg : (-(n : Int)).toNat = 0 := by omega
    rw [hneg, neg_neg, Int.toNat_natCast, pow_zero, mul_one, zpow_neg, zpow_natCast]
    field_simp

theorem ratio_eq_size (x : Floating f) : (x.ratio.1 : ℚ) / x.ratio.2 = x.size := by
  have h := shiftLeft_div_shiftLeft x.significand.1 1 x.significand.2
  rw [Nat.cast_one, div_one] at h
  exact h

/-- A magnitude as a sum of a count of binades and a significand that may just be full. -/
theorem size_of_magnitude {x : Floating f} {k m : Nat}
    (hx : x.magnitude = k <<< f.fractionBits + m) (hm : m ≤ 2 ^ (f.fractionBits + 1))
    (hk : k = 0 ∨ 2 ^ f.fractionBits ≤ m) : x.size = m * 2 ^ (f.leastExponent + k) := by
  have htwo : (2 : ℚ) ≠ 0 := by decide
  have hpos : 0 < 2 ^ f.fractionBits := Nat.two_pow_pos _
  rw [Nat.shiftLeft_eq] at hx
  rw [pow_succ] at hm
  unfold size significand
  simp only [hx, Nat.shiftRight_eq_div_pow, Nat.one_shiftLeft, Nat.add_comm (k * _) m,
    Nat.add_mul_div_right _ _ hpos, Nat.add_mul_mod_self_right]
  generalize hP : 2 ^ f.fractionBits = P at *
  rcases Nat.lt_or_ge m P with hlow | hhigh
  · have hk0 : k = 0 := hk.resolve_right (Nat.not_le.2 hlow)
    simp [hk0, Nat.div_eq_of_lt hlow, Nat.mod_eq_of_lt hlow]
  · rcases Nat.lt_or_ge m (P * 2) with hless | hfull
    · have hdiv : m / P = 1 := Nat.div_eq_of_lt_le (by omega) (by omega)
      have hmod : m % P = m - P := by
        rw [Nat.mod_eq_sub_div_mul, hdiv, Nat.one_mul]
      have hsum : m - P + P = m := by omega
      have hexp : 1 + k - 1 = k := by omega
      rw [hdiv, hmod, if_neg (by omega), hsum, hexp]
    · obtain rfl : m = P * 2 := by omega
      have hdiv : P * 2 / P = 2 := Nat.mul_div_cancel_left 2 hpos
      have hexp : f.leastExponent + ((2 + k - 1 : Nat) : Int) = f.leastExponent + k + 1 := by omega
      rw [hdiv, Nat.mul_mod_right, if_neg (by omega)]
      simp only [hexp, Nat.zero_add]
      rw [zpow_add_one₀ htwo]
      push_cast
      ring

/-! ## The nearest number -/

/-- The exponent of the last place that a quotient keeps. -/
def lastPlace (f : BinaryFormat) (num den : Nat) : Int :=
  max (quotientLog2 num den - f.fractionBits) f.leastExponent

/-- The significand of a quotient before it has been fitted in. -/
def rounded (f : BinaryFormat) (num den : Nat) : Nat :=
  roundQuotient (num <<< (-lastPlace f num den).toNat) (den <<< (lastPlace f num den).toNat)

section Nearest

variable {num den : Nat}

theorem abs_rounded_sub_le (f : BinaryFormat) (num : Nat) (hden : 0 < den) :
    |(rounded f num den : ℚ) - num / den / 2 ^ lastPlace f num den| ≤ 1 / 2 := by
  have hpos : 0 < den <<< (lastPlace f num den).toNat := by
    rw [Nat.shiftLeft_eq]
    positivity
  have h := abs_roundQuotient_sub_le (num <<< (-lastPlace f num den).toNat) hpos
  have hscale := shiftLeft_div_shiftLeft num den (-lastPlace f num den)
  rw [neg_neg, zpow_neg, ← div_eq_mul_inv] at hscale
  rwa [hscale] at h

/-- The significand is at most full, and only the smallest numbers do not fill their binade. -/
theorem rounded_bounds (hnum : 0 < num) (hden : 0 < den) :
    rounded f num den ≤ 2 ^ (f.fractionBits + 1) ∧
      (lastPlace f num den = f.leastExponent ∨ 2 ^ f.fractionBits ≤ rounded f num den) := by
  obtain ⟨hlow, hhigh⟩ := quotientLog2_spec hnum hden
  have hmiss := abs_le.1 (abs_rounded_sub_le f num hden)
  have htwo : (2 : ℚ) ≠ 0 := by decide
  set q := lastPlace f num den with hq
  have hplace : (0 : ℚ) < 2 ^ q := by positivity
  constructor
  · have hfull : (num : ℚ) / den / 2 ^ q < 2 ^ (f.fractionBits + 1) := by
      rw [div_lt_iff₀ hplace, ← zpow_natCast, ← zpow_add₀ htwo]
      refine hhigh.trans_le (zpow_le_zpow_right₀ (by norm_num) ?_)
      push_cast
      have : quotientLog2 num den - f.fractionBits ≤ q := le_max_left _ _
      omega
    have hlt : (rounded f num den : ℚ) < (2 ^ (f.fractionBits + 1) + 1 : Nat) := by
      push_cast
      linarith
    exact Nat.lt_succ_iff.1 (by exact_mod_cast hlt)
  · by_cases hleast : q = f.leastExponent
    · exact .inl hleast
    · right
      have hplace' : q = quotientLog2 num den - f.fractionBits := by
        rw [hq, lastPlace] at hleast ⊢
        omega
      have hfill : (2 : ℚ) ^ f.fractionBits ≤ num / den / 2 ^ q := by
        rw [le_div_iff₀ hplace, ← zpow_natCast, ← zpow_add₀ htwo, hplace']
        simpa using hlow
      have hlt : ((2 ^ f.fractionBits : Nat) : ℚ) < (rounded f num den + 1 : Nat) := by
        push_cast
        linarith
      exact Nat.lt_succ_iff.1 (by exact_mod_cast hlt)

theorem magnitude_ofRatio (negative : Bool) (den : Nat) (hnum : 0 < num) :
    (ofRatio negative num den : Floating f).magnitude =
      min ((lastPlace f num den - f.leastExponent).toNat <<< f.fractionBits + rounded f num den)
        f.infinity := by
  show nearest f num den = _
  rw [nearest, if_neg hnum.ne']
  rfl

theorem size_ofRatio {negative : Bool} (hnum : 0 < num) (hden : 0 < den)
    (h : (ofRatio negative num den : Floating f).IsFinite) :
    (ofRatio negative num den : Floating f).size = rounded f num den * 2 ^ lastPlace f num den := by
  obtain ⟨hfull, hfill⟩ := rounded_bounds (f := f) hnum hden
  have hplace : f.leastExponent ≤ lastPlace f num den := le_max_right _ _
  have hmag : (ofRatio negative num den : Floating f).magnitude =
      (lastPlace f num den - f.leastExponent).toNat <<< f.fractionBits + rounded f num den := by
    have hmin := magnitude_ofRatio (f := f) negative den hnum
    unfold IsFinite at h
    omega
  rw [size_of_magnitude hmag hfull (hfill.imp_left fun heq => by omega)]
  congr 2
  omega

/-- Above the smallest numbers, rounding misses by half of the last place at most. -/
theorem abs_size_ofRatio_sub_le (negative : Bool) (hnum : 0 < num) (hden : 0 < den)
    (hnormal : (2 : ℚ) ^ (f.leastExponent + f.fractionBits) ≤ num / den)
    (h : (ofRatio negative num den : Floating f).IsFinite) :
    |(ofRatio negative num den : Floating f).size - num / den|
      ≤ num / den * (1 / 2 ^ (f.fractionBits + 1)) := by
  have htwo : (2 : ℚ) ≠ 0 := by decide
  obtain ⟨hlow, hhigh⟩ := quotientLog2_spec hnum hden
  have hlog : f.leastExponent + f.fractionBits < quotientLog2 num den + 1 :=
    (zpow_lt_zpow_iff_right₀ (by norm_num)).1 (hnormal.trans_lt hhigh)
  have hplace : lastPlace f num den = quotientLog2 num den - f.fractionBits :=
    max_eq_left (by omega)
  have hgap : (2 : ℚ) ^ lastPlace f num den ≤ num / den * (1 / 2 ^ f.fractionBits) := by
    rw [hplace, zpow_sub₀ htwo, zpow_natCast, div_eq_mul_one_div]
    exact mul_le_mul_of_nonneg_right hlow (by positivity)
  have hpos : (0 : ℚ) < 2 ^ lastPlace f num den := by positivity
  have hmiss := abs_rounded_sub_le f num hden
  have hscale : (rounded f num den : ℚ) * 2 ^ lastPlace f num den - num / den
      = (rounded f num den - num / den / 2 ^ lastPlace f num den) * 2 ^ lastPlace f num den := by
    rw [sub_mul, div_mul_cancel₀ _ hpos.ne']
  rw [size_ofRatio hnum hden h, hscale, abs_mul, abs_of_pos hpos, pow_succ]
  calc |(rounded f num den : ℚ) - num / den / 2 ^ lastPlace f num den| * 2 ^ lastPlace f num den
      ≤ 1 / 2 * 2 ^ lastPlace f num den := mul_le_mul_of_nonneg_right hmiss hpos.le
    _ ≤ 1 / 2 * (num / den * (1 / 2 ^ f.fractionBits)) := by linarith
    _ = num / den * (1 / (2 ^ f.fractionBits * 2)) := by ring

end Nearest

/-! ## Double precision -/

/-- The least quotient that is too great for double precision. -/
def overflow : ℚ := (2 ^ 53 - 1 / 2) * 2 ^ 971

/-- Below it, the last place is not above the one of the top binade. -/
theorem lastPlace_le_of_lt_overflow {num den : Nat} (hnum : 0 < num) (hden : 0 < den)
    (h : (num : ℚ) / den < overflow) : lastPlace .binary64 num den ≤ 971 := by
  obtain ⟨hlow, -⟩ := quotientLog2_spec hnum hden
  have hlt : (2 : ℚ) ^ quotientLog2 num den < 2 ^ (1024 : Int) := by
    refine (hlow.trans_lt h).trans_le ?_
    rw [overflow, zpow_ofNat, show 1024 = 53 + 971 from rfl, pow_add]
    exact mul_le_mul_of_nonneg_right (by norm_num) (by positivity)
  have hlog : quotientLog2 num den < 1024 := (zpow_lt_zpow_iff_right₀ (by norm_num)).1 hlt
  have hplace : quotientLog2 num den - BinaryFormat.binary64.fractionBits ≤ 971 := by
    show quotientLog2 num den - 52 ≤ 971
    omega
  exact max_le hplace (by decide)

/-- In the top binade the significand is not rounded up to the next one. -/
theorem rounded_lt_of_lt_overflow {num den : Nat} (hden : 0 < den)
    (h : (num : ℚ) / den < overflow) (htop : lastPlace .binary64 num den = 971) :
    rounded .binary64 num den < 2 ^ 53 := by
  have hmiss := (abs_le.1 (abs_rounded_sub_le .binary64 num hden)).2
  have hq : (num : ℚ) / den / 2 ^ lastPlace .binary64 num den < 2 ^ 53 - 1 / 2 := by
    rw [htop, div_lt_iff₀ (by positivity)]
    exact h
  have hlt : (rounded .binary64 num den : ℚ) < (2 ^ 53 : Nat) := by
    push_cast
    linarith
  exact_mod_cast hlt

theorem isFinite_ofRatio {negative : Bool} {num den : Nat} (hden : 0 < den)
    (h : (num : ℚ) / den < overflow) : (ofRatio negative num den : Binary64).IsFinite := by
  rcases Nat.eq_zero_or_pos num with rfl | hnum
  · show nearest .binary64 0 den < _
    rw [nearest, if_pos rfl]
    decide
  · have hplace := lastPlace_le_of_lt_overflow hnum hden h
    have hless := rounded_lt_of_lt_overflow hden h
    have hfull := (rounded_bounds (f := .binary64) hnum hden).1
    have hmag := magnitude_ofRatio (f := .binary64) negative den hnum
    have hinfinity : BinaryFormat.binary64.infinity = 2047 * 2 ^ 52 := by decide
    have hleast : BinaryFormat.binary64.leastExponent = -1074 := by decide
    have hbits : BinaryFormat.binary64.fractionBits = 52 := rfl
    unfold IsFinite
    rw [hmag, hinfinity, hleast, hbits, Nat.shiftLeft_eq]
    rw [hbits, pow_succ] at hfull
    rw [pow_succ] at hless
    refine (Nat.min_le_left _ _).trans_lt ?_
    have hpos : 0 < 2 ^ 52 := Nat.two_pow_pos 52
    generalize lastPlace .binary64 num den = q at *
    generalize rounded .binary64 num den = m at *
    generalize 2 ^ 52 = full at *
    -- the top binade has to stay below its end, any other one may be full
    by_cases htop : q = 971
    · have hcount : (q - -1074).toNat = 2045 := by omega
      have hm := hless htop
      rw [hcount]
      omega
    · have hcount : (q - -1074).toNat * full ≤ 2044 * full :=
        Nat.mul_le_mul_right full (by omega)
      omega

theorem size_lt_overflow {x : Binary64} (h : x.IsFinite) : x.size < overflow := by
  have hlt : x.magnitude < 2047 * 2 ^ 52 := h
  have hm : (x.significand.1 : ℚ) + 1 ≤ 2 ^ 53 := by exact_mod_cast x.significand_fst_lt
  have hq : x.significand.2 = -1074 + (x.magnitude / 2 ^ 52 - 1 : Nat) := x.significand_snd
  have hpow : (2 : ℚ) ^ x.significand.2 ≤ 2 ^ ((971 : Nat) : Int) :=
    zpow_le_zpow_right₀ (by norm_num) (by omega)
  rw [zpow_natCast] at hpow
  have hpos : (0 : ℚ) < 2 ^ 971 := by positivity
  rw [size, overflow]
  generalize (2 : ℚ) ^ 971 = top at *
  calc (x.significand.1 : ℚ) * 2 ^ x.significand.2
      ≤ x.significand.1 * top := mul_le_mul_of_nonneg_left hpow (Nat.cast_nonneg _)
    _ < (2 ^ 53 - 1 / 2) * top := mul_lt_mul_of_pos_right (by linarith) hpos

/-- A finite number stays finite under rounding to its own precision. -/
theorem isFinite_convert {x : Binary64} (h : x.IsFinite) : (x.convert : Binary64).IsFinite := by
  rw [convert, if_pos h]
  refine isFinite_ofRatio x.ratio_pos ?_
  rw [x.ratio_eq_size]
  exact size_lt_overflow h

end Floating

end PlayerSlots
