import PlayerSlots.Json.Numeral
import PlayerSlots.Proofs.Numeric.Shortest

/-! # Numerals that do not overflow

The value of a numeral is rounded more than once on the way, so the text of a finite number could
overflow when it is read. It does not.

* `fillWord_le`, `fillWord_scaled_lt`: the digits that are read make no more than all of them.
* `isSome_real?`: a numeral with room for two roundings, `slack`, is read as some number.
* `isSome_value?_single`, `isSome_value?_double`: so is the text of every finite number. Only the
  three greatest leave no such room, and of these the digits are computed.
* `isFinite_of_value?`: whatever a numeral is read as is finite.
-/

namespace PlayerSlots
set_option autoImplicit false

/-! ## Digits -/

theorem foldl_digits (n : Nat) (ds : List Digit) :
    ds.foldl (fun n d => 10 * n + d.val) n = n * 10 ^ ds.length + valueOf ds := by
  induction ds generalizing n with
  | nil => simp [valueOf]
  | cons d ds ih =>
    rw [valueOf, List.foldl_cons, List.foldl_cons, ih, ih, List.length_cons, pow_succ]
    ring

theorem valueOf_append (ds es : List Digit) :
    valueOf (ds ++ es) = valueOf ds * 10 ^ es.length + valueOf es := by
  rw [← foldl_digits, valueOf, List.foldl_append]
  rfl

theorem valueOf_cons (d : Digit) (ds : List Digit) :
    valueOf (d :: ds) = d.val * 10 ^ ds.length + valueOf ds := by
  rw [← foldl_digits]
  simp [valueOf]

theorem valueOf_lt (ds : List Digit) : valueOf ds < 10 ^ ds.length := by
  induction ds with
  | nil => decide
  | cons d ds ih =>
    have hd : d.val * 10 ^ ds.length ≤ 9 * 10 ^ ds.length :=
      Nat.mul_le_mul_right _ (Nat.le_of_lt_succ d.isLt)
    rw [valueOf_cons, List.length_cons, pow_succ]
    omega

@[simp] theorem valueOf_replicate_zero (k : Nat) : valueOf (List.replicate k 0) = 0 := by
  induction k with
  | zero => rfl
  | succ k ih => simp [List.replicate_succ, valueOf_cons, ih]

/-- Digits can be cut anywhere. -/
theorem valueOf_take_add_drop (ds : List Digit) (k : Nat) :
    valueOf (ds.take k) * 10 ^ (ds.drop k).length + valueOf (ds.drop k) = valueOf ds := by
  rw [← valueOf_append, List.take_append_drop]

theorem lt_pow_length_digitsOf (n : Nat) : n < 10 ^ (digitsOf n).length := by
  have h := valueOf_lt (digitsOf n)
  rwa [valueOf_digitsOf] at h

theorem pow_length_digitsOf_le {n : Nat} (h : n ≠ 0) : 10 ^ ((digitsOf n).length - 1) ≤ n := by
  fun_induction digitsOf n with
  | case1 n hlt => exact Nat.one_le_iff_ne_zero.2 h
  | case2 n hge ih =>
    obtain ⟨k, hk⟩ := Nat.exists_eq_succ_of_ne_zero
      (List.length_pos_of_ne_nil (digitsOf_ne_nil (n / 10))).ne'
    have hpow : 10 ^ k ≤ n / 10 := by
      have hle := ih (by omega)
      rwa [hk] at hle
    rw [List.length_append, List.length_singleton, Nat.add_sub_cancel, hk, pow_succ]
    omega

theorem length_digitsOf {n k : Nat} (hlow : 10 ^ k ≤ n) (hhigh : n < 10 ^ (k + 1)) :
    (digitsOf n).length = k + 1 := by
  have hpos : 0 < 10 ^ k := Nat.pow_pos (by decide)
  have hlength := List.length_pos_of_ne_nil (digitsOf_ne_nil n)
  have hlt := (Nat.pow_lt_pow_iff_right (by decide)).1
    (hlow.trans_lt (lt_pow_length_digitsOf n))
  have hle := (Nat.pow_lt_pow_iff_right (by decide)).1
    ((pow_length_digitsOf_le (by omega : n ≠ 0)).trans_lt hhigh)
  omega

theorem quotientLog10_eq {num den k : Nat} (hle : den ≤ num) (hlow : 10 ^ k ≤ num / den)
    (hhigh : num / den < 10 ^ (k + 1)) : quotientLog10 num den = k := by
  rw [quotientLog10, if_pos hle, decimalLength, length_digitsOf hlow hhigh]
  omega

namespace Decimal

/-- The power of ten at which the first digit stands. -/
def firstPlace (d : Decimal) : Int := d.exponent + (digitsOf d.digits).length - 1

theorem value_lt (d : Decimal) : d.value < 10 ^ (d.firstPlace + 1) := by
  have hdigits : (d.digits : ℚ) < 10 ^ (digitsOf d.digits).length := by
    exact_mod_cast lt_pow_length_digitsOf d.digits
  have hplace : d.firstPlace + 1 = (digitsOf d.digits).length + d.exponent := by
    rw [firstPlace]
    omega
  rw [value, hplace, zpow_add₀ (by norm_num), zpow_natCast]
  exact mul_lt_mul_of_pos_right hdigits (by positivity)

theorem le_value {d : Decimal} (h : d.digits ≠ 0) : 10 ^ d.firstPlace ≤ d.value := by
  have hdigits : (10 : ℚ) ^ ((digitsOf d.digits).length - 1) ≤ d.digits := by
    exact_mod_cast pow_length_digitsOf_le h
  have hlength := List.length_pos_of_ne_nil (digitsOf_ne_nil d.digits)
  have hplace : d.firstPlace = ((digitsOf d.digits).length - 1 : Nat) + d.exponent := by
    rw [firstPlace]
    omega
  rw [value, hplace, zpow_add₀ (by norm_num), zpow_natCast]
  exact mul_le_mul_of_nonneg_right hdigits (by positivity)

end Decimal

namespace Numeral

/-- The digits that still fit a word, and zeros in place of the others, make no more than all. -/
theorem fillWord_le (n : Nat) (ds : List Digit) :
    (fillWord n ds).1 * 10 ^ (fillWord n ds).2.length ≤ n * 10 ^ ds.length + valueOf ds := by
  induction ds generalizing n with
  | nil => simp [fillWord, valueOf]
  | cons d ds ih =>
    rw [fillWord]
    split
    · refine (ih _).trans_eq ?_
      rw [valueOf_cons, List.length_cons, pow_succ]
      ring
    · exact Nat.le_add_right _ _

theorem fillWord_fst_lt {n : Nat} (h : n < UInt64.size) (ds : List Digit) :
    (fillWord n ds).1 < UInt64.size := by
  induction ds generalizing n with
  | nil => exact h
  | cons d ds ih =>
    rw [fillWord]
    split
    · next hfits => exact ih hfits
    · exact h

theorem length_fillWord_snd_le (n : Nat) (ds : List Digit) :
    (fillWord n ds).2.length ≤ ds.length := by
  induction ds generalizing n with
  | nil => exact Nat.le_refl 0
  | cons d ds ih =>
    rw [fillWord]
    split
    · exact (ih _).trans (Nat.le_succ _)
    · exact Nat.le_refl _

theorem fillWord_of_lt {n : Nat} {ds : List Digit}
    (h : n * 10 ^ ds.length + valueOf ds < UInt64.size) :
    fillWord n ds = (n * 10 ^ ds.length + valueOf ds, []) := by
  induction ds generalizing n with
  | nil => simp [fillWord, valueOf]
  | cons d ds ih =>
    have hsum : n * 10 ^ (d :: ds).length + valueOf (d :: ds)
        = (10 * n + d.val) * 10 ^ ds.length + valueOf ds := by
      rw [valueOf_cons, List.length_cons, pow_succ]
      ring
    have hfits : 10 * n + d.val < UInt64.size := by
      have hle : (10 * n + d.val) * 1 ≤ (10 * n + d.val) * 10 ^ ds.length :=
        Nat.mul_le_mul_left _ (Nat.pow_pos (by decide))
      omega
    rw [hsum] at h ⊢
    rw [fillWord, if_pos hfits, ih h]

/-! ## Values -/

/-- The absolute value that a numeral stands for. -/
def size (n : Numeral) : ℚ :=
  (n.whole * 10 ^ n.fraction.length + valueOf n.fraction : Nat)
    * 10 ^ (n.exponent.getD 0 - n.fraction.length)

/-- What two roundings to double precision can add. -/
def slack : ℚ := (1 + 1 / 2 ^ 53) ^ 2

open Floating (overflow)

theorem lt_overflow : (10 : ℚ) ^ greatestPower < overflow := by
  have hcast : ∀ j k : Nat, 10 ^ j * 2 < (2 ^ 54 - 1) * 2 ^ k →
      (10 : ℚ) ^ j < (2 ^ 53 - 1 / 2) * 2 ^ k := by
    intro j k h
    have h' : ((10 ^ j * 2 : Nat) : ℚ) < ((2 ^ 54 - 1) * 2 ^ k : Nat) := by exact_mod_cast h
    push_cast at h'
    linarith
  exact hcast greatestPower 971 (by decide +kernel)

theorem overflow_lt : overflow < 10 ^ (greatestPower + 1) := by
  have hcast : ∀ j k : Nat, 2 ^ 53 * 2 ^ k < 10 ^ j → (2 ^ 53 - 1 / 2 : ℚ) * 2 ^ k < 10 ^ j := by
    intro j k h
    have h' : ((2 ^ 53 * 2 ^ k : Nat) : ℚ) < (10 ^ j : Nat) := by exact_mod_cast h
    have hpos : (0 : ℚ) < 2 ^ k := by positivity
    push_cast at h'
    linarith
  exact hcast (greatestPower + 1) 971 (by decide +kernel)

/-- A whole number is rounded by half of its last place at most. -/
theorem abs_size_ofRatio_natural_le (negative : Bool) {n : Nat} (h : (n : ℚ) < overflow) :
    |(Floating.ofRatio negative n 1 : Binary64).size - n| ≤ n * (1 / 2 ^ 53) := by
  rcases Nat.eq_zero_or_pos n with rfl | hpos
  · have hzero : (Floating.ofRatio negative 0 1 : Binary64).size = 0 := by
      have hsize := Floating.size_of_magnitude (x := (Floating.ofRatio negative 0 1 : Binary64))
        (k := 0) (m := 0) rfl (Nat.zero_le _) (.inl rfl)
      rw [hsize, Nat.cast_zero, zero_mul]
    rw [hzero]
    simp
  · have hfinite : (Floating.ofRatio negative n 1 : Binary64).IsFinite :=
      Floating.isFinite_ofRatio Nat.one_pos (by simpa using h)
    have hone : (1 : ℚ) ≤ n := by exact_mod_cast hpos
    have hnormal : (2 : ℚ) ^ (BinaryFormat.binary64.leastExponent
        + BinaryFormat.binary64.fractionBits) ≤ (n : ℚ) / (1 : Nat) := by
      rw [Nat.cast_one, div_one]
      exact (zpow_le_one_of_nonpos₀ (by norm_num) (by decide)).trans hone
    have hsize := Floating.abs_size_ofRatio_sub_le negative hpos Nat.one_pos hnormal hfinite
    rwa [Nat.cast_one, div_one] at hsize

/-- A product of two whole numbers is finite if there is room for the roundings. -/
theorem isFinite_mul {negative negative' : Bool} {m n : Nat} (h : (m : ℚ) * n * slack < overflow)
    (hm : (m : ℚ) < overflow) (hn : (n : ℚ) < overflow) :
    ((Floating.ofRatio negative m 1 : Binary64).mul (.ofRatio negative' n 1)).IsFinite := by
  set x : Binary64 := Floating.ofRatio negative m 1
  set y : Binary64 := Floating.ofRatio negative' n 1
  have hx : x.size ≤ m * (1 + 1 / 2 ^ 53) := by
    linarith [(abs_le.1 (abs_size_ofRatio_natural_le negative hm)).2]
  have hy : y.size ≤ n * (1 + 1 / 2 ^ 53) := by
    linarith [(abs_le.1 (abs_size_ofRatio_natural_le negative' hn)).2]
  have hratio : ((x.ratio.1 * y.ratio.1 : Nat) : ℚ) / (x.ratio.2 * y.ratio.2 : Nat)
      = x.size * y.size := by
    push_cast
    rw [mul_div_mul_comm, x.ratio_eq_size, y.ratio_eq_size]
  refine Floating.isFinite_ofRatio (Nat.mul_pos x.ratio_pos y.ratio_pos) ?_
  rw [hratio]
  calc x.size * y.size ≤ m * (1 + 1 / 2 ^ 53) * (n * (1 + 1 / 2 ^ 53)) :=
        mul_le_mul hx hy y.size_nonneg (by positivity)
    _ = m * n * slack := by rw [slack]; ring
    _ < overflow := h

theorem isSome_multiplyByPower? {negative : Bool} {m k : Nat}
    (h : (m : ℚ) * 10 ^ k * slack < overflow) :
    (multiplyByPower? (.ofRatio negative m 1) k).isSome := by
  have hslack : 1 ≤ slack := by norm_num [slack]
  have hpower : (1 : ℚ) ≤ 10 ^ k := one_le_pow₀ (by norm_num)
  unfold multiplyByPower?
  by_cases hk : k ≤ greatestPower
  · have hten : ((10 ^ k : Nat) : ℚ) < overflow := by
      rw [Nat.cast_pow]
      exact (pow_le_pow_right₀ (by norm_num) hk).trans_lt lt_overflow
    have hsmall : (m : ℚ) < overflow := by
      refine lt_of_le_of_lt ?_ h
      rw [mul_assoc]
      exact le_mul_of_one_le_right (by positivity)
        (one_le_mul_of_one_le_of_one_le hpower hslack)
    have hfinite : ((Floating.ofRatio negative m 1 : Binary64).mul (powerOfTen k)).IsFinite :=
      isFinite_mul (n := 10 ^ k) (by rw [Nat.cast_pow]; exact h) hsmall hten
    rw [if_pos hk]
    simp only [if_pos hfinite, Option.isSome_some]
  · rw [if_neg hk]
    rcases Nat.eq_zero_or_pos m with rfl | hpos
    · rfl
    · have hone : (1 : ℚ) ≤ m := by exact_mod_cast hpos
      have hgreat : (10 : ℚ) ^ (greatestPower + 1) ≤ 10 ^ k :=
        pow_le_pow_right₀ (by norm_num) (Nat.lt_of_not_le hk)
      have hle : (10 : ℚ) ^ k ≤ m * 10 ^ k * slack := by
        rw [mul_comm (m : ℚ), mul_assoc]
        exact le_mul_of_one_le_right (by positivity)
          (one_le_mul_of_one_le_of_one_le hone hslack)
      exact absurd (hgreat.trans hle) (not_le.2 (h.trans overflow_lt))

theorem isSome_scaled? {negative : Bool} {m : Nat} {e : Int}
    (h : (m : ℚ) * 10 ^ max e 0 * slack < overflow) : (scaled? negative m e).isSome := by
  unfold scaled?
  simp only
  by_cases he : e < 0
  · rw [if_pos he]
    rfl
  · rw [if_neg he]
    have habs : max e 0 = (e.natAbs : Int) := by omega
    rw [habs, zpow_natCast] at h
    exact isSome_multiplyByPower? h

theorem size_pos_of_fillWord {n : Numeral} (h : (fillWord n.whole n.fraction).1 ≠ 0) :
    0 < n.size := by
  have hle := fillWord_le n.whole n.fraction
  have hpos : 0 < n.whole * 10 ^ n.fraction.length + valueOf n.fraction :=
    (Nat.mul_pos (Nat.pos_of_ne_zero h) (Nat.pow_pos (by decide))).trans_le hle
  have hpos' : (0 : ℚ) < (n.whole * 10 ^ n.fraction.length + valueOf n.fraction : Nat) := by
    exact_mod_cast hpos
  unfold size
  positivity

/-- The digits that are read, at a place that is not above their own, have room for the
roundings. Without a positive exponent there is room for any word. -/
theorem fillWord_scaled_lt {n : Numeral} (hwhole : n.whole < UInt64.size)
    (h : n.size * slack < overflow) {e : Int}
    (he : e ≤ 0 ∨ e ≤ n.exponent.getD 0 - n.fraction.length
      + (fillWord n.whole n.fraction).2.length) :
    ((fillWord n.whole n.fraction).1 : ℚ) * 10 ^ max e 0 * slack < overflow := by
  have hslack : (0 : ℚ) < slack := by norm_num [slack]
  have hten : (10 : ℚ) ≠ 0 := by norm_num
  have hword := fillWord_fst_lt hwhole n.fraction
  have hle := fillWord_le n.whole n.fraction
  by_cases hneg : e ≤ 0
  · rw [max_eq_right hneg, zpow_zero, mul_one]
    have hword' : ((fillWord n.whole n.fraction).1 : ℚ) < 2 ^ 64 := by exact_mod_cast hword
    have hroom : (2 : ℚ) ^ 64 * slack ≤ 2 ^ 52 * 2 ^ 971 := by
      have hpow : (2 : ℚ) ^ 13 ≤ 2 ^ 971 := pow_le_pow_right₀ (by norm_num) (by norm_num)
      refine le_trans ?_ (mul_le_mul_of_nonneg_left hpow (by positivity))
      norm_num [slack]
    have hoverflow : (2 : ℚ) ^ 52 * 2 ^ 971 ≤ overflow :=
      mul_le_mul_of_nonneg_right (by norm_num) (by positivity)
    exact (mul_lt_mul_of_pos_right hword' hslack).trans_le (hroom.trans hoverflow)
  · rw [max_eq_left (Int.le_of_not_le hneg)]
    refine lt_of_le_of_lt (mul_le_mul_of_nonneg_right ?_ hslack.le) h
    have hle' : ((fillWord n.whole n.fraction).1 : ℚ)
        * 10 ^ (fillWord n.whole n.fraction).2.length
        ≤ (n.whole * 10 ^ n.fraction.length + valueOf n.fraction : Nat) := by exact_mod_cast hle
    have hplace : e ≤ (fillWord n.whole n.fraction).2.length
        + (n.exponent.getD 0 - n.fraction.length) := by
      have hplace' := he.resolve_left hneg
      omega
    calc ((fillWord n.whole n.fraction).1 : ℚ) * 10 ^ e
        ≤ (fillWord n.whole n.fraction).1 * 10 ^ (((fillWord n.whole n.fraction).2.length : Int)
          + (n.exponent.getD 0 - n.fraction.length)) :=
          mul_le_mul_of_nonneg_left (zpow_le_zpow_right₀ (by norm_num) hplace) (by positivity)
      _ = (fillWord n.whole n.fraction).1 * 10 ^ (fillWord n.whole n.fraction).2.length
          * 10 ^ (n.exponent.getD 0 - n.fraction.length) := by
          rw [zpow_add₀ hten, zpow_natCast, mul_assoc]
      _ ≤ n.size := mul_le_mul_of_nonneg_right hle' (by positivity)

/-- A numeral that leaves room for the roundings is read as a finite number. -/
theorem isSome_real? {n : Numeral} (hwhole : n.whole < UInt64.size)
    (hexponent : ∀ e ∈ n.exponent, 0 < n.size → e ≤ exponentLimit)
    (h : n.size * slack < overflow) : n.real?.isSome := by
  have hfill : fillWord 0 (digitsOf n.whole) = (n.whole, []) := by
    have hvalue : 0 * 10 ^ (digitsOf n.whole).length + valueOf (digitsOf n.whole) = n.whole := by
      rw [Nat.zero_mul, Nat.zero_add, valueOf_digitsOf]
    rw [fillWord_of_lt (by rw [hvalue]; exact hwhole), hvalue]
  have hlen := length_fillWord_snd_le n.whole n.fraction
  have hroom := fun e => fillWord_scaled_lt hwhole h (e := e)
  unfold real?
  simp only [hfill]
  cases hn : n.exponent with
  | none =>
    rw [hn, Option.getD_none] at hroom
    refine isSome_scaled? (hroom _ ?_)
    simp only [List.length_nil]
    omega
  | some e =>
    rw [hn, Option.getD_some] at hroom
    simp only
    split
    · next hgreat =>
      -- so large an exponent is negative, or it stands beside zeros
      have hzero : ¬ ((fillWord n.whole n.fraction).1 ≠ 0 ∧ 0 < e) := by
        rintro ⟨hdigits, hpos⟩
        have hsize : 0 < n.size := size_pos_of_fillWord hdigits
        have hlimit := hexponent e hn hsize
        omega
      rw [if_neg hzero]
      rfl
    · refine isSome_scaled? (hroom _ ?_)
      simp only [List.length_nil]
      omega

/-! ## Decimals -/

theorem whole_le_size {n : Numeral} (h : n.exponent = none) : (n.whole : ℚ) ≤ n.size := by
  have hpos : (0 : ℚ) < 10 ^ n.fraction.length := by positivity
  rw [size, h, Option.getD_none, zero_sub, zpow_neg, zpow_natCast, ← div_eq_mul_inv,
    le_div_iff₀ hpos]
  push_cast
  exact le_add_of_nonneg_right (by positivity)

variable {style : DecimalStyle} {negative : Bool} {d : Decimal}

/-- A decimal is written as what it is. -/
theorem size_ofDecimal : (ofDecimal style negative d).size = d.value := by
  have hten : (10 : ℚ) ≠ 0 := by norm_num
  have hdigits := valueOf_digitsOf d.digits
  have hlength := List.length_pos_of_ne_nil (digitsOf_ne_nil d.digits)
  unfold ofDecimal
  simp only
  split
  · split
    · next he =>
      obtain ⟨k, hk⟩ := Int.eq_ofNat_of_zero_le he
      have hzero : valueOf [(0 : Digit)] = 0 := rfl
      simp only [size, Decimal.value, hk, Int.toNat_natCast, Nat.pow_eq, List.length_singleton,
        hzero, Nat.add_zero, pow_one, Option.getD_none, Nat.cast_one, zero_sub, zpow_neg_one,
        zpow_natCast]
      push_cast
      field_simp
    · next he =>
      set places := d.exponent.natAbs with hplaces
      set padded := List.replicate (places + 1 - (digitsOf d.digits).length) 0
        ++ digitsOf d.digits with hpadded
      have hlen : places < padded.length := by
        rw [hpadded, List.length_append, List.length_replicate]
        omega
      have hdrop : (padded.drop (padded.length - places)).length = places := by
        rw [List.length_drop]
        omega
      have hvalue : valueOf (padded.take (padded.length - places)) * 10 ^ places
          + valueOf (padded.drop (padded.length - places)) = d.digits := by
        have hcut := valueOf_take_add_drop padded (padded.length - places)
        rw [hdrop] at hcut
        rw [hcut, hpadded, valueOf_append, valueOf_replicate_zero, Nat.zero_mul, Nat.zero_add,
          hdigits]
      have hexp : (0 : Int) - places = d.exponent := by omega
      simp only [size, Decimal.value, hdrop, hvalue, Option.getD_none, hexp]
  · have hvalue := valueOf_take_add_drop (digitsOf d.digits) 1
    rw [hdigits] at hvalue
    have hexp : d.exponent + (digitsOf d.digits).length - 1
        - ((digitsOf d.digits).drop 1).length = d.exponent := by
      rw [List.length_drop]
      omega
    simp only [size, Decimal.value, hvalue, Option.getD_some, hexp]

/-- A plain numeral is short, and one with an exponent has one digit before its point. -/
theorem ofDecimal_shape (style : DecimalStyle) (negative : Bool) (d : Decimal) :
    (ofDecimal style negative d).exponent = none ∧ d.firstPlace ≤ style.greatest ∨
      (ofDecimal style negative d).exponent = some d.firstPlace ∧
        (ofDecimal style negative d).whole = valueOf ((digitsOf d.digits).take 1) := by
  unfold ofDecimal
  simp only
  split
  · next hplain =>
    left
    split <;> exact ⟨rfl, hplain.2⟩
  · exact .inr ⟨rfl, rfl⟩

/-- Eighteen zeros at most fit a word. -/
theorem whole_ofDecimal_lt (hstyle : style.greatest < 18) :
    (ofDecimal style negative d).whole < UInt64.size := by
  have hword : (10 : ℚ) ^ (18 : Int) ≤ (UInt64.size : Nat) := by norm_num [UInt64.size]
  rcases ofDecimal_shape style negative d with ⟨hnone, hfirst⟩ | ⟨-, hdigit⟩
  · have hlt : ((ofDecimal style negative d).whole : ℚ) < (UInt64.size : Nat) := by
      refine (whole_le_size hnone).trans_lt (lt_of_lt_of_le ?_ hword)
      rw [size_ofDecimal]
      exact d.value_lt.trans_le (zpow_le_zpow_right₀ (by norm_num) (by omega))
    exact_mod_cast hlt
  · have hlt := valueOf_lt ((digitsOf d.digits).take 1)
    have hlen : 10 ^ ((digitsOf d.digits).take 1).length ≤ 10 ^ 1 :=
      Nat.pow_le_pow_right (by decide) (List.length_take_le 1 _)
    rw [hdigit]
    exact hlt.trans_le (hlen.trans (by decide))

/-- The first digit of a decimal that does not overflow stands below the greatest power of ten. -/
theorem firstPlace_lt (hpos : 0 < d.value) (h : d.value < overflow) :
    d.firstPlace < (greatestPower + 1 : Nat) := by
  have hdigits : d.digits ≠ 0 := by
    intro hzero
    rw [Decimal.value, hzero, Nat.cast_zero, zero_mul] at hpos
    exact lt_irrefl _ hpos
  have hlt : (10 : ℚ) ^ d.firstPlace < 10 ^ ((greatestPower + 1 : Nat) : Int) := by
    rw [zpow_natCast]
    exact (Decimal.le_value hdigits).trans_lt (h.trans overflow_lt)
  exact (zpow_lt_zpow_iff_right₀ (by norm_num)).1 hlt

/-- A decimal that leaves room for the roundings is read as some number, in every layout that
needs no more than eighteen zeros. -/
theorem isSome_value?_ofDecimal (hstyle : style.greatest < 18) (h : d.value * slack < overflow) :
    (ofDecimal style negative d).value?.isSome := by
  have hslack : 1 ≤ slack := by norm_num [slack]
  have hexponent : ∀ e ∈ (ofDecimal style negative d).exponent,
      0 < (ofDecimal style negative d).size → e ≤ exponentLimit := by
    intro e he hpos
    rw [size_ofDecimal] at hpos
    rcases ofDecimal_shape style negative d with ⟨hnone, -⟩ | ⟨hsome, -⟩
    · rw [hnone] at he
      cases he
    · rw [hsome] at he
      cases he
      have hlt : d.value < overflow := (le_mul_of_one_le_right hpos.le hslack).trans_lt h
      exact (firstPlace_lt hpos hlt).le.trans (by decide)
  have hreal : (ofDecimal style negative d).real?.isSome :=
    isSome_real? (whole_ofDecimal_lt hstyle) hexponent (by rwa [size_ofDecimal])
  unfold value?
  split
  · split
    · rfl
    · split <;> rfl
  · rw [Option.isSome_map]
    exact hreal

/-! ## Floating-point numbers -/

theorem isSome_value?_ofFloating {f : BinaryFormat} {x : Floating f} (hstyle : style.greatest < 18)
    (h : (x.significand.1 + 1 / 2 : ℚ) * 2 ^ x.significand.2 * slack < overflow) :
    (ofFloating style x).value?.isSome := by
  have hslack : (0 : ℚ) ≤ slack := by norm_num [slack]
  unfold ofFloating
  split
  · cases x.negative <;> decide +kernel
  · refine isSome_value?_ofDecimal hstyle (lt_of_le_of_lt ?_ h)
    exact mul_le_mul_of_nonneg_right x.value_shortest_le hslack

/-- The finite double-precision numbers from the greatest downwards. -/
def fromTop (negative : Bool) (k : Nat) : Binary64 :=
  ⟨negative, 2047 * 2 ^ 52 - 1 - k, (Nat.sub_le _ _).trans (by decide)⟩

/-- From the three greatest numbers the roundings could overflow, but they do not. -/
theorem isSome_value?_fromTop {k : Nat} (hk : k < 3) (negative : Bool) :
    (ofFloating doubleStyle (fromTop negative k)).value?.isSome := by
  have hlog : quotientLog10 (fromTop negative k).interval.value
      (fromTop negative k).interval.denominator = 308 := by
    interval_cases k <;> cases negative <;>
      exact quotientLog10_eq (by decide +kernel) (by decide +kernel) (by decide +kernel)
  have hzero : (fromTop negative k).magnitude ≠ 0 := by
    interval_cases k <;> cases negative <;> decide +kernel
  have hshortest : (fromTop negative k).shortest = ⟨17976931348623157 - 2 * k, 292⟩ := by
    rw [Floating.shortest]
    simp only [hlog]
    interval_cases k <;> cases negative <;> decide +kernel
  have hvalue :
      (ofDecimal doubleStyle negative ⟨17976931348623157 - 2 * k, 292⟩).value?.isSome := by
    interval_cases k <;> cases negative <;> decide +kernel
  rw [ofFloating, if_neg hzero, hshortest]
  exact hvalue

/-- Below the top binade there is room for the roundings. -/
theorem scaled_lt_overflow {a : ℚ} {q : Int} (ha : a ≤ 2 ^ 53) (hq : q ≤ 970) :
    a * 2 ^ q * slack < overflow := by
  have hslack : (0 : ℚ) ≤ slack := by norm_num [slack]
  have hpow : (2 : ℚ) ^ q ≤ 2 ^ (970 : Int) := zpow_le_zpow_right₀ (by norm_num) hq
  have hnext : (2 : ℚ) ^ 971 = 2 * 2 ^ (970 : Int) := by
    rw [mul_comm, ← zpow_add_one₀ (by norm_num), ← zpow_natCast]
    rfl
  have hpos : (0 : ℚ) < 2 ^ (970 : Int) := by positivity
  calc a * 2 ^ q * slack ≤ 2 ^ 53 * 2 ^ (970 : Int) * slack :=
        mul_le_mul_of_nonneg_right (mul_le_mul ha hpow (by positivity) (by positivity)) hslack
    _ = 2 ^ 53 * slack * 2 ^ (970 : Int) := by rw [mul_right_comm]
    _ < (2 ^ 53 - 1 / 2) * 2 * 2 ^ (970 : Int) :=
        mul_lt_mul_of_pos_right (by norm_num [slack]) hpos
    _ = overflow := by rw [overflow, hnext, mul_assoc]

theorem isSome_value?_single {x : Binary32} (h : x.IsFinite) :
    (ofFloating singleStyle x).value?.isSome := by
  have hlt : x.magnitude < 255 * 2 ^ 23 := h
  have hm : (x.significand.1 : ℚ) + 1 ≤ 2 ^ 24 := by exact_mod_cast x.significand_fst_lt
  have hq : x.significand.2 = -149 + (x.magnitude / 2 ^ 23 - 1 : Nat) := x.significand_snd
  exact isSome_value?_ofFloating (by decide) (scaled_lt_overflow (by linarith) (by omega))

theorem isSome_value?_double {x : Binary64} (h : x.IsFinite) :
    (ofFloating doubleStyle x).value?.isSome := by
  have hlt : x.magnitude < 2047 * 2 ^ 52 := h
  have hm : (x.significand.1 : ℚ) + 1 ≤ 2 ^ 53 := by exact_mod_cast x.significand_fst_lt
  have hq : x.significand.2 = -1074 + (x.magnitude / 2 ^ 52 - 1 : Nat) := x.significand_snd
  by_cases hbinade : x.magnitude / 2 ^ 52 = 2046
  · by_cases htop : 2047 * 2 ^ 52 - 3 ≤ x.magnitude
    · obtain ⟨k, hk⟩ := Nat.exists_eq_add_of_le (Nat.le_sub_one_of_lt hlt)
      have hmag : x.magnitude = 2047 * 2 ^ 52 - 1 - k := by omega
      have hx : x = fromTop x.negative k := by
        cases x
        cases hmag
        rfl
      rw [hx]
      exact isSome_value?_fromTop (by omega) x.negative
    · have hsig : x.significand.1 = x.magnitude % 2 ^ 52 + 2 ^ 52 :=
        Floating.significand_fst_of_normal (hbinade.trans_ne (by decide))
      have hsig' : (x.significand.1 : ℚ) + 4 ≤ 2 ^ 53 := by
        have hnat : x.significand.1 + 4 ≤ 2 ^ 53 := by omega
        exact_mod_cast hnat
      have hq' : x.significand.2 = 971 := by omega
      refine isSome_value?_ofFloating (by decide) ?_
      rw [hq', zpow_ofNat, mul_right_comm]
      exact mul_lt_mul_of_pos_right (by norm_num [slack]; linarith) (by positivity)
  · exact isSome_value?_ofFloating (by decide) (scaled_lt_overflow (by linarith) (by omega))

/-! ## Finite values -/

theorem isFinite_ofRatio_word {n : Nat} (h : n < UInt64.size) (negative : Bool) :
    (Floating.ofRatio negative n 1 : Binary64).IsFinite := by
  refine Floating.isFinite_ofRatio Nat.one_pos ?_
  rw [Nat.cast_one, div_one]
  refine lt_trans ?_ lt_overflow
  have hword : (n : ℚ) < 10 ^ 20 := by
    exact_mod_cast h.trans_le (by decide : UInt64.size ≤ 10 ^ 20)
  exact hword.trans_le (pow_le_pow_right₀ (by norm_num) (by decide))

/-- Dividing by a positive power of ten keeps a number finite. -/
theorem isFinite_div_powerOfTen {x : Binary64} (h : x.IsFinite) {k : Nat} (hpos : 0 < k)
    (hk : k ≤ greatestPower) : (x.div (powerOfTen k)).IsFinite := by
  have hten : ((10 ^ k : Nat) : ℚ) < overflow := by
    rw [Nat.cast_pow]
    exact (pow_le_pow_right₀ (by norm_num) hk).trans_lt lt_overflow
  have hbase : (10 : ℚ) ≤ (10 ^ k : Nat) := by
    exact_mod_cast Nat.le_self_pow hpos.ne' 10
  have hmiss := (abs_le.1 (abs_size_ofRatio_natural_le false hten)).1
  have hone : 1 ≤ (powerOfTen k).size := by
    have hsmall : (10 ^ k : Nat) * (1 / 2 ^ 53 : ℚ) ≤ (10 ^ k : Nat) * (1 / 2) :=
      mul_le_mul_of_nonneg_left (by norm_num) (by positivity)
    show 1 ≤ (Floating.ofRatio false (10 ^ k) 1 : Binary64).size
    linarith
  have hpos' : 0 < (powerOfTen k).size := by linarith
  have hratio : ((x.ratio.1 * (powerOfTen k).ratio.2 : Nat) : ℚ)
      / (x.ratio.2 * (powerOfTen k).ratio.1 : Nat) = x.size / (powerOfTen k).size := by
    push_cast
    rw [← x.ratio_eq_size, ← (powerOfTen k).ratio_eq_size, div_div_div_eq]
  have hnum : 0 < (powerOfTen k).ratio.1 := by
    refine Nat.pos_of_ne_zero fun hzero => ?_
    rw [← Floating.ratio_eq_size, hzero, Nat.cast_zero, zero_div] at hpos'
    exact lt_irrefl _ hpos'
  refine Floating.isFinite_ofRatio (Nat.mul_pos x.ratio_pos hnum) ?_
  rw [hratio]
  exact (div_le_self x.size_nonneg hone).trans_lt (Floating.size_lt_overflow h)

theorem isFinite_divideByPower {x : Binary64} (h : x.IsFinite) {k : Nat} (hpos : 0 < k) :
    (divideByPower x k).IsFinite := by
  fun_induction divideByPower x k with
  | case1 x k hk => exact isFinite_div_powerOfTen h hpos hk
  | case2 x k hk hzero => exact h
  | case3 x k hk hzero ih =>
    exact ih (isFinite_div_powerOfTen h (by decide) (Nat.le_refl _)) (by omega)

theorem isFinite_of_scaled? {negative : Bool} {m : Nat} (hm : m < UInt64.size) {e : Int}
    {x : Binary64} (h : scaled? negative m e = some x) : x.IsFinite := by
  have hfinite := isFinite_ofRatio_word hm negative
  unfold scaled? at h
  simp only at h
  split at h
  · next he =>
    cases h
    exact isFinite_divideByPower hfinite (by omega)
  · unfold multiplyByPower? at h
    simp only at h
    split at h
    · split at h
      · next hproduct =>
        cases h
        exact hproduct
      · cases h
    · split at h
      · cases h
        exact hfinite
      · cases h

theorem isFinite_of_real? {n : Numeral} {x : Binary64} (h : n.real? = some x) : x.IsFinite := by
  have hword := fillWord_fst_lt (n := (fillWord 0 (digitsOf n.whole)).1)
    (fillWord_fst_lt (by decide) (digitsOf n.whole)) n.fraction
  unfold real? at h
  simp only at h
  split at h
  · exact isFinite_of_scaled? hword h
  · split at h
    · split at h
      · cases h
      · cases h
        show 0 < BinaryFormat.binary64.infinity
        decide
    · exact isFinite_of_scaled? hword h

/-- No numeral is read as an infinity. -/
theorem isFinite_of_value? {n : Numeral} {x : Binary64} (h : n.value? = some (.real x)) :
    x.IsFinite := by
  unfold value? at h
  split at h
  · next hinteger =>
    split at h
    · cases h
    · split at h
      · cases h
        exact isFinite_ofRatio_word hinteger.2.2 true
      · cases h
  · obtain ⟨y, hy, hyx⟩ := Option.map_eq_some_iff.1 h
    cases hyx
    exact isFinite_of_real? hy

/-- An integer that a numeral is read as has a word's absolute value. -/
theorem natAbs_lt_of_value? {n : Numeral} {i : Int} (h : n.value? = some (.integer i)) :
    i.natAbs < UInt64.size := by
  unfold value? at h
  split at h
  · next hinteger =>
    split at h
    · cases h
      exact hinteger.2.2
    · split at h
      · cases h
      · cases h
        rw [Int.natAbs_neg]
        exact hinteger.2.2
  · obtain ⟨y, hy, hyx⟩ := Option.map_eq_some_iff.1 h
    cases hyx

end Numeral

end PlayerSlots
