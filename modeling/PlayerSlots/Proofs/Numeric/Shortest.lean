import PlayerSlots.Numeric.Shortest
import PlayerSlots.Proofs.Numeric.Rounding

/-! # How large the shortest decimal is

* `Decimal.value`: what a decimal stands for.
* `Floating.value_shortest_le`: the shortest decimal for a number is less than half of its last
  place above it.
-/

namespace PlayerSlots
set_option autoImplicit false

namespace Decimal

def value (d : Decimal) : ℚ := d.digits * 10 ^ d.exponent

theorem value_normalize (d : Decimal) : d.normalize.value = d.value := by
  fun_induction normalize d with
  | case1 d h ih =>
    have hdigits : ((d.digits / 10 : Nat) : ℚ) * 10 = d.digits := by
      exact_mod_cast Nat.div_mul_cancel (Nat.dvd_of_mod_eq_zero h.2)
    rw [ih, value, value, zpow_add_one₀ (by norm_num), mul_comm _ (10 : ℚ), ← mul_assoc, hdigits]
  | case2 d h => rfl

/-- The powers of ten on both sides of a comparison. -/
theorem value_eq_div (d : Decimal) :
    d.value = (d.digits * 10 ^ d.exponent.toNat : Nat) / (10 ^ (-d.exponent).toNat : Nat) := by
  push_cast
  rw [value]
  rcases Int.le_total 0 d.exponent with he | he
  · obtain ⟨n, hn⟩ := Int.eq_ofNat_of_zero_le he
    have hneg : (-(n : Int)).toNat = 0 := by omega
    rw [hn, hneg, Int.toNat_natCast, pow_zero, div_one, zpow_natCast]
  · obtain ⟨n, hn⟩ := Int.eq_ofNat_of_zero_le (Int.neg_nonneg_of_nonpos he)
    have hexp : d.exponent = -n := by omega
    have hneg : (-(n : Int)).toNat = 0 := by omega
    rw [hexp, hneg, neg_neg, Int.toNat_natCast, pow_zero, mul_one, zpow_neg, zpow_natCast,
      ← div_eq_mul_inv]

end Decimal

theorem roundQuotient_eq_or (num den : Nat) :
    roundQuotient num den = num / den ∨ roundQuotient num den = num / den + 1 := by
  unfold roundQuotient
  simp only
  split
  · exact .inl rfl
  · split
    · exact .inr rfl
    · have := Nat.mod_two_eq_zero_or_one (num / den)
      omega

namespace Floating

variable {f : BinaryFormat}

namespace Interval

variable {i : Interval} {d : Decimal}

theorem value_le_of_contains (hpos : 0 < i.denominator) (h : i.contains d = true) :
    d.value ≤ i.upper / i.denominator := by
  have hpos' : (0 : ℚ) < i.denominator := by exact_mod_cast hpos
  have hle : d.digits * 10 ^ d.exponent.toNat * i.denominator
      ≤ i.upper * 10 ^ (-d.exponent).toNat := by
    unfold contains at h
    simp only [Nat.pow_eq] at h
    split at h
    · simp only [Bool.and_eq_true, decide_eq_true_eq] at h
      exact h.2
    · simp only [Bool.and_eq_true, decide_eq_true_eq] at h
      exact h.2.le
  rw [d.value_eq_div, div_le_div_iff₀ (by positivity) hpos']
  exact_mod_cast hle

theorem value_le_of_onGrid? (hpos : 0 < i.denominator) {e : Int} (h : i.onGrid? e = some d) :
    d.value ≤ i.upper / i.denominator := by
  refine value_le_of_contains hpos ?_
  unfold onGrid? at h
  simp only at h
  split at h
  · next hbelow habove =>
    cases h
    rcases roundQuotient_eq_or (i.value * Nat.pow 10 (-e).toNat)
      (i.denominator * Nat.pow 10 e.toNat) with heq | heq
    · rw [heq]
      exact hbelow
    · rw [heq]
      exact habove
  · next hbelow _ =>
    cases h
    exact hbelow
  · next _ habove =>
    cases h
    exact habove
  · cases h

end Interval

theorem denominator_pos (x : Floating f) : 0 < x.interval.denominator := by
  show 0 < 1 <<< (2 - x.significand.2).toNat
  rw [Nat.one_shiftLeft]
  exact Nat.two_pow_pos _

/-- A multiple of a quarter of the last place over the denominator of the interval. -/
theorem quarters_div (x : Floating f) (n : Nat) :
    ((n <<< (x.significand.2 - 2).toNat : Nat) : ℚ) / x.interval.denominator
      = n / 4 * 2 ^ x.significand.2 := by
  have htwo : (2 : ℚ) ≠ 0 := by decide
  have hscale := shiftLeft_div_shiftLeft n 1 (x.significand.2 - 2)
  rw [Nat.cast_one, div_one, neg_sub, zpow_sub₀ htwo] at hscale
  refine hscale.trans ?_
  norm_num
  ring

/-- The shortest decimal is at most half of the last place above the number. -/
theorem value_shortest_le (x : Floating f) :
    x.shortest.value ≤ (x.significand.1 + 1 / 2) * 2 ^ x.significand.2 := by
  have hupper : (x.interval.upper : ℚ) / x.interval.denominator
      = (x.significand.1 + 1 / 2) * 2 ^ x.significand.2 := by
    refine (x.quarters_div (4 * x.significand.1 + 2)).trans ?_
    push_cast
    ring
  unfold shortest
  simp only
  rw [Decimal.value_normalize]
  cases hfound : (List.range mostDigits).findSome? fun (n : Nat) =>
      x.interval.onGrid? (quotientLog10 x.interval.value x.interval.denominator - n) with
  | some d =>
    obtain ⟨n, -, hd⟩ := List.exists_of_findSome?_eq_some hfound
    rw [Option.getD_some, ← hupper]
    exact Interval.value_le_of_onGrid? x.denominator_pos hd
  | none =>
    have hvalue : (x.interval.value : ℚ) / x.interval.denominator
        = x.significand.1 * 2 ^ x.significand.2 := by
      refine (x.quarters_div (4 * x.significand.1)).trans ?_
      push_cast
      ring
    have hfloor : ((x.interval.value / x.interval.denominator : Nat) : ℚ)
        ≤ x.interval.value / x.interval.denominator := Nat.cast_div_le
    have hplace : (0 : ℚ) < 2 ^ x.significand.2 := by positivity
    rw [Option.getD_none, Decimal.value, zpow_zero, mul_one]
    nlinarith

end Floating

end PlayerSlots
