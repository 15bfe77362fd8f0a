import PlayerSlots.Proofs.Binding.Rereading
import PlayerSlots.Proofs.Numeric.Numerals

/-! # Which bindings can be read back at all

* `Binding.Finite`: no floating-point number of the binding is an infinity.
  `Binding.isSome_reread?_iff` says that exactly such a binding is read back as some binding: an
  infinity is written as `null`, and the text of a finite number never overflows.
* `Binding.SinglesFinite`: no single-precision number is an infinity. For a binding that was read
  this is the same (`Binding.finite_iff_of_ofJson?`): a double-precision number that is read is
  finite, but a single-precision one may overflow when it is rounded.
-/

namespace PlayerSlots
set_option autoImplicit false

open Json

/-! ## Numbers -/

theorem Json.isSome_asFloating?_iff {f : BinaryFormat} {style : Numeral.DecimalStyle}
    {x : Floating f} (h : x.IsFinite → (Numeral.ofFloating style x).value?.isSome) :
    ((floating style x).asFloating? : Option (Floating f)).isSome ↔ x.IsFinite := by
  unfold floating
  by_cases hx : x.IsFinite
  · obtain ⟨v, hv⟩ := Option.isSome_iff_exists.1 (h hx)
    rw [if_pos hx, asFloating?, hv]
    cases v <;> simp [hx]
  · rw [if_neg hx]
    simp [asFloating?, hx]

theorem Json.isFinite_of_asFloating? {j : Json} {x : Binary64} (h : j.asFloating? = some x) :
    x.IsFinite := by
  unfold asFloating? at h
  split at h
  · next n =>
    split at h
    · next i hi =>
      cases h
      exact Numeral.isFinite_ofRatio_word (Numeral.natAbs_lt_of_value? hi) _
    · next y hy =>
      cases h
      exact Floating.isFinite_convert (Numeral.isFinite_of_value? hy)
    · cases h
  · cases h

/-! ## Bindings -/

namespace Binding

/-- No floating-point number is an infinity. -/
def Finite : Binding → Prop
  | pad b => (∀ x ∈ b.singles, x.IsFinite) ∧ b.motion.gyroDeadzone.IsFinite
  | keyboard _ => True

/-- No single-precision number is an infinity. -/
def SinglesFinite : Binding → Prop
  | pad b => ∀ x ∈ b.singles, x.IsFinite
  | keyboard _ => True

theorem isSome_reread?_iff (b : Binding) : b.reread?.isSome ↔ b.Finite := by
  cases b with
  | pad b =>
    have hsingle : ∀ x : Binary32, ((single x).asFloating? : Option Binary32).isSome ↔ x.IsFinite :=
      fun x => isSome_asFloating?_iff Numeral.isSome_value?_single
    have hdouble : ∀ x : Binary64, ((double x).asFloating? : Option Binary64).isSome ↔ x.IsFinite :=
      fun x => isSome_asFloating?_iff Numeral.isSome_value?_double
    rw [reread?, Option.isSome_map, b.isSome_reread?_iff, Finite]
    simp only [hsingle, hdouble]
  | keyboard b => simp [reread?, Finite]

theorem FloatsReadBack.finite {b : Binding} (h : b.FloatsReadBack) : b.Finite := by
  rw [← b.isSome_reread?_iff, b.reread?_eq_self_iff.2 h]
  rfl

theorem finite_setColor (color : Option UInt32) (b : Binding) :
    (b.setColor color).Finite ↔ b.Finite := by
  cases b <;> rfl

theorem isFinite_gyroDeadzone_of_ofJson? {depth : Nat} {j : Json} {b : PadBinding}
    (h : ofJson? depth j = some (pad b)) : b.motion.gyroDeadzone.IsFinite := by
  have hmotion : ∀ {j : Json} {m : Motion}, Motion.ofJson? j = some m →
      m.gyroDeadzone.IsFinite := by
    intro j m hm
    simp only [Motion.ofJson?, required?, Option.bind_eq_bind, Option.bind_eq_some_iff,
      Option.some.injEq] at hm
    obtain ⟨_, -, _, -, _, -, _, -, x, ⟨j', -, hx⟩, rfl⟩ := hm
    exact isFinite_of_asFloating? hx
  have hpad : ∀ {j : Json}, PadBinding.ofJson? j = some b → b.motion.gyroDeadzone.IsFinite := by
    intro j hb
    -- past the members and the ten fields before the motion
    iterate 11 obtain ⟨_, -, hb⟩ := Option.bind_eq_some_iff.1 hb
    obtain ⟨m, hm, hb⟩ := Option.bind_eq_some_iff.1 hb
    iterate 2 obtain ⟨_, -, hb⟩ := Option.bind_eq_some_iff.1 hb
    cases hb
    obtain ⟨_, -, hm⟩ := Option.bind_eq_some_iff.1 hm
    exact hmotion hm
  unfold ofJson? at h
  split at h
  · obtain ⟨⟨kind, rest⟩, -, hrest⟩ := Option.bind_eq_some_iff.1 h
    simp only at hrest
    split at hrest
    · obtain ⟨b', hb', heq⟩ := Option.map_eq_some_iff.1 hrest
      cases heq
      exact hpad hb'
    · split at hrest
      · obtain ⟨_, -, heq⟩ := Option.map_eq_some_iff.1 hrest
        cases heq
      · cases hrest
  · cases h

theorem finite_iff_of_ofJson? {depth : Nat} {j : Json} {b : Binding}
    (h : ofJson? depth j = some b) : b.Finite ↔ b.SinglesFinite := by
  cases b with
  | pad b =>
    have hdouble := isFinite_gyroDeadzone_of_ofJson? h
    simp only [Finite, SinglesFinite, hdouble, and_true]
  | keyboard b => rfl

end Binding

end PlayerSlots
