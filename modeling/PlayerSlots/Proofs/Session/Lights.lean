import Mathlib
import PlayerSlots.Proofs.Session.Settling

/-! # Lights show positions

Bindings carry the colors of earlier positions through every pass, but each pass ends by setting all
lights anew. So after a pass, and while passes run, a light shows the color of its position under the
policy in force. Two players can only be confused past the end of the palette, and only if it starts
again there.

* `Overflow.color?_colorless`, `Overflow.color?_wrap`: the colors of positions.
  `Overflow.colorless_inj` and `Overflow.wrap_eq_iff`: which positions share one.
* `Binding.color?_setColor`: what a light shows after its color is set.
* `Session.Settled.color?_eq`, `colors_follow_positions`.
-/

namespace PlayerSlots
set_option autoImplicit false

variable {provider : Provider}

/-! ## Colors of positions -/

theorem palette_nodup : palette.Nodup := by decide

theorem palette_inj {i j : Nat} (hi : i < palette.length) (h : palette[i]? = palette[j]?) :
    i = j :=
  (List.getElem?_inj hi palette_nodup).1 h

namespace Overflow

theorem color?_colorless (i : Nat) : colorless.color? i = palette[i]? := by
  unfold color?
  cases hc : palette[i]? <;> rfl

theorem color?_wrap (i : Nat) : wrap.color? i = palette[i % palette.length]? := by
  unfold color?
  cases hc : palette[i]? with
  | none => rfl
  | some c =>
    obtain ⟨hi, -⟩ := List.getElem?_eq_some_iff.1 hc
    rw [Nat.mod_eq_of_lt hi, hc]

theorem colorless_inj {i j : Nat} {c : UInt32} (hi : colorless.color? i = some c)
    (hj : colorless.color? j = some c) : i = j := by
  rw [color?_colorless] at hi hj
  obtain ⟨hlt, -⟩ := List.getElem?_eq_some_iff.1 hi
  exact palette_inj hlt (hi.trans hj.symm)

theorem wrap_eq_iff (i j : Nat) : wrap.color? i = wrap.color? j ↔ i ≡ j [MOD 8] := by
  have hlt : i % palette.length < palette.length := Nat.mod_lt i (by decide)
  rw [color?_wrap, color?_wrap]
  constructor
  · exact fun h => palette_inj hlt h
  · intro h
    rw [show i % palette.length = j % palette.length from h]

end Overflow

/-! ## What a light shows -/

/-- A light that is kept dark shows nothing, and so does a keyboard. -/
theorem Binding.color?_setColor (c : Option UInt32) (b : Binding) :
    (b.setColor c).color? =
      match b with
      | pad layout => if layout.light.off then none else c
      | keyboard _ => none := by
  cases b with
  | keyboard layout => rfl
  | pad layout => cases hoff : layout.light.off <;> cases c <;> simp [setColor, color?, hoff]

namespace Session

theorem Settled.color?_eq {s : Session} (h : s.Settled) {x : Slot} (hx : x ∈ s.table) :
    x.color? =
      match x.binding with
      | .pad layout => if layout.light.off then none else s.settings.overflow.color? x.index
      | .keyboard _ => none := by
  have hself : x.colored s.settings.overflow = x := by
    have hmap : s.table.map (Slot.colored s.settings.overflow) = s.table.map id := by
      rw [List.map_id]
      exact h.colored
    exact List.map_inj_left.1 hmap x hx
  have hbinding : x.binding.setColor (s.settings.overflow.color? x.index) = x.binding :=
    congrArg Slot.binding hself
  rw [← Binding.color?_setColor, hbinding]
  rfl

theorem Settled.color?_of_some {s : Session} (h : s.Settled) {x : Slot} (hx : x ∈ s.table)
    {c : UInt32} (hc : x.color? = some c) : s.settings.overflow.color? x.index = some c := by
  rw [h.color?_eq hx] at hc
  split at hc
  · split at hc
    · cases hc
    · exact hc
  · cases hc

end Session

/-- Once a pass has run, and while passes run, a gamepad whose light is not kept dark shows the color
that its position has under the policy in force, and all others show none. If the palette is used
once, no two players show the same color; if it starts again, two do iff their positions are
congruent modulo its eight colors. -/
theorem colors_follow_positions (provider : Provider) (settings : AutoAssign) (saved : List Slot)
    (commands : List Command) (s : Session)
    (hrun : ((Worker.running (.start settings saved)).run provider commands).1 = .running s)
    (hpassed : Effect.appliedLists
      ((Worker.running (.start settings saved)).run provider commands).2 ≠ [])
    (he : s.settings.enabled = true) :
    (∀ x ∈ s.table, x.color? =
      match x.binding with
      | .pad layout => if layout.light.off then none else s.settings.overflow.color? x.index
      | .keyboard _ => none) ∧
    (s.settings.overflow = .colorless → ∀ x ∈ s.table, ∀ y ∈ s.table, x ≠ y →
      ∀ c d, x.color? = some c → y.color? = some d → c ≠ d) ∧
    (s.settings.overflow = .wrap → ∀ x ∈ s.table, ∀ y ∈ s.table,
      ∀ c d, x.color? = some c → y.color? = some d → (c = d ↔ x.index ≡ y.index [MOD 8])) := by
  have hs : s.Sound := Session.Reachable.sound ⟨settings, saved, commands, hrun⟩
  have hsettled := Worker.run_settled (.start settings saved) hrun (.inl hpassed) he
  refine ⟨fun x hx => hsettled.color?_eq hx, ?_, ?_⟩
  · intro hpolicy x hx y hy hne c d hc hd hcd
    have hxc := hsettled.color?_of_some hx hc
    have hyd := hsettled.color?_of_some hy hd
    rw [hpolicy] at hxc hyd
    rw [← hcd] at hyd
    exact hne (hs.table.eq_of_index_eq hx hy (Overflow.colorless_inj hxc hyd))
  · intro hpolicy x hx y hy c d hc hd
    have hxc := hsettled.color?_of_some hx hc
    have hyd := hsettled.color?_of_some hy hd
    rw [hpolicy] at hxc hyd
    rw [← Overflow.wrap_eq_iff, hxc, hyd, Option.some_inj]

/-- The first and the ninth player share a color when the palette starts again; between them a
keyboard, and a gamepad that is kept dark. -/
theorem colors_follow_positions_ninth :
    let dark : Binding :=
      match Binding.generic with
      | .pad layout => .pad { layout with light := { layout.light with off := true } }
      | .keyboard layout => .keyboard layout
    let saved : List Slot :=
      [⟨0, "a", .generic⟩, ⟨3, "k", .keyboard ⟨.pro, .empty⟩⟩, ⟨5, "d", dark⟩, ⟨8, "b", .generic⟩]
    let settings : AutoAssign := { maxSlots := 9, overflow := .wrap }
    let commands : List Command := [.connected "b" "Pad"]
    let s : Session :=
      { settings, connected := [⟨"b", "Pad"⟩], table := Slot.colorAll .wrap saved }
    ((Worker.running (.start settings saved)).run .byName commands).1 = .running s ∧
    Effect.appliedLists ((Worker.running (.start settings saved)).run .byName commands).2 ≠ [] ∧
    s.settings.enabled = true ∧
    s.table.map (·.color?) = [some 0xFFFF0000, none, none, some 0xFFFF0000] ∧
    (∀ x ∈ s.table, x.color? =
      match x.binding with
      | .pad layout => if layout.light.off then none else s.settings.overflow.color? x.index
      | .keyboard _ => none) ∧
    (s.settings.overflow = .colorless → ∀ x ∈ s.table, ∀ y ∈ s.table, x ≠ y →
      ∀ c d, x.color? = some c → y.color? = some d → c ≠ d) ∧
    (s.settings.overflow = .wrap → ∀ x ∈ s.table, ∀ y ∈ s.table,
      ∀ c d, x.color? = some c → y.color? = some d → (c = d ↔ x.index ≡ y.index [MOD 8])) := by
  intro dark saved settings commands s
  have hrun : ((Worker.running (.start settings saved)).run .byName commands).1 = .running s := by
    cbv
  have hcount : (Effect.appliedLists
      ((Worker.running (.start settings saved)).run .byName commands).2).length = 1 := by cbv
  have hpassed : Effect.appliedLists
      ((Worker.running (.start settings saved)).run .byName commands).2 ≠ [] := by
    intro hnone
    rw [hnone] at hcount
    cases hcount
  have hcolors : (Slot.colorAll .wrap saved).map (·.color?)
      = [some 0xFFFF0000, none, none, some 0xFFFF0000] := by cbv
  exact ⟨hrun, hpassed, rfl, hcolors,
    colors_follow_positions .byName settings saved commands s hrun hpassed rfl⟩

end PlayerSlots
