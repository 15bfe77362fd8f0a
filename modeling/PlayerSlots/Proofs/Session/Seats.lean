import Mathlib
import PlayerSlots.Proofs.Session.Soundness

/-! # Nobody who is connected is left out

While passes run, a connected device lacks a slot only where connected devices hold all positions.
What is kept for devices that are away never stands in the way.

* `Session.Served`, `Session.Sound.served_pass`: every pass brings this about.
* `connected_seated_or_full`: it holds in every reachable session in which passes run.
-/

namespace PlayerSlots
set_option autoImplicit false

open Slot (devices)

variable {provider : Provider}

namespace Session

/-- A connected device has a slot, or connected devices hold all positions. -/
def Served (s : Session) : Prop :=
  ∀ i ∈ s.connected.map (·.id), i ∈ devices s.table ∨
    (s.table.length = s.settings.maxSlots ∧ ∀ j ∈ devices s.table, j ∈ s.connected.map (·.id))

theorem Sound.served_pass {s : Session} (h : s.Sound) (he : s.settings.enabled = true) :
    (s.pass provider).1.Served := by
  intro i hi
  rw [connected_pass] at hi ⊢
  rw [h.table_pass he, settings_pass]
  exact Slot.mem_runPass_or_full s.settings.passOptions h.table provider hi (h.present i hi)

/-- A command without a pass changes nothing, and one with a pass ends in it. -/
theorem Sound.served_step {s : Session} (h : s.Sound)
    (hserved : s.settings.enabled = true → s.Served) (c : Command)
    (he : (s.step provider c).1.settings.enabled = true) : (s.step provider c).1.Served := by
  rcases step_cases provider s c with ⟨s₁, hs₁, hstep⟩ | hquiet
  · rw [hstep] at he ⊢
    rw [settings_pass] at he
    exact (h.prepares hs₁).served_pass he
  · rw [hquiet.session] at he ⊢
    exact hserved he

theorem Reachable.served {s : Session} (h : s.Reachable provider) (he : s.settings.enabled = true) :
    s.Served := by
  have hboth : s.Sound ∧ (s.settings.enabled = true → s.Served) := by
    refine h.induct (P := fun s => s.Sound ∧ (s.settings.enabled = true → s.Served)) ?_ ?_
    · -- nothing is connected at the start
      intro settings saved
      refine ⟨.start settings saved, ?_⟩
      intro _ i hi
      cases hi
    · rintro s ⟨hs, hserved⟩ c
      exact ⟨hs.step c, hs.served_step hserved c⟩
  exact hboth.2 he

end Session

/-- In a reachable session in which passes run, every connected device has a slot, unless all
positions are held by devices that are connected themselves. Before the first pass nothing is
connected. -/
theorem connected_seated_or_full (provider : Provider) (s : Session) (hs : s.Reachable provider)
    (he : s.settings.enabled = true) (d : Device) (hd : d ∈ s.connected) :
    (∃ x ∈ s.table, x.device = d.id) ∨
      (s.table.length = s.settings.maxSlots ∧
        ∀ x ∈ s.table, ∃ e ∈ s.connected, e.id = x.device) := by
  rcases hs.served he d.id (List.mem_map_of_mem hd) with hin | ⟨hlen, hall⟩
  · exact .inl (List.mem_map.1 hin)
  · refine .inr ⟨hlen, ?_⟩
    intro x hx
    exact List.mem_map.1 (hall x.device (List.mem_map_of_mem hx))

/-- Three devices for two positions: the third lacks a slot, and the others hold both. -/
theorem connected_seated_or_full_third :
    let s : Session :=
      { settings := { maxSlots := 2 }
        connected := [⟨"a", "Pad"⟩, ⟨"b", "Pad"⟩, ⟨"c", "Pad"⟩]
        table := [⟨0, "a", .keyboard ⟨.pro, .empty⟩⟩, ⟨1, "b", .keyboard ⟨.pro, .empty⟩⟩] }
    s.Reachable .keyless ∧ s.settings.enabled = true ∧ ⟨"c", "Pad"⟩ ∈ s.connected ∧
      ((∃ x ∈ s.table, x.device = "c") ∨
        (s.table.length = s.settings.maxSlots ∧
          ∀ x ∈ s.table, ∃ e ∈ s.connected, e.id = x.device)) := by
  intro s
  have hs : s.Reachable .keyless :=
    ⟨{ maxSlots := 2 }, [],
      [.connected "a" "Pad", .connected "b" "Pad", .connected "c" "Pad"], by cbv⟩
  have hc : ⟨"c", "Pad"⟩ ∈ s.connected := by simp [s]
  exact ⟨hs, rfl, hc, connected_seated_or_full .keyless s hs rfl ⟨"c", "Pad"⟩ hc⟩

end PlayerSlots
