import Mathlib
import PlayerSlots.Proofs.Session.Soundness

/-! # Known hardware moves nobody

While only devices with an entry in the table come and go, the table keeps all its entries, those
of devices that are away among them, and nothing is saved.

* `Session.Sound.pass_of_newcomers_nil`: a pass without newcomers renews the colors and no more.
* `Session.Sound.pass_of_known`, `Session.Sound.step_of_known`: one pass and one command.
* `Worker.run_of_known`: many commands.
* `known_hardware_moves_nobody`: the same from any reachable session.
-/

namespace PlayerSlots
set_option autoImplicit false

open Slot (devices ofDevice? SameUpToColor)

variable {provider : Provider}

namespace Session

theorem savedLists_pass {s : Session} (he : s.settings.enabled = true) :
    Effect.savedLists (s.pass provider).2 =
      if (Slot.runPass s.connected s.table provider s.settings.passOptions).persist then
        [(s.pass provider).1.table] else [] := by
  rw [pass, if_pos he]
  simp only [Effect.savedLists_append, Effect.savedLists_map_asked]
  split <;> rfl

/-- A pass without newcomers renews the colors, and saves nothing. -/
theorem Sound.pass_of_newcomers_nil {s : Session} (h : s.Sound) (he : s.settings.enabled = true)
    (hnone : (Slot.place s.connected s.table s.settings.maxSlots provider).newcomers = []) :
    (s.pass provider).1.table = Slot.colorAll s.settings.overflow s.table ∧
      Effect.savedLists (s.pass provider).2 = [] := by
  have hpass := Slot.runPass_of_newcomers_nil s.settings.passOptions h.table hnone
  rw [savedLists_pass he, h.table_pass he, hpass]
  exact ⟨rfl, rfl⟩

/-- A pass over known devices changes colors at most, and saves nothing. -/
theorem Sound.pass_of_known {s : Session} (h : s.Sound)
    (hknown : ∀ i ∈ s.connected.map (·.id), i ∈ devices s.table) :
    SameUpToColor (s.pass provider).1.table s.table ∧
      Effect.savedLists (s.pass provider).2 = [] := by
  cases he : s.settings.enabled with
  | false =>
    rw [pass_of_disabled he]
    exact ⟨rfl, rfl⟩
  | true =>
    have hnone := Slot.newcomers_eq_nil_of_known s.settings.maxSlots provider
      fun i hi _ => hknown i hi
    obtain ⟨htable, hsaved⟩ := h.pass_of_newcomers_nil he hnone
    rw [htable, hsaved]
    exact ⟨Slot.sameUpToColor_colorAll _ _, rfl⟩

theorem Sound.step_of_known {s : Session} (h : s.Sound) (provider : Provider) {c : Command}
    (hlimit : ∀ m ∈ c.limit?, m = s.settings.maxSlots)
    (hknown : ∀ i ∈ (s.step provider c).1.connected.map (·.id), i ∈ devices s.table) :
    SameUpToColor (s.step provider c).1.table s.table ∧
      Effect.savedLists (s.step provider c).2 = [] := by
  rcases step_cases provider s c with ⟨s₁, hs₁, hstep⟩ | hquiet
  · have htable : s₁.table = s.table := hs₁.table_eq_of_limit hlimit
    rw [hstep] at hknown ⊢
    rw [connected_pass, ← htable] at hknown
    rw [← htable]
    exact (h.prepares hs₁).pass_of_known hknown
  · rw [hquiet.session, hquiet.saved]
    exact ⟨rfl, rfl⟩

end Session

/-- The induction is over the commands; `kept` is the table from before the first of them. -/
theorem Worker.run_of_known (provider : Provider) {kept : List Slot} {commands : List Command}
    {s : Session} (h : s.Sound) (hkept : SameUpToColor s.table kept) (hopen : .shutdown ∉ commands)
    (hlimit : ∀ m ∈ commands.filterMap Command.limit?, m = s.settings.maxSlots)
    (hknown : ∀ done, done <+: commands → done ≠ [] →
      ∀ d ∈ ((running s).run provider done).1.connected, d.id ∈ devices kept) :
    ∃ t, ((running s).run provider commands).1 = running t ∧ SameUpToColor t.table kept ∧
      Effect.savedLists ((running s).run provider commands).2 = [] := by
  induction commands generalizing s with
  | nil => exact ⟨s, rfl, hkept, rfl⟩
  | cons c rest ih =>
    rw [List.mem_cons, not_or] at hopen
    have hc : c ≠ .shutdown := Ne.symm hopen.1
    obtain ⟨hfirst, hrest⟩ := Command.limits_of_cons hlimit
    have hstep := h.step_of_known provider hfirst (by
      intro i hi
      obtain ⟨d, hd, rfl⟩ := List.mem_map.1 hi
      rw [hkept.devices_eq]
      refine hknown [c] (List.prefix_append [c] rest) (List.cons_ne_nil _ _) d ?_
      rw [run_cons_running hc]
      exact hd)
    have hmax := Session.maxSlots_step_of_limit provider hfirst
    obtain ⟨t, ht, hsame, hsaved⟩ := ih (h.step c) (hstep.1.trans hkept) hopen.2
      (by rwa [hmax])
      (by
        intro done hdone _ d hd
        refine hknown (c :: done) (List.cons_prefix_cons.2 ⟨rfl, hdone⟩) (List.cons_ne_nil _ _) d ?_
        rw [run_cons_running hc]
        exact hd)
    rw [run_cons_running hc]
    refine ⟨t, ht, hsame, ?_⟩
    rw [Effect.savedLists_append]
    exact List.append_eq_nil_iff.2 ⟨hstep.2, hsaved⟩

/-- From a reachable session on, let commands keep the number of positions, and let every device
that is connected after one of them have an entry in the table from before. Then after each of them
the table has the entries that it had, at the same positions and with the same bindings except for
the colors, whether their devices are connected or not, and nothing has been saved. So a device that
is back has its old position. -/
theorem known_hardware_moves_nobody (provider : Provider) (s : Session) (hs : s.Reachable provider)
    (commands : List Command) (hopen : .shutdown ∉ commands)
    (hlimit : ∀ m ∈ commands.filterMap Command.limit?, m = s.settings.maxSlots)
    (hknown : ∀ done, done <+: commands → done ≠ [] →
      ∀ d ∈ ((Worker.running s).run provider done).1.connected, d.id ∈ devices s.table)
    (done : List Command) (hdone : done <+: commands) :
    ∃ t, ((Worker.running s).run provider done).1 = .running t ∧
      SameUpToColor t.table s.table ∧
      (∀ i, (ofDevice? t.table i).map (·.index) = (ofDevice? s.table i).map (·.index)) ∧
      Effect.savedLists ((Worker.running s).run provider done).2 = [] := by
  obtain ⟨t, hrun, hsame, hsaved⟩ := Worker.run_of_known provider hs.sound rfl
    (fun hin => hopen (hdone.subset hin))
    (fun m hm => hlimit m ((hdone.sublist.filterMap _).subset hm))
    (fun before hbefore => hknown before (hbefore.trans hdone))
  refine ⟨t, hrun, hsame, ?_, hsaved⟩
  intro i
  have hlookup := congrArg (Option.map Slot.index) (hsame.ofDevice? i)
  rwa [Option.map_map, Option.map_map] at hlookup

/-- A device that is back on its old position, with a free one before it. -/
theorem known_hardware_moves_nobody_back :
    let s := Session.start { maxSlots := 4 }
      [⟨2, "c", .keyboard ⟨.pro, .empty⟩⟩, ⟨0, "a", .keyboard ⟨.pro, .empty⟩⟩]
    let commands : List Command :=
      [.connected "c" "Pad", .connected "a" "Pad", .disconnected "c", .connected "c" "Pad"]
    s.Reachable .keyless ∧ .shutdown ∉ commands ∧
      (∀ m ∈ commands.filterMap Command.limit?, m = s.settings.maxSlots) ∧
      (∀ done, done <+: commands → done ≠ [] →
        ∀ d ∈ ((Worker.running s).run .keyless done).1.connected, d.id ∈ devices s.table) ∧
      ∃ t, ((Worker.running s).run .keyless commands).1 = .running t ∧
        SameUpToColor t.table s.table ∧
        (∀ i, (ofDevice? t.table i).map (·.index) = (ofDevice? s.table i).map (·.index)) ∧
        Effect.savedLists ((Worker.running s).run .keyless commands).2 = [] := by
  intro s commands
  have hs : s.Reachable .keyless := ⟨_, _, [], rfl⟩
  have hopen : .shutdown ∉ commands := by simp [commands, Command.connected, Command.disconnected]
  have hlimit : ∀ m ∈ commands.filterMap Command.limit?, m = s.settings.maxSlots := by
    intro m hm
    cases hm
  have hall : (commands.inits.all fun done =>
      ((Worker.running s).run .keyless done).1.connected.all (·.id ∈ devices s.table)) = true := by
    cbv
  have hknown : ∀ done, done <+: commands → done ≠ [] →
      ∀ d ∈ ((Worker.running s).run .keyless done).1.connected, d.id ∈ devices s.table := by
    intro done hdone _ d hd
    have hat := List.all_eq_true.1 hall done ((List.mem_inits _ _).2 hdone)
    exact of_decide_eq_true (List.all_eq_true.1 hat d hd)
  exact ⟨hs, hopen, hlimit, hknown,
    known_hardware_moves_nobody .keyless s hs commands hopen hlimit hknown commands List.prefix_rfl⟩

end PlayerSlots
