import PlayerSlots.Proofs.Session.Run
import PlayerSlots.Proofs.Slot.Pass

/-! # Sound sessions

A session is sound when its table is sound for the number of positions in force and its connected
devices have ids, each its own. Every start is sound and every command keeps soundness, whichever of
its ways the table takes: repair at a start or for another number of positions, or either kind of
pass.

* `Session.Sound`, `Session.Sound.step`, `Session.Reachable.sound`.
* `Session.Sound.pass_eq`: the outcome of a pass becomes the table and is handed on as it is.
* `table_sound_after_run`: after every run the table is sound and its two lookups are inverse.
-/

namespace PlayerSlots
set_option autoImplicit false

open Slot (devices indices atIndex? ofDevice? WellFormed)

variable {provider : Provider}

namespace Session

/-- The table is sound for the positions in force; connected devices have ids, each its own. -/
structure Sound (s : Session) : Prop where
  table : WellFormed s.settings.maxSlots s.table
  present : ∀ i ∈ s.connected.map (·.id), i ≠ ""
  distinct : (s.connected.map (·.id)).Nodup

namespace Sound

theorem start (settings : AutoAssign) (saved : List Slot) : Sound (.start settings saved) where
  table := Slot.wellFormed_repair _ _
  present := by simp [Session.start]
  distinct := by simp [Session.start]

theorem connect {s : Session} (h : s.Sound) (d : Device) : (s.connect d).Sound where
  table := by
    rw [settings_connect, table_connect]
    exact h.table
  present := by
    rw [ids_connect]
    split
    · exact h.present
    · rename_i hnew
      intro i hi
      rw [List.mem_append, List.mem_singleton] at hi
      rcases hi with hi | rfl
      · exact h.present i hi
      · exact fun hblank => hnew (.inl hblank)
  distinct := by
    rw [ids_connect]
    split
    · exact h.distinct
    · rename_i hnew
      rw [← List.concat_eq_append]
      exact (List.nodup_concat _ _).2 ⟨fun hknown => hnew (.inr hknown), h.distinct⟩

theorem disconnect {s : Session} (h : s.Sound) (id : String) : (s.disconnect id).Sound where
  table := h.table
  present i hi := h.present i ((List.filter_sublist.map _).subset hi)
  distinct := (List.filter_sublist.map _).nodup h.distinct

theorem resync {s : Session} (h : s.Sound) (ds : List Device) : (s.resync ds).Sound where
  table := h.table
  present _ hi := (Slot.mem_ids_present.1 hi).2
  distinct := Slot.ids_present_nodup ds

theorem update {s : Session} (h : s.Sound) (settings : AutoAssign) : (s.update settings).Sound where
  table := by
    unfold Session.update
    by_cases heq : settings.maxSlots = s.settings.maxSlots
    · rw [if_pos heq]
      show WellFormed settings.maxSlots s.table
      exact heq ▸ h.table
    · rw [if_neg heq]
      exact Slot.wellFormed_repair _ _
  present := h.present
  distinct := h.distinct

theorem prepares {s s₁ : Session} (h : s.Sound) {c : Command} (hc : s.Prepares c s₁) :
    s₁.Sound := by
  cases hc with
  | connect d => exact h.connect d
  | disconnect id => exact h.disconnect id
  | resync ds => exact h.resync ds
  | update settings _ => exact h.update settings
  | refresh => exact h

/-- The outcome of a pass is in order already, so it becomes the table as it is, and it is handed on
as it is: to whoever routes the input, and then to whoever keeps it, if it is worth saving. -/
theorem pass_eq {s : Session} (h : s.Sound) (he : s.settings.enabled = true) :
    s.pass provider =
      let outcome := Slot.runPass s.connected s.table provider s.settings.passOptions
      ({ s with table := outcome.slots },
        outcome.asked.map .asked ++ [.applied outcome.slots] ++
          if outcome.persist then [.saved outcome.slots] else []) := by
  have hout := Slot.wellFormed_runPass s.settings.passOptions h.table s.connected provider
  rw [Session.pass, if_pos he]
  simp only [hout.sort_eq]

theorem table_pass {s : Session} (h : s.Sound) (he : s.settings.enabled = true) :
    (s.pass provider).1.table
      = (Slot.runPass s.connected s.table provider s.settings.passOptions).slots := by
  rw [h.pass_eq he]

theorem pass {s : Session} (h : s.Sound) : (s.pass provider).1.Sound := by
  cases he : s.settings.enabled with
  | false =>
    rw [pass_of_disabled he]
    exact h
  | true =>
    refine { table := ?_, present := ?_, distinct := ?_ }
    · rw [h.table_pass he, settings_pass]
      exact Slot.wellFormed_runPass s.settings.passOptions h.table s.connected provider
    · rw [connected_pass]
      exact h.present
    · rw [connected_pass]
      exact h.distinct

/-- Every command keeps soundness. -/
theorem step {s : Session} (h : s.Sound) (c : Command) : (s.step provider c).1.Sound := by
  rcases step_cases provider s c with ⟨s₁, hs₁, hstep⟩ | hquiet
  · rw [hstep]
    exact (h.prepares hs₁).pass
  · rw [hquiet.session]
    exact h

end Sound

theorem Reachable.sound {s : Session} (h : s.Reachable provider) : s.Sound :=
  h.induct Sound.start fun _ hs c => hs.step c

end Session

/-- A run of any commands from any start is ended by a shutdown, or it leaves a sound table: its
positions ascend below the number in force, its ids are present and distinct. So the lookups by
position and by device are inverse to each other, and counting the positions from one exceeds
neither that number nor the machine words that hold it. -/
theorem table_sound_after_run (provider : Provider) (settings : AutoAssign) (saved : List Slot)
    (commands : List Command) :
    (.shutdown ∈ commands ∧
      ((Worker.running (.start settings saved)).run provider commands).1 = .stopped) ∨
    ∃ s, ((Worker.running (.start settings saved)).run provider commands).1 = .running s ∧
      WellFormed s.settings.maxSlots s.table ∧
      (∀ i d, (∃ x, atIndex? s.table i = some x ∧ x.device = d) ↔
        ∃ x, ofDevice? s.table d = some x ∧ x.index = i) ∧
      (∀ x ∈ s.table, atIndex? s.table x.index = some x ∧ ofDevice? s.table x.device = some x) ∧
      (∀ x ∈ s.table, x.index + 1 ≤ s.settings.maxSlots) ∧
      (s.settings.maxSlots < UInt64.size → ∀ x ∈ s.table, x.index + 1 < UInt64.size) := by
  rcases Worker.run_cases provider (.start settings saved) commands with hend | ⟨-, s, hrun⟩
  · exact .inl hend
  · right
    have hsound : s.Sound :=
      Worker.run_induct (fun s hs c _ => hs.step c) (.start settings saved) hrun
    have hindex : ∀ {i : Nat} {x : Slot},
        atIndex? s.table i = some x ↔ x ∈ s.table ∧ x.index = i :=
      Slot.atIndex?_eq_some_iff hsound.table.spread.unshared
    have hdevice : ∀ {d : String} {x : Slot},
        ofDevice? s.table d = some x ↔ x ∈ s.table ∧ x.device = d :=
      Slot.ofDevice?_eq_some_iff hsound.table.distinct
    have hbelow : ∀ x ∈ s.table, x.index + 1 ≤ s.settings.maxSlots := fun x hx =>
      hsound.table.below x.index (List.mem_map_of_mem hx)
    refine ⟨s, hrun, hsound.table, ?_, ?_, hbelow, ?_⟩
    · intro i d
      simp only [hindex, hdevice]
      constructor
      · rintro ⟨x, ⟨hx, hi⟩, hd⟩
        exact ⟨x, ⟨hx, hd⟩, hi⟩
      · rintro ⟨x, ⟨hx, hd⟩, hi⟩
        exact ⟨x, ⟨hx, hi⟩, hd⟩
    · intro x hx
      exact ⟨hindex.2 ⟨hx, rfl⟩, hdevice.2 ⟨hx, rfl⟩⟩
    · intro hword x hx
      exact (hbelow x hx).trans_lt hword

end PlayerSlots
