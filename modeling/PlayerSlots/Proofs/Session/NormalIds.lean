import Mathlib
import PlayerSlots.Session.Registry
import PlayerSlots.Proofs.Session.PlayerOrder

/-! # Ids in normal form

The ids of single devices are normalized on the way from a registry, those of a snapshot are taken
as they are. So it depends on the snapshots alone whether a session knows its devices by ids in
normal form, and whether a device that goes is found again.

* `Command.ofNotice`, `Worker.noticed`: what a session is told by a registry, while its settings
  change as well.
* `Session.WellNamed`, `Session.HasLost`: what is expected of its ids.
* `well_named_iff_snapshots_normal`: the expectation is met iff all snapshots are normalized.
* `snapshot_device_never_leaves`: a device of a snapshot that cannot be disconnected.
-/

namespace PlayerSlots
set_option autoImplicit false

open Slot (devices)

variable {provider : Provider}

/-- The command for an event of a registry, or for settings that change meanwhile. -/
def Command.ofNotice : RegistryEvent ⊕ AutoAssign → Command
  | .inl event => event.command
  | .inr settings => .update settings

/-- No snapshot among the notices holds an id that is not in normal form. -/
def Command.SnapshotsNormal (notices : List (RegistryEvent ⊕ AutoAssign)) : Prop :=
  ∀ ds, .inl (.snapshot ds) ∈ notices → ∀ d ∈ ds, normalizeId d.id = d.id

theorem Command.ofNotice_ne_shutdown (n : RegistryEvent ⊕ AutoAssign) : ofNotice n ≠ .shutdown := by
  rcases n with (_ | _ | _) | _ <;> nofun

theorem Command.SnapshotsNormal.normal {notices : List (RegistryEvent ⊕ AutoAssign)}
    (h : SnapshotsNormal notices) : ∀ c ∈ notices.map ofNotice, c.Normal := by
  intro c hc
  obtain ⟨n, hn, rfl⟩ := List.mem_map.1 hc
  rcases n with (ds | d | id) | settings
  · exact h ds hn
  · exact normal_connected d.id d.name
  · trivial
  · trivial

/-- A worker that started with some saved table, after some notices. -/
def Worker.noticed (provider : Provider) (settings : AutoAssign) (saved : List Slot)
    (notices : List (RegistryEvent ⊕ AutoAssign)) : Worker :=
  ((running (.start settings saved)).run provider (notices.map Command.ofNotice)).1

/-- No notice ends a session. -/
theorem Worker.exists_noticed (provider : Provider) (settings : AutoAssign) (saved : List Slot)
    (notices : List (RegistryEvent ⊕ AutoAssign)) :
    ∃ s, noticed provider settings saved notices = running s := by
  rcases run_cases provider (.start settings saved) (notices.map Command.ofNotice)
    with ⟨hmem, -⟩ | ⟨-, hrun⟩
  · obtain ⟨n, -, hn⟩ := List.mem_map.1 hmem
    exact absurd hn (Command.ofNotice_ne_shutdown n)
  · exact hrun

theorem Worker.noticed_concat {settings : AutoAssign} {saved : List Slot}
    {notices : List (RegistryEvent ⊕ AutoAssign)} {s : Session}
    (h : noticed provider settings saved notices = running s) (n : RegistryEvent ⊕ AutoAssign) :
    noticed provider settings saved (notices ++ [n])
      = running (s.step provider (Command.ofNotice n)).1 := by
  unfold noticed at h ⊢
  rw [List.map_append, run_append, h, List.map_singleton,
    run_cons_running (Command.ofNotice_ne_shutdown n)]
  rfl

namespace Session

/-- Every id is present and in normal form, and in that form each connected device has its own. -/
structure WellNamed (s : Session) : Prop where
  connected : ∀ d ∈ s.connected, d.id ≠ "" ∧ normalizeId d.id = d.id
  table : ∀ i ∈ devices s.table, i ≠ "" ∧ normalizeId i = i
  distinct : (s.connected.map fun d => normalizeId d.id).Nodup

/-- No connected device can be taken for the one with a raw id. -/
def HasLost (s : Session) (rawId : String) : Prop :=
  ∀ d ∈ s.connected, normalizeId d.id ≠ normalizeId rawId

theorem Normal.wellNamed {s : Session} (h : s.Normal) (hs : s.Sound) : s.WellNamed where
  connected d hd := ⟨hs.present _ (List.mem_map_of_mem hd), h.connected _ (List.mem_map_of_mem hd)⟩
  table i hi := ⟨hs.table.present i hi, h.table i hi⟩
  distinct := by
    have hids : (s.connected.map fun d => normalizeId d.id) = s.connected.map (·.id) :=
      List.map_congr_left fun d hd => h.connected _ (List.mem_map_of_mem hd)
    rw [hids]
    exact hs.distinct

theorem Normal.hasLost_step {s : Session} (h : s.Normal) (rawId : String) :
    (s.step provider (.disconnected rawId)).1.HasLost rawId := by
  intro d hd
  have hpass : (s.step provider (.disconnected rawId)).1.connected
      = s.connected.filter (·.id ≠ normalizeId (normalizeId rawId)) := connected_pass _
  rw [hpass, normalizeId_normalizeId, List.mem_filter, decide_eq_true_eq] at hd
  rw [h.connected _ (List.mem_map_of_mem hd.1)]
  exact hd.2

theorem ids_step_resync (s : Session) (ds : List Device) {i : String} :
    i ∈ (s.step provider (.resync ds)).1.connected.map (·.id) ↔ i ∈ ds.map (·.id) ∧ i ≠ "" := by
  have hpass : (s.step provider (.resync ds)).1.connected = Slot.present ds := connected_pass _
  rw [hpass]
  exact Slot.mem_ids_present

end Session

/-- Whatever the start, after all of some notices the session knows devices by ids in normal form
and has lost those that were reported gone, iff no snapshot among the notices holds another id. -/
theorem well_named_iff_snapshots_normal (provider : Provider) (settings : AutoAssign)
    (saved : List Slot) (notices : List (RegistryEvent ⊕ AutoAssign)) :
    (∀ done, done <+: notices → ∃ s, Worker.noticed provider settings saved done = .running s ∧
      s.WellNamed ∧ ∀ rawId, done.getLast? = some (.inl (.disconnected rawId)) → s.HasLost rawId) ↔
    ∀ ds, .inl (.snapshot ds) ∈ notices → ∀ d ∈ ds, normalizeId d.id = d.id := by
  constructor
  · intro h ds hds d hd
    by_cases hblank : d.id = ""
    · rw [hblank]
      rfl
    -- the device is connected right after the first notices that end with its snapshot
    obtain ⟨before, after, rfl⟩ := List.append_of_mem hds
    obtain ⟨t, ht⟩ := Worker.exists_noticed provider settings saved before
    obtain ⟨s, hs, hnamed, -⟩ := h (before ++ [.inl (.snapshot ds)]) ⟨after, by simp⟩
    rw [Worker.noticed_concat ht, Worker.running.injEq] at hs
    have hid : d.id ∈ s.connected.map (·.id) :=
      hs ▸ (Session.ids_step_resync t ds).2 ⟨List.mem_map_of_mem hd, hblank⟩
    obtain ⟨e, he, hed⟩ := List.mem_map.1 hid
    rw [← hed]
    exact (hnamed.connected e he).2
  · intro h done hdone
    have hnormal : Command.SnapshotsNormal done := fun ds hds => h ds (hdone.subset hds)
    obtain ⟨s, hrun⟩ := Worker.exists_noticed provider settings saved done
    obtain ⟨hs, hn⟩ := Worker.normal_run hnormal.normal hrun
    refine ⟨s, hrun, hn.wellNamed hs, ?_⟩
    intro rawId hlast
    obtain ⟨before, rfl⟩ := List.getLast?_eq_some_iff.1 hlast
    obtain ⟨t, ht⟩ := Worker.exists_noticed provider settings saved before
    have hbefore : Command.SnapshotsNormal before := fun ds hds =>
      hnormal ds (List.mem_append_left _ hds)
    have htn : t.Normal := (Worker.normal_run hbefore.normal ht).2
    rw [Worker.noticed_concat ht, Worker.running.injEq] at hrun
    exact hrun ▸ htn.hasLost_step rawId

/-- A snapshot holds a device twice, under two ids with the same normal form. Both stay connected,
and the one whose id is not in normal form also stays when the device is reported gone. -/
theorem snapshot_device_never_leaves :
    let pad : Device := ⟨"5 Pro", "Pad"⟩
    let snapshot : RegistryEvent ⊕ AutoAssign := .inl (.snapshot [⟨"5", "Pad"⟩, pad])
    let gone : RegistryEvent ⊕ AutoAssign := .inl (.disconnected "5 Pro")
    (∃ s, Worker.noticed .keyless {} [] [snapshot] = .running s ∧
      pad ∈ s.connected ∧ pad.id ∈ devices s.table ∧ normalizeId pad.id ≠ pad.id ∧
      ¬ (s.connected.map fun d => normalizeId d.id).Nodup) ∧
    ∃ s, Worker.noticed .keyless {} [] [snapshot, gone] = .running s ∧ ¬ s.HasLost "5 Pro" := by
  intro pad snapshot gone
  let keyless : Binding := .keyboard ⟨.pro, .empty⟩
  let s : Session :=
    { settings := {}
      connected := [⟨"5", "Pad"⟩, pad]
      table := [⟨0, "5", keyless⟩, ⟨1, "5 Pro", keyless⟩] }
  have hraw : normalizeId "5 Pro" = "5" := by cbv
  have hword : normalizeId "5" = "5" := by cbv
  have hsnapshot : Worker.noticed .keyless {} [] [snapshot] = .running s := by cbv
  have hgone : Worker.noticed .keyless {} [] [snapshot, gone]
      = .running { s with connected := [pad] } := by cbv
  refine ⟨⟨s, hsnapshot, by simp [s], by simp [s, pad], by simp [pad, hraw], ?_⟩, _, hgone, ?_⟩
  · simp [s, pad, hraw, hword]
  · intro hlost
    exact hlost pad (List.mem_singleton.2 rfl) rfl

end PlayerSlots
