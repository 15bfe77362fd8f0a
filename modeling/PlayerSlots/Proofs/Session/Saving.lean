import Mathlib
import PlayerSlots.Proofs.Session.Soundness
import PlayerSlots.Proofs.Slot.Newcomers

/-! # When a table is saved

A table is saved when new hardware has come into it and at no other time, once and right after it
has been handed to whoever routes the input.

* `Session.Sound.step_of_prepares`: all that a command with a pass does, effects included.
* `Session.savedLists_step_of_disabled`: a command without a pass saves nothing.
* `saved_iff_new_hardware`: which passes save.
-/

namespace PlayerSlots
set_option autoImplicit false

open Slot (devices WellFormed)

variable {provider : Provider}

namespace Session

/-- A command whose pass runs makes the outcome the table, hands it on, and saves that same list if
the outcome is worth it. -/
theorem Sound.step_of_prepares {s s₁ : Session} (h : s.Sound) {c : Command} (hc : s.Prepares c s₁)
    (he : s₁.settings.enabled = true) :
    (Worker.running s).step provider c =
      let outcome := Slot.runPass s₁.connected s₁.table provider s₁.settings.passOptions
      (.running { s₁ with table := outcome.slots },
        outcome.asked.map .asked ++ [.applied outcome.slots] ++
          if outcome.persist then [.saved outcome.slots] else []) := by
  have hopen : c ≠ .shutdown := by
    rintro rfl
    cases hc
  rw [Worker.step_running hopen, hc.step_eq provider, (h.prepares hc).pass_eq he]

theorem savedLists_step_of_disabled {s : Session} {c : Command}
    (hoff : ∀ s₁, s.Prepares c s₁ → s₁.settings.enabled = false) :
    Effect.savedLists ((Worker.running s).step provider c).2 = [] := by
  by_cases hopen : c = .shutdown
  · simp [Worker.step, hopen, Effect.savedLists]
  · rw [Worker.step_running hopen]
    rcases step_cases provider s c with ⟨s₁, hs₁, hstep⟩ | hquiet
    · rw [hstep, pass_of_disabled (hoff s₁ hs₁)]
      rfl
    · exact hquiet.saved

end Session

/-- Over a sound table a pass asks for a save exactly if it has met new hardware. That is so iff an
unknown device is connected and the known ones leave a position, and also iff the outcome holds an
id that was not in the table; otherwise the ids stay. In a reachable session every pass hands its
outcome on once and then saves it once if it asked for that, and no other command saves. -/
theorem saved_iff_new_hardware (provider : Provider) :
    (∀ (options : PassOptions) (table : List Slot) (connected : List Device),
      WellFormed options.maxSlots table →
      let outcome := Slot.runPass connected table provider options
      outcome.persist = outcome.newDevice ∧
      (outcome.newDevice = true ↔
        (∃ d ∈ connected, d.IsValid ∧ d.id ∉ devices table) ∧
          ((connected.map (·.id)).toFinset ∩ (devices table).toFinset).card < options.maxSlots) ∧
      (outcome.newDevice = true ↔ ∃ i ∈ devices outcome.slots, i ∉ devices table) ∧
      (outcome.newDevice = false → devices outcome.slots = devices table)) ∧
    (∀ (s : Session) (c : Command), s.Reachable provider →
      (∀ s₁, s.Prepares c s₁ → s₁.settings.enabled = true →
        let outcome := Slot.runPass s₁.connected s₁.table provider s₁.settings.passOptions
        (Worker.running s).step provider c =
          (.running { s₁ with table := outcome.slots },
            outcome.asked.map .asked ++ [.applied outcome.slots] ++
              if outcome.persist then [.saved outcome.slots] else [])) ∧
      ((∀ s₁, s.Prepares c s₁ → s₁.settings.enabled = false) →
        Effect.savedLists ((Worker.running s).step provider c).2 = [])) := by
  constructor
  · intro options table connected h outcome
    exact ⟨Slot.persist_runPass options connected table provider,
      Slot.newDevice_runPass_iff options h, Slot.newDevice_iff_exists_unsaved options h,
      Slot.devices_runPass_of_not_newDevice options h⟩
  · intro s c hs
    exact ⟨fun s₁ hs₁ he => hs.sound.step_of_prepares hs₁ he, Session.savedLists_step_of_disabled⟩

/-- One position is left for two unknown devices; a command that turns passes off saves nothing. -/
theorem saved_iff_new_hardware_last_position :
    let table : List Slot := [⟨1, "a", .keyboard ⟨.pro, .empty⟩⟩]
    let connected : List Device := [⟨"c", "Pad"⟩, ⟨"a", "Pad"⟩, ⟨"b", "Pad"⟩, ⟨"c", "Pad"⟩]
    let options : PassOptions := { maxSlots := 2 }
    let outcome := Slot.runPass connected table .keyless options
    let s := Session.start { maxSlots := 2 } table
    let s₁ := s.connect ⟨"b", "Pad"⟩
    let outcome₁ := Slot.runPass s₁.connected s₁.table .keyless s₁.settings.passOptions
    WellFormed options.maxSlots table ∧ outcome.newDevice = true ∧
      (outcome.persist = outcome.newDevice ∧
      (outcome.newDevice = true ↔
        (∃ d ∈ connected, d.IsValid ∧ d.id ∉ devices table) ∧
          ((connected.map (·.id)).toFinset ∩ (devices table).toFinset).card < options.maxSlots) ∧
      (outcome.newDevice = true ↔ ∃ i ∈ devices outcome.slots, i ∉ devices table) ∧
      (outcome.newDevice = false → devices outcome.slots = devices table)) ∧
    s.Reachable .keyless ∧ s.Prepares (.connect ⟨"b", "Pad"⟩) s₁ ∧ s₁.settings.enabled = true ∧
      (Worker.running s).step .keyless (.connect ⟨"b", "Pad"⟩) =
        (.running { s₁ with table := outcome₁.slots },
          outcome₁.asked.map .asked ++ [.applied outcome₁.slots] ++
            if outcome₁.persist then [.saved outcome₁.slots] else []) ∧
    (∀ s₂, s.Prepares (.update { enabled := false }) s₂ → s₂.settings.enabled = false) ∧
      Effect.savedLists ((Worker.running s).step .keyless (.update { enabled := false })).2 = [] := by
  intro table connected options outcome s s₁ outcome₁
  have htable : WellFormed options.maxSlots table :=
    { ascending := by simp [table], below := by simp [table, options],
      present := by simp [table], distinct := by simp [table] }
  have hnew : outcome.newDevice = true := by cbv
  have hs : s.Reachable .keyless := ⟨_, _, [], rfl⟩
  have hs₁ : s.Prepares (.connect ⟨"b", "Pad"⟩) s₁ := .connect _
  have hoff : ∀ s₂, s.Prepares (.update { enabled := false }) s₂ → s₂.settings.enabled = false := by
    intro s₂ hs₂
    cases hs₂ with
    | update settings _ => rfl
  exact ⟨htable, hnew, (saved_iff_new_hardware .keyless).1 options table connected htable, hs, hs₁,
    rfl, ((saved_iff_new_hardware .keyless).2 s _ hs).1 s₁ hs₁ rfl, hoff,
    ((saved_iff_new_hardware .keyless).2 s _ hs).2 hoff⟩

end PlayerSlots
