import PlayerSlots.Proofs.Session.Saving

/-! # Where bindings come from

A session makes no binding of its own. It takes them from the saved list and from the provider and
sets the colors of their lights.

* `Slot.forall_repair`, `Slot.forall_runPass`: what holds of all bindings that go in, whatever
  their colors, holds of all that come out.
* `Worker.forall_savedLists_run`: so it holds of every list that a session saves.
-/

namespace PlayerSlots
set_option autoImplicit false

open Slot (WellFormed)

namespace Slot

variable {P : Binding → Prop}

/-- What holds of every binding depends only on what the table holds. -/
theorem forall_of_occupants_perm {t u : List Slot} (h : (occupants t).Perm (occupants u))
    (hu : ∀ x ∈ u, P x.binding) : ∀ x ∈ t, P x.binding := by
  intro x hx
  obtain ⟨y, hy, hxy⟩ := List.mem_map.1 (h.mem_iff.1 (List.mem_map_of_mem hx))
  have hbinding : y.binding = x.binding := congrArg Prod.snd hxy
  rw [← hbinding]
  exact hu y hy

theorem forall_repair (limit : Nat) {saved : List Slot} (h : ∀ x ∈ saved, P x.binding) :
    ∀ x ∈ repair limit saved, P x.binding := by
  have husable : ∀ x ∈ usable saved, P x.binding := by
    intro x hx
    have hmem := (List.filter_sublist.subset ((firstPer_sublist _ _).subset hx))
    obtain ⟨y, hy, rfl⟩ := List.mem_map.1 hmem
    exact h y hy
  refine forall_of_occupants_perm (occupants_repair_perm limit saved) fun x hx => husable x ?_
  rcases List.mem_append.1 hx with hx | hx
  · exact (inPlace_sublist limit _).subset hx
  · exact ((List.take_sublist _ _).trans List.filter_sublist).subset hx

variable (hcolor : ∀ color b, P b → P (b.setColor color))
include hcolor

theorem forall_colorAll (overflow : Overflow) {table : List Slot} (h : ∀ x ∈ table, P x.binding) :
    ∀ x ∈ colorAll overflow table, P x.binding := by
  intro x hx
  obtain ⟨y, hy, rfl⟩ := List.mem_map.1 hx
  exact hcolor _ _ (h y hy)

theorem forall_runPass {provider : Provider} (hprovider : ∀ name, P (provider.binding name))
    (options : PassOptions) {saved : List Slot} (hsaved : WellFormed options.maxSlots saved)
    (h : ∀ x ∈ saved, P x.binding) (connected : List Device) :
    ∀ x ∈ (runPass connected saved provider options).slots, P x.binding := by
  by_cases hnew : (place connected saved options.maxSlots provider).newcomers = []
  · rw [runPass_of_newcomers_nil options hsaved hnew]
    exact forall_colorAll hcolor _ h
  · rw [runPass_of_newcomers_ne_nil options hnew]
    refine forall_colorAll hcolor _ ?_
    have hperm := (occupants_compact_perm _).trans
      (occupants_place_perm connected saved options.maxSlots provider)
    refine forall_of_occupants_perm hperm fun x hx => ?_
    rcases List.mem_append.1 hx with hx | hx
    · exact h x (mem_of_mem_known ((List.take_sublist _ _).subset hx))
    · obtain ⟨d, -, rfl⟩ := List.mem_map.1 hx
      exact hprovider d.name

end Slot

variable {P : Binding → Prop} {provider : Provider} {bound : Nat}

/-- All bindings of the table have a property, and there are so many positions at most. -/
structure Session.Holds (P : Binding → Prop) (bound : Nat) (s : Session) : Prop where
  sound : s.Sound
  limit : s.settings.maxSlots ≤ bound
  bindings : ∀ x ∈ s.table, P x.binding

namespace Session

theorem Holds.start {settings : AutoAssign} {saved : List Slot} (hlimit : settings.maxSlots ≤ bound)
    (h : ∀ x ∈ saved, P x.binding) : (Session.start settings saved).Holds P bound where
  sound := .start settings saved
  limit := hlimit
  bindings := Slot.forall_repair _ h

theorem Holds.prepares {s s₁ : Session} (h : s.Holds P bound) {c : Command}
    (hlimit : ∀ m ∈ c.limit?, m ≤ bound) (hc : s.Prepares c s₁) : s₁.Holds P bound where
  sound := h.sound.prepares hc
  limit := by
    rw [hc.maxSlots_eq]
    cases hm : c.limit? with
    | none => exact h.limit
    | some m => exact hlimit m hm
  bindings := by
    rw [hc.table_eq]
    split
    · exact h.bindings
    · exact Slot.forall_repair _ h.bindings

section Kept

variable (hcolor : ∀ color b, P b → P (b.setColor color))
  (hprovider : ∀ name, P (provider.binding name))
include hcolor hprovider

/-- A pass keeps the property, and what it saves has it. -/
theorem Holds.pass {s : Session} (h : s.Holds P bound) :
    (s.pass provider).1.Holds P bound ∧ ∀ table ∈ Effect.savedLists (s.pass provider).2,
      (∀ x ∈ table, P x.binding) ∧ ∀ i ∈ Slot.indices table, i < bound := by
  cases he : s.settings.enabled with
  | false =>
    rw [pass_of_disabled he]
    exact ⟨h, nofun⟩
  | true =>
    have hbindings := Slot.forall_runPass hcolor hprovider s.settings.passOptions h.sound.table
      h.bindings s.connected
    have hout := Slot.wellFormed_runPass s.settings.passOptions h.sound.table s.connected provider
    refine ⟨⟨h.sound.pass, by rw [settings_pass]; exact h.limit, ?_⟩, ?_⟩
    · rw [h.sound.table_pass he]
      exact hbindings
    · intro table htable
      have hsaved : table
          = (Slot.runPass s.connected s.table provider s.settings.passOptions).slots := by
        rw [h.sound.pass_eq he] at htable
        simp only [Effect.savedLists_append, Effect.savedLists_map_asked, List.nil_append,
          List.mem_append] at htable
        rcases htable with htable | htable
        · cases htable
        · split at htable
          · exact List.mem_singleton.1 htable
          · cases htable
      rw [hsaved]
      exact ⟨hbindings, fun i hi => (hout.below i hi).trans_le h.limit⟩

theorem Holds.step {s : Session} (h : s.Holds P bound) {c : Command}
    (hlimit : ∀ m ∈ c.limit?, m ≤ bound) :
    (s.step provider c).1.Holds P bound ∧ ∀ table ∈ Effect.savedLists (s.step provider c).2,
      (∀ x ∈ table, P x.binding) ∧ ∀ i ∈ Slot.indices table, i < bound := by
  rcases step_cases provider s c with ⟨s₁, hs₁, hstep⟩ | hquiet
  · rw [hstep]
    exact (h.prepares hlimit hs₁).pass hcolor hprovider
  · rw [hquiet.session, hquiet.saved]
    exact ⟨h, nofun⟩

end Kept

end Session

/-- What holds of the bindings at the start and of those from the provider, whatever their colors,
holds of all bindings in every list that is saved, and the positions in it stay below any bound on
their number. -/
theorem Worker.forall_savedLists_run (hcolor : ∀ color b, P b → P (b.setColor color))
    (hprovider : ∀ name, P (provider.binding name)) {commands : List Command}
    (hlimits : ∀ c ∈ commands, ∀ m ∈ c.limit?, m ≤ bound) {s : Session} (h : s.Holds P bound) :
    ∀ table ∈ Effect.savedLists ((running s).run provider commands).2,
      (∀ x ∈ table, P x.binding) ∧ ∀ i ∈ Slot.indices table, i < bound := by
  induction commands generalizing s with
  | nil =>
    intro table htable
    cases htable
  | cons c rest ih =>
    by_cases hc : c = .shutdown
    · have hend : ((running s).run provider (c :: rest)).2 = [] := by simp [run, step, hc]
      rw [hend]
      intro table htable
      cases htable
    · have hlimit := hlimits c (List.mem_cons_self ..)
      obtain ⟨hs, hsaved⟩ := h.step hcolor hprovider hlimit
      rw [run_cons_running hc, Effect.savedLists_append]
      intro table htable
      rcases List.mem_append.1 htable with htable | htable
      · exact hsaved table htable
      · exact ih (fun d hd => hlimits d (List.mem_cons_of_mem c hd)) hs table htable

end PlayerSlots
