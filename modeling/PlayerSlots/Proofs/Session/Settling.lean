import Mathlib
import PlayerSlots.Proofs.Session.KnownHardware
import PlayerSlots.Proofs.Session.Seats
import PlayerSlots.Proofs.Slot.Newcomers

/-! # A session settles in one pass

After a pass nobody who is connected waits for a slot that could be had, and every light shows the
color of its position. A pass over the same ids then changes nothing, so commands that bring no news
change nothing either.

* `Session.Settled`, `Session.Sound.settled_pass`, `Session.Settled.pass_eq`.
* `Worker.run_settled`: a session in which a pass has run is settled as long as passes run.
* `Session.Idle`: the commands that bring no news.
* `settled_after_one_pass`: they change nothing in such a session.
-/

namespace PlayerSlots
set_option autoImplicit false

open Slot (WellFormed)

variable {provider : Provider}

namespace Session

/-! ## Settled sessions -/

/-- Nobody waits for a slot that could be had, and the colors are those of the positions. -/
structure Settled (s : Session) : Prop where
  served : s.Served
  colored : Slot.colorAll s.settings.overflow s.table = s.table

theorem Sound.settled_pass {s : Session} (h : s.Sound) (he : s.settings.enabled = true) :
    (s.pass provider).1.Settled where
  served := h.served_pass he
  colored := by
    rw [h.table_pass he, settings_pass]
    exact Slot.colorAll_runPass s.settings.passOptions s.connected s.table provider

/-- A pass over the ids for which a session is settled changes nothing. -/
theorem Settled.pass_eq {s s₁ : Session} (hs : s.Settled) (h₁ : s₁.Sound)
    (hsettings : s₁.settings = s.settings) (htable : s₁.table = s.table)
    (hids : ∀ i, i ∈ s₁.connected.map (·.id) ↔ i ∈ s.connected.map (·.id)) :
    (s₁.pass provider).1.table = s.table ∧ Effect.savedLists (s₁.pass provider).2 = [] := by
  cases he : s₁.settings.enabled with
  | false =>
    rw [pass_of_disabled he]
    exact ⟨htable, rfl⟩
  | true =>
    have hnone : (Slot.place s₁.connected s₁.table s₁.settings.maxSlots provider).newcomers = [] := by
      apply Slot.newcomers_eq_nil_of_seated_or_full h₁.table
      intro i hi _
      rw [htable, hsettings]
      refine (hs.served i ((hids i).1 hi)).imp_right ?_
      rintro ⟨hlen, hheld⟩
      exact ⟨hlen, fun j hj => (hids j).2 (hheld j hj)⟩
    obtain ⟨hpass, hsaved⟩ := h₁.pass_of_newcomers_nil he hnone
    rw [hpass, htable, hsettings, hs.colored]
    exact ⟨rfl, hsaved⟩

/-- A command runs a pass, which settles the session, or it is quiet. -/
theorem Sound.settled_step {s : Session} (h : s.Sound) (provider : Provider) (c : Command) :
    ((s.step provider c).1.settings.enabled = true → (s.step provider c).1.Settled) ∨
      s.Quiet provider c := by
  rcases step_cases provider s c with ⟨s₁, hs₁, hstep⟩ | hquiet
  · left
    rw [hstep, settings_pass]
    exact fun he => (h.prepares hs₁).settled_pass he
  · exact .inr hquiet

end Session

/-- The induction is over the commands. Until a pass has run the session at hand need not be settled;
quiet commands leave that open, and every other one decides it. -/
theorem Worker.run_settled {commands : List Command} {s t : Session} (h : s.Sound)
    (hrun : ((running s).run provider commands).1 = running t)
    (hpassed : Effect.appliedLists ((running s).run provider commands).2 ≠ [] ∨
      (s.settings.enabled = true → s.Settled)) :
    t.settings.enabled = true → t.Settled := by
  induction commands generalizing s with
  | nil =>
    cases hrun
    exact hpassed.resolve_left fun hne => hne rfl
  | cons c rest ih =>
    by_cases hc : c = .shutdown
    · simp [run, step, hc] at hrun
    · rw [run_cons_running hc] at hrun hpassed
      refine ih (h.step c) hrun ?_
      rcases h.settled_step provider c with hsettled | hquiet
      · exact .inr hsettled
      · rw [Effect.appliedLists_append, hquiet.applied, List.nil_append] at hpassed
        rw [hquiet.session] at hpassed ⊢
        exact hpassed

/-! ## Commands without news -/

namespace Session

/-- A command that tells a session nothing new about who is connected. -/
inductive Idle (s : Session) : Command → Prop
  | refresh : Idle s .refresh
  | reconnect (d : Device) (h : d.id ∈ s.connected.map (·.id)) : Idle s (.connect d)
  | blank (name : String) : Idle s (.connect ⟨"", name⟩)
  | absent (id : String) (h : normalizeId id ∉ s.connected.map (·.id)) : Idle s (.disconnect id)
  | resync (ds : List Device)
      (h : ∀ i, i ≠ "" ∧ i ∈ ds.map (·.id) ↔ i ∈ s.connected.map (·.id)) : Idle s (.resync ds)

theorem Idle.prepares {s : Session} {c : Command} (hc : s.Idle c) :
    ∃ s₁, s.Prepares c s₁ ∧ s₁.settings = s.settings ∧ s₁.table = s.table ∧
      ∀ i, i ∈ s₁.connected.map (·.id) ↔ i ∈ s.connected.map (·.id) := by
  cases hc with
  | refresh => exact ⟨s, .refresh, rfl, rfl, fun _ => Iff.rfl⟩
  | reconnect d hd =>
    refine ⟨_, .connect d, settings_connect s d, table_connect s d, ?_⟩
    rw [ids_connect, if_pos (.inr hd)]
    exact fun _ => Iff.rfl
  | blank name =>
    refine ⟨_, .connect _, settings_connect s _, table_connect s _, ?_⟩
    rw [ids_connect, if_pos (.inl rfl)]
    exact fun _ => Iff.rfl
  | absent id hid =>
    refine ⟨_, .disconnect id, rfl, rfl, ?_⟩
    have hall : s.connected.filter (·.id ≠ normalizeId id) = s.connected := by
      rw [List.filter_eq_self]
      intro d hd
      exact decide_eq_true fun heq => hid (heq ▸ List.mem_map_of_mem hd)
    rw [disconnect, hall]
    exact fun _ => Iff.rfl
  | resync ds hds =>
    refine ⟨_, .resync ds, rfl, rfl, ?_⟩
    intro i
    rw [← hds i, and_comm]
    exact Slot.mem_ids_present

theorem Settled.step_of_idle {s : Session} (hs : s.Settled) (h : s.Sound) (provider : Provider)
    {c : Command} (hc : s.Idle c) :
    ∃ t, ((Worker.running s).step provider c).1 = .running t ∧ t.table = s.table ∧
      Effect.savedLists ((Worker.running s).step provider c).2 = [] := by
  obtain ⟨s₁, hs₁, hsettings, htable, hids⟩ := hc.prepares
  have hopen : c ≠ .shutdown := by
    rintro rfl
    cases hc
  rw [Worker.step_running hopen, hs₁.step_eq provider]
  exact ⟨_, rfl, hs.pass_eq (h.prepares hs₁) hsettings htable hids⟩

end Session

/-- Once a pass has run, and while passes run, a command without news leaves the table exactly as it
is, the colors included, and saves nothing. Likewise a pass over what a pass has made of a sound
table changes nothing and asks for no save, if the same ids are connected, whether or not there is
a position for each. -/
theorem settled_after_one_pass (provider : Provider) :
    (∀ (settings : AutoAssign) (saved : List Slot) (commands : List Command) (s : Session),
      ((Worker.running (.start settings saved)).run provider commands).1 = .running s →
      Effect.appliedLists ((Worker.running (.start settings saved)).run provider commands).2 ≠ [] →
      s.settings.enabled = true → ∀ c, s.Idle c →
      ∃ t, ((Worker.running s).step provider c).1 = .running t ∧ t.table = s.table ∧
        Effect.savedLists ((Worker.running s).step provider c).2 = []) ∧
    (∀ (options : PassOptions) (table : List Slot) (connected connected' : List Device),
      WellFormed options.maxSlots table →
      (∀ i, i ≠ "" → (i ∈ connected'.map (·.id) ↔ i ∈ connected.map (·.id))) →
      let first := Slot.runPass connected table provider options
      let second := Slot.runPass connected' first.slots provider options
      second.slots = first.slots ∧ second.persist = false) := by
  constructor
  · intro settings saved commands s hrun hpassed he c hc
    have hs : s.Sound := Session.Reachable.sound ⟨settings, saved, commands, hrun⟩
    have hsettled := Worker.run_settled (.start settings saved) hrun (.inl hpassed) he
    exact hsettled.step_of_idle hs provider hc
  · intro options table connected connected' h hids first second
    have hsecond : second = _ := Slot.runPass_runPass options h hids provider provider
    rw [hsecond]
    exact ⟨rfl, rfl⟩

/-- Three devices for two positions, reported again in another order and with repetitions; and a pass
that renumbers, followed by one that does not. -/
theorem settled_after_one_pass_crowded :
    let commands : List Command :=
      [.connected "a" "Pad", .connected "b" "Pad", .connected "c" "Pad"]
    let s : Session :=
      { settings := { maxSlots := 2 }
        connected := [⟨"a", "Pad"⟩, ⟨"b", "Pad"⟩, ⟨"c", "Pad"⟩]
        table := [⟨0, "a", .keyboard ⟨.pro, .empty⟩⟩, ⟨1, "b", .keyboard ⟨.pro, .empty⟩⟩] }
    let again : List Device := [⟨"c", "Pad"⟩, ⟨"", "Pad"⟩, ⟨"b", "New"⟩, ⟨"a", "Pad"⟩, ⟨"b", "Pad"⟩]
    let table : List Slot := [⟨1, "a", .keyboard ⟨.pro, .empty⟩⟩, ⟨3, "d", .keyboard ⟨.pro, .empty⟩⟩]
    let first := Slot.runPass s.connected table .keyless { maxSlots := 4 }
    ((Worker.running (.start { maxSlots := 2 } [])).run .keyless commands).1 = .running s ∧
      Effect.appliedLists ((Worker.running (.start { maxSlots := 2 } [])).run .keyless commands).2
        ≠ [] ∧ s.settings.enabled = true ∧ s.Idle (.resync again) ∧
      (∃ t, ((Worker.running s).step .keyless (.resync again)).1 = .running t ∧ t.table = s.table ∧
        Effect.savedLists ((Worker.running s).step .keyless (.resync again)).2 = []) ∧
    WellFormed 4 table ∧
      (∀ i, i ≠ "" → (i ∈ again.map (·.id) ↔ i ∈ s.connected.map (·.id))) ∧
      (Slot.runPass again first.slots .keyless { maxSlots := 4 }).slots = first.slots ∧
      (Slot.runPass again first.slots .keyless { maxSlots := 4 }).persist = false := by
  intro commands s again table first
  have hrun : ((Worker.running (.start { maxSlots := 2 } [])).run .keyless commands).1 = .running s := by
    cbv
  have hcount : (Effect.appliedLists
      ((Worker.running (.start { maxSlots := 2 } [])).run .keyless commands).2).length = 3 := by
    cbv
  have hpassed : Effect.appliedLists
      ((Worker.running (.start { maxSlots := 2 } [])).run .keyless commands).2 ≠ [] := by
    intro hnone
    rw [hnone] at hcount
    cases hcount
  have hids : ∀ i, i ≠ "" → (i ∈ again.map (·.id) ↔ i ∈ s.connected.map (·.id)) := by
    intro i hi
    simp only [again, s, List.map_cons, List.map_nil, List.mem_cons, List.not_mem_nil, or_false]
    grind
  have hidle : s.Idle (.resync again) := by
    refine .resync again fun i => ⟨fun hi => (hids i hi.1).1 hi.2, fun hi => ?_⟩
    have hne : i ≠ "" := by
      rintro rfl
      simp [s] at hi
    exact ⟨hne, (hids i hne).2 hi⟩
  have htable : WellFormed 4 table :=
    { ascending := by simp [table], below := by simp [table],
      present := by simp [table], distinct := by simp [table] }
  exact ⟨hrun, hpassed, rfl, hidle,
    (settled_after_one_pass .keyless).1 _ _ commands s hrun hpassed rfl _ hidle, htable, hids,
    (settled_after_one_pass .keyless).2 { maxSlots := 4 } table s.connected again htable hids⟩

end PlayerSlots
