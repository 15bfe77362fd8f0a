import Mathlib
import PlayerSlots.Proofs.Session.KnownHardware
import PlayerSlots.Proofs.Session.PlayerOrder

/-! # What a restart brings back

As long as the number of positions stays and ids are in normal form, the list saved last is all that
a restart needs: its repair is the table in memory, except for the colors.

* `Effect.kept`: the list that is kept, which is the one saved last.
* `Session.Sound.step_saved`: a command saves its table, or changes nothing but colors.
* `Worker.run_kept`: a run keeps what repairs to its table.
* `kept_list_restores_table`: the same from any start.
-/

namespace PlayerSlots
set_option autoImplicit false

open Slot (SameUpToColor repair)

variable {provider : Provider}

namespace Effect

/-- The list that is kept after some effects: the one saved last, or what was kept before. -/
def kept (before : List Slot) (effects : List Effect) : List Slot :=
  (savedLists effects).getLast?.getD before

theorem kept_of_savedLists_nil {before : List Slot} {effects : List Effect}
    (h : savedLists effects = []) : kept before effects = before := by
  rw [kept, h]
  rfl

theorem kept_of_savedLists_singleton {before table : List Slot} {effects : List Effect}
    (h : savedLists effects = [table]) : kept before effects = table := by
  rw [kept, h]
  rfl

theorem kept_append (before : List Slot) (xs ys : List Effect) :
    kept before (xs ++ ys) = kept (kept before xs) ys := by
  rw [kept, kept, kept, savedLists_append, List.getLast?_append, Option.getD_or]

end Effect

namespace Session

theorem Sound.pass_saved {s : Session} (h : s.Sound) (provider : Provider) :
    (Effect.savedLists (s.pass provider).2 = [] ∧ SameUpToColor (s.pass provider).1.table s.table) ∨
      Effect.savedLists (s.pass provider).2 = [(s.pass provider).1.table] := by
  cases he : s.settings.enabled with
  | false =>
    rw [pass_of_disabled he]
    exact .inl ⟨rfl, rfl⟩
  | true =>
    by_cases hnew : (Slot.place s.connected s.table s.settings.maxSlots provider).newcomers = []
    · obtain ⟨htable, hsaved⟩ := h.pass_of_newcomers_nil he hnew
      rw [htable]
      exact .inl ⟨hsaved, Slot.sameUpToColor_colorAll _ _⟩
    · right
      have hpass := Slot.runPass_of_newcomers_ne_nil s.settings.passOptions hnew
      rw [savedLists_pass he, hpass, if_pos rfl]

/-- A command that keeps the number of positions saves the table that it leaves, or it saves nothing
and changes nothing but colors. -/
theorem Sound.step_saved {s : Session} (h : s.Sound) (provider : Provider) {c : Command}
    (hlimit : ∀ m ∈ c.limit?, m = s.settings.maxSlots) :
    (Effect.savedLists (s.step provider c).2 = [] ∧
        SameUpToColor (s.step provider c).1.table s.table) ∨
      Effect.savedLists (s.step provider c).2 = [(s.step provider c).1.table] := by
  rcases step_cases provider s c with ⟨s₁, hs₁, hstep⟩ | hquiet
  · rw [hstep, ← hs₁.table_eq_of_limit hlimit]
    exact (h.prepares hs₁).pass_saved provider
  · left
    rw [hquiet.session]
    exact ⟨hquiet.saved, rfl⟩

/-- One command keeps what repairs to its table: where it saves a table, repair changes nothing in
that, and where it saves none, the table stays. -/
theorem Sound.kept_step {s : Session} (h : s.Sound) (hn : s.Normal) (provider : Provider)
    {c : Command} (hc : c.Normal) (hlimit : ∀ m ∈ c.limit?, m = s.settings.maxSlots)
    {before : List Slot}
    (hbefore : SameUpToColor (repair s.settings.maxSlots before) s.table) :
    SameUpToColor (repair s.settings.maxSlots (Effect.kept before (s.step provider c).2))
      (s.step provider c).1.table := by
  rcases h.step_saved provider hlimit with ⟨hnone, hsame⟩ | hsaved
  · rw [Effect.kept_of_savedLists_nil hnone]
    exact hbefore.trans hsame.symm
  · have htable : Slot.WellFormed (s.step provider c).1.settings.maxSlots
        (s.step provider c).1.table := (h.step c).table
    rw [maxSlots_step_of_limit provider hlimit] at htable
    rw [Effect.kept_of_savedLists_singleton hsaved,
      Slot.repair_eq_self htable (hn.step h hc).table]
    rfl

end Session

/-- The induction is over the commands; `before` is what is kept when the first of them comes. -/
theorem Worker.run_kept {commands : List Command} {s t : Session} (h : s.Sound) (hn : s.Normal)
    (hnormal : ∀ c ∈ commands, c.Normal)
    (hlimit : ∀ m ∈ commands.filterMap Command.limit?, m = s.settings.maxSlots)
    {before : List Slot} (hbefore : SameUpToColor (repair s.settings.maxSlots before) s.table)
    (hrun : ((running s).run provider commands).1 = running t) :
    SameUpToColor
      (repair s.settings.maxSlots (Effect.kept before ((running s).run provider commands).2))
      t.table := by
  induction commands generalizing s before with
  | nil =>
    cases hrun
    exact hbefore
  | cons c rest ih =>
    by_cases hc : c = .shutdown
    · simp [run, step, hc] at hrun
    · obtain ⟨hfirst, hrest⟩ := Command.limits_of_cons hlimit
      have hcnormal := hnormal c (List.mem_cons_self ..)
      have hmax := Session.maxSlots_step_of_limit provider hfirst
      have hstep := h.kept_step hn provider hcnormal hfirst hbefore
      rw [run_cons_running hc] at hrun ⊢
      rw [← hmax] at hstep hrest ⊢
      rw [Effect.kept_append]
      exact ih (h.step c) (hn.step h hcnormal) (fun d hd => hnormal d (List.mem_cons_of_mem c hd))
        hrest hstep hrun

/-- Let commands with ids in normal form, none for another number of positions, run from any start.
Unless a shutdown ends the run, the list saved last, or the one from the start if none was saved,
repairs to the table, except for the colors; and a further such command that saves nothing changes
nothing but colors. -/
theorem kept_list_restores_table (provider : Provider) (settings : AutoAssign) (saved : List Slot)
    (commands : List Command) (hnormal : ∀ c ∈ commands, c.Normal)
    (hlimit : ∀ m ∈ commands.filterMap Command.limit?, m = settings.maxSlots) :
    (.shutdown ∈ commands ∧
      ((Worker.running (.start settings saved)).run provider commands).1 = .stopped) ∨
    ∃ s, ((Worker.running (.start settings saved)).run provider commands).1 = .running s ∧
      SameUpToColor
        (repair settings.maxSlots (Effect.kept saved
          ((Worker.running (.start settings saved)).run provider commands).2)) s.table ∧
      ∀ c : Command, (∀ m ∈ c.limit?, m = settings.maxSlots) →
        Effect.savedLists (s.step provider c).2 = [] →
        SameUpToColor (s.step provider c).1.table s.table := by
  rcases Worker.run_cases provider (.start settings saved) commands with hend | ⟨-, s, hrun⟩
  · exact .inl hend
  · right
    have hstart : SameUpToColor (repair settings.maxSlots saved)
        (Session.start settings saved).table := rfl
    have hkept := Worker.run_kept (.start settings saved) (.start settings saved) hnormal hlimit
      hstart hrun
    have hend : s.Sound ∧ s.settings.maxSlots = settings.maxSlots := by
      refine Worker.run_induct (P := fun s => s.Sound ∧ s.settings.maxSlots = settings.maxSlots) ?_
        ⟨.start settings saved, rfl⟩ hrun
      rintro s ⟨hs, hmax⟩ c hc
      refine ⟨hs.step c, ?_⟩
      rw [Session.maxSlots_step_of_limit provider, hmax]
      intro m hm
      rw [hmax]
      exact hlimit m (List.mem_filterMap.2 ⟨c, hc, hm⟩)
    refine ⟨s, hrun, hkept, ?_⟩
    intro c hc hnone
    rw [← hend.2] at hc
    rcases hend.1.step_saved provider hc with ⟨-, hsame⟩ | hsaved
    · exact hsame
    · rw [hnone] at hsaved
      cases hsaved

/-- Repair of a careless list at the start, a save by a new device, and two commands without one. -/
theorem kept_list_restores_table_careless :
    let saved : List Slot :=
      [⟨1, "b Pad", .keyboard ⟨.pro, .empty⟩⟩, ⟨1, "c", .keyboard ⟨.handheld, .empty⟩⟩]
    let commands : List Command :=
      [.connected "c Pad" "Pad", .connected "a" "Pad", .update { maxSlots := 3, overflow := .wrap },
        .disconnected "c"]
    (∀ c ∈ commands, c.Normal) ∧ (∀ m ∈ commands.filterMap Command.limit?, m = 3) ∧
    ((.shutdown ∈ commands ∧
      ((Worker.running (.start { maxSlots := 3 } saved)).run .byName commands).1 = .stopped) ∨
    ∃ s, ((Worker.running (.start { maxSlots := 3 } saved)).run .byName commands).1 = .running s ∧
      SameUpToColor
        (repair 3 (Effect.kept saved
          ((Worker.running (.start { maxSlots := 3 } saved)).run .byName commands).2)) s.table ∧
      ∀ c : Command, (∀ m ∈ c.limit?, m = 3) →
        Effect.savedLists (s.step .byName c).2 = [] →
        SameUpToColor (s.step .byName c).1.table s.table) := by
  intro saved commands
  have hnormal : ∀ c ∈ commands, c.Normal := by
    intro c hc
    simp only [commands, List.mem_cons, List.not_mem_nil, or_false] at hc
    rcases hc with rfl | rfl | rfl | rfl
    · exact Command.normal_connected _ _
    · exact Command.normal_connected _ _
    · trivial
    · trivial
  have hlimit : ∀ m ∈ commands.filterMap Command.limit?, m = 3 := by
    intro m hm
    exact List.mem_singleton.1 hm
  exact ⟨hnormal, hlimit,
    kept_list_restores_table .byName { maxSlots := 3 } saved commands hnormal hlimit⟩

end PlayerSlots
