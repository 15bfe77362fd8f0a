import Mathlib
import PlayerSlots.Proofs.Session.Run

/-! # The input follows the table

Whoever routes the input is handed the table by every command that asks for a pass, once and after
the pass, as long as passes run. The table can also change without a pass: by the repair at the
start, and by another number of positions while passes are off. Both are made up for by the first
command that finds passes running.

* `Session.asksPass`: the commands that ask for a pass; all others are quiet.
* `Worker.appliedLists_step`: what one command hands on.
* `Worker.Routes`: the input is routed by the table. Every command keeps it, and so do runs.
* `input_follows_table`: the same of every run from a start, up to a shutdown and after it.
-/

namespace PlayerSlots
set_option autoImplicit false

open Effect (appliedLists routed)

variable {provider : Provider}

/-! ## Commands that ask for a pass -/

namespace Session

/-- Reports, refreshes and new settings ask for a pass. Questions do not, and settings that are in
force already do not either. -/
def asksPass (s : Session) : Command → Bool
  | .connect _ | .disconnect _ | .resync _ | .refresh => true
  | .update settings => settings ≠ s.settings
  | .askSlots | .askConnected | .shutdown => false

theorem Prepares.asksPass {s s₁ : Session} {c : Command} (h : s.Prepares c s₁) :
    s.asksPass c = true := by
  cases h with
  | connect d => rfl
  | disconnect id => rfl
  | resync ds => rfl
  | update settings hne => exact decide_eq_true hne
  | refresh => rfl

theorem exists_prepares_of_asksPass {s : Session} {c : Command} (h : s.asksPass c = true) :
    ∃ s₁, s.Prepares c s₁ := by
  cases c with
  | connect d => exact ⟨_, .connect d⟩
  | disconnect id => exact ⟨_, .disconnect id⟩
  | resync ds => exact ⟨_, .resync ds⟩
  | update settings => exact ⟨_, .update settings (of_decide_eq_true h)⟩
  | refresh => exact ⟨_, .refresh⟩
  | askSlots => cases h
  | askConnected => cases h
  | shutdown => cases h

theorem quiet_of_not_asksPass {s : Session} {c : Command} (h : s.asksPass c = false) :
    s.Quiet provider c := by
  refine (step_cases provider s c).resolve_left ?_
  rintro ⟨s₁, hs₁, -⟩
  rw [hs₁.asksPass] at h
  cases h

/-- A pass hands its table on, once. -/
theorem appliedLists_pass (s : Session) :
    appliedLists (s.pass provider).2 =
      if s.settings.enabled then [(s.pass provider).1.table] else [] := by
  unfold pass
  by_cases he : s.settings.enabled = true
  · rw [if_pos he, if_pos he]
    simp only [Effect.appliedLists_append, Effect.appliedLists_map_asked]
    split <;> rfl
  · rw [if_neg he, if_neg he]
    rfl

end Session

namespace Worker

/-- After the end nothing is asked for. -/
def asksPass : Worker → Command → Bool
  | running s, c => s.asksPass c
  | stopped, _ => false

/-- Passes run: the session is served, and they are on. -/
def passesRun : Worker → Bool
  | running s => s.settings.enabled
  | stopped => false

/-- A command that asks for no pass leaves the session as it is, unless it ends it. -/
theorem step_of_not_asksPass (provider : Provider) {w : Worker} {c : Command}
    (h : w.asksPass c = false) :
    ((w.step provider c).1 = w ∨ (w.step provider c).1 = stopped) ∧
      appliedLists (w.step provider c).2 = [] := by
  cases w with
  | stopped => exact ⟨.inr rfl, rfl⟩
  | running s =>
    by_cases hc : c = .shutdown
    · subst hc
      exact ⟨.inr rfl, rfl⟩
    · have hquiet : s.Quiet provider c := Session.quiet_of_not_asksPass h
      rw [step_running hc, hquiet.session]
      exact ⟨.inl rfl, hquiet.applied⟩

/-- One command hands the table on once if it asks for a pass and passes run after it, and
otherwise it hands nothing on. -/
theorem appliedLists_step (w : Worker) (c : Command) :
    appliedLists (w.step provider c).2 =
      if w.asksPass c && (w.step provider c).1.passesRun then [(w.step provider c).1.table]
      else [] := by
  cases hasks : w.asksPass c with
  | false => exact (step_of_not_asksPass provider hasks).2
  | true =>
    cases w with
    | stopped => cases hasks
    | running s =>
      obtain ⟨s₁, hs₁⟩ := Session.exists_prepares_of_asksPass hasks
      have hopen : c ≠ .shutdown := by
        rintro rfl
        cases hs₁
      rw [step_running hopen, hs₁.step_eq provider, Bool.true_and]
      simp only [passesRun, table, Session.appliedLists_pass, Session.settings_pass]

/-! ## The table in force -/

/-- While passes run, the input is routed by the table, once it is routed at all. The effects are
those up to now. -/
def Routes (w : Worker) (effects : List Effect) : Prop :=
  w.passesRun = true → appliedLists effects ≠ [] → (appliedLists effects).getLast? = some w.table

theorem Routes.step {w : Worker} {effects : List Effect} (h : w.Routes effects) (c : Command) :
    (w.step provider c).1.Routes (effects ++ (w.step provider c).2) := by
  intro hrun happlied
  rw [Effect.appliedLists_append] at happlied ⊢
  cases hasks : w.asksPass c with
  | true =>
    rw [appliedLists_step, hasks, hrun, Bool.and_self, if_pos rfl, List.getLast?_concat]
  | false =>
    obtain ⟨hend | hend, hnone⟩ := step_of_not_asksPass provider hasks
    · rw [hnone, List.append_nil] at happlied ⊢
      rw [hend] at hrun ⊢
      exact h hrun happlied
    · rw [hend] at hrun
      cases hrun

theorem Routes.run {w : Worker} {effects : List Effect} (h : w.Routes effects)
    (commands : List Command) :
    (w.run provider commands).1.Routes (effects ++ (w.run provider commands).2) := by
  induction commands generalizing w effects with
  | nil => rwa [Worker.run, List.append_nil]
  | cons c rest ih =>
    have hhead : (w.step provider c).1.Routes (effects ++ (w.step provider c).2) := h.step c
    have hrest := ih hhead
    rwa [List.append_assoc] at hrest

theorem step_shutdown (provider : Provider) (w : Worker) :
    w.step provider .shutdown = (stopped, []) := by
  cases w with
  | running s => simp [step]
  | stopped => rfl

/-- What comes after a shutdown has no effects. -/
theorem run_after_shutdown (provider : Provider) (w : Worker) (commands more : List Command) :
    w.run provider (commands ++ .shutdown :: more) = (stopped, (w.run provider commands).2) := by
  rw [← List.singleton_append, ← List.append_assoc, run_append, run_concat, step_shutdown,
    run_stopped, List.append_nil, List.append_nil]

end Worker

/-- Every command that asks for a pass hands the table on once, as it is after the command, if
passes run after it, and no other command does. So while passes run, what was handed on last is the
table, once anything was. Questions, and settings that are in force already, change neither the
session nor what anyone has been handed, and after a shutdown no command does. -/
theorem input_follows_table (provider : Provider) (settings : AutoAssign) (saved : List Slot) :
    let after := (Worker.running (.start settings saved)).run provider
    (∀ commands c,
      appliedLists (after (commands ++ [c])).2 = appliedLists (after commands).2 ++
        if (after commands).1.asksPass c && (after (commands ++ [c])).1.passesRun then
          [(after (commands ++ [c])).1.table]
        else []) ∧
    (∀ commands s, (after commands).1 = .running s → s.settings.enabled = true →
      appliedLists (after commands).2 ≠ [] →
      (appliedLists (after commands).2).getLast? = some s.table ∧
        routed (after commands).2 = s.table) ∧
    (∀ commands s, (after commands).1 = .running s →
      after (commands ++ [Command.askSlots]) =
        (.running s, (after commands).2 ++ [Effect.toldSlots s.table]) ∧
      after (commands ++ [Command.askConnected]) =
        (.running s, (after commands).2 ++ [Effect.toldConnected s.connected]) ∧
      after (commands ++ [Command.update s.settings]) = (.running s, (after commands).2)) ∧
    ∀ commands more,
      after (commands ++ Command.shutdown :: more) = (.stopped, (after commands).2) := by
  intro after
  refine ⟨?_, ?_, ?_, ?_⟩
  · intro commands c
    simp only [after, Worker.run_concat, Effect.appliedLists_append, Worker.appliedLists_step]
  · intro commands s hrun he happlied
    have hstart : (Worker.running (.start settings saved)).Routes [] := fun _ hnone =>
      absurd rfl hnone
    have hroutes : (after commands).1.Routes (after commands).2 := hstart.run commands
    have hlast : (appliedLists (after commands).2).getLast? = some s.table := by
      rw [hrun] at hroutes
      exact hroutes he happlied
    exact ⟨hlast, by rw [routed, hlast, Option.getD_some]⟩
  · intro commands s hrun
    have hnext : ∀ c, c ≠ .shutdown → after (commands ++ [c]) =
        (.running (s.step provider c).1, (after commands).2 ++ (s.step provider c).2) := by
      intro c hc
      have hconcat : after (commands ++ [c]) = _ := Worker.run_concat _ commands c
      rw [hconcat, hrun, Worker.step_running hc]
    refine ⟨hnext .askSlots nofun, hnext .askConnected nofun, ?_⟩
    rw [hnext (.update s.settings) nofun, Session.step_update_self, List.append_nil]
  · exact Worker.run_after_shutdown provider _

/-- The table loses a position while passes are off, and is handed on again when they are back. -/
theorem input_follows_table_resized :
    let start : Worker := .running (.start { maxSlots := 2 } [])
    let commands : List Command :=
      [.connected "a" "Pad", .connected "b" "Pad", .update { enabled := false, maxSlots := 1 },
        .update { maxSlots := 1 }]
    let s : Session :=
      { settings := { maxSlots := 1 }
        connected := [⟨"a", "Pad"⟩, ⟨"b", "Pad"⟩]
        table := [⟨0, "a", .keyboard ⟨.pro, .empty⟩⟩] }
    let effects := (start.run .keyless commands).2
    (start.run .keyless commands).1 = .running s ∧ s.settings.enabled = true ∧
      appliedLists effects ≠ [] ∧
      ((appliedLists effects).getLast? = some s.table ∧ routed effects = s.table) ∧
      (start.run .keyless (commands ++ [Command.askSlots]) =
          (.running s, effects ++ [Effect.toldSlots s.table]) ∧
        start.run .keyless (commands ++ [Command.askConnected]) =
          (.running s, effects ++ [Effect.toldConnected s.connected]) ∧
        start.run .keyless (commands ++ [Command.update s.settings]) = (.running s, effects)) := by
  intro start commands s effects
  have hrun : (start.run .keyless commands).1 = .running s := by cbv
  have hcount : (appliedLists (start.run .keyless commands).2).length = 3 := by cbv
  have happlied : appliedLists effects ≠ [] := List.ne_nil_of_length_eq_add_one hcount
  obtain ⟨-, hlast, hquiet, -⟩ := input_follows_table .keyless { maxSlots := 2 } []
  exact ⟨hrun, rfl, happlied, hlast commands s hrun rfl happlied, hquiet commands s hrun⟩

end PlayerSlots
