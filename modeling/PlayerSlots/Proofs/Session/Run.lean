import PlayerSlots.Session.Trace

/-! # Steps and runs of a session

* `Session.Prepares`, `Session.Quiet`: what a command makes of the session before its pass, and a
  command without a pass. `Session.step_cases` says that there are no others.
* `Worker.run_append`: a run goes on from where its first part ended.
* `Worker.run_cases`: a run ends early by a shutdown and in no other way.
* `Worker.run_induct`: what every command keeps holds after a run.
* `Session.Reachable`: the sessions that commands can lead to from some start.
-/

namespace PlayerSlots
set_option autoImplicit false

variable {provider : Provider}

/-! ## Lists of effects -/

namespace Effect

@[simp] theorem savedLists_append (xs ys : List Effect) :
    savedLists (xs ++ ys) = savedLists xs ++ savedLists ys :=
  List.filterMap_append

@[simp] theorem appliedLists_append (xs ys : List Effect) :
    appliedLists (xs ++ ys) = appliedLists xs ++ appliedLists ys :=
  List.filterMap_append

@[simp] theorem savedLists_map_asked (names : List String) :
    savedLists (names.map asked) = [] := by
  rw [savedLists, List.filterMap_map, List.filterMap_eq_nil_iff]
  intro name _
  rfl

@[simp] theorem appliedLists_map_asked (names : List String) :
    appliedLists (names.map asked) = [] := by
  rw [appliedLists, List.filterMap_map, List.filterMap_eq_nil_iff]
  intro name _
  rfl

end Effect

/-! ## One command -/

/-- The number of positions that a command asks for. -/
def Command.limit? : Command → Option Nat
  | .update settings => some settings.maxSlots
  | _ => none

theorem Command.limits_of_cons {limit : Nat} {c : Command} {rest : List Command}
    (h : ∀ m ∈ (c :: rest).filterMap Command.limit?, m = limit) :
    (∀ m ∈ c.limit?, m = limit) ∧ ∀ m ∈ rest.filterMap Command.limit?, m = limit := by
  constructor
  · intro m hm
    exact h m (List.mem_filterMap.2 ⟨c, List.mem_cons_self .., hm⟩)
  · intro m hm
    obtain ⟨d, hd, hdm⟩ := List.mem_filterMap.1 hm
    exact h m (List.mem_filterMap.2 ⟨d, List.mem_cons_of_mem c hd, hdm⟩)

namespace Session

/-- The command makes `s₁` of the session and then runs a pass over it. -/
inductive Prepares (s : Session) : Command → Session → Prop
  | connect (d : Device) : Prepares s (.connect d) (s.connect d)
  | disconnect (id : String) : Prepares s (.disconnect id) (s.disconnect id)
  | resync (ds : List Device) : Prepares s (.resync ds) (s.resync ds)
  | update (settings : AutoAssign) (h : settings ≠ s.settings) :
      Prepares s (.update settings) (s.update settings)
  | refresh : Prepares s .refresh s

/-- The command leaves the session as it is, and hands no table on. -/
structure Quiet (provider : Provider) (s : Session) (c : Command) : Prop where
  session : (s.step provider c).1 = s
  limit : ∀ m ∈ c.limit?, m = s.settings.maxSlots
  applied : Effect.appliedLists (s.step provider c).2 = []
  saved : Effect.savedLists (s.step provider c).2 = []

/-- What a command prepares determines what it does. -/
theorem Prepares.step_eq {s s₁ : Session} {c : Command} (h : s.Prepares c s₁)
    (provider : Provider) : s.step provider c = s₁.pass provider := by
  cases h with
  | connect d => rfl
  | disconnect id => rfl
  | resync ds => rfl
  | update settings hne => rw [step, if_neg hne]
  | refresh => rfl

/-- A command prepares one pass, or it is quiet. -/
theorem step_cases (provider : Provider) (s : Session) (c : Command) :
    (∃ s₁, s.Prepares c s₁ ∧ s.step provider c = s₁.pass provider) ∨ s.Quiet provider c := by
  have hquiet : ∀ c', c'.limit? = none → (s.step provider c').1 = s →
      Effect.appliedLists (s.step provider c').2 = [] →
      Effect.savedLists (s.step provider c').2 = [] → s.Quiet provider c' := by
    intro c' hlimit hsession happlied hsaved
    exact ⟨hsession, by simp [hlimit], happlied, hsaved⟩
  cases c with
  | connect d => exact .inl ⟨_, .connect d, rfl⟩
  | disconnect id => exact .inl ⟨_, .disconnect id, rfl⟩
  | resync ds => exact .inl ⟨_, .resync ds, rfl⟩
  | update settings =>
    by_cases heq : settings = s.settings
    · right
      have hstep : s.step provider (.update settings) = (s, []) := by rw [step, if_pos heq]
      refine ⟨by rw [hstep], ?_, by rw [hstep]; rfl, by rw [hstep]; rfl⟩
      intro m hm
      cases hm
      rw [heq]
    · exact .inl ⟨_, .update settings heq, (Prepares.update settings heq).step_eq provider⟩
  | refresh => exact .inl ⟨_, .refresh, rfl⟩
  | askSlots => exact .inr (hquiet _ rfl rfl rfl rfl)
  | askConnected => exact .inr (hquiet _ rfl rfl rfl rfl)
  | shutdown => exact .inr (hquiet _ rfl rfl rfl rfl)

theorem step_update_self (provider : Provider) (s : Session) :
    s.step provider (.update s.settings) = (s, []) := by
  rw [step, if_pos rfl]

theorem settings_connect (s : Session) (d : Device) : (s.connect d).settings = s.settings := by
  unfold connect
  split
  · rfl
  · split <;> rfl

theorem table_connect (s : Session) (d : Device) : (s.connect d).table = s.table := by
  unfold connect
  split
  · rfl
  · split <;> rfl

/-- Only a new device with an id adds an id, after the others. -/
theorem ids_connect (s : Session) (d : Device) :
    (s.connect d).connected.map (·.id) =
      if d.id = "" ∨ d.id ∈ s.connected.map (·.id) then s.connected.map (·.id)
      else s.connected.map (·.id) ++ [d.id] := by
  unfold connect
  by_cases hblank : d.id = ""
  · rw [if_pos hblank, if_pos (.inl hblank)]
  · by_cases hknown : d.id ∈ s.connected.map (·.id)
    · rw [if_neg hblank, if_pos hknown, if_pos (.inr hknown), List.map_map]
      refine List.map_congr_left fun e _ => ?_
      by_cases he : e.id = d.id <;> simp [he]
    · rw [if_neg hblank, if_neg hknown, if_neg (not_or.2 ⟨hblank, hknown⟩), List.map_append]
      rfl

theorem Prepares.maxSlots_eq {s s₁ : Session} {c : Command} (h : s.Prepares c s₁) :
    s₁.settings.maxSlots = c.limit?.getD s.settings.maxSlots := by
  cases h with
  | connect d => rw [settings_connect]; rfl
  | disconnect id => rfl
  | resync ds => rfl
  | update settings hne => rfl
  | refresh => rfl

/-- Before its pass a command only changes the table where it changes the number of positions. -/
theorem Prepares.table_eq {s s₁ : Session} {c : Command} (h : s.Prepares c s₁) :
    s₁.table = if s₁.settings.maxSlots = s.settings.maxSlots then s.table
      else Slot.repair s₁.settings.maxSlots s.table := by
  cases h with
  | connect d => rw [settings_connect, table_connect, if_pos rfl]
  | disconnect id => exact (if_pos rfl).symm
  | resync ds => exact (if_pos rfl).symm
  | update settings hne => rfl
  | refresh => exact (if_pos rfl).symm

theorem Prepares.table_eq_of_limit {s s₁ : Session} {c : Command} (h : s.Prepares c s₁)
    (hlimit : ∀ m ∈ c.limit?, m = s.settings.maxSlots) : s₁.table = s.table := by
  rw [h.table_eq, h.maxSlots_eq, if_pos]
  cases hm : c.limit? with
  | none => rfl
  | some m => exact hlimit m hm

@[simp] theorem settings_pass (s : Session) : (s.pass provider).1.settings = s.settings := by
  unfold pass
  split <;> rfl

@[simp] theorem connected_pass (s : Session) : (s.pass provider).1.connected = s.connected := by
  unfold pass
  split <;> rfl

theorem maxSlots_step (provider : Provider) (s : Session) (c : Command) :
    (s.step provider c).1.settings.maxSlots = c.limit?.getD s.settings.maxSlots := by
  rcases step_cases provider s c with ⟨s₁, hs₁, hstep⟩ | hquiet
  · rw [hstep, settings_pass, hs₁.maxSlots_eq]
  · rw [hquiet.session]
    cases hm : c.limit? with
    | none => rfl
    | some m => exact (hquiet.limit m hm).symm

theorem maxSlots_step_of_limit (provider : Provider) {s : Session} {c : Command}
    (hlimit : ∀ m ∈ c.limit?, m = s.settings.maxSlots) :
    (s.step provider c).1.settings.maxSlots = s.settings.maxSlots := by
  rw [maxSlots_step]
  cases hm : c.limit? with
  | none => rfl
  | some m => exact hlimit m hm

theorem pass_of_disabled {s : Session} (h : s.settings.enabled = false) :
    s.pass provider = (s, []) := by
  rw [pass, if_neg (by simp [h])]

end Session

/-! ## Many commands -/

namespace Worker

@[simp] theorem run_stopped (commands : List Command) :
    stopped.run provider commands = (stopped, []) := by
  induction commands with
  | nil => rfl
  | cons c rest ih => simp [run, step, ih]

theorem step_running {c : Command} (hc : c ≠ .shutdown) (s : Session) :
    (running s).step provider c = (running (s.step provider c).1, (s.step provider c).2) := by
  simp [step, hc]

theorem run_append (w : Worker) (xs ys : List Command) :
    w.run provider (xs ++ ys) =
      (((w.run provider xs).1.run provider ys).1,
        (w.run provider xs).2 ++ ((w.run provider xs).1.run provider ys).2) := by
  induction xs generalizing w with
  | nil => rfl
  | cons c xs ih => simp [run, ih, List.append_assoc]

theorem run_concat (w : Worker) (commands : List Command) (c : Command) :
    w.run provider (commands ++ [c]) =
      (((w.run provider commands).1.step provider c).1,
        (w.run provider commands).2 ++ ((w.run provider commands).1.step provider c).2) := by
  rw [run_append]
  simp only [run, List.append_nil]

theorem run_cons_running {c : Command} (hc : c ≠ .shutdown) (s : Session) (rest : List Command) :
    (running s).run provider (c :: rest) =
      (((running (s.step provider c).1).run provider rest).1,
        (s.step provider c).2 ++ ((running (s.step provider c).1).run provider rest).2) := by
  simp [run, step_running hc]

/-- A run ends early by a shutdown and in no other way. -/
theorem run_cases (provider : Provider) (s : Session) (commands : List Command) :
    (.shutdown ∈ commands ∧ ((running s).run provider commands).1 = stopped) ∨
      (.shutdown ∉ commands ∧ ∃ t, ((running s).run provider commands).1 = running t) := by
  induction commands generalizing s with
  | nil => exact .inr ⟨by simp, s, rfl⟩
  | cons c rest ih =>
    by_cases hc : c = .shutdown
    · left
      refine ⟨by simp [hc], ?_⟩
      simp [run, step, hc]
    · rw [run_cons_running hc]
      rcases ih (s.step provider c).1 with ⟨hmem, hend⟩ | ⟨hmem, hend⟩
      · exact .inl ⟨List.mem_cons_of_mem c hmem, hend⟩
      · exact .inr ⟨by simpa [Ne.symm hc] using hmem, hend⟩

/-- What every command of a run keeps holds at its end. -/
theorem run_induct {P : Session → Prop} {commands : List Command}
    (hstep : ∀ s, P s → ∀ c ∈ commands, P (s.step provider c).1) {s t : Session} (h : P s)
    (hrun : ((running s).run provider commands).1 = running t) : P t := by
  induction commands generalizing s with
  | nil =>
    cases hrun
    exact h
  | cons c rest ih =>
    by_cases hc : c = .shutdown
    · simp [run, step, hc] at hrun
    · rw [run_cons_running hc] at hrun
      exact ih (fun s hs d hd => hstep s hs d (List.mem_cons_of_mem c hd))
        (hstep s h c (List.mem_cons_self ..)) hrun

end Worker

/-- The table after some commands from a start; empty after the end. -/
def tableAfter (provider : Provider) (settings : AutoAssign) (saved : List Slot)
    (commands : List Command) : List Slot :=
  ((Worker.running (.start settings saved)).run provider commands).1.table

theorem tableAfter_append {settings : AutoAssign} {saved : List Slot} {before : List Command}
    {s : Session}
    (hrun : ((Worker.running (.start settings saved)).run provider before).1 = .running s)
    (done : List Command) :
    tableAfter provider settings saved (before ++ done)
      = ((Worker.running s).run provider done).1.table := by
  rw [tableAfter, Worker.run_append, hrun]

theorem tableAfter_eq {settings : AutoAssign} {saved : List Slot} {commands : List Command}
    {s : Session}
    (hrun : ((Worker.running (.start settings saved)).run provider commands).1 = .running s) :
    tableAfter provider settings saved commands = s.table := by
  rw [tableAfter, hrun]
  rfl

/-- Where the table holds a device, the session has not ended. -/
theorem exists_running_of_mem_tableAfter {settings : AutoAssign} {saved : List Slot}
    {commands : List Command} {i : String}
    (hi : i ∈ Slot.devices (tableAfter provider settings saved commands)) :
    ∃ s, ((Worker.running (.start settings saved)).run provider commands).1 = .running s := by
  rcases Worker.run_cases provider (.start settings saved) commands
    with ⟨-, hend⟩ | ⟨-, hrun⟩
  · rw [tableAfter, hend] at hi
    cases hi
  · exact hrun

/-- Gives every device a keyboard without keys. -/
def Provider.keyless : Provider := fun _ => .ok (.keyboard ⟨.pro, .empty⟩)

/-! ## Reachable sessions -/

/-- Commands lead to the session from some settings and some saved table. -/
def Session.Reachable (provider : Provider) (s : Session) : Prop :=
  ∃ settings saved commands,
    ((Worker.running (.start settings saved)).run provider commands).1 = .running s

/-- What holds at every start and is kept by every command holds of every reachable session. -/
theorem Session.Reachable.induct {P : Session → Prop}
    (hstart : ∀ settings saved, P (.start settings saved))
    (hstep : ∀ s, P s → ∀ c, P (s.step provider c).1) {s : Session} (h : s.Reachable provider) :
    P s := by
  obtain ⟨settings, saved, commands, hrun⟩ := h
  exact Worker.run_induct (fun s hs c _ => hstep s hs c) (hstart settings saved) hrun

end PlayerSlots
