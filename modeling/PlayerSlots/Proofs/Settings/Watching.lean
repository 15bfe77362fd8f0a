import PlayerSlots.Settings.Watch

/-! # No write goes unread

One signal stands for many notices, and notices arrive while a watch is at work. Still, a watch with
nothing left to do has read the file after it was written last.

* `Watch.Step`: what a step can do, case by case; `Watch.step?_eq_some_iff`.
* `Watch.run_induct`: what every step keeps holds after a run, with what was seen of the file.
* `Watch.Remembers`: unread content leads to another opening of the file.
* `Watch.Fresh`: without unread content the file holds what was seen last.
* `Watch.Account`: what is applied and reported follows from what was seen.
* `Watch.Reloads`: the file was opened again and its content seen; `Watch.reloads_of_unread`.
* `Watch.CanSettle`: without further writes a watch can get to where nothing is left to do.
* `quiet_watch_is_current`: the main statement.
-/

namespace PlayerSlots
set_option autoImplicit false

/-! ## Several reloads -/

namespace AutoAssign

variable (applied : AutoAssign)

theorem reload_of_change?_eq_none {loaded : Except SettingsError Settings}
    (h : applied.change? loaded = none) : applied.reload loaded = applied := by
  rw [reload, h]
  rfl

theorem reload_of_change?_eq_some {loaded : Except SettingsError Settings} {s : AutoAssign}
    (h : applied.change? loaded = some s) : applied.reload loaded = s := by
  rw [reload, h]
  rfl

/-- After a reload of usable settings these are the settings reported last. -/
@[simp] theorem reload_ok (s : Settings) : applied.reload (.ok s) = s.autoAssign := by
  by_cases h : s.autoAssign = applied <;> simp [reload, change?, h]

theorem reports_append (xs ys : List (Except SettingsError Settings)) :
    applied.reports (xs ++ ys) = applied.reports xs ++ (xs.foldl reload applied).reports ys := by
  induction xs generalizing applied with
  | nil => rfl
  | cons x xs ih => rw [List.cons_append, reports, reports, ih, List.append_assoc, List.foldl_cons]

theorem reports_concat (xs : List (Except SettingsError Settings))
    (x : Except SettingsError Settings) :
    applied.reports (xs ++ [x])
      = applied.reports xs ++ ((xs.foldl reload applied).change? x).toList := by
  rw [reports_append, reports, reports, List.append_nil]

/-- After several reloads, the last of which was of usable settings, these are reported last. -/
theorem foldl_reload_of_getLast? {past : List (Option (List UInt8))}
    {content : Option (List UInt8)} {s : Settings} (hlast : past.getLast? = some content)
    (hload : Settings.load content = .ok s) :
    (past.map Settings.load).foldl reload applied = s.autoAssign := by
  obtain ⟨earlier, rfl⟩ := List.getLast?_eq_some_iff.1 hlast
  rw [List.map_append, List.foldl_append, List.map_singleton, hload]
  exact reload_ok _ s

end AutoAssign

/-- Whether a step gives the file new content. -/
def WatchEvent.isWrite : WatchEvent → Bool
  | .write _ => true
  | _ => false

/-- What has been read and is compared next. -/
def WatchPhase.uncompared? : WatchPhase → Option (Option (List UInt8))
  | .comparing seen => some seen
  | _ => none

/-- The settings that wait for room to be reported. -/
def WatchPhase.news? : WatchPhase → Option AutoAssign
  | .reporting s => some s
  | _ => none

namespace Watch

variable {w w' : Watch} {e : WatchEvent} {events : List WatchEvent}
  {past : List (Option (List UInt8))}

theorem start_eq_ok_iff {content : Option (List UInt8)} {s : Settings} :
    Watch.start content = .ok (s, w) ↔
      Settings.load content = .ok s ∧ w = { content, applied := s.autoAssign } := by
  rw [start]
  cases Settings.load content with
  | error e => exact ⟨nofun, nofun⟩
  | ok t =>
    constructor
    · rintro ⟨⟩
      exact ⟨rfl, rfl⟩
    · rintro ⟨⟨⟩, rfl⟩
      rfl

/-! ## One step -/

/-- What a step of a watch does, and when it is possible. -/
inductive Step (w : Watch) : WatchEvent → Watch → Prop
  | write (content : Option (List UInt8)) :
      Step w (.write content) { w with content, unread := true, notices := w.notices + 1 }
  | notice {n : Nat} (h : w.notices = n + 1) (hopen : w.closed = false) :
      Step w .notice { w with notices := n, signal := true }
  | take {s : AutoAssign} {rest : List AutoAssign} (h : w.queue = s :: rest)
      (hopen : w.closed = false) :
      Step w .take { w with queue := rest, taken := w.taken ++ [s] }
  | close : Step w .close { w with closed := true }
  | wake (hphase : w.phase = .waiting) (h : w.signal = true) :
      Step w .wake { w with signal := false, phase := .settling }
  | stop (hphase : w.phase = .waiting) (h : w.signal = false) (hclosed : w.closed = true) :
      Step w .wake { w with phase := .stopped }
  | settled (hphase : w.phase = .settling) : Step w .settled { w with phase := .draining }
  | drain (hphase : w.phase = .draining) (h : w.signal = true) :
      Step w .drain { w with signal := false }
  | drained (hphase : w.phase = .draining) (h : w.signal = false) :
      Step w .drained { w with phase := .opening }
  | opened (hphase : w.phase = .opening) :
      Step w .opened { w with unread := false, phase := .reading }
  | read (seen : Option (List UInt8)) (hphase : w.phase = .reading) :
      Step w (.read seen) { w with phase := .comparing (w.sight seen) }
  | unchanged {seen : Option (List UInt8)} (hphase : w.phase = .comparing seen)
      (h : w.applied.change? (Settings.load seen) = none) :
      Step w .compare { w with phase := .waiting }
  | changed {seen : Option (List UInt8)} {s : AutoAssign} (hphase : w.phase = .comparing seen)
      (h : w.applied.change? (Settings.load seen) = some s) :
      Step w .compare { w with applied := s, phase := .reporting s }
  | report {s : AutoAssign} (hphase : w.phase = .reporting s) (hopen : w.closed = false)
      (h : w.queue.length < reportRoom) :
      Step w .report { w with queue := w.queue ++ [s], phase := .waiting }
  | abandon {s : AutoAssign} (hphase : w.phase = .reporting s) (hclosed : w.closed = true) :
      Step w .report { w with phase := .stopped }

theorem Step.step?_eq (h : w.Step e w') : w.step? e = some w' := by
  cases h <;> simp_all [step?]

theorem step_of_step? (h : w.step? e = some w') : w.Step e w' := by
  cases e with
  | write content =>
    cases h
    exact .write content
  | notice =>
    rw [step?] at h
    split at h
    · cases h
    · rename_i hpossible
      obtain ⟨hsome, hopen⟩ := not_or.1 hpossible
      obtain ⟨n, hn⟩ := Nat.exists_eq_succ_of_ne_zero hsome
      cases h
      rw [hn]
      exact .notice hn (Bool.of_not_eq_true hopen)
  | take =>
    simp only [step?] at h
    split at h
    · cases h
    · rename_i s rest hqueue
      split at h
      · cases h
      · rename_i hopen
        cases h
        exact .take hqueue (Bool.of_not_eq_true hopen)
  | close =>
    cases h
    exact .close
  | wake =>
    rw [step?] at h
    split at h
    · cases h
    · rename_i hphase
      rw [ne_eq, Decidable.not_not] at hphase
      split at h
      · rename_i hsignal
        cases h
        exact .wake hphase hsignal
      · rename_i hsignal
        split at h
        · rename_i hclosed
          cases h
          exact .stop hphase (Bool.of_not_eq_true hsignal) hclosed
        · cases h
  | settled =>
    obtain ⟨hphase, ⟨⟩⟩ := Option.ite_none_right_eq_some.1 h
    exact .settled hphase
  | drain =>
    obtain ⟨⟨hphase, hsignal⟩, ⟨⟩⟩ := Option.ite_none_right_eq_some.1 h
    exact .drain hphase hsignal
  | drained =>
    obtain ⟨⟨hphase, hsignal⟩, ⟨⟩⟩ := Option.ite_none_right_eq_some.1 h
    exact .drained hphase (Bool.of_not_eq_true hsignal)
  | opened =>
    obtain ⟨hphase, ⟨⟩⟩ := Option.ite_none_right_eq_some.1 h
    exact .opened hphase
  | read seen =>
    obtain ⟨hphase, ⟨⟩⟩ := Option.ite_none_right_eq_some.1 h
    exact .read seen hphase
  | compare =>
    simp only [step?] at h
    split at h
    · rename_i seen hphase
      split at h
      · rename_i hsame
        cases h
        exact .unchanged hphase hsame
      · rename_i s hnews
        cases h
        exact .changed hphase hnews
    · cases h
  | report =>
    simp only [step?] at h
    split at h
    · rename_i s hphase
      split at h
      · rename_i hclosed
        cases h
        exact .abandon hphase hclosed
      · rename_i hopen
        obtain ⟨hroom, ⟨⟩⟩ := Option.ite_none_right_eq_some.1 h
        exact .report hphase (Bool.of_not_eq_true hopen) hroom
    · cases h

theorem step?_eq_some_iff : w.step? e = some w' ↔ w.Step e w' := ⟨step_of_step?, Step.step?_eq⟩

/-! ## Many steps -/

theorem run_cons_eq_some_iff {rest : List WatchEvent} :
    w.run (e :: rest) = some w' ↔ ∃ w₁, w.Step e w₁ ∧ w₁.run rest = some w' := by
  simp [run, Option.bind_eq_some_iff, step?_eq_some_iff]

theorem run_append (w : Watch) (xs ys : List WatchEvent) :
    w.run (xs ++ ys) = (w.run xs).bind (·.run ys) := by
  induction xs generalizing w with
  | nil => rfl
  | cons e xs ih =>
    rw [List.cons_append, run, run, Option.bind_assoc]
    exact congrArg _ (funext ih)

theorem run_concat_eq_some_iff :
    w.run (events ++ [e]) = some w' ↔ ∃ w₁, w.run events = some w₁ ∧ w₁.Step e w' := by
  simp [run_append, run, Option.bind_eq_some_iff, step?_eq_some_iff]

theorem Step.attempt_eq (h : w.Step e w') : w.attempt e = w' := by
  rw [attempt, h.step?_eq]
  rfl

/-- What every step keeps, given what it sees of the file, holds after a run. -/
theorem run_induct {P : List (Option (List UInt8)) → Watch → Prop}
    (past : List (Option (List UInt8)))
    (hstep : ∀ past w e w', Step w e w' → P past w → P (past ++ (w.glance? e).toList) w')
    (h : P past w) (hrun : w.run events = some w') : P (past ++ w.seen events) w' := by
  induction events generalizing past w with
  | nil =>
    cases hrun
    rwa [seen, List.append_nil]
  | cons e rest ih =>
    obtain ⟨w₁, hfirst, hrest⟩ := run_cons_eq_some_iff.1 hrun
    rw [seen, hfirst.attempt_eq, ← List.append_assoc]
    exact ih _ (hstep past w e w₁ hfirst h) hrest

/-! ## Unread content -/

/-- Content that has not been read since the file was opened last leads to another opening: the
watch is on its way there, a signal is there, or a notice is to come. -/
def Remembers (w : Watch) : Prop :=
  w.unread = true →
    w.phase = .settling ∨ w.phase = .draining ∨ w.phase = .opening ∨ w.signal = true ∨ 0 < w.notices

theorem Remembers.step (h : w.Remembers) (hstep : w.Step e w') : w'.Remembers := by
  intro hunread
  cases hstep with
  | write content => exact .inr (.inr (.inr (.inr (Nat.succ_pos _))))
  | notice hn hopen => exact .inr (.inr (.inr (.inl rfl)))
  | take hqueue hopen => exact h hunread
  | close => exact h hunread
  | wake hphase hsignal => exact .inl rfl
  | stop hphase hsignal hclosed => simpa [hphase] using h hunread
  | settled hphase => exact .inr (.inl rfl)
  | drain hphase hsignal => exact .inr (.inl hphase)
  | drained hphase hsignal => exact .inr (.inr (.inl rfl))
  | opened hphase => cases hunread
  | read seen hphase => simpa [hphase] using h hunread
  | unchanged hphase hsame => simpa [hphase] using h hunread
  | changed hphase hnews => simpa [hphase] using h hunread
  | report hphase hopen hroom => simpa [hphase] using h hunread
  | abandon hphase hclosed => simpa [hphase] using h hunread

theorem Remembers.run (h : w.Remembers) (hrun : w.run events = some w') : w'.Remembers :=
  run_induct (P := fun _ => Remembers) [] (fun _ _ _ _ hstep h => h.step hstep) h hrun

/-- Without unread content the file holds what was seen last, unless it is being read just now. -/
def Fresh (past : List (Option (List UInt8))) (w : Watch) : Prop :=
  w.unread = false → w.phase ≠ .reading → past.getLast? = some w.content

theorem Fresh.step (h : Fresh past w) (hstep : w.Step e w') :
    Fresh (past ++ (w.glance? e).toList) w' := by
  intro hread hdone
  cases hstep with
  | write content => cases hread
  | notice hn hopen => simpa [glance?] using h hread hdone
  | take hqueue hopen => simpa [glance?] using h hread hdone
  | close => simpa [glance?] using h hread hdone
  | wake hphase hsignal => simpa [glance?] using h hread (by simp [hphase])
  | stop hphase hsignal hclosed => simpa [glance?] using h hread (by simp [hphase])
  | settled hphase => simpa [glance?] using h hread (by simp [hphase])
  | drain hphase hsignal => simpa [glance?] using h hread hdone
  | drained hphase hsignal => simpa [glance?] using h hread (by simp [hphase])
  | opened hphase => exact absurd rfl hdone
  | read seen hphase =>
    -- nothing was written while the file was read, so the reading has seen its content
    have hsight : w.sight seen = w.content := by simp [sight, show w.unread = false from hread]
    simp [glance?, hphase, hsight]
  | unchanged hphase hsame => simpa [glance?] using h hread (by simp [hphase])
  | changed hphase hnews => simpa [glance?] using h hread (by simp [hphase])
  | report hphase hopen hroom => simpa [glance?] using h hread (by simp [hphase])
  | abandon hphase hclosed => simpa [glance?] using h hread (by simp [hphase])

theorem Fresh.run (h : Fresh past w) (hrun : w.run events = some w') :
    Fresh (past ++ w.seen events) w' :=
  run_induct past (fun _ _ _ _ hstep h => h.step hstep) h hrun

/-! ## What is applied and reported -/

/-- What has been seen since some settings were applied accounts for what is applied and reported
now. -/
def Account (initial : AutoAssign) (past : List (Option (List UInt8))) (w : Watch) : Prop :=
  ∃ compared, past = compared ++ w.phase.uncompared?.toList ∧
    w.applied = (compared.map Settings.load).foldl AutoAssign.reload initial ∧
    (w.phase ≠ .stopped →
      w.reported ++ w.phase.news?.toList = initial.reports (compared.map Settings.load))

theorem Account.step {initial : AutoAssign} (h : Account initial past w) (hstep : w.Step e w') :
    Account initial (past ++ (w.glance? e).toList) w' := by
  obtain ⟨compared, hpast, happlied, hreported⟩ := h
  -- a step that neither reads nor compares nor reports leaves the account as it is
  have hsame (hglance : w.glance? e = none)
      (hphase : w'.phase.uncompared? = w.phase.uncompared? ∧ w'.phase.news? = w.phase.news?)
      (happlied' : w'.applied = w.applied) (hreported' : w'.reported = w.reported)
      (hopen : w'.phase ≠ .stopped → w.phase ≠ .stopped) :
      Account initial (past ++ (w.glance? e).toList) w' := by
    refine ⟨compared, ?_, by rw [happlied', happlied], fun hnot => ?_⟩
    · rw [hglance, hphase.1, hpast, Option.toList_none, List.append_nil]
    · rw [hreported', hphase.2, hreported (hopen hnot)]
  cases hstep with
  | write content => exact hsame rfl ⟨rfl, rfl⟩ rfl rfl id
  | notice hn hopen => exact hsame rfl ⟨rfl, rfl⟩ rfl rfl id
  | take hqueue hopen => exact hsame rfl ⟨rfl, rfl⟩ rfl (by simp [reported, hqueue]) id
  | close => exact hsame rfl ⟨rfl, rfl⟩ rfl rfl id
  | drain hphase hsignal => exact hsame rfl ⟨rfl, rfl⟩ rfl rfl id
  | wake hphase hsignal =>
    exact hsame rfl (by rw [hphase]; exact ⟨rfl, rfl⟩) rfl rfl (by simp [hphase])
  | stop hphase hsignal hclosed =>
    exact hsame rfl (by rw [hphase]; exact ⟨rfl, rfl⟩) rfl rfl (by simp)
  | settled hphase =>
    exact hsame rfl (by rw [hphase]; exact ⟨rfl, rfl⟩) rfl rfl (by simp [hphase])
  | drained hphase hsignal =>
    exact hsame rfl (by rw [hphase]; exact ⟨rfl, rfl⟩) rfl rfl (by simp [hphase])
  | opened hphase =>
    exact hsame rfl (by rw [hphase]; exact ⟨rfl, rfl⟩) rfl rfl (by simp [hphase])
  | read seen hphase =>
    have hcompared : past = compared := by simpa [hphase, WatchPhase.uncompared?] using hpast
    have hdone := hreported (by simp [hphase])
    rw [hphase] at hdone
    exact ⟨compared, by simp [hcompared, glance?, hphase, WatchPhase.uncompared?], happlied,
      fun _ => hdone⟩
  | @unchanged seen hphase hcompare =>
    rw [hphase] at hpast hreported
    refine ⟨compared ++ [seen], ?_, ?_, fun _ => ?_⟩
    · simp [glance?, hpast, WatchPhase.uncompared?]
    · rw [List.map_append, List.foldl_append, ← happlied]
      exact (AutoAssign.reload_of_change?_eq_none _ hcompare).symm
    · rw [List.map_append, List.map_singleton, AutoAssign.reports_concat, ← happlied, hcompare,
        ← hreported (by simp), Option.toList_none, List.append_nil]
      rfl
  | @changed seen s hphase hcompare =>
    rw [hphase] at hpast hreported
    refine ⟨compared ++ [seen], ?_, ?_, fun _ => ?_⟩
    · simp [glance?, hpast, WatchPhase.uncompared?]
    · rw [List.map_append, List.foldl_append, ← happlied]
      exact (AutoAssign.reload_of_change?_eq_some _ hcompare).symm
    · rw [List.map_append, List.map_singleton, AutoAssign.reports_concat, ← happlied, hcompare,
        ← hreported (by simp), List.append_assoc]
      rfl
  | @report s hphase hopen hroom =>
    rw [hphase] at hpast hreported
    refine ⟨compared, ?_, happlied, fun _ => ?_⟩
    · rw [hpast]
      simp [glance?, WatchPhase.uncompared?]
    · rw [← hreported (by simp)]
      simp [reported, WatchPhase.news?]
  | abandon hphase hclosed =>
    rw [hphase] at hpast
    refine ⟨compared, ?_, happlied, fun hopen => absurd rfl hopen⟩
    rw [hpast]
    simp [glance?, WatchPhase.uncompared?]

theorem Account.run {initial : AutoAssign} (h : Account initial past w)
    (hrun : w.run events = some w') : Account initial (past ++ w.seen events) w' :=
  run_induct past (fun _ _ _ _ hstep h => h.step hstep) h hrun

theorem account_start (content : Option (List UInt8)) {s : Settings}
    (hload : Settings.load content = .ok s) :
    Account s.autoAssign [content] { content, applied := s.autoAssign } :=
  ⟨[content], rfl, by simp [hload], fun _ => by simp [hload, AutoAssign.reports,
    AutoAssign.change?, reported, WatchPhase.news?]⟩

/-! ## Opening the file again -/

/-- During these steps the file was opened, and since then it was last seen with this content. -/
def Reloads (w : Watch) (events : List WatchEvent) (content : Option (List UInt8)) : Prop :=
  ∃ before after w', events = before ++ .opened :: after ∧ w.run (before ++ [.opened]) = some w' ∧
    (w'.seen after).getLast? = some content

theorem Step.unread_of_ne_opened (hstep : w.Step e w') (he : e ≠ .opened) (h : w.unread = true) :
    w'.unread = true := by
  cases hstep with
  | opened hphase => exact absurd rfl he
  | write content => rfl
  | notice | take | close | wake | stop | settled | drain | drained | read | unchanged | changed
  | report | abandon => exact h

/-- Only an opening of the file makes its content count as read. -/
theorem exists_opened (h : w.unread = true) (hrun : w.run events = some w')
    (hread : w'.unread = false) :
    ∃ before after w₁, events = before ++ .opened :: after ∧
      w.run (before ++ [.opened]) = some w₁ ∧ w₁.run after = some w' := by
  induction events generalizing w with
  | nil =>
    cases hrun
    rw [h] at hread
    cases hread
  | cons e rest ih =>
    obtain ⟨w₁, hstep, hrest⟩ := run_cons_eq_some_iff.1 hrun
    by_cases he : e = .opened
    · subst he
      exact ⟨[], rest, w₁, rfl, run_cons_eq_some_iff.2 ⟨w₁, hstep, rfl⟩, hrest⟩
    · obtain ⟨before, after, w₂, rfl, hbefore, hafter⟩ :=
        ih (hstep.unread_of_ne_opened he h) hrest
      exact ⟨e :: before, after, w₂, rfl, run_cons_eq_some_iff.2 ⟨w₁, hstep, hbefore⟩, hafter⟩

/-- A file with unread content has been opened again, and read, by the time that nothing is unread
and the watch is not reading. -/
theorem reloads_of_unread (h : w.unread = true) (hrun : w.run events = some w')
    (hread : w'.unread = false) (hdone : w'.phase ≠ .reading) : w.Reloads events w'.content := by
  obtain ⟨before, after, w₁, rfl, hbefore, hafter⟩ := exists_opened h hrun hread
  -- the file is being read right after its opening, so nothing has to be known of earlier readings
  have hopened : w₁.phase = .reading := by
    obtain ⟨w₂, -, hstep⟩ := run_concat_eq_some_iff.1 hbefore
    cases hstep
    rfl
  have hfresh : Fresh [] w₁ := fun _ hnot => absurd hopened hnot
  exact ⟨before, after, w₁, rfl, hbefore, hfresh.run hafter hread hdone⟩

/-! ## Getting to rest -/

/-- Without further writes the watch can get to where nothing is left to do. -/
def CanSettle (w : Watch) : Prop :=
  ∃ more w', (∀ e ∈ more, e.isWrite = false) ∧ w.run more = some w' ∧ w'.IsQuiet

theorem Step.canSettle (hstep : w.Step e w') (he : e.isWrite = false) (h : w'.CanSettle) :
    w.CanSettle := by
  obtain ⟨more, w₁, hmore, hrun, hquiet⟩ := h
  exact ⟨e :: more, w₁, List.forall_mem_cons.2 ⟨he, hmore⟩,
    run_cons_eq_some_iff.2 ⟨w', hstep, hrun⟩, hquiet⟩

/-- Every watch in this phase, with or without a signal, gets to rest if all notices have arrived and
somebody is there to report to. -/
def SettlesFrom (signal : Bool) (phase : WatchPhase) : Prop :=
  ∀ w : Watch, w.notices = 0 → w.closed = false → w.signal = signal → w.phase = phase → w.CanSettle

variable {signal : Bool}

theorem SettlesFrom.reporting (h : SettlesFrom signal .waiting) (s : AutoAssign) :
    SettlesFrom signal (.reporting s) := by
  intro w hnotices hopen hsignal hphase
  -- the receiver takes what waits in front of the report
  induction hqueue : w.queue generalizing w with
  | nil =>
    have hroom : w.queue.length < reportRoom := by simp [hqueue, reportRoom]
    exact (Step.report hphase hopen hroom).canSettle rfl (h _ hnotices hopen hsignal rfl)
  | cons oldest rest ih =>
    exact (Step.take hqueue hopen).canSettle rfl (ih _ hnotices hopen hsignal hphase rfl)

theorem SettlesFrom.comparing (h : SettlesFrom signal .waiting) (seen : Option (List UInt8)) :
    SettlesFrom signal (.comparing seen) := by
  intro w hnotices hopen hsignal hphase
  cases hcompare : w.applied.change? (Settings.load seen) with
  | none =>
    exact (Step.unchanged hphase hcompare).canSettle rfl (h _ hnotices hopen hsignal rfl)
  | some s =>
    exact (Step.changed hphase hcompare).canSettle rfl
      (h.reporting s _ hnotices hopen hsignal rfl)

theorem SettlesFrom.reading (h : SettlesFrom signal .waiting) : SettlesFrom signal .reading :=
  fun _ hnotices hopen hsignal hphase =>
    (Step.read none hphase).canSettle rfl (h.comparing _ _ hnotices hopen hsignal rfl)

theorem SettlesFrom.opening (h : SettlesFrom signal .waiting) : SettlesFrom signal .opening :=
  fun _ hnotices hopen hsignal hphase =>
    (Step.opened hphase).canSettle rfl (h.reading _ hnotices hopen hsignal rfl)

theorem settlesFrom_waiting_unsignalled : SettlesFrom false .waiting :=
  fun w hnotices _ hsignal hphase =>
    ⟨[], w, List.forall_mem_nil _, rfl, hnotices, hsignal, hphase⟩

theorem settlesFrom_draining (signal : Bool) : SettlesFrom signal .draining := by
  have hdone : SettlesFrom false .draining := fun _ hnotices hopen hsignal hphase =>
    (Step.drained hphase hsignal).canSettle rfl
      (settlesFrom_waiting_unsignalled.opening _ hnotices hopen hsignal rfl)
  intro w hnotices hopen hsignal hphase
  cases signal with
  | false => exact hdone w hnotices hopen hsignal hphase
  | true =>
    exact (Step.drain hphase hsignal).canSettle rfl (hdone _ hnotices hopen rfl hphase)

theorem settlesFrom_settling (signal : Bool) : SettlesFrom signal .settling :=
  fun _ hnotices hopen hsignal hphase =>
    (Step.settled hphase).canSettle rfl (settlesFrom_draining signal _ hnotices hopen hsignal rfl)

theorem settlesFrom_waiting : (signal : Bool) → SettlesFrom signal .waiting
  | false => settlesFrom_waiting_unsignalled
  | true => fun _ hnotices hopen hsignal hphase =>
    (Step.wake hphase hsignal).canSettle rfl (settlesFrom_settling false _ hnotices hopen rfl rfl)

theorem canSettle_of_open (hopen : w.closed = false) (hphase : w.phase ≠ .stopped) :
    w.CanSettle := by
  induction hnotices : w.notices generalizing w with
  | succ n ih => exact (Step.notice hnotices hopen).canSettle rfl (ih hopen hphase rfl)
  | zero =>
    have hidle := settlesFrom_waiting w.signal
    cases h : w.phase with
    | waiting => exact hidle w hnotices hopen rfl h
    | settling => exact settlesFrom_settling _ w hnotices hopen rfl h
    | draining => exact settlesFrom_draining _ w hnotices hopen rfl h
    | opening => exact hidle.opening w hnotices hopen rfl h
    | reading => exact hidle.reading w hnotices hopen rfl h
    | comparing seen => exact hidle.comparing seen w hnotices hopen rfl h
    | reporting s => exact hidle.reporting s w hnotices hopen rfl h
    | stopped => exact absurd h hphase

/-- A watch stops only when its receiver has gone. -/
def Stays (w : Watch) : Prop := w.closed = false → w.phase ≠ .stopped

theorem Stays.step (h : w.Stays) (hstep : w.Step e w') : w'.Stays := by
  intro hopen
  cases hstep with
  | close => cases hopen
  | stop hphase hsignal hclosed | abandon hphase hclosed =>
    rw [show w.closed = false from hopen] at hclosed
    cases hclosed
  | write | notice | take | drain => exact h hopen
  | wake | settled | drained | opened | read | unchanged | changed | report => exact nofun

theorem Stays.run (h : w.Stays) (hrun : w.run events = some w') : w'.Stays :=
  run_induct (P := fun _ => Stays) [] (fun _ _ _ _ hstep h => h.step hstep) h hrun

end Watch

open Watch

/-- A watch with nothing left to do has loaded the file after it was written last, whatever came in
between: since every write the file was opened again, and what was seen of it last is what it holds
now. If this is usable, it is what the watch applies. And unless its receiver goes away, every watch
can get to where nothing is left to do. -/
theorem quiet_watch_is_current {content : Option (List UInt8)} {s : Settings} {w₀ w : Watch}
    {events : List WatchEvent} (hstart : Watch.start content = .ok (s, w₀))
    (hrun : w₀.run events = some w) :
    (w.IsQuiet →
      (∀ before written after w₁, events = before ++ .write written :: after →
        w₀.run (before ++ [.write written]) = some w₁ → w₁.Reloads after w.content) ∧
      ∀ t, Settings.load w.content = .ok t → w.applied = t.autoAssign) ∧
    (w.closed = false → w.CanSettle) := by
  obtain ⟨hload, rfl⟩ := start_eq_ok_iff.1 hstart
  have hremembers := Remembers.run (w := { content, applied := s.autoAssign }) nofun hrun
  have hfirst : Fresh [content] { content, applied := s.autoAssign } := fun _ _ => rfl
  have hfresh := hfirst.run hrun
  have haccount := (account_start content hload).run hrun
  have hstays := Stays.run (w := { content, applied := s.autoAssign }) (fun _ => nofun) hrun
  refine ⟨fun hquiet => ?_, fun hopen => canSettle_of_open hopen (hstays hopen)⟩
  obtain ⟨hnotices, hsignal, hphase⟩ := hquiet
  have hread : w.unread = false := by
    refine Bool.of_not_eq_true fun hunread => ?_
    simpa [hnotices, hsignal, hphase] using hremembers hunread
  have hdone : w.phase ≠ .reading := by simp [hphase]
  refine ⟨?_, fun t ht => ?_⟩
  · rintro before written after w₁ rfl hwrite
    have hunread : w₁.unread = true := by
      obtain ⟨w₂, -, hstep⟩ := run_concat_eq_some_iff.1 hwrite
      cases hstep
      rfl
    have hafter : w₁.run after = some w := by
      rwa [List.append_cons, run_append, hwrite] at hrun
    exact reloads_of_unread hunread hafter hread hdone
  · obtain ⟨compared, hpast, happlied, -⟩ := haccount
    simp only [hphase, WatchPhase.uncompared?, Option.toList_none, List.append_nil] at hpast
    rw [happlied]
    exact AutoAssign.foldl_reload_of_getLast? _ (hpast ▸ hfresh hread hdone) ht

theorem load_eq_ok_of_toOption {content : Option (List UInt8)} {s : Settings}
    (h : (Settings.load content).toOption = some s) : Settings.load content = .ok s := by
  cases hload : Settings.load content with
  | error e =>
    rw [hload] at h
    cases h
  | ok t =>
    rw [hload] at h
    cases h
    rfl

/-- The content of a settings file that asks for a number of positions. -/
def positionsFile (limit : Nat) : List UInt8 :=
  Text.encode ("auto_assign:\n  max_slots: ".toList ++ decimal limit)

theorem load_positionsFile (limit : Nat) (h : limit ∈ [1, 2, 3]) :
    Settings.load (some (positionsFile limit)) = .ok { autoAssign := { maxSlots := limit } } := by
  have hall : ∀ limit ∈ [1, 2, 3], (Settings.load (some (positionsFile limit))).toOption
      = some { autoAssign := { maxSlots := limit } } := by decide +kernel
  exact load_eq_ok_of_toOption (hall limit h)

/-- The file is removed for a moment and written again before the watch has drained its signals,
written once more while it is being read, and a last time before the watch is done with what it has
read of it. -/
def burst : List WatchEvent :=
  [.write (some []), .notice, .wake, .write none, .notice, .write (some (positionsFile 3)), .notice,
    .settled, .drain, .drained, .opened, .write none, .read (some [0x7b]), .notice,
    .write (some (positionsFile 2)), .compare, .wake, .settled, .drained, .opened, .read none,
    .compare, .report, .notice, .wake, .take, .settled, .drained, .opened, .read none, .compare]

theorem burst_is_followed :
    let last := some (positionsFile 2)
    let started : Watch := { content := some (positionsFile 1), applied := { maxSlots := 1 } }
    let quiet : Watch :=
      { content := last, applied := { maxSlots := 2 }, taken := [{ maxSlots := 2 }] }
    ∃ s t written, Watch.start (some (positionsFile 1)) = .ok (s, started) ∧
      started.run burst = some quiet ∧ quiet.IsQuiet ∧
      started.run (burst.take 15) = some written ∧ written.Reloads (burst.drop 15) last ∧
      Settings.load last = .ok t ∧ quiet.applied = t.autoAssign ∧
      written.closed = false ∧ written.CanSettle := by
  intro last started quiet
  have hload : Settings.load last = .ok { autoAssign := { maxSlots := 2 } } :=
    load_positionsFile 2 (by decide)
  have hstart := start_eq_ok_iff.2 ⟨load_positionsFile 1 (by decide), rfl⟩
  have hrun : started.run burst = some quiet := by decide +kernel
  have hmiddle : (started.run (burst.take 15)).any (!·.closed) = true := by decide +kernel
  obtain ⟨written, hwritten, hopen⟩ := (Option.any_eq_true _ _).1 hmiddle
  rw [Bool.not_eq_true'] at hopen
  obtain ⟨hreloads, happlied⟩ := (quiet_watch_is_current hstart hrun).1 (by decide)
  exact ⟨_, _, written, hstart, hrun, by decide, hwritten,
    hreloads (burst.take 14) last (burst.drop 15) written rfl hwritten, hload, happlied _ hload,
    hopen, (quiet_watch_is_current hstart hwritten).2 hopen⟩

end PlayerSlots
