import Mathlib.Data.List.Destutter
import PlayerSlots.Proofs.Settings.Following

/-! # Reports are changes

A watch compares what it has read with what it reported last. Contents that cannot be used are
skipped, and settings that are the same as before are not reported again, so what it reports is what
a list of settings looks like without its repetitions.

* `AutoAssign.usable`: the settings in those of some contents that can be used.
* `AutoAssign.cons_reports`: the reports, with what they are first compared with in front, are the
  settings without repetitions.
* `Watch.reported_prefix_reports`: at no time has a watch reported anything else.
* `Watch.Rests.reload`: a watch at rest can read any content.
* `reports_are_effective_changes`: what receivers of reports can rely on. A session takes each report
  for a change.
-/

namespace PlayerSlots
set_option autoImplicit false

variable {initial : AutoAssign} {w w' : Watch} {e : WatchEvent} {events : List WatchEvent}
  {past : List (Option (List UInt8))}

/-! ## The settings in some contents -/

theorem Settings.maxSlots_of_load {content : Option (List UInt8)} {s : Settings}
    (h : Settings.load content = .ok s) : 1 ≤ s.autoAssign.maxSlots ∧ s.autoAssign.maxSlots ≤ 9 := by
  rw [load] at h
  split at h
  · cases h
  · split at h
    · cases h
    · rename_i t _
      cases hproblem : t.problem? with
      | some problem => rw [hproblem] at h; cases h
      | none =>
        rw [hproblem] at h
        cases h
        by_contra hrange
        have hout : s.autoAssign.maxSlots = 0 ∨ maxSlotsLimit < s.autoAssign.maxSlots := by
          simp only [maxSlotsLimit]
          omega
        rw [problem?, if_pos hout] at hproblem
        cases hproblem

namespace AutoAssign

/-- The settings in those of some contents that can be used, in order. -/
def usable (contents : List (Option (List UInt8))) : List AutoAssign :=
  contents.filterMap fun content => (Settings.load content).toOption.map (·.autoAssign)

theorem exists_of_mem_usable {contents : List (Option (List UInt8))} {r : AutoAssign}
    (h : r ∈ usable contents) : ∃ content s, Settings.load content = .ok s ∧ s.autoAssign = r := by
  obtain ⟨content, -, hload⟩ := List.mem_filterMap.1 h
  obtain ⟨s, hs, rfl⟩ := Option.map_eq_some_iff.1 hload
  exact ⟨content, s, load_eq_ok_of_toOption hs, rfl⟩

theorem cons_reports (applied : AutoAssign) (contents : List (Option (List UInt8))) :
    applied :: applied.reports (contents.map Settings.load)
      = (usable contents).destutter' (· ≠ ·) applied := by
  induction contents generalizing applied with
  | nil => rfl
  | cons content rest ih =>
    rw [List.map_cons, reports, usable, List.filterMap_cons]
    cases hload : Settings.load content with
    | error e => exact ih applied
    | ok s =>
      by_cases hs : s.autoAssign = applied
      · have hsame : applied.change? (.ok s) = none := if_pos hs
        rw [reload_of_change?_eq_none _ hsame, hsame]
        simp only [Except.toOption, Option.map_some, hs]
        rw [List.destutter'_cons_neg _ (not_not_intro rfl)]
        exact ih applied
      · have hnews : applied.change? (.ok s) = some s.autoAssign := if_neg hs
        rw [reload_of_change?_eq_some _ hnews, hnews]
        simp only [Except.toOption, Option.map_some]
        rw [List.destutter'_cons_pos _ (Ne.symm hs)]
        exact congrArg _ (ih s.autoAssign)

end AutoAssign

/-! ## What a watch has reported -/

namespace Watch

/-- All that was read has been compared, and reported if it was a change. -/
def HasReported (w : Watch) : Prop :=
  w.phase.uncompared? = none ∧ w.phase.news? = none ∧ w.phase ≠ .stopped

theorem Account.reported_eq (h : Account initial past w) (hdone : w.HasReported) :
    w.reported = initial.reports (past.map Settings.load) := by
  obtain ⟨compared, hpast, -, hreported⟩ := h
  obtain ⟨huncompared, hnews, hopen⟩ := hdone
  have hall := hreported hopen
  rw [hnews, Option.toList_none, List.append_nil] at hall
  rw [hall, hpast, huncompared, Option.toList_none, List.append_nil]

theorem Account.reported_prefix_reports (h : Account initial past w) (hopen : w.phase ≠ .stopped) :
    w.reported <+: initial.reports (past.map Settings.load) := by
  obtain ⟨compared, hpast, -, hreported⟩ := h
  rw [hpast, List.map_append, AutoAssign.reports_append, ← hreported hopen, List.append_assoc]
  exact List.prefix_append _ _

/-- A watch that stops does so without another report. -/
theorem Step.of_stopped (hstep : w.Step e w') (h : w'.phase = .stopped) :
    w'.reported = w.reported ∧ w.glance? e = none := by
  cases hstep with
  | take hqueue hopen => exact ⟨by simp [reported, hqueue], rfl⟩
  | write | notice | close | stop | abandon => exact ⟨rfl, rfl⟩
  | drain hphase hsignal =>
    rw [show w.phase = .stopped from h] at hphase
    cases hphase
  | wake | settled | drained | opened | read | unchanged | changed | report => cases h

/-- What was reported are the first changes among what was seen, even if the receiver has gone. -/
theorem reported_prefix_reports (h : Account initial past w)
    (hbegun : w.reported <+: initial.reports (past.map Settings.load))
    (hrun : w.run events = some w') :
    w'.reported <+: initial.reports ((past ++ w.seen events).map Settings.load) := by
  refine (run_induct (P := fun past w => Account initial past w ∧
    w.reported <+: initial.reports (past.map Settings.load)) past ?_ ⟨h, hbegun⟩ hrun).2
  rintro past w e w' hstep ⟨haccount, hbegun⟩
  refine ⟨haccount.step hstep, ?_⟩
  by_cases hstopped : w'.phase = .stopped
  · obtain ⟨hreported, hglance⟩ := hstep.of_stopped hstopped
    rw [hreported, hglance, Option.toList_none, List.append_nil]
    exact hbegun
  · exact (haccount.step hstep).reported_prefix_reports hstopped

/-! ## Any contents can be read -/

theorem seen_append (hrun : w.run events = some w') (more : List WatchEvent) :
    w.seen (events ++ more) = w.seen events ++ w'.seen more := by
  induction events generalizing w with
  | nil =>
    cases hrun
    rfl
  | cons e rest ih =>
    obtain ⟨w₁, hstep, hrest⟩ := run_cons_eq_some_iff.1 hrun
    rw [List.cons_append, seen, seen, hstep.attempt_eq, ih hrest, List.append_assoc]

/-- Nothing is left to do, and nothing keeps the next change from being reported. -/
def Rests (w : Watch) : Prop := w.IsQuiet ∧ w.closed = false ∧ w.queue = []

theorem Rests.hasReported (h : w.Rests) : w.HasReported := by
  obtain ⟨⟨-, -, hphase⟩, -, -⟩ := h
  simp [HasReported, hphase, WatchPhase.uncompared?, WatchPhase.news?]

/-- The file is written, and the watch is done with it before it is written again. -/
theorem Rests.reload (h : w.Rests) (content : Option (List UInt8)) :
    ∃ events w', w.run events = some w' ∧ w.seen events = [content] ∧ w'.Rests := by
  obtain ⟨⟨hnotices, hsignal, hphase⟩, hopen, hqueue⟩ := h
  let read : List WatchEvent :=
    [.write content, .notice, .wake, .settled, .drained, .opened, .read none]
  let w₁ : Watch := { w with content, unread := false, phase := .comparing content }
  have hread : w.run read = some w₁ := by
    simp [read, w₁, run, step?, sight, hnotices, hsignal, hphase, hopen]
  have hseen : w.seen read = [content] := by
    simp [read, seen, attempt, step?, glance?, sight, hnotices, hsignal, hphase, hopen]
  cases hcompare : w.applied.change? (Settings.load content) with
  | none =>
    refine ⟨read ++ [.compare], { w₁ with phase := .waiting }, ?_, ?_,
      ⟨hnotices, hsignal, rfl⟩, hopen, hqueue⟩
    · rw [run_append, hread]
      simp [w₁, run, step?, hcompare]
    · rw [seen_append hread, hseen]
      rfl
  | some s =>
    refine ⟨read ++ [.compare, .report, .take],
      { w₁ with phase := .waiting, applied := s, taken := w.taken ++ [s] }, ?_, ?_,
      ⟨hnotices, hsignal, rfl⟩, hopen, hqueue⟩
    · rw [run_append, hread]
      simp [w₁, run, step?, hcompare, hopen, hqueue, reportRoom]
    · rw [seen_append hread, hseen]
      rfl

theorem Rests.reload_all (h : w.Rests) (contents : List (Option (List UInt8))) :
    ∃ events w', w.run events = some w' ∧ w.seen events = contents ∧ w'.Rests := by
  induction contents generalizing w with
  | nil => exact ⟨[], w, rfl, rfl, h⟩
  | cons content rest ih =>
    obtain ⟨events, w₁, hrun, hseen, hrests⟩ := h.reload content
    obtain ⟨more, w₂, hmore, hseen', hrests'⟩ := ih hrests
    refine ⟨events ++ more, w₂, ?_, ?_, hrests'⟩
    · rw [run_append, hrun]
      exact hmore
    · rw [seen_append hrun, hseen, hseen']
      rfl

end Watch

/-! ## Reports as commands -/

/-- A session that is told the first of some settings, each different from the one before, is on
other settings whenever the next one comes. -/
theorem Worker.settings_ne_of_isChain {provider : Provider} {s t : Session} {r : AutoAssign}
    {settings : List AutoAssign} {before after : List Command}
    (hchain : (s.settings :: settings).IsChain (· ≠ ·))
    (htold : (before ++ .update r :: after).filterMap Command.settings? <+: settings)
    (hrun : ((running s).run provider before).1 = running t) : t.settings ≠ r := by
  have hfed := hchain.prefix ((List.prefix_cons_inj _).2 htold)
  rw [List.filterMap_append, ← List.cons_append, List.isChain_append] at hfed
  rw [Worker.settings_run hrun]
  refine hfed.2.2 _ ?_ r rfl
  rw [List.getLast?_cons]
  rfl

/-- Whatever a watch reads one after the other, and whatever else happens meanwhile, its reports are
the changes among the settings that could be used: it has reported the first of them at any time, and
all of them once it has reported all that it has read. Then the settings reported last, or those of
its start, are those of the content read last, if this can be used. Every report is in range, and
different from the one before. A session on the settings of the start takes each report for a change,
whatever other commands come in between. -/
theorem reports_are_effective_changes {own : Option (List UInt8)} {s : Settings} {w₀ : Watch}
    (hstart : Watch.start own = .ok (s, w₀)) (provider : Provider) (saved : List Slot) :
    (∀ contents, ∃ events w, w₀.run events = some w ∧ w₀.seen events = contents ∧
      w.HasReported) ∧
    ∀ events w, w₀.run events = some w →
      let changes := (AutoAssign.usable (w₀.seen events)).destutter' (· ≠ ·) s.autoAssign
      s.autoAssign :: w.reported <+: changes ∧
      (w.HasReported → s.autoAssign :: w.reported = changes ∧
        ∀ content t, (w₀.seen events).getLast? = some content → Settings.load content = .ok t →
          w.reported.getLast?.getD s.autoAssign = t.autoAssign) ∧
      (∀ r ∈ w.reported, 1 ≤ r.maxSlots ∧ r.maxSlots ≤ 9) ∧
      (s.autoAssign :: w.reported).IsChain (· ≠ ·) ∧
      ∀ before r after t,
        (before ++ .update r :: after).filterMap Command.settings? <+: w.reported →
        ((Worker.running (.start s.autoAssign saved)).run provider before).1 = .running t →
        t.settings ≠ r ∧ t.step provider (.update r) = (t.update r).pass provider := by
  obtain ⟨hload, rfl⟩ := Watch.start_eq_ok_iff.1 hstart
  have haccount : Watch.Account s.autoAssign [] { content := own, applied := s.autoAssign } :=
    ⟨[], rfl, rfl, fun _ => rfl⟩
  have hrests : Watch.Rests { content := own, applied := s.autoAssign } :=
    ⟨⟨rfl, rfl, rfl⟩, rfl, rfl⟩
  refine ⟨fun contents => ?_, fun events w hrun => ?_⟩
  · obtain ⟨events, w, hrun, hseen, hdone⟩ := hrests.reload_all contents
    exact ⟨events, w, hrun, hseen, hdone.hasReported⟩
  · have hbegun := Watch.reported_prefix_reports haccount (List.prefix_refl _) hrun
    have hchanges := (List.prefix_cons_inj s.autoAssign).2 hbegun
    rw [List.nil_append, AutoAssign.cons_reports] at hchanges
    have hchain := List.IsChain.prefix (List.isChain_destutter' (· ≠ ·) _ s.autoAssign) hchanges
    refine ⟨hchanges, fun hdone => ⟨?_, ?_⟩, ?_, hchain, ?_⟩
    · rw [(haccount.run hrun).reported_eq hdone, List.nil_append, AutoAssign.cons_reports]
    · intro content t hlast hlatest
      rw [(haccount.run hrun).reported_eq hdone, AutoAssign.getLast?_reports, List.nil_append]
      exact AutoAssign.foldl_reload_of_getLast? _ hlast hlatest
    · intro r hr
      have hsub := hchanges.sublist.trans (List.destutter'_sublist _ _ s.autoAssign)
      obtain ⟨content, t, hlatest, rfl⟩ :=
        AutoAssign.exists_of_mem_usable ((List.cons_sublist_cons.1 hsub).subset hr)
      exact Settings.maxSlots_of_load hlatest
    · intro before r after t htold hworker
      have hne := Worker.settings_ne_of_isChain (s := .start s.autoAssign saved) hchain htold hworker
      exact ⟨hne, if_neg (Ne.symm hne)⟩

/-- The file is removed, set to a number of positions that is out of range, written without a change,
and spoilt, and at last it is back at what was reported before. -/
theorem reports_are_effective_changes_back :
    let own := some (positionsFile 1)
    let contents := [some (positionsFile 2), none, some (positionsFile 10),
      some (positionsFile 2 ++ Text.encode "\npersistence:\n  debounce_ms: 900".toList),
      some (positionsFile 3), some [0x5b], some (positionsFile 2)]
    let started : Watch := { content := own, applied := { maxSlots := 1 } }
    let commands : List Command :=
      [.connect ⟨"a", "Pad"⟩, .update { maxSlots := 2 }, .refresh, .update { maxSlots := 3 }]
    ∃ s events w t, Watch.start own = .ok (s, started) ∧ started.run events = some w ∧
      started.seen events = contents ∧ w.HasReported ∧
      w.reported = [{ maxSlots := 2 }, { maxSlots := 3 }, { maxSlots := 2 }] ∧
      (commands ++ [Command.update { maxSlots := 2 }]).filterMap Command.settings? <+: w.reported ∧
      ((Worker.running (.start s.autoAssign [])).run .keyless commands).1 = .running t ∧
      t.settings ≠ { maxSlots := 2 } ∧
      t.step .keyless (.update { maxSlots := 2 }) = (t.update { maxSlots := 2 }).pass .keyless := by
  intro own contents started commands
  have hstart := Watch.start_eq_ok_iff.2
    ⟨load_positionsFile 1 (by decide), (rfl : started = started)⟩
  obtain ⟨hreadable, hreports⟩ := reports_are_effective_changes hstart .keyless []
  obtain ⟨events, w, hrun, hseen, hdone⟩ := hreadable contents
  obtain ⟨-, hall, -, -, hchange⟩ := hreports events w hrun
  have husable : AutoAssign.usable contents = [{ maxSlots := 2 }, { maxSlots := 2 },
      { maxSlots := 3 }, { maxSlots := 2 }] := by decide +kernel
  have hreported := (hall hdone).1
  rw [hseen, husable] at hreported
  have hreported' : w.reported = [{ maxSlots := 2 }, { maxSlots := 3 }, { maxSlots := 2 }] :=
    (List.cons.inj hreported).2
  obtain ⟨-, t, hworker⟩ := (Worker.run_cases .keyless (.start { maxSlots := 1 } [])
    commands).resolve_left (by simp [commands])
  have htold : (commands ++ [Command.update { maxSlots := 2 }]).filterMap Command.settings?
      <+: w.reported := by
    rw [hreported']
    exact List.prefix_refl _
  exact ⟨_, events, w, t, hstart, hrun, hseen, hdone, hreported', htold, hworker,
    hchange _ _ _ _ htold hworker⟩

end PlayerSlots
