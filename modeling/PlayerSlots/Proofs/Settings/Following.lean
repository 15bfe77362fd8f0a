import PlayerSlots.Application
import PlayerSlots.Proofs.Session.Run
import PlayerSlots.Proofs.Settings.Watching

/-! # Settings that follow their file

A program reads its settings file twice when it starts: once for the settings of its session, and
once for the watch that reports changes. The watch compares what it reads later with its own
reading, so a session can stay on settings that the file held for the first reading only.

* `FileAccess.changing`: a file that is written between its readings.
* `Worker.settings_run`: a session is on the settings that it was told last.
* `Application.start_changing`: what a start makes of the two readings.
* `settings_follow_file_iff`: exactly when the session ends up with what the file was seen to hold.
* `edit_between_readings_is_lost`: a start after which it does not.
-/

namespace PlayerSlots
set_option autoImplicit false

variable {provider : Provider}

/-! ## The settings of a session -/

/-- The settings that a command tells the session. -/
def Command.settings? : Command → Option AutoAssign
  | .update settings => some settings
  | _ => none

theorem Session.settings_step (provider : Provider) (s : Session) (c : Command) :
    (s.step provider c).1.settings = c.settings?.getD s.settings := by
  cases c with
  | connect d => exact (settings_pass _).trans (settings_connect s d)
  | disconnect | resync | refresh => exact settings_pass _
  | update settings =>
    by_cases h : settings = s.settings
    · rw [h, step_update_self]
      rfl
    · rw [step, if_neg h, settings_pass]
      rfl
  | askSlots | askConnected | shutdown => rfl

/-- A session is on the settings that it was told last. -/
theorem Worker.settings_run {s t : Session} {commands : List Command}
    (hrun : ((running s).run provider commands).1 = running t) :
    t.settings = (commands.filterMap Command.settings?).getLast?.getD s.settings := by
  induction commands generalizing s with
  | nil =>
    cases hrun
    rfl
  | cons c rest ih =>
    by_cases hc : c = .shutdown
    · simp [run, step, hc] at hrun
    · rw [run_cons_running hc] at hrun
      rw [ih hrun, Session.settings_step, List.filterMap_cons]
      cases c.settings? with
      | none => rfl
      | some settings => rw [List.getLast?_cons]; rfl

/-! ## The settings reported last -/

/-- The settings reported last are those of the last reading that was of use. -/
theorem AutoAssign.getLast?_reports (applied : AutoAssign)
    (loads : List (Except SettingsError Settings)) :
    (applied.reports loads).getLast?.getD applied = loads.foldl reload applied := by
  induction loads generalizing applied with
  | nil => rfl
  | cons loaded rest ih =>
    rw [reports, List.foldl_cons, ← ih]
    cases h : applied.change? loaded with
    | none => rw [reload_of_change?_eq_none _ h]; rfl
    | some s =>
      rw [reload_of_change?_eq_some _ h, Option.toList_some, List.singleton_append,
        List.getLast?_cons]
      rfl

/-- All that was read has been compared, and all reports have been taken. -/
def Watch.IsForwarded (w : Watch) : Prop :=
  w.phase.uncompared? = none ∧ w.phase.news? = none ∧ w.phase ≠ .stopped ∧ w.queue = []

/-- When all is forwarded, the settings taken last, or those of the watch's own reading, are those
that the file was last seen to hold. -/
theorem Watch.getLast?_taken {own content : Option (List UInt8)} {s latest : Settings}
    {w₀ w : Watch} {events : List WatchEvent} (hstart : Watch.start own = .ok (s, w₀))
    (hrun : w₀.run events = some w) (hdone : w.IsForwarded)
    (hcontent : (own :: w₀.seen events).getLast? = some content)
    (hload : Settings.load content = .ok latest) :
    w.taken.getLast?.getD s.autoAssign = latest.autoAssign := by
  obtain ⟨hown, rfl⟩ := start_eq_ok_iff.1 hstart
  obtain ⟨compared, hpast, -, hreported⟩ := (account_start own hown).run hrun
  obtain ⟨hcompared, hnews, hopen, hqueue⟩ := hdone
  rw [hcompared, Option.toList_none, List.append_nil] at hpast
  have htaken : w.taken = s.autoAssign.reports (compared.map Settings.load) := by
    rw [← hreported hopen, hnews, reported, hqueue]
    simp
  rw [htaken, AutoAssign.getLast?_reports, ← hpast]
  exact AutoAssign.foldl_reload_of_getLast? _ hcontent hload

/-! ## A file that is written between its readings -/

namespace FileAccess

/-- Access to files of which each reading sees the next of these contents. Everything else is as
with `others`. -/
def changing (others : FileAccess Id) : FileAccess (StateM (List (Option (List UInt8)))) where
  read _ := fun
    | [] => (.error .missing, [])
    | none :: rest => (.error .missing, rest)
    | some bytes :: rest => (.ok bytes, rest)
  write path bytes := pure (others.write path bytes)
  isPresent path := pure (others.isPresent path)
  isDirectory path := pure (others.isDirectory path)
  makeDirectories path := pure (others.makeDirectories path)

end FileAccess

section Changing

variable (others : FileAccess Id) (surroundings : Surroundings)

@[simp] theorem FileAccess.isPresent_changing (path : String) :
    (changing others).isPresent path = pure (others.isPresent path) := rfl

@[simp] theorem FileAccess.isDirectory_changing (path : String) :
    (changing others).isDirectory path = pure (others.isDirectory path) := rfl

@[simp] theorem FileAccess.makeDirectories_changing (path : String) :
    (changing others).makeDirectories path = pure (others.makeDirectories path) := rfl

theorem Locations.detect_changing :
    ∃ locations, detect (.changing others) surroundings = pure locations := by
  simp only [detect, FileAccess.isPresent_changing, pure_bind]
  split
  · exact ⟨_, rfl⟩
  · split <;> exact ⟨_, rfl⟩

theorem Locations.makeAll_changing (paths : List String) :
    ∃ failed, makeAll (.changing others) paths = pure failed := by
  induction paths with
  | nil => exact ⟨_, rfl⟩
  | cons d rest ih =>
    simp only [makeAll, FileAccess.isPresent_changing, FileAccess.makeDirectories_changing,
      pure_bind]
    split
    · exact ih
    · split
      · exact ih
      · exact ⟨_, rfl⟩

namespace Application

theorem provideSettings_changing (path : String) :
    ∃ provided, provideSettings (.changing others) path = pure provided := by
  simp only [provideSettings, FileAccess.isPresent_changing, pure_bind]
  split <;> exact ⟨_, rfl⟩

theorem run_content?_changing (path : String) (content : Option (List UInt8))
    (rest : List (Option (List UInt8))) :
    (content? (.changing others) path).run (content :: rest) = pure (content, rest) := by
  cases content <;> rfl

variable {a : Application} {first own stored : Option (List UInt8)}
  {rest rest' : List (Option (List UInt8))}

theorem attach_changing {locations : Locations} {path : String} {settings : Settings}
    (h : (attach (.changing others) locations path settings).run (own :: stored :: rest)
      = (.ok a, rest')) :
    ∃ watched saved, Watch.start own = .ok (watched, a.watch) ∧
      a.worker = .running (.start settings.autoAssign saved) := by
  rw [attach, StateT.run_bind, run_content?_changing, pure_bind] at h
  simp only [FileAccess.makeDirectories_changing, pure_bind] at h
  split at h
  · cases h
  · rename_i watched watch hwatch
    split at h
    · cases h
    · rw [StateT.run_bind, run_content?_changing, pure_bind] at h
      cases h
      exact ⟨watched, _, hwatch, rfl⟩

/-- A start loads the settings of its session in the first reading. The watch makes a reading of its
own. -/
theorem start_changing {options : Options}
    (h : (start (.changing others) surroundings options).run (first :: own :: stored :: rest)
      = (.ok a, rest')) :
    ∃ settings watched saved, Settings.load first = .ok settings ∧
      Watch.start own = .ok (watched, a.watch) ∧
      a.worker = .running (.start settings.autoAssign saved) := by
  obtain ⟨locations, hlocations⟩ := Locations.detect_changing others surroundings
  obtain ⟨failed, hfailed⟩ :=
    Locations.makeAll_changing others [locations.state, locations.logs, locations.base]
  obtain ⟨provided, hprovided⟩ :=
    provideSettings_changing others (options.settings.getD locations.settings)
  simp only [start, hlocations, pure_bind, Locations.prepare, hfailed, hprovided,
    FileAccess.isDirectory_changing] at h
  split at h
  · cases h
  · split at h
    · rw [StateT.run_bind, run_content?_changing, pure_bind] at h
      split at h
      · cases h
      · rename_i settings hload
        have hattach : (attach (.changing others) locations
            (options.settings.getD locations.settings) settings).run (own :: stored :: rest)
              = (.ok a, rest') := by
          split at h
          · split at h
            · exact h
            · cases h
          · exact h
        obtain ⟨watched, saved, hwatch, hworker⟩ := attach_changing others hattach
        exact ⟨settings, watched, saved, hload, hwatch, hworker⟩
    · cases h

end Application

end Changing

/-! ## Settings that follow -/

/-- When all that the watch has read and reported is forwarded, the session is on the settings that
the file was last seen to hold exactly if the two readings of the start agree on them or some change
was reported since. -/
theorem settings_follow_file_iff {others : FileAccess Id} {surroundings : Surroundings}
    {options : Options} {a : Application} {first own stored content : Option (List UInt8)}
    {rest rest' : List (Option (List UInt8))} {events : List WatchEvent} {w : Watch}
    {commands : List Command} {t : Session} {latest : Settings}
    (hstart : (Application.start (.changing others) surroundings options).run
      (first :: own :: stored :: rest) = (.ok a, rest'))
    (hwatch : a.watch.run events = some w) (hdone : w.IsForwarded)
    (htaken : commands.filterMap Command.settings? = w.taken)
    (hworker : (a.worker.run provider commands).1 = .running t)
    (hcontent : (own :: a.watch.seen events).getLast? = some content)
    (hload : Settings.load content = .ok latest) :
    t.settings = latest.autoAssign ↔
      (Settings.load first).map (·.autoAssign) = (Settings.load own).map (·.autoAssign) ∨
        w.taken ≠ [] := by
  obtain ⟨settings, watched, saved, hfirst, hown, hbegin⟩ :=
    Application.start_changing others surroundings hstart
  have hlatest := Watch.getLast?_taken hown hwatch hdone hcontent hload
  rw [hbegin] at hworker
  have hsettings : t.settings = w.taken.getLast?.getD settings.autoAssign := by
    rw [Worker.settings_run hworker, htaken]
    rfl
  rw [hfirst, (Watch.start_eq_ok_iff.1 hown).1, hsettings, ← hlatest]
  cases w.taken with
  | nil => simp [Except.map]
  | cons s reports => simp [List.getLast?_cons]

/-- Every file and directory is there, and can be written. -/
def FileAccess.ready : FileAccess Id where
  read _ := .ok []
  write _ _ := .ok ()
  isPresent _ := true
  isDirectory _ := true
  makeDirectories _ := .ok ()

theorem Application.start_ready (surroundings : Surroundings) (stored : Option (List UInt8))
    {first own : Option (List UInt8)} {settings watched : Settings} {watch : Watch}
    (hfirst : Settings.load first = .ok settings) (hown : Watch.start own = .ok (watched, watch)) :
    (start (.changing .ready) surroundings {}).run [first, own, stored] =
      (.ok (launch settings watch (Path.join surroundings.workingDirectory "padslots.yaml")
        (Path.join (Locations.inDirectory surroundings.workingDirectory true).store "snapshot")
        stored), []) := by
  have hlocations : Locations.detect (.changing .ready) surroundings
      = pure (.inDirectory surroundings.workingDirectory true) := rfl
  have hprepared (locations : Locations) :
      locations.prepare (.changing .ready) = pure none := rfl
  have hprovided (path : String) : provideSettings (.changing .ready) path = pure true := rfl
  have hdirectory (path : String) : FileAccess.ready.isDirectory path = true := rfl
  simp only [start, hlocations, hprepared, hprovided, pure_bind, if_true, StateT.run_bind,
    run_content?_changing, hfirst, FileAccess.isDirectory_changing, hdirectory, ite_self, attach,
    hown, FileAccess.makeDirectories_changing]
  cases stored <;> rfl

/-- The file is written once, and the watch is done with it. A change waits to be reported. -/
def savedOnce (content : List UInt8) : List WatchEvent :=
  [.write (some content), .notice, .wake, .settled, .drained, .opened, .read none, .compare]

/-- The file changes between the two readings and again afterwards. The second change is reported,
and the session follows it. -/
theorem settings_follow_file_iff_reported :
    let own := some (positionsFile 2)
    let content := some (positionsFile 3)
    let events := savedOnce (positionsFile 3) ++ [.report, .take]
    let commands : List Command := [.connect ⟨"a", "Pad"⟩, .update { maxSlots := 3 }]
    ∃ a w t latest, (Application.start (.changing .ready) ⟨"/", "/", "/", none⟩ {}).run
        [some (positionsFile 1), own, none] = (.ok a, []) ∧
      a.watch.run events = some w ∧ w.IsForwarded ∧
      commands.filterMap Command.settings? = w.taken ∧
      (a.worker.run .keyless commands).1 = .running t ∧
      (own :: a.watch.seen events).getLast? = some content ∧ Settings.load content = .ok latest ∧
      t.settings = latest.autoAssign := by
  intro own content events commands
  have hstart := Application.start_ready ⟨"/", "/", "/", none⟩ none
    (load_positionsFile 1 (by decide))
    (Watch.start_eq_ok_iff.2 ⟨load_positionsFile 2 (by decide), rfl⟩)
  have hload := load_positionsFile 3 (by decide)
  have hwatch : ({ content := own, applied := { maxSlots := 2 } } : Watch).run events
      = some { content, applied := { maxSlots := 3 }, taken := [{ maxSlots := 3 }] } := by
    decide +kernel
  have hcontent : (own :: ({ content := own, applied := { maxSlots := 2 } } : Watch).seen
      events).getLast? = some content := by decide +kernel
  have hdone : Watch.IsForwarded
      { content, applied := { maxSlots := 3 }, taken := [{ maxSlots := 3 }] } :=
    ⟨rfl, rfl, nofun, rfl⟩
  have hworker := (Worker.run_cases .keyless (.start { maxSlots := 1 } []) commands).resolve_left
    (by simp [commands])
  obtain ⟨-, t, hworker⟩ := hworker
  exact ⟨_, _, t, _, hstart, hwatch, hdone, rfl, hworker, hcontent, hload,
    (settings_follow_file_iff hstart hwatch hdone rfl hworker hcontent hload).2 (.inr nofun)⟩

/-- The file changes between the two readings, from one position to two. Nothing is reported, not
even after it has been written once more, and the session stays with one position. -/
theorem edit_between_readings_is_lost :
    let own := some (positionsFile 2)
    let events := savedOnce (positionsFile 2)
    let commands : List Command := [.connect ⟨"a", "Pad"⟩, .connect ⟨"b", "Pad"⟩]
    ∃ a w t, (Application.start (.changing .ready) ⟨"/", "/", "/", none⟩ {}).run
        [some (positionsFile 1), own, none] = (.ok a, []) ∧
      a.watch.run events = some w ∧ w.IsForwarded ∧ w.IsQuiet ∧ w.content = own ∧
      commands.filterMap Command.settings? = w.taken ∧
      (a.worker.run .keyless commands).1 = .running t ∧
      (own :: a.watch.seen events).getLast? = some own ∧
      Settings.load own = .ok { autoAssign := { maxSlots := 2 } } ∧
      t.settings = { maxSlots := 1 } ∧ Slot.devices t.table = ["a"] := by
  intro own events commands
  have hstart := Application.start_ready ⟨"/", "/", "/", none⟩ none
    (load_positionsFile 1 (by decide))
    (Watch.start_eq_ok_iff.2 ⟨load_positionsFile 2 (by decide), rfl⟩)
  have hload := load_positionsFile 2 (by decide)
  have hwatch : ({ content := own, applied := { maxSlots := 2 } } : Watch).run events
      = some { content := own, applied := { maxSlots := 2 } } := by decide +kernel
  have hcontent : (own :: ({ content := own, applied := { maxSlots := 2 } } : Watch).seen
      events).getLast? = some own := by decide +kernel
  obtain ⟨-, t, hworker⟩ := (Worker.run_cases .keyless (.start { maxSlots := 1 } [])
    commands).resolve_left (by simp [commands])
  have htable : Slot.devices
      ((Worker.running (.start { maxSlots := 1 } [])).run .keyless commands).1.table = ["a"] := by
    decide +kernel
  rw [hworker] at htable
  exact ⟨_, _, t, hstart, hwatch, ⟨rfl, rfl, nofun, rfl⟩, by decide, rfl, rfl, hworker, hcontent,
    hload, Worker.settings_run hworker, htable⟩

end PlayerSlots
