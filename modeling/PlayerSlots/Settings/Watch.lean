import PlayerSlots.Settings.Reload

/-! # Watching a settings file

A `Watch` reloads a settings file after it has been written. Each write is followed, some time
later, by a notice, which leaves a signal. There is room for one signal: it stands for all notices
since it was taken. The watch waits for a signal, lets the writer finish, takes the signals that
have come in the meantime, and only then opens the file and reads it. If the settings that it has
read differ from those reported last, it reports them; a few reports can wait for the receiver.

`Watch.step?` is one step of this, by whomever; steps can come in any order in which they are
possible, so the file can be written at any moment, also while it is being read.

* `Watch.run`: several steps in turn.
* `Watch.seen`: what the readings of a run have seen.
* `Watch.IsQuiet`: nothing is left to do.
-/

namespace PlayerSlots
set_option autoImplicit false

inductive WatchPhase where
  | waiting
  /-- It lets the writer finish. -/
  | settling
  /-- It takes signals before it opens the file. -/
  | draining
  /-- It has found no signal left, and opens the file next. -/
  | opening
  | reading
  /-- It has read this and compares it next. -/
  | comparing (seen : Option (List UInt8))
  /-- It waits for room to report these settings. -/
  | reporting (settings : AutoAssign)
  /-- Nobody is there to report to. -/
  | stopped
deriving DecidableEq, Repr

/-- A step of the file's writers, of the notices, of the receiver, or of the watch. -/
inductive WatchEvent where
  /-- The file gets new content, or is removed. -/
  | write (content : Option (List UInt8))
  /-- The notice of a write arrives. -/
  | notice
  /-- The receiver takes the oldest report. -/
  | take
  /-- The receiver goes away, and no notice arrives any more. -/
  | close
  /-- The watch takes a signal and starts to wait for the writer. -/
  | wake
  /-- The watch has waited long enough. -/
  | settled
  /-- The watch takes another signal. -/
  | drain
  /-- The watch finds no signal left. -/
  | drained
  | opened
  /-- The watch has read the file. What it has seen is the content, unless the file has been written
  since it was opened. -/
  | read (seen : Option (List UInt8))
  | compare
  | report
deriving DecidableEq, Repr

structure Watch where
  content : Option (List UInt8)
  /-- Whether the file has been written since it was opened last. -/
  unread : Bool := false
  /-- The writes whose notices have not arrived. -/
  notices : Nat := 0
  /-- Whether a signal is there. -/
  signal : Bool := false
  phase : WatchPhase := .waiting
  /-- The settings reported last, or about to be reported. -/
  applied : AutoAssign
  /-- The reports that have not been taken, the oldest first. -/
  queue : List AutoAssign := []
  /-- The reports that have been taken, in order. -/
  taken : List AutoAssign := []
  /-- Whether the receiver has gone. -/
  closed : Bool := false
deriving DecidableEq, Repr

namespace Watch

/-- How many reports can wait for the receiver. -/
def reportRoom : Nat := 4

/-- Starts to watch a file with some content, which has to be usable. -/
def start (content : Option (List UInt8)) : Except SettingsError (Settings × Watch) := do
  let s ← Settings.load content
  .ok (s, { content, applied := s.autoAssign })

/-- What has been reported, in order. -/
def reported (w : Watch) : List AutoAssign := w.taken ++ w.queue

/-- What a reading that ends now has seen, if the file was perhaps written while it was read. -/
def sight (w : Watch) (seen : Option (List UInt8)) : Option (List UInt8) :=
  if w.unread then seen else w.content

def step? (w : Watch) : WatchEvent → Option Watch
  | .write content => some { w with content, unread := true, notices := w.notices + 1 }
  | .notice =>
    if w.notices = 0 ∨ w.closed then none
    else some { w with notices := w.notices - 1, signal := true }
  | .take =>
    match w.queue with
    | [] => none
    | s :: rest => if w.closed then none else some { w with queue := rest, taken := w.taken ++ [s] }
  | .close => some { w with closed := true }
  | .wake =>
    if w.phase ≠ .waiting then none
    else if w.signal then some { w with signal := false, phase := .settling }
    else if w.closed then some { w with phase := .stopped }
    else none
  | .settled => if w.phase = .settling then some { w with phase := .draining } else none
  | .drain => if w.phase = .draining ∧ w.signal then some { w with signal := false } else none
  | .drained => if w.phase = .draining ∧ ¬w.signal then some { w with phase := .opening } else none
  | .opened =>
    if w.phase = .opening then some { w with unread := false, phase := .reading } else none
  | .read seen =>
    if w.phase = .reading then some { w with phase := .comparing (w.sight seen) } else none
  | .compare =>
    match w.phase with
    | .comparing seen =>
      match w.applied.change? (Settings.load seen) with
      | none => some { w with phase := .waiting }
      | some s => some { w with applied := s, phase := .reporting s }
    | _ => none
  | .report =>
    match w.phase with
    | .reporting s =>
      if w.closed then some { w with phase := .stopped }
      else if w.queue.length < reportRoom then
        some { w with queue := w.queue ++ [s], phase := .waiting }
      else none
    | _ => none

/-- Several steps in turn, if they are possible. -/
def run (w : Watch) : List WatchEvent → Option Watch
  | [] => some w
  | e :: rest => (w.step? e).bind fun w' => w'.run rest

/-- A step, or nothing where it is not possible. -/
def attempt (w : Watch) (e : WatchEvent) : Watch := (w.step? e).getD w

/-- What a step has seen of the file. -/
def glance? (w : Watch) : WatchEvent → Option (Option (List UInt8))
  | .read seen => if w.phase = .reading then some (w.sight seen) else none
  | _ => none

/-- What the readings of several steps have seen, in order. -/
def seen (w : Watch) : List WatchEvent → List (Option (List UInt8))
  | [] => []
  | e :: rest => (w.glance? e).toList ++ (w.attempt e).seen rest

/-- Lets the watch react to the signal that it has, and takes what it reports. -/
def react (w : Watch) : Watch :=
  [WatchEvent.wake, .settled, .drain, .drained, .opened, .read none, .compare, .report, .take].foldl
    attempt w

/-- Whether nothing is left to do: all notices have arrived, and the watch waits without a
signal. -/
def IsQuiet (w : Watch) : Prop := w.notices = 0 ∧ w.signal = false ∧ w.phase = .waiting

instance (w : Watch) : Decidable w.IsQuiet := inferInstanceAs (Decidable (_ ∧ _))

end Watch

end PlayerSlots
