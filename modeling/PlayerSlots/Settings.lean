import PlayerSlots.Error
import PlayerSlots.Slot.Pass

/-! # Settings

What a configuration file can set, with the defaults of what it leaves out. `Settings.problem?`
finds the first setting that is out of range.
-/

namespace PlayerSlots
set_option autoImplicit false

structure AutoAssign where
  enabled : Bool := true
  maxSlots : Nat := defaultMaxSlots
  overflow : Overflow := .colorless
deriving DecidableEq, Repr, Inhabited

/-- The part of the settings that a pass depends on. -/
def AutoAssign.passOptions (s : AutoAssign) : PassOptions :=
  { maxSlots := s.maxSlots, overflow := s.overflow }

/-- The default delay of writes, in milliseconds. -/
def defaultDebounce : Nat := 500

/-- The greatest delay of writes that a configuration may ask for, in milliseconds. -/
def debounceLimit : Nat := 60000

structure Settings where
  autoAssign : AutoAssign := {}
  /-- How long a save waits for a newer one, in milliseconds; without a wait it is written at
  once. -/
  debounce : Nat := defaultDebounce
  /-- Whether the log also goes to a file. -/
  logFile : Bool := true
deriving DecidableEq, Repr, Inhabited

namespace Settings

/-- The first setting that is out of its range. -/
def problem? (s : Settings) : Option SlotError :=
  let text (n : Nat) := String.ofList (decimal n)
  if s.autoAssign.maxSlots = 0 ∨ maxSlotsLimit < s.autoAssign.maxSlots then
    some (.config ("auto_assign.max_slots is " ++ text s.autoAssign.maxSlots ++ " (must be 1-"
      ++ text maxSlotsLimit ++ ")"))
  else if debounceLimit < s.debounce then
    some (.config ("persistence.debounce_ms is " ++ text s.debounce ++ " (must be at most "
      ++ text debounceLimit ++ ")"))
  else none

end Settings

end PlayerSlots
