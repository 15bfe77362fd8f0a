import PlayerSlots.Slot.Color
import PlayerSlots.Slot.Exchange
import PlayerSlots.Slot.Placement
import PlayerSlots.Slot.Renumbering

/-! # One reconciliation pass

A pass places the connected devices and settles the outcome with the saved table. New hardware
makes a table of its own, without gaps, that is worth saving. Otherwise the saved table stays, with
exchanges where it conflicts, so that nobody is renumbered when a lower slot falls free. The
settled slots get the colors of their positions.
-/

namespace PlayerSlots
set_option autoImplicit false

/-- The default number of player positions: one for each color. -/
def defaultMaxSlots : Nat := 8

/-- The greatest number of player positions that a configuration may ask for. -/
def maxSlotsLimit : Nat := 9

/-- What a pass may choose from. -/
structure PassOptions where
  maxSlots : Nat := defaultMaxSlots
  overflow : Overflow := .colorless
deriving DecidableEq, Repr

/-- A settled table, and whether it is worth saving. -/
structure Settled where
  slots : List Slot
  persist : Bool
deriving DecidableEq, Repr

structure Outcome where
  slots : List Slot
  /-- Whether a device without a saved entry got a slot. -/
  newDevice : Bool
  /-- Whether the slots are worth saving. -/
  persist : Bool
  /-- The names that the provider was asked for, in order. -/
  asked : List String
deriving DecidableEq, Repr

namespace Slot

/-- Settles a fresh placement with the saved table. -/
def settle (fresh saved : List Slot) (newDevice : Bool) : Settled :=
  if newDevice then { slots := compact fresh, persist := true }
  else { slots := realign fresh saved, persist := false }

def runPass (connected : List Device) (saved : List Slot) (provider : Provider)
    (options : PassOptions) : Outcome :=
  let placement := place connected saved options.maxSlots provider
  let newDevice := decide placement.HasNewcomer
  let settled := settle placement.slots saved newDevice
  { slots := colorAll options.overflow settled.slots
    newDevice
    persist := settled.persist
    asked := placement.asked }

end Slot

end PlayerSlots
