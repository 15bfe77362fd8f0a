import PlayerSlots.Slot.Basic

/-! # Renumbering a table without gaps -/

namespace PlayerSlots.Slot
set_option autoImplicit false

/-- Gives the slots of a list the positions from `start` on, in turn. -/
def numberFrom (start : Nat) : List Slot → List Slot
  | [] => []
  | s :: rest => { s with index := start } :: numberFrom (start + 1) rest

/-- Renumbers a table from zero in the order of its positions. -/
def compact (table : List Slot) : List Slot := numberFrom 0 (sort table)

end PlayerSlots.Slot
