import PlayerSlots.Slot.Basic

/-! # Bringing a saved table in line by exchanges

Where known devices were placed afresh, the saved table is kept and only the positions that
conflict change: for each fresh entry, the device's slot and the slot at its fresh position
exchange their positions.
-/

namespace PlayerSlots.Slot
set_option autoImplicit false

/-- Lets the slots at two places of a table exchange their positions. -/
def exchange (table : List Slot) (p q : Nat) : List Slot :=
  match table[p]?, table[q]? with
  | some s, some t => (table.set p { s with index := t.index }).set q { t with index := s.index }
  | _, _ => table

/-- Moves a device to a position by an exchange with the slot there. Nothing happens if the table
lacks the device or the position. -/
def moveTo (table : List Slot) (fresh : Slot) : List Slot :=
  match table.findIdx? (·.device == fresh.device), table.findIdx? (·.index == fresh.index) with
  | some p, some q => exchange table p q
  | _, _ => table

/-- A saved table after an exchange for each fresh entry in turn, in the order of its positions. -/
def realign (fresh saved : List Slot) : List Slot := sort (fresh.foldl moveTo saved)

end PlayerSlots.Slot
