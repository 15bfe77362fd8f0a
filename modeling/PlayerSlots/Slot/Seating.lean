import PlayerSlots.Slot.Basic

/-! # Seating entries in a table

* `Slot.seat`: an entry takes its own position if that is free, else the lowest free one, else none.
* `Slot.repair`: a sound table from any saved list. An entry stays in place when its position is
  in range and it is the first entry there; the others move to the lowest free positions, in their
  order, and go only when there are none left.
-/

namespace PlayerSlots.Slot
set_option autoImplicit false

/-- The position that an entry gets in a table: its own if possible, else the lowest free one. -/
def position? (limit : Nat) (table : List Slot) (s : Slot) : Option Nat :=
  if s.index < limit ∧ s.index ∉ indices table then some s.index
  else lowestFree? (indices table) limit

/-- Adds an entry to a table, if there is a position for it. -/
def seat (limit : Nat) (table : List Slot) (s : Slot) : List Slot :=
  match position? limit table s with
  | some i => table ++ [{ s with index := i }]
  | none => table

/-- The entries of a saved list that count: with their ids normalized, the first for each id that
is not empty. -/
def usable (saved : List Slot) : List Slot :=
  firstPer (·.device)
    ((saved.map fun s => { s with device := normalizeId s.device }).filter (·.device ≠ ""))

/-- The entries that keep their positions: the first for each position in range. -/
def inPlace (limit : Nat) (entries : List Slot) : List Slot :=
  firstPer (·.index) (entries.filter (·.index < limit))

/-- A sound table from any saved list. -/
def repair (limit : Nat) (saved : List Slot) : List Slot :=
  let entries := usable saved
  let kept := inPlace limit entries
  let displaced := entries.filter (fun s => s.device ∉ devices kept)
  sort (displaced.foldl (seat limit) kept)

end PlayerSlots.Slot
