import PlayerSlots.Binding.Layout
import PlayerSlots.Device
import PlayerSlots.Numeric.Digit

/-! # Slots and slot tables

A `Slot` gives a player position to a device, with a binding. A slot table is a list of slots.

* `Slot.sort`: a table in the order of its positions, equal positions in the order they had.
* `Slot.lowestFree?`: the lowest position below a limit that a table leaves free.
* `Slot.firstPer`: the first entry for each key.
* `Slot.WellFormed`: positions ascend and stay below the limit, ids are present and distinct.
-/

namespace PlayerSlots
set_option autoImplicit false

/-- A player position, the device that holds it, and what drives it. -/
structure Slot where
  /-- The player position, from zero. -/
  index : Nat
  device : String
  binding : Binding
deriving DecidableEq, Repr

namespace Slot

def color? (s : Slot) : Option UInt32 := s.binding.color?

/-- The name of the player position for people, which count from one. -/
def label (s : Slot) : String := "Player " ++ String.ofList (decimal (s.index + 1))

/-- Puts a table in the order of its positions. -/
def sort (table : List Slot) : List Slot :=
  table.mergeSort (fun s t => s.index ≤ t.index)

abbrev indices (table : List Slot) : List Nat := table.map (·.index)

abbrev devices (table : List Slot) : List String := table.map (·.device)

def ofDevice? (table : List Slot) (device : String) : Option Slot :=
  table.find? (·.device == device)

def atIndex? (table : List Slot) (index : Nat) : Option Slot :=
  table.find? (·.index == index)

/-- The lowest of the positions below `limit` that is not taken. Among the first
`taken.length + 1` positions one is free, so no more are tried. -/
def lowestFree? (taken : List Nat) (limit : Nat) : Option Nat :=
  (List.range (min limit (taken.length + 1))).find? (fun i => !taken.contains i)

/-- The elements whose key no earlier element has. -/
def firstPer {α κ : Type} [DecidableEq κ] (key : α → κ) : List α → List α
  | [] => []
  | a :: l => a :: (firstPer key l).filter (fun b => key b ≠ key a)

/-- A sound table for `limit` positions: they ascend and stay below the limit, every id is present,
and no device has two slots. -/
structure WellFormed (limit : Nat) (table : List Slot) : Prop where
  ascending : (indices table).Pairwise (· < ·)
  below : ∀ i ∈ indices table, i < limit
  present : ∀ d ∈ devices table, d ≠ ""
  distinct : (devices table).Nodup

end Slot

end PlayerSlots
