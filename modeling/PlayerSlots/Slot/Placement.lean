import PlayerSlots.Slot.Seating

/-! # Placement of the connected devices

Devices with a saved entry come first, in the order in which they are connected: each takes its
saved position if it is in range and still free, else the lowest free one. Devices without one
follow in ascending order of their ids; each takes the lowest free position, with a binding from
the provider. Devices beyond the last position get none, and the provider is not asked for them.
-/

namespace PlayerSlots
set_option autoImplicit false

structure Placement where
  /-- The slots taken, in the order of their positions. -/
  slots : List Slot
  /-- The devices without a saved entry that got a slot, in the order of their ids. -/
  newcomers : List Device
deriving DecidableEq, Repr

namespace Placement

/-- Whether a device without a saved entry got a slot. -/
def HasNewcomer (p : Placement) : Prop := p.newcomers ≠ []

instance (p : Placement) : Decidable p.HasNewcomer := inferInstanceAs (Decidable (_ ≠ _))

/-- The names that the provider was asked for, in order. -/
def asked (p : Placement) : List String := p.newcomers.map (·.name)

end Placement

namespace Slot

/-- The connected devices that count: the first for each id that is not empty. -/
def present (connected : List Device) : List Device :=
  firstPer (·.id) (connected.filter (·.id ≠ ""))

/-- The saved entry of a device: the first with its id. -/
def saved? (saved : List Slot) (d : Device) : Option Slot := ofDevice? saved d.id

def byId (ds : List Device) : List Device := ds.mergeSort (fun d e => d.id ≤ e.id)

/-- Gives a device without a saved entry the lowest free position and a binding. -/
def welcome (limit : Nat) (provider : Provider) (table : List Slot) (d : Device) : List Slot :=
  match lowestFree? (indices table) limit with
  | some i => table ++ [⟨i, d.id, provider.binding d.name⟩]
  | none => table

def place (connected : List Device) (saved : List Slot) (limit : Nat) (provider : Provider) :
    Placement :=
  let devices := present connected
  let known := (devices.filterMap (saved? saved)).foldl (seat limit) []
  let unknown := byId (devices.filter fun d => (saved? saved d).isNone)
  let newcomers := unknown.take (limit - known.length)
  { slots := sort (newcomers.foldl (welcome limit provider) known), newcomers }

end Slot

end PlayerSlots
