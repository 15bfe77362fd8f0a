import PlayerSlots.Binding.Encoding
import PlayerSlots.Slot.Basic

/-! # Slots and devices as JSON -/

namespace PlayerSlots
set_option autoImplicit false

open Json

namespace Slot

def toJson (s : Slot) : Json :=
  record [("slot_index", nat s.index), ("device_id", str s.device), ("binding", s.binding.toJson)]

/-- The slot of a document that stands inside `depth` arrays and objects. -/
def ofJson? (depth : Nat) (j : Json) : Option Slot := do
  let m ← j.members? ["slot_index", "device_id", "binding"]
  some
    { index := ← required? m "slot_index" (asNat? wordBound)
      device := ← required? m "device_id" asText?
      binding := ← required? m "binding" (Binding.ofJson? (depth + 1)) }

end Slot

namespace Device

def toJson (d : Device) : Json := record [("device_id", str d.id), ("display_name", str d.name)]

/-- A device. Its id is taken as it is. -/
def ofJson? (j : Json) : Option Device := do
  let m ← j.members? ["device_id", "display_name"]
  some
    { id := ← required? m "device_id" asText?
      name := ← required? m "display_name" asText? }

end Device

end PlayerSlots
