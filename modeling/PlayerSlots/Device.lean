import PlayerSlots.Text.Blank

/-! # Connected devices

Drivers report ids with a descriptive suffix. Only the first word of such an id identifies the
device, so ids are compared in that form.

* `normalizeId`: the first word of a reported id; `normalizeId_normalizeId` says that this is a
  normal form.
* `Device`: a gamepad as its registry reports it. A device with an empty id can neither be matched
  nor placed (`Device.IsValid`).
-/

namespace PlayerSlots
set_option autoImplicit false

/-- The first word of an id as a driver reports it; empty if the id is blank. -/
def normalizeId (raw : String) : String :=
  String.ofList (Text.firstWord raw.toList)

@[simp] theorem normalizeId_normalizeId (raw : String) :
    normalizeId (normalizeId raw) = normalizeId raw := by
  simp [normalizeId, Text.firstWord_firstWord]

/-- A gamepad as its registry reports it. -/
structure Device where
  id : String
  /-- The name for people, which only serves to choose a default binding. -/
  name : String
deriving DecidableEq, Repr, Inhabited

namespace Device

/-- The device with a reported id, which is normalized. -/
def ofReport (rawId name : String) : Device := ⟨normalizeId rawId, name⟩

/-- A device can be matched and placed when its id is not empty. -/
abbrev IsValid (d : Device) : Prop := d.id ≠ ""

@[simp] theorem id_ofReport (rawId name : String) : (ofReport rawId name).id = normalizeId rawId :=
  rfl

end Device

end PlayerSlots
