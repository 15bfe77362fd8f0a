/-! # What can go wrong with slots

Nothing in the placement of devices is fatal. These causes arise at its edges; `SlotError.message`
is their wording.
-/

namespace PlayerSlots
set_option autoImplicit false

/-- Why a configuration or a default binding is refused. -/
inductive SlotError where
  | config (detail : String)
  /-- There is no default binding for a device of this name. -/
  | provider (name reason : String)
deriving DecidableEq, Repr

def SlotError.message : SlotError → String
  | .config detail => "Invalid configuration: " ++ detail
  | .provider name reason =>
    "Cannot build default binding for \"" ++ name ++ "\": " ++ reason

end PlayerSlots
