import PlayerSlots.Session.Basic

/-! # Registry events

What a device registry reports while it watches for gamepads, and the commands that follow from it.
-/

namespace PlayerSlots
set_option autoImplicit false

inductive RegistryEvent where
  /-- Every device that is there, in the order of their enumeration. -/
  | snapshot (devices : List Device)
  | connected (device : Device)
  | disconnected (id : String)
deriving DecidableEq, Repr

namespace RegistryEvent

/-- The command that hands an event on. Ids of single devices are normalized on the way, those of
a snapshot are not. -/
def command : RegistryEvent → Command
  | snapshot ds => .resync ds
  | connected d => .connected d.id d.name
  | disconnected id => .disconnected id

end RegistryEvent

end PlayerSlots
