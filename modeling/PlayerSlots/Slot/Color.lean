import PlayerSlots.Slot.Basic

/-! # Player colors

The color of a slot depends on its position alone, never on the device that holds it.
-/

namespace PlayerSlots
set_option autoImplicit false

/-- What the positions past the end of the palette get. -/
inductive Overflow where
  | colorless
  /-- The palette again from its start. -/
  | wrap
deriving DecidableEq, Repr, Inhabited

/-- The player colors in the order of the positions: red, blue, green, yellow, magenta, orange,
cyan and purple, as packed alpha, red, green and blue. -/
def palette : List UInt32 :=
  [0xFFFF0000, 0xFF0000FF, 0xFF00FF00, 0xFFFFFF00, 0xFFFF00FF, 0xFFFFA500, 0xFF00FFFF, 0xFF800080]

def Overflow.color? (overflow : Overflow) (index : Nat) : Option UInt32 :=
  match palette[index]?, overflow with
  | some c, _ => some c
  | none, .colorless => none
  | none, .wrap => palette[index % palette.length]?

namespace Slot

/-- The slot with the color of its position on its light, if it has one. -/
def colored (overflow : Overflow) (s : Slot) : Slot :=
  { s with binding := s.binding.setColor (overflow.color? s.index) }

/-- The slots of a table with the colors of their positions. -/
def colorAll (overflow : Overflow) (table : List Slot) : List Slot := table.map (colored overflow)

end Slot

end PlayerSlots
