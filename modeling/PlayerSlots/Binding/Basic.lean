import PlayerSlots.Numeric.Floating
import PlayerSlots.Binding.KeyMap

/-! # Bindings

What a player's slot drives: a full gamepad layout (`PadBinding`) or a map of keyboard keys
(`KeyBinding`). Placement carries bindings around unread; the two light fields `Light.enabled` and
`Light.color` are the only ones it ever writes (`Binding.setColor`).

`SameUpToColor` relates bindings that agree in all other fields.
-/

namespace PlayerSlots
set_option autoImplicit false

inductive Controller where
  | pro
  | joyconLeft
  | joyconRight
  | joyconPair
  | handheld
deriving DecidableEq, Repr, Inhabited

/-- The inputs of a physical gamepad that a button can be bound to. -/
inductive PadInput where
  | unbound
  | a
  | b
  | x
  | y
  | leftStick
  | rightStick
  | leftShoulder
  | rightShoulder
  | leftTrigger
  | rightTrigger
  | dpadUp
  | dpadDown
  | dpadLeft
  | dpadRight
  | minus
  | plus
  | guide
deriving DecidableEq, Repr, Inhabited

inductive StickInput where
  | unbound
  | left
  | right
deriving DecidableEq, Repr, Inhabited

/-- Where motion data comes from. -/
inductive MotionSource where
  | gamepadDriver
  | cemuHook
deriving DecidableEq, Repr, Inhabited

structure LeftButtons where
  dpadUp : PadInput
  dpadDown : PadInput
  dpadLeft : PadInput
  dpadRight : PadInput
  minus : PadInput
  l : PadInput
  zl : PadInput
  sl : PadInput
  sr : PadInput
deriving DecidableEq, Repr

structure RightButtons where
  a : PadInput
  b : PadInput
  x : PadInput
  y : PadInput
  plus : PadInput
  r : PadInput
  zr : PadInput
  sl : PadInput
  sr : PadInput
deriving DecidableEq, Repr

structure Stick where
  input : StickInput
  button : PadInput
  invertX : Bool
  invertY : Bool
  rotateClockwise : Bool
deriving DecidableEq, Repr

structure Motion where
  source : MotionSource
  enabled : Bool
  sensitivity : UInt32
  gyroDeadzone : Binary64
deriving DecidableEq, Repr

structure Rumble where
  strong : Binary32
  weak : Binary32
  enabled : Bool
deriving DecidableEq, Repr

structure Light where
  /-- Whether the color is shown at all. -/
  enabled : Bool
  /-- Whether the light is kept dark in spite of its color. -/
  off : Bool
  rainbow : Bool
  /-- The color, as packed alpha, red, green and blue. -/
  color : UInt32
deriving DecidableEq, Repr

/-- The layout of a player who holds a gamepad. -/
structure PadBinding where
  controller : Controller
  leftDeadzone : Binary32
  rightDeadzone : Binary32
  leftRange : Binary32
  rightRange : Binary32
  triggerThreshold : Binary32
  leftButtons : LeftButtons
  leftStick : Stick
  rightButtons : RightButtons
  rightStick : Stick
  motion : Motion
  rumble : Rumble
  light : Light
deriving DecidableEq, Repr

/-- The layout of a player at the keyboard: a key for each named button. -/
structure KeyBinding where
  controller : Controller
  keys : KeyMap
deriving DecidableEq, Repr

inductive Binding where
  | pad (layout : PadBinding)
  | keyboard (layout : KeyBinding)
deriving DecidableEq, Repr

namespace Binding

def controller : Binding → Controller
  | pad b => b.controller
  | keyboard b => b.controller

/-- Whether there is a light to set: only a gamepad has one. -/
def hasLight : Binding → Bool
  | pad _ => true
  | keyboard _ => false

/-- The color that the binding shows. A light that is kept dark shows none. -/
def color? : Binding → Option UInt32
  | pad b => if b.light.enabled && !b.light.off then some b.light.color else none
  | keyboard _ => none

/-- Shows a color, or no color, on the light of a gamepad. -/
def setColor (color : Option UInt32) : Binding → Binding
  | pad b => pad { b with light := { b.light with enabled := color.isSome, color := color.getD 0 } }
  | keyboard b => keyboard b

/-- The binding with its light enabled and its color black, whatever they were. -/
def withoutColor : Binding → Binding := setColor (some 0)

/-- Two bindings that differ at most in whether a color is shown and in which. -/
def SameUpToColor (b c : Binding) : Prop := b.withoutColor = c.withoutColor

instance (b c : Binding) : Decidable (SameUpToColor b c) :=
  inferInstanceAs (Decidable (b.withoutColor = c.withoutColor))

@[simp] theorem setColor_setColor (c d : Option UInt32) (b : Binding) :
    (b.setColor c).setColor d = b.setColor d := by
  cases b <;> rfl

@[simp] theorem hasLight_setColor (c : Option UInt32) (b : Binding) :
    (b.setColor c).hasLight = b.hasLight := by
  cases b <;> rfl

theorem sameUpToColor_setColor (c : Option UInt32) (b : Binding) :
    SameUpToColor (b.setColor c) b := by
  simp [SameUpToColor, withoutColor]

end Binding

end PlayerSlots
