import PlayerSlots.Binding.Basic
import PlayerSlots.Error
import PlayerSlots.Text.Blank

/-! # Default bindings

A device without a saved binding gets a fixed layout, which depends on the controller that its name
suggests. A `Provider` is whatever supplies such bindings; where it fails, `generic` stands in
(`Provider.binding`).
-/

namespace PlayerSlots
set_option autoImplicit false

namespace Text

def occursIn (needle : List Char) : List Char → Bool
  | [] => needle.isEmpty
  | c :: rest => needle.isPrefixOf (c :: rest) || occursIn needle rest

end Text

/-- The controller that a name suggests. Only a single Joy-Con by Nintendo is told apart: a pair
and every other pad count as a Pro Controller. -/
def Controller.ofName (name : String) : Controller :=
  let has (part : String) := Text.occursIn part.toList name.toList
  if has "Nintendo" && !has "(L/R)" then
    if has "(L)" then .joyconLeft
    else if has "(R)" then .joyconRight
    else .pro
  else .pro

namespace Binding

/-- The buttons of the left half. On a single left Joy-Con, held sideways, the directions serve as
face buttons. -/
def leftLayout (sideways : Bool) : LeftButtons :=
  let pick (yes no : PadInput) := if sideways then yes else no
  { dpadUp := pick .y .dpadUp
    dpadDown := pick .a .dpadDown
    dpadLeft := pick .b .dpadLeft
    dpadRight := pick .x .dpadRight
    minus := pick .plus .minus
    l := .leftShoulder
    zl := .leftTrigger
    sl := pick .leftShoulder .unbound
    sr := pick .rightShoulder .unbound }

/-- The buttons of the right half, which move on a single right Joy-Con held sideways. -/
def rightLayout (sideways : Bool) : RightButtons :=
  let pick (yes no : PadInput) := if sideways then yes else no
  { a := .b
    b := pick .y .a
    x := pick .a .y
    y := .x
    plus := .plus
    r := .rightShoulder
    zr := .rightTrigger
    sl := pick .leftShoulder .unbound
    sr := pick .rightShoulder .unbound }

/-- The default layout of a controller. A single right Joy-Con has one stick, which drivers report
as the left one. -/
def standard (controller : Controller) : Binding :=
  let left := controller == .joyconLeft
  let right := controller == .joyconRight
  let one : Binary32 := .ofInt 1
  .pad
    { controller
      leftDeadzone := .ofRatio false 1 10
      rightDeadzone := .ofRatio false 1 10
      leftRange := one
      rightRange := one
      triggerThreshold := .ofRatio false 1 2
      leftButtons := leftLayout left
      leftStick :=
        { input := .left, button := .leftStick, invertX := false, invertY := false,
          rotateClockwise := left }
      rightButtons := rightLayout right
      rightStick :=
        { input := if right then .left else .right, button := .rightStick, invertX := right,
          invertY := right, rotateClockwise := right }
      motion :=
        { source := .gamepadDriver, enabled := true, sensitivity := 100, gyroDeadzone := .ofInt 1 }
      rumble := { strong := one, weak := one, enabled := false }
      light := { enabled := true, off := false, rainbow := false, color := 0 } }

def generic : Binding := standard .pro

end Binding

/-- Supplies a binding for a device of a given name, or says why there is none. -/
abbrev Provider := String → Except SlotError Binding

namespace Provider

/-- The binding supplied for a name, or the generic one. -/
def binding (p : Provider) (name : String) : Binding :=
  match p name with
  | .ok b => b
  | .error _ => .generic

/-- Supplies the default layout of the controller that the name suggests. -/
def byName : Provider := fun name => .ok (.standard (.ofName name))

end Provider

end PlayerSlots
