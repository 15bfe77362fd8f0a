import PlayerSlots.Binding.Basic
import PlayerSlots.Json.Decoding

/-! # Bindings as JSON

A binding is an object whose field `kind` tells a gamepad from a keyboard, or an array with the kind
first. Because the kind may come last, a binding is taken in whole before it is looked at: every
string and number inside it must be readable, also in fields that are skipped, and it counts
towards the greatest nesting (`Binding.ofJson?`).
-/

namespace PlayerSlots
set_option autoImplicit false

open Json

/-! ## Names of fixed sets -/

namespace Controller

def all : List Controller := [pro, joyconLeft, joyconRight, joyconPair, handheld]

def name : Controller → String
  | pro => "pro_controller"
  | joyconLeft => "joycon_left"
  | joyconRight => "joycon_right"
  | joyconPair => "joycon_pair"
  | handheld => "handheld"

def names : List (String × Controller) := all.map fun c => (c.name, c)

end Controller

namespace PadInput

def all : List PadInput :=
  [unbound, a, b, x, y, leftStick, rightStick, leftShoulder, rightShoulder, leftTrigger,
    rightTrigger, dpadUp, dpadDown, dpadLeft, dpadRight, minus, plus, guide]

def name : PadInput → String
  | unbound => "unbound"
  | a => "a"
  | b => "b"
  | x => "x"
  | y => "y"
  | leftStick => "left_stick"
  | rightStick => "right_stick"
  | leftShoulder => "left_shoulder"
  | rightShoulder => "right_shoulder"
  | leftTrigger => "left_trigger"
  | rightTrigger => "right_trigger"
  | dpadUp => "dpad_up"
  | dpadDown => "dpad_down"
  | dpadLeft => "dpad_left"
  | dpadRight => "dpad_right"
  | minus => "minus"
  | plus => "plus"
  | guide => "guide"

def names : List (String × PadInput) := all.map fun i => (i.name, i)

end PadInput

namespace StickInput

def name : StickInput → String
  | unbound => "unbound"
  | left => "left"
  | right => "right"

def names : List (String × StickInput) := [unbound, left, right].map fun i => (i.name, i)

end StickInput

namespace MotionSource

def name : MotionSource → String
  | gamepadDriver => "gamepad_driver"
  | cemuHook => "cemu_hook"

def names : List (String × MotionSource) := [gamepadDriver, cemuHook].map fun s => (s.name, s)

end MotionSource

/-! ## Writing -/

def Json.single (x : Binary32) : Json := floating Numeral.singleStyle x

def Json.double (x : Binary64) : Json := floating Numeral.doubleStyle x

def LeftButtons.toJson (b : LeftButtons) : Json :=
  record
    [("dpad_up", str b.dpadUp.name), ("dpad_down", str b.dpadDown.name),
      ("dpad_left", str b.dpadLeft.name), ("dpad_right", str b.dpadRight.name),
      ("button_minus", str b.minus.name), ("button_l", str b.l.name),
      ("button_zl", str b.zl.name), ("button_sl", str b.sl.name), ("button_sr", str b.sr.name)]

def RightButtons.toJson (b : RightButtons) : Json :=
  record
    [("button_a", str b.a.name), ("button_b", str b.b.name), ("button_x", str b.x.name),
      ("button_y", str b.y.name), ("button_plus", str b.plus.name), ("button_r", str b.r.name),
      ("button_zr", str b.zr.name), ("button_sl", str b.sl.name), ("button_sr", str b.sr.name)]

def Stick.toJson (s : Stick) : Json :=
  record
    [("joystick", str s.input.name), ("stick_button", str s.button.name),
      ("invert_stick_x", bool s.invertX), ("invert_stick_y", bool s.invertY),
      ("rotate90_cw", bool s.rotateClockwise)]

def Motion.toJson (m : Motion) : Json :=
  record
    [("backend", str m.source.name), ("enable_motion", bool m.enabled),
      ("sensitivity", nat m.sensitivity.toNat), ("gyro_deadzone", double m.gyroDeadzone)]

def Rumble.toJson (r : Rumble) : Json :=
  record
    [("strong_rumble", single r.strong), ("weak_rumble", single r.weak),
      ("enable_rumble", bool r.enabled)]

def Light.toJson (l : Light) : Json :=
  record
    [("enable_led", bool l.enabled), ("turn_off_led", bool l.off), ("use_rainbow", bool l.rainbow),
      ("led_color", nat l.color.toNat)]

def PadBinding.fields (b : PadBinding) : List (String × Json) :=
  [("controller_type", str b.controller.name), ("deadzone_left", single b.leftDeadzone),
    ("deadzone_right", single b.rightDeadzone), ("range_left", single b.leftRange),
    ("range_right", single b.rightRange), ("trigger_threshold", single b.triggerThreshold),
    ("left_joycon", b.leftButtons.toJson), ("left_stick", b.leftStick.toJson),
    ("right_joycon", b.rightButtons.toJson), ("right_stick", b.rightStick.toJson),
    ("motion", b.motion.toJson), ("rumble", b.rumble.toJson), ("led", b.light.toJson)]

def KeyMap.toJson (m : KeyMap) : Json := record (m.entries.map fun (b, k) => (b, str k))

def KeyBinding.fields (b : KeyBinding) : List (String × Json) :=
  [("controller_type", str b.controller.name), ("keys", b.keys.toJson)]

/-- A binding, with its kind first. -/
def Binding.toJson : Binding → Json
  | .pad b => record (("kind", str "standard") :: b.fields)
  | .keyboard b => record (("kind", str "keyboard") :: b.fields)

/-! ## Reading -/

/-- One of some names inside a binding. -/
def Json.kept? {α : Type} (names : List (String × α)) : Json → Option α := choice? isEmptyUnit names

def LeftButtons.ofJson? (j : Json) : Option LeftButtons := do
  let m ← j.members?
    ["dpad_up", "dpad_down", "dpad_left", "dpad_right", "button_minus", "button_l", "button_zl",
      "button_sl", "button_sr"]
  let button (name : String) := required? m name (kept? PadInput.names)
  some
    { dpadUp := ← button "dpad_up", dpadDown := ← button "dpad_down"
      dpadLeft := ← button "dpad_left", dpadRight := ← button "dpad_right"
      minus := ← button "button_minus", l := ← button "button_l", zl := ← button "button_zl"
      sl := ← button "button_sl", sr := ← button "button_sr" }

def RightButtons.ofJson? (j : Json) : Option RightButtons := do
  let m ← j.members?
    ["button_a", "button_b", "button_x", "button_y", "button_plus", "button_r", "button_zr",
      "button_sl", "button_sr"]
  let button (name : String) := required? m name (kept? PadInput.names)
  some
    { a := ← button "button_a", b := ← button "button_b", x := ← button "button_x"
      y := ← button "button_y", plus := ← button "button_plus", r := ← button "button_r"
      zr := ← button "button_zr", sl := ← button "button_sl", sr := ← button "button_sr" }

def Stick.ofJson? (j : Json) : Option Stick := do
  let m ← j.members?
    ["joystick", "stick_button", "invert_stick_x", "invert_stick_y", "rotate90_cw"]
  some
    { input := ← required? m "joystick" (kept? StickInput.names)
      button := ← required? m "stick_button" (kept? PadInput.names)
      invertX := ← required? m "invert_stick_x" asBool?
      invertY := ← required? m "invert_stick_y" asBool?
      rotateClockwise := ← required? m "rotate90_cw" asBool? }

def Motion.ofJson? (j : Json) : Option Motion := do
  let m ← j.members? ["backend", "enable_motion", "sensitivity", "gyro_deadzone"]
  some
    { source := ← required? m "backend" (kept? MotionSource.names)
      enabled := ← required? m "enable_motion" asBool?
      sensitivity := ← required? m "sensitivity" asWord32?
      gyroDeadzone := ← required? m "gyro_deadzone" asFloating? }

def Rumble.ofJson? (j : Json) : Option Rumble := do
  let m ← j.members? ["strong_rumble", "weak_rumble", "enable_rumble"]
  some
    { strong := ← required? m "strong_rumble" asFloating?
      weak := ← required? m "weak_rumble" asFloating?
      enabled := ← required? m "enable_rumble" asBool? }

def Light.ofJson? (j : Json) : Option Light := do
  let m ← j.members? ["enable_led", "turn_off_led", "use_rainbow", "led_color"]
  some
    { enabled := ← required? m "enable_led" asBool?
      off := ← required? m "turn_off_led" asBool?
      rainbow := ← required? m "use_rainbow" asBool?
      color := ← required? m "led_color" asWord32? }

def PadBinding.ofJson? (j : Json) : Option PadBinding := do
  let m ← j.members?
    ["controller_type", "deadzone_left", "deadzone_right", "range_left", "range_right",
      "trigger_threshold", "left_joycon", "left_stick", "right_joycon", "right_stick", "motion",
      "rumble", "led"]
  some
    { controller := ← required? m "controller_type" (kept? Controller.names)
      leftDeadzone := ← required? m "deadzone_left" asFloating?
      rightDeadzone := ← required? m "deadzone_right" asFloating?
      leftRange := ← required? m "range_left" asFloating?
      rightRange := ← required? m "range_right" asFloating?
      triggerThreshold := ← required? m "trigger_threshold" asFloating?
      leftButtons := ← required? m "left_joycon" LeftButtons.ofJson?
      leftStick := ← required? m "left_stick" Stick.ofJson?
      rightButtons := ← required? m "right_joycon" RightButtons.ofJson?
      rightStick := ← required? m "right_stick" Stick.ofJson?
      motion := ← required? m "motion" Motion.ofJson?
      rumble := ← required? m "rumble" Rumble.ofJson?
      light := ← required? m "led" Light.ofJson? }

/-- The keys of a keyboard layout. Of several keys for one button the last counts. -/
def KeyMap.ofJson? : Json → Option KeyMap
  | object fields => do
    let entries ← fields.mapM fun (name, j) => do some (← name, ← j.asText?)
    some (.ofList entries)
  | _ => none

def KeyBinding.ofJson? (j : Json) : Option KeyBinding := do
  let m ← j.members? ["controller_type", "keys"]
  some
    { controller := ← required? m "controller_type" (kept? Controller.names)
      keys := ← optional? m "keys" .empty KeyMap.ofJson? }

namespace Binding

/-- The greatest nesting of arrays and objects in a text. -/
def greatestDepth : Nat := 127

/-- Splits a binding into its kind and the rest. -/
def splitKind? : Json → Option (String × Json)
  | object fields =>
    match fields.partition (·.1 == some "kind") with
    | ([(_, kind)], rest) => do some (← kind.asText?, object rest)
    | _ => none
  | array (kind :: rest) => do some (← kind.asText?, array rest)
  | _ => none

/-- The binding of a document that stands inside `depth` arrays and objects. -/
def ofJson? (depth : Nat) (j : Json) : Option Binding := do
  if j.isReadable ∧ depth + j.depth ≤ greatestDepth then
    let (kind, rest) ← splitKind? j
    if kind = "standard" then (PadBinding.ofJson? rest).map pad
    else if kind = "keyboard" then (KeyBinding.ofJson? rest).map keyboard
    else none
  else none

end Binding

end PlayerSlots
