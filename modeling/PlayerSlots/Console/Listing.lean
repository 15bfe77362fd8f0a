import PlayerSlots.Numeric.Hexadecimal
import PlayerSlots.Slot.Basic

/-! # Listings at the console

The text of the slot table, of the connected devices and of the help, line by line.
-/

namespace PlayerSlots
set_option autoImplicit false

def Controller.title : Controller → String
  | pro => "ProController"
  | joyconLeft => "JoyconLeft"
  | joyconRight => "JoyconRight"
  | joyconPair => "JoyconPair"
  | handheld => "Handheld"

namespace Console

/-- A text with blanks after it up to a width. -/
def padded (width : Nat) (text : String) : String :=
  text ++ String.ofList (List.replicate (width - text.length) ' ')

/-- The six hexadecimal digits of a color without its alpha. -/
def colorText (color : UInt32) : String :=
  let n := color.toNat % 0x1000000
  "#" ++ String.ofList ((List.range 6).map fun i => capitalHexDigit (n >>> (4 * (5 - i)) % 16))

def slotLine (s : Slot) : String :=
  "  " ++ padded 9 s.label ++ " " ++ padded 24 s.device ++ " "
    ++ padded 14 s.binding.controller.title ++ " led " ++ (s.color?.map colorText).getD "off"

def tableLines (table : List Slot) : List String :=
  if table = [] then ["  (no slots assigned)"] else table.map slotLine

def deviceLines (devices : List Device) : List String :=
  if devices = [] then ["  (no devices connected)"]
  else devices.map fun d => "  " ++ d.id ++ " " ++ d.name

/-- The gamepads that a registry finds. -/
def gamepadLines (devices : List Device) : List String :=
  ["", "Connected gamepads:"] ++
    if devices = [] then ["  (none found)"] else devices.map fun d => "  " ++ d.id ++ "  " ++ d.name

def helpLines : List String :=
  ["", "Simulated registry commands:",
    "  connect <id> [name...]   plug in a controller (name picks defaults)",
    "  disconnect <id>          unplug a controller",
    "  show                     print the slot table",
    "  devices                  list connected devices",
    "  refresh                  run a pass without changes",
    "  export <file.json>       write the slot table to a file",
    "  quit", ""]

def textOf (lines : List String) : String := String.join (lines.map (· ++ "\n"))

end Console

end PlayerSlots
