import PlayerSlots.Json.Decoding
import PlayerSlots.Settings

/-! # Settings as JSON

Every field has a default, so an empty object stands for the default settings.
-/

namespace PlayerSlots
set_option autoImplicit false

open Json

namespace Overflow

def name : Overflow → String
  | colorless => "colorless"
  | wrap => "wrap"

def names : List (String × Overflow) := [colorless, wrap].map fun o => (o.name, o)

def ofJson? : Json → Option Overflow := choice? isNull names

end Overflow

namespace AutoAssign

def toJson (s : AutoAssign) : Json :=
  record
    [("enabled", bool s.enabled), ("max_slots", nat s.maxSlots),
      ("led_overflow", str s.overflow.name)]

def ofJson? (j : Json) : Option AutoAssign := do
  let m ← j.members? ["enabled", "max_slots", "led_overflow"]
  let standard : AutoAssign := {}
  some
    { enabled := ← optional? m "enabled" standard.enabled asBool?
      maxSlots := ← optional? m "max_slots" standard.maxSlots (asNat? wordBound)
      overflow := ← optional? m "led_overflow" standard.overflow Overflow.ofJson? }

end AutoAssign

namespace Settings

def toJson (s : Settings) : Json :=
  record
    [("auto_assign", s.autoAssign.toJson), ("persistence", record [("debounce_ms", nat s.debounce)]),
      ("logging", record [("file", bool s.logFile)])]

/-- A structure with one field, which has a default. -/
def single? {α : Type} (name : String) (default : α) (decode : Json → Option α) (j : Json) :
    Option α := do
  optional? (← j.members? [name]) name default decode

def ofJson? (j : Json) : Option Settings := do
  let m ← j.members? ["auto_assign", "persistence", "logging"]
  let standard : Settings := {}
  let debounce := single? "debounce_ms" standard.debounce (asNat? wordBound)
  let logFile := single? "file" standard.logFile asBool?
  some
    { autoAssign := ← optional? m "auto_assign" standard.autoAssign AutoAssign.ofJson?
      debounce := ← optional? m "persistence" standard.debounce debounce
      logFile := ← optional? m "logging" standard.logFile logFile }

end Settings

end PlayerSlots
