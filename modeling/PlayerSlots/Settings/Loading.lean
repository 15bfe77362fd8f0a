import PlayerSlots.Settings.Encoding
import PlayerSlots.Text.Utf8
import PlayerSlots.Yaml.Builder
import PlayerSlots.Yaml.Decoding

/-! # Settings files

Settings are kept in a YAML file. `Settings.load` reads the content of such a file and rejects
settings that are out of range; `Settings.toYaml` writes one.
-/

namespace PlayerSlots
set_option autoImplicit false

open Yaml

inductive SettingsError where
  /-- There is no file, or it is no text. -/
  | unreadable
  /-- The text is no YAML, or not of the right form. -/
  | malformed
  | invalid (problem : SlotError)
deriving DecidableEq, Repr

def AutoAssign.ofYaml? (d : Document) (n : Node) : Option AutoAssign := do
  let m ← d.members? ["enabled", "max_slots", "led_overflow"] n
  let standard : AutoAssign := {}
  some
    { enabled := ← Document.optional? m "enabled" standard.enabled d.asBool?
      maxSlots := ← Document.optional? m "max_slots" standard.maxSlots (d.asNat? Json.wordBound)
      overflow := ← Document.optional? m "led_overflow" standard.overflow
        (d.choice? Overflow.names) }

namespace Settings

/-- A structure with one field, which has a default. -/
def singleOfYaml? {α : Type} (name : String) (default : α) (decode : Node → Option α)
    (d : Document) (n : Node) : Option α := do
  Document.optional? (← d.members? [name] n) name default decode

/-- The settings of a document; one without content stands for the defaults. -/
def ofYaml? (d : Document) : Option Settings :=
  match d.root with
  | none => some {}
  | some n => do
    let m ← d.members? ["auto_assign", "persistence", "logging"] n
    let standard : Settings := {}
    let debounce :=
      singleOfYaml? "debounce_ms" standard.debounce (d.asNat? Json.wordBound) d
    let logFile := singleOfYaml? "file" standard.logFile d.asBool? d
    some
      { autoAssign := ← Document.optional? m "auto_assign" standard.autoAssign
          (AutoAssign.ofYaml? d)
        debounce := ← Document.optional? m "persistence" standard.debounce debounce
        logFile := ← Document.optional? m "logging" standard.logFile logFile }

def read? (text : String) : Option Settings := do ofYaml? (← Document.parse? text)

/-- The settings that a file with some content holds, if there is a file. -/
def load (content : Option (List UInt8)) : Except SettingsError Settings :=
  match content.bind Text.decodeAll? with
  | none => .error .unreadable
  | some cs =>
    match read? (String.ofList cs) with
    | none => .error .malformed
    | some s =>
      match s.problem? with
      | some problem => .error (.invalid problem)
      | none => .ok s

def boolText (b : Bool) : String := if b then "true" else "false"

def natText (n : Nat) : String := String.ofList (decimal n)

def toYaml (s : Settings) : String :=
  "auto_assign:\n  enabled: " ++ boolText s.autoAssign.enabled
    ++ "\n  max_slots: " ++ natText s.autoAssign.maxSlots
    ++ "\n  led_overflow: " ++ s.autoAssign.overflow.name
    ++ "\npersistence:\n  debounce_ms: " ++ natText s.debounce
    ++ "\nlogging:\n  file: " ++ boolText s.logFile ++ "\n"

end Settings

end PlayerSlots
