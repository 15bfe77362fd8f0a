import PlayerSlots.Json.Printer
import PlayerSlots.Json.Reader
import PlayerSlots.Slot.Encoding
import PlayerSlots.Text.Utf8

/-! # Snapshots of the slot table

A `Snapshot` is a slot table as it is kept: with the time at which it was taken and the version of
its format. `Snapshot.render` writes one as JSON, `Snapshot.read?` reads one back.
-/

namespace PlayerSlots
set_option autoImplicit false

open Json

/-- A slot table as it is kept. -/
structure Snapshot where
  /-- When it was taken, in milliseconds since 1970. -/
  timestamp : Int
  version : String
  slots : List Slot
deriving DecidableEq, Repr

namespace Snapshot

def currentVersion : String := "1.0.0"

/-- A snapshot taken now. -/
def take (now : Int) (slots : List Slot) : Snapshot :=
  { timestamp := now, version := currentVersion, slots }

def toJson (s : Snapshot) : Json :=
  record
    [("timestamp", int s.timestamp), ("version", str s.version),
      ("bindings", array (s.slots.map Slot.toJson))]

def ofJson? (j : Json) : Option Snapshot := do
  let m ← j.members? ["timestamp", "version", "bindings"]
  some
    { timestamp := ← required? m "timestamp" asInt64?
      version := ← required? m "version" asText?
      slots := ← required? m "bindings" (asList? (Slot.ofJson? 2)) }

def render (style : Style) (s : Snapshot) : String := s.toJson.render style

def bytes (style : Style) (s : Snapshot) : List UInt8 := Text.encode (s.render style).toList

def read? (text : String) : Option Snapshot := do ofJson? (← Json.parse? text)

/-- The snapshot of some bytes. Bytes that are no text may only stand in strings that are
skipped. -/
def readBytes? (bytes : List UInt8) : Option Snapshot := do
  ofJson? (← Json.read? (Text.decode bytes))

end Snapshot

end PlayerSlots
