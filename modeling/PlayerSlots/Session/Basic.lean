import PlayerSlots.Settings

/-! # Sessions

A `Session` owns the connected devices and the slot table. It takes one `Command` at a time, and
each command runs at most one pass, so that a device that comes and one that goes cannot meet
inside a pass. What a command does outside the session is a list of `Effect`s, in order.

* `Session.step`: one command. `Worker.step` adds the end: after a shutdown nothing happens.
* `Worker.run`: a list of commands.
-/

namespace PlayerSlots
set_option autoImplicit false

/-- What a session can be told or asked. -/
inductive Command where
  | connect (device : Device)
  | disconnect (id : String)
  | resync (devices : List Device)
  | update (settings : AutoAssign)
  | refresh
  | askSlots
  | askConnected
  | shutdown
deriving DecidableEq, Repr

namespace Command

/-- The command for a device that its driver reports under a raw id. -/
def connected (rawId name : String) : Command := .connect (.ofReport rawId name)

/-- The command for the end of a device that its driver reports under a raw id. -/
def disconnected (rawId : String) : Command := .disconnect (normalizeId rawId)

end Command

inductive Effect where
  /-- The provider is asked for the binding of a device of this name. -/
  | asked (name : String)
  /-- The slots go to whoever routes the input. -/
  | applied (slots : List Slot)
  /-- The slots go to whoever keeps them. -/
  | saved (slots : List Slot)
  | toldSlots (slots : List Slot)
  | toldConnected (devices : List Device)
deriving DecidableEq, Repr

/-- The settings in force, the connected devices in the order in which they came, and the table. -/
structure Session where
  settings : AutoAssign
  connected : List Device
  table : List Slot
deriving DecidableEq, Repr

namespace Session

/-- A session that starts with a saved table. No pass runs before the first command. -/
def start (settings : AutoAssign) (saved : List Slot) : Session :=
  { settings, connected := [], table := Slot.repair settings.maxSlots saved }

/-- A device appears: a new one comes last, a known one gets its new name. -/
def connect (s : Session) (d : Device) : Session :=
  if d.id = "" then s
  else if d.id ∈ s.connected.map (·.id) then
    { s with connected := s.connected.map fun e => if e.id = d.id then { e with name := d.name } else e }
  else { s with connected := s.connected ++ [d] }

def disconnect (s : Session) (id : String) : Session :=
  { s with connected := s.connected.filter (·.id ≠ normalizeId id) }

/-- Replaces the connected devices: the first for each id that is not empty. -/
def resync (s : Session) (ds : List Device) : Session := { s with connected := Slot.present ds }

/-- Takes new settings. A table for another number of positions is repaired. -/
def update (s : Session) (settings : AutoAssign) : Session :=
  { s with
    settings
    table := if settings.maxSlots = s.settings.maxSlots then s.table
      else Slot.repair settings.maxSlots s.table }

/-- Runs a pass over the connected devices, if passes run at all. -/
def pass (provider : Provider) (s : Session) : Session × List Effect :=
  if s.settings.enabled then
    let outcome := Slot.runPass s.connected s.table provider s.settings.passOptions
    let table := Slot.sort outcome.slots
    ({ s with table },
      outcome.asked.map .asked ++ [.applied table] ++ if outcome.persist then [.saved table] else [])
  else (s, [])

/-- One command, except `Command.shutdown`, which is the worker's. Settings that are in force
already change nothing. -/
def step (provider : Provider) (s : Session) : Command → Session × List Effect
  | .connect d => (s.connect d).pass provider
  | .disconnect id => (s.disconnect id).pass provider
  | .resync ds => (s.resync ds).pass provider
  | .update settings =>
    if settings = s.settings then (s, []) else (s.update settings).pass provider
  | .refresh => s.pass provider
  | .askSlots => (s, [.toldSlots s.table])
  | .askConnected => (s, [.toldConnected s.connected])
  | .shutdown => (s, [])

end Session

/-- A session that is being served, or none any more. -/
inductive Worker where
  | running (session : Session)
  | stopped
deriving DecidableEq, Repr

namespace Worker

def isRunning : Worker → Bool
  | running _ => true
  | stopped => false

/-- The slot table; empty after the end. -/
def table : Worker → List Slot
  | running s => s.table
  | stopped => []

/-- The connected devices; none after the end. -/
def connected : Worker → List Device
  | running s => s.connected
  | stopped => []

def step (provider : Provider) (w : Worker) (c : Command) : Worker × List Effect :=
  match w with
  | stopped => (stopped, [])
  | running s =>
    if c = .shutdown then (stopped, [])
    else
      let (s', effects) := s.step provider c
      (running s', effects)

def run (provider : Provider) (w : Worker) : List Command → Worker × List Effect
  | [] => (w, [])
  | c :: rest =>
    let (w', effects) := w.step provider c
    let (w'', more) := w'.run provider rest
    (w'', effects ++ more)

end Worker

end PlayerSlots
