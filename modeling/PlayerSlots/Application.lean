import PlayerSlots.Arguments
import PlayerSlots.Console.Basic
import PlayerSlots.Locations
import PlayerSlots.Session.Registry
import PlayerSlots.Settings.Watch
import PlayerSlots.Snapshot.Keeper

/-! # The program

An `Application` joins a session with its settings file and its store. It starts with the saved
slots, lets the session serve commands, hands what is to be saved to the keeper, and follows changes
of the settings file.
-/

namespace PlayerSlots
set_option autoImplicit false

inductive StartError where
  | directory (path : String)
  | unwritable (path : String)
  | settings (path : String) (cause : SettingsError)
  /-- The directory of the logs is no directory. -/
  | logs (path : String)
  | store (path : String)
deriving DecidableEq, Repr

namespace StartError

def message : StartError → String
  | directory path => "Failed to create " ++ path
  | unwritable path => "Failed to write config file: " ++ path
  | settings path .unreadable => "Failed to read config file: " ++ path
  | settings path .malformed => "Failed to parse YAML config: " ++ path
  | settings _ (.invalid problem) => problem.message
  | logs path => "Failed to log to " ++ path
  | store path => "Failed to open sled database at: " ++ path

def exitCode : StartError → UInt32
  | logs _ => 101
  | _ => 1

end StartError

structure Application where
  settingsPath : String
  /-- The file that holds what is stored. -/
  storePath : String
  watch : Watch
  worker : Worker
  keeper : Keeper
  /-- The slots that the input is routed by. -/
  routed : List Slot := []
  /-- How many slots were saved, if a snapshot was stored. -/
  restored : Option Nat
deriving Repr

namespace Application

variable {m : Type → Type} [Monad m]

/-- The content of a file, if it can be read. -/
def content? (files : FileAccess m) (path : String) : m (Option (List UInt8)) := do
  pure (← files.read path).toOption

def provideSettings (files : FileAccess m) (path : String) : m Bool := do
  if ← files.isPresent path then pure true
  else
    let standard : Settings := {}
    pure (← files.write path (Text.encode standard.toYaml.toList)).toOption.isSome

/-- The application that starts with some settings, a watch of their file, and what is stored. -/
def launch (settings : Settings) (watch : Watch) (settingsPath storePath : String)
    (stored : Option (List UInt8)) : Application :=
  let keeper : Keeper := { debounce := settings.debounce, stored }
  let saved := keeper.load?
  { settingsPath
    storePath
    watch
    worker := .running (.start settings.autoAssign ((saved.map (·.slots)).getD []))
    keeper
    restored := saved.map (·.slots.length) }

/-- Starts to watch the settings file, opens the store, and launches the application. -/
def attach (files : FileAccess m) (locations : Locations) (path : String) (settings : Settings) :
    m (Except StartError Application) := do
  match Watch.start (← content? files path) with
  | .error e => return .error (.settings path e)
  | .ok (_, watch) =>
    match ← files.makeDirectories locations.store with
    | .error _ => return .error (.store locations.store)
    | .ok () =>
      let storePath := Path.join locations.store "snapshot"
      return .ok (launch settings watch path storePath (← content? files storePath))

/-- Starts the program. The settings file is read twice: for the settings to start with, and by the
watch that follows its changes. -/
def start (files : FileAccess m) (surroundings : Surroundings) (options : Options) :
    m (Except StartError Application) := do
  let locations ← Locations.detect files surroundings
  if let some path ← locations.prepare files then return .error (.directory path)
  let path := options.settings.getD locations.settings
  unless ← provideSettings files path do return .error (.unwritable path)
  match Settings.load (← content? files path) with
  | .error e => return .error (.settings path e)
  | .ok settings =>
    if settings.logFile then
      unless ← files.isDirectory locations.logs do return .error (.logs locations.logs)
    attach files locations path settings

/-- Follows what a session has done at some time, in milliseconds. -/
def follow (now : Nat) (effects : List Effect) (a : Application) : Application :=
  let saves := (Effect.savedLists effects).map fun slots => .save (Snapshot.take now slots) now
  { a with
    keeper := (a.keeper.run saves).1
    routed := (Effect.appliedLists effects).getLast?.getD a.routed }

def serve (now : Nat) (c : Command) (a : Application) : Application :=
  let (worker, effects) := a.worker.step .byName c
  { a with worker }.follow now effects

/-- Serves a line at the console; `none` stands for one that is no text. -/
def serveLine (files : FileAccess m) (now : Nat) (line : Option String) (a : Application) :
    m (Application × Conversation) := do
  let c ← Console.run files .byName now a.worker [line]
  pure ({ a with worker := c.worker }.follow now c.effects, c)

/-- Lets the watch look at the settings file, and follows what it reports. -/
def reload (files : FileAccess m) (now : Nat) (a : Application) : m Application := do
  let content ← content? files a.settingsPath
  let watch := ((a.watch.attempt (.write content)).attempt .notice).react
  let news := watch.taken.drop a.watch.taken.length
  pure (news.foldl (fun a s => a.serve now (.update s)) { a with watch })

/-- Lets time pass for what waits to be stored. -/
def tick (now : Nat) (a : Application) : Application :=
  { a with keeper := (a.keeper.step (.tick now)).1 }

def store (files : FileAccess m) (a : Application) : m Unit := do
  if let some bytes := a.keeper.stored then
    let _ ← files.write a.storePath bytes

def finish (files : FileAccess m) (now : Nat) (a : Application) : m Application := do
  let a := a.serve now .shutdown
  let a := { a with keeper := (a.keeper.step .stop).1 }
  a.store files
  pure a

end Application

end PlayerSlots
