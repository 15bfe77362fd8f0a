import PlayerSlots.Files.Access

/-! # Where everything is kept

The settings, the saved slots and the logs are kept together below one directory. Which one depends
on the surroundings (`Locations.detect`): the working directory if it has a settings file, the
directory of the program if that is marked as portable, or else the user's directory for data.
-/

namespace PlayerSlots
set_option autoImplicit false

/-- Where the settings, the saved slots and the logs are. -/
structure Locations where
  settings : String
  state : String
  logs : String
  /-- Whether everything stands beside the program or in the working directory. -/
  portable : Bool
deriving DecidableEq, Repr

structure Surroundings where
  workingDirectory : String
  programDirectory : String
  home : String
  /-- The user's directory for data, if it is set. -/
  data : Option String
deriving DecidableEq, Repr

namespace Locations

def settingsName : String := "padslots.yaml"

/-- The file that marks a program as portable. -/
def portableMark : String := ".portable"

/-- Everything below a directory. -/
def inDirectory (base : String) (portable : Bool) : Locations :=
  { settings := Path.join base settingsName
    state := Path.join base ".state"
    logs := Path.join base "logs"
    portable }

/-- Everything below the user's directory for data, which has to be an absolute path. -/
def installed (s : Surroundings) : Locations :=
  let fallback := Path.join s.home ".local/share"
  let data :=
    match s.data with
    | some d => if Path.isAbsolute d then d else fallback
    | none => fallback
  let base := Path.join data "Padslots"
  { settings := Path.join base settingsName
    state := Path.join base "state"
    logs := Path.join base "logs"
    portable := false }

def base (l : Locations) : String := (Path.parent? l.settings).getD "."

def store (l : Locations) : String := Path.join l.state "sled"

/-- The locations that the surroundings suggest. -/
def detect {m : Type → Type} [Monad m] (files : FileAccess m) (s : Surroundings) : m Locations := do
  if ← files.isPresent (Path.join s.workingDirectory settingsName) then
    pure (inDirectory s.workingDirectory true)
  else if ← files.isPresent (Path.join s.programDirectory portableMark) then
    pure (inDirectory s.programDirectory true)
  else pure (installed s)

/-- Makes directories that are missing. Yields the first that cannot be made. -/
def makeAll {m : Type → Type} [Monad m] (files : FileAccess m) : List String → m (Option String)
  | [] => pure none
  | d :: rest => do
    if ← files.isPresent d then makeAll files rest
    else
      match ← files.makeDirectories d with
      | .ok () => makeAll files rest
      | .error _ => pure (some d)

/-- Makes the directories of all locations. Yields the first that cannot be made. -/
def prepare {m : Type → Type} [Monad m] (files : FileAccess m) (l : Locations) :
    m (Option String) :=
  makeAll files [l.state, l.logs, l.base]

end Locations

end PlayerSlots
