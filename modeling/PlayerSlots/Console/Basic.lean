import PlayerSlots.Console.Command
import PlayerSlots.Console.Listing
import PlayerSlots.Files.Access
import PlayerSlots.Session.Trace
import PlayerSlots.Snapshot.File

/-! # The console

At the console devices can be connected and disconnected by hand. Each line is a command for the
session; what it shows is printed.

* `Console.turn`: one line.
* `Console.run`: lines up to the end, or to the first one that is no text. `Console.hold` puts the
  help before them.
-/

namespace PlayerSlots
set_option autoImplicit false

/-- What a line at the console leads to. -/
structure Turn where
  worker : Worker
  printed : List String := []
  effects : List Effect := []
  /-- Whether another line may follow. -/
  continues : Bool := true
deriving Repr

/-- What several lines at the console lead to. -/
structure Conversation where
  worker : Worker
  printed : List String := []
  effects : List Effect := []
  /-- Whether all lines were text. -/
  readable : Bool := true
  /-- Whether another line may follow. -/
  continues : Bool := true
deriving Repr

namespace Console

variable {m : Type → Type} [Monad m]

/-- A turn that hands a command to the session and shows the table. -/
def serve (provider : Provider) (w : Worker) (c : Command) : Turn :=
  let (worker, effects) := w.step provider c
  { worker, effects, printed := tableLines worker.table }

/-- Writes the table to a file, and says how it went. -/
def writeTable (files : FileAccess m) (now : Int) (w : Worker) (path : String) : m (List String) := do
  match ← (Snapshot.take now w.table).save files path with
  | .ok () =>
    pure ["Exported " ++ String.ofList (decimal w.table.length) ++ " slot(s) to " ++ path]
  | .error e => pure ["Export failed: " ++ e.detail]

def perform (files : FileAccess m) (provider : Provider) (now : Int) (w : Worker) :
    ConsoleCommand → m Turn
  | .connect id name => pure (serve provider w (.connected id name))
  | .disconnect id => pure (serve provider w (.disconnected id))
  | .table => pure { worker := w, printed := tableLines w.table }
  | .devices => pure { worker := w, printed := deviceLines w.connected }
  | .refresh => pure (serve provider w .refresh)
  | .write path => do pure { worker := w, printed := ← writeTable files now w path }
  | .help => pure { worker := w, printed := helpLines }
  | .quit => pure { worker := w, continues := false }

def turn (files : FileAccess m) (provider : Provider) (now : Int) (w : Worker) (line : String) :
    m Turn :=
  match ConsoleCommand.ofLine line with
  | .ok (some c) => perform files provider now w c
  | .ok none => pure { worker := w }
  | .error e => pure { worker := w, printed := [e.message] }

/-- Lines in turn; `none` stands for one that is no text. -/
def run (files : FileAccess m) (provider : Provider) (now : Int) (w : Worker) :
    List (Option String) → m Conversation
  | [] => pure { worker := w }
  | none :: _ => pure { worker := w, readable := false, continues := false }
  | some line :: rest => do
    let t ← turn files provider now w line
    let more ← if t.continues then run files provider now t.worker rest
      else pure { worker := t.worker, continues := false }
    pure { more with printed := t.printed ++ more.printed, effects := t.effects ++ more.effects }

/-- A whole conversation, which starts with the help. -/
def hold (files : FileAccess m) (provider : Provider) (now : Int) (w : Worker)
    (lines : List (Option String)) : m Conversation := do
  let c ← run files provider now w lines
  pure { c with printed := helpLines ++ c.printed }

/-- The lines of an input, each up to its line feed; `none` stands for one that is no text. -/
def linesFrom (line : List UInt8) : List UInt8 → List (Option String)
  | [] => if line = [] then [] else [(Text.decodeAll? line.reverse).map String.ofList]
  | b :: rest =>
    if b = 10 then (Text.decodeAll? line.reverse).map String.ofList :: linesFrom [] rest
    else linesFrom (b :: line) rest

/-- The lines of an input; `none` stands for one that is no text. -/
def lines (input : List UInt8) : List (Option String) := linesFrom [] input

end Console

end PlayerSlots
