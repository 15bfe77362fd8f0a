import PlayerSlots.Files.Access
import PlayerSlots.Snapshot

/-! # Snapshot files

A snapshot can also be kept in a file of its own, laid out for people.
-/

namespace PlayerSlots
set_option autoImplicit false

inductive SnapshotError where
  /-- There is no such file, or it is no text. -/
  | unreadable (path : String)
  | malformed
  | unwritable (path : String) (cause : FileError)
deriving DecidableEq, Repr

def SnapshotError.message : SnapshotError → String
  | unreadable path => "Failed to read slot snapshot " ++ path
  | malformed => "Failed to parse slot snapshot JSON"
  | unwritable path _ => "Failed to write slot snapshot to " ++ path

def SnapshotError.detail : SnapshotError → String
  | unwritable path cause => (unwritable path cause).message ++ ": " ++ cause.message
  | e => e.message

namespace Snapshot

variable {m : Type → Type} [Monad m]

def save (files : FileAccess m) (path : String) (s : Snapshot) : m (Except SnapshotError Unit) := do
  match ← files.write path (s.bytes .pretty) with
  | .ok () => pure (.ok ())
  | .error e => pure (.error (.unwritable path e))

def load (files : FileAccess m) (path : String) : m (Except SnapshotError Snapshot) := do
  match (← files.read path).toOption.bind Text.decodeAll? with
  | none => pure (.error (.unreadable path))
  | some cs =>
    match read? (String.ofList cs) with
    | some s => pure (.ok s)
    | none => pure (.error .malformed)

end Snapshot

end PlayerSlots
