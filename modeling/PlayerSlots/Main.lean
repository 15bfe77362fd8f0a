import PlayerSlots.Application
import Std.Time.DateTime.Timestamp

/-! # The command line

Reads the arguments, starts the program, and hands lines from the standard input to it. A change of
the settings file is noticed before each line.
-/

namespace PlayerSlots.Main
set_option autoImplicit false

def causeOf (e : IO.Error) : FileError :=
  match e with
  | .noFileOrDirectory .. => .missing
  | .alreadyExists .. => .alreadyThere
  | .inappropriateType .. => .isDirectory
  | e => .other (toString e)

/-- An operation that may fail. -/
def attempt {α : Type} (action : IO α) : IO (Except FileError α) := do
  try pure (.ok (← action))
  catch e => pure (.error (causeOf e))

def files : FileAccess IO where
  read path := attempt do pure (← IO.FS.readBinFile path).toList
  write path bytes := attempt (IO.FS.writeBinFile path ⟨bytes.toArray⟩)
  isPresent path := (System.mkFilePath [path]).pathExists
  isDirectory path := (System.mkFilePath [path]).isDir
  makeDirectories path := attempt (IO.FS.createDirAll path)

def currentTime : IO Nat := do
  pure (← Std.Time.Timestamp.now).toMillisecondsSinceUnixEpoch.toInt.toNat

/-- What decides where everything is kept. -/
def surroundings : IO Surroundings := do
  let program ← IO.appPath
  pure
    { workingDirectory := (← IO.currentDir).toString
      programDirectory := (Path.parent? program.toString).getD "."
      home := (← IO.getEnv "HOME").getD ""
      data := ← IO.getEnv "XDG_DATA_HOME" }

def refresh (a : Application) : IO Application := do
  let now ← currentTime
  let a := (← a.reload files now).tick now
  a.store files
  pure a

/-- Serves the lines of an input. Yields whether all were text. -/
partial def serveLines (input : IO.FS.Stream) (a : Application) : IO (Application × Bool) := do
  let read : Option String ← try pure (some (← input.getLine)) catch _ => pure none
  let a ← refresh a
  -- only the end of the input reads as an empty line
  if read = some "" then pure (a, true)
  else
    let (a, c) ← a.serveLine files (← currentTime) read
    IO.print (Console.textOf c.printed)
    if c.continues then serveLines input a else pure (a, c.readable)

/-- Follows the settings file until the program is interrupted. -/
partial def watchSettings (a : Application) : IO Unit := do
  IO.sleep 250
  watchSettings (← refresh a)

def run (options : Options) : IO UInt32 := do
  match ← Application.start files (← surroundings) options with
  | .error e =>
    IO.eprintln e.message
    pure e.exitCode
  | .ok a =>
    if options.simulate then
      IO.print (Console.textOf Console.helpLines)
      let (a, readable) ← serveLines (← IO.getStdin) a
      let _ ← a.finish files (← currentTime)
      pure (if readable then 0 else 1)
    else
      watchSettings (a.serve (← currentTime) (RegistryEvent.snapshot []).command)
      pure 0

def usage : String :=
  "Usage: padslots [--config <FILE>] [--log-level <LEVEL>] [--simulate] [--list-devices]"

end PlayerSlots.Main

def main (arguments : List String) : IO UInt32 := do
  match PlayerSlots.Invocation.ofArguments arguments with
  | .refused =>
    IO.eprintln PlayerSlots.Main.usage
    pure 2
  | .help | .version =>
    IO.println PlayerSlots.Main.usage
    pure 0
  | .run options =>
    if options.listDevices then
      IO.print (PlayerSlots.Console.textOf (PlayerSlots.Console.gamepadLines []))
      pure 0
    else PlayerSlots.Main.run options
