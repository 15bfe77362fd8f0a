import PlayerSlots.Text.Blank

/-! # Console commands

A line at the console is a verb and its arguments, with blanks between them. A line of blanks is no
command.
-/

namespace PlayerSlots
set_option autoImplicit false

inductive ConsoleCommand where
  | connect (id name : String)
  | disconnect (id : String)
  | table
  | devices
  | refresh
  | write (path : String)
  | help
  | quit
deriving DecidableEq, Repr

inductive ConsoleError where
  | usage (form : String)
  | unknown (verb : String)
deriving DecidableEq, Repr

def ConsoleError.message : ConsoleError → String
  | usage form => "usage: " ++ form
  | unknown verb => "unknown command: " ++ verb ++ " (try 'help')"

namespace ConsoleCommand

/-- The name of a device that is connected without one. -/
def defaultName : String := "Generic Gamepad"

/-- A verb with its first argument, or the form that it should have. -/
def withArgument (form : String) (make : String → List String → ConsoleCommand) :
    List String → Except ConsoleError (Option ConsoleCommand)
  | [] => .error (.usage form)
  | a :: more => .ok (some (make a more))

/-- The command of some words. Words that a command does not need are ignored. -/
def ofWords : List String → Except ConsoleError (Option ConsoleCommand)
  | [] => .ok none
  | verb :: arguments =>
    match verb with
    | "connect" | "c" =>
      withArgument "connect <id> [name...]"
        (fun id name =>
          connect id (if name = [] then defaultName else String.intercalate " " name)) arguments
    | "disconnect" | "d" => withArgument "disconnect <id>" (fun id _ => disconnect id) arguments
    | "show" | "s" => .ok (some table)
    | "devices" => .ok (some devices)
    | "refresh" => .ok (some refresh)
    | "export" => withArgument "export <file.json>" (fun path _ => write path) arguments
    | "help" | "?" => .ok (some help)
    | "quit" | "exit" => .ok (some quit)
    | _ => .error (.unknown verb)

def ofLine (line : String) : Except ConsoleError (Option ConsoleCommand) :=
  ofWords ((Text.words line.toList).map String.ofList)

end ConsoleCommand

end PlayerSlots
