/-! # Arguments of the program

`Invocation.ofArguments` reads the arguments from left to right. Each option may occur once. The
value of an option is the next argument, which may not look like an option itself, or stands in the
same argument, after an equals sign or, for an option of one letter, without one.
-/

namespace PlayerSlots
set_option autoImplicit false

structure Options where
  settings : Option String := none
  logLevel : Option String := none
  /-- Whether devices are connected at the console instead of by a registry. -/
  simulate : Bool := false
  listDevices : Bool := false
deriving DecidableEq, Repr

inductive OptionName where
  | settings
  | logLevel
  | simulate
  | listDevices
  | help
  | version
deriving DecidableEq, Repr

namespace OptionName

/-- The option that a word after two hyphens stands for. -/
def ofWord? : String → Option OptionName
  | "config" => some settings
  | "log-level" => some logLevel
  | "simulate" => some simulate
  | "list-devices" => some listDevices
  | "help" => some help
  | "version" => some version
  | _ => none

/-- The option that a letter after one hyphen stands for. -/
def ofLetter? : Char → Option OptionName
  | 'c' => some settings
  | 'l' => some logLevel
  | 'h' => some help
  | 'V' => some version
  | _ => none

def hasValue : OptionName → Bool
  | settings | logLevel => true
  | _ => false

end OptionName

inductive Invocation where
  | run (options : Options)
  | help
  | version
  | refused
deriving DecidableEq, Repr

namespace Options

/-- Sets an option without a value, unless it is set already. -/
def switch? (o : Options) : OptionName → Option Options
  | .simulate => if o.simulate then none else some { o with simulate := true }
  | .listDevices => if o.listDevices then none else some { o with listDevices := true }
  | _ => none

/-- Gives an option a value, unless it has one already. A path must not be empty. -/
def assign? (o : Options) (value : String) : OptionName → Option Options
  | .settings =>
    if o.settings.isSome ∨ value = "" then none else some { o with settings := some value }
  | .logLevel => if o.logLevel.isSome then none else some { o with logLevel := some value }
  | _ => none

end Options

inductive Argument where
  /-- An option, and the value that stands in the same argument. -/
  | option (name : OptionName) (value : Option String)
  | endOfOptions
  | other
deriving DecidableEq, Repr

namespace Argument

/-- An option without a value, where letters after it are further options. -/
def ofLetters : List Char → List Argument
  | [] => []
  | c :: rest =>
    match OptionName.ofLetter? c with
    | none => [other]
    | some name =>
      if name.hasValue then
        match rest with
        | [] => [option name none]
        | '=' :: value => [option name (some (String.ofList value))]
        | value => [option name (some (String.ofList value))]
      else option name none :: ofLetters rest

/-- What a word of the command line is. -/
def ofWord (word : String) : List Argument :=
  match word.toList with
  | ['-', '-'] => [endOfOptions]
  | '-' :: '-' :: cs =>
    let value := (cs.dropWhile (· ≠ '=')).tail
    match OptionName.ofWord? (String.ofList (cs.takeWhile (· ≠ '='))) with
    | some name => [option name (if '=' ∈ cs then some (String.ofList value) else none)]
    | none => [other]
  | '-' :: c :: cs => ofLetters (c :: cs)
  | _ => [other]

end Argument

def isValueWord (word : String) : Bool := word.toList.head? != some '-' || word == "-"

namespace Invocation

/-- The rest of the arguments in one word. Yields an option that still waits for its value. -/
def ofParts (o : Options) : List Argument → Except Invocation (Options × Option OptionName)
  | [] => .ok (o, none)
  | .option .help value :: _ => .error (if value.isNone then help else refused)
  | .option .version value :: _ => .error (if value.isNone then version else refused)
  | .option name none :: rest =>
    if name.hasValue then .ok (o, some name)
    else
      match o.switch? name with
      | some o => ofParts o rest
      | none => .error refused
  | .option name (some value) :: rest =>
    match o.assign? value name with
    | some o => ofParts o rest
    | none => .error refused
  | _ :: _ => .error refused

def ofWords (o : Options) : List String → Invocation
  | [] => run o
  | [word] =>
    match Argument.ofWord word with
    | [.endOfOptions] => run o
    | parts =>
      match ofParts o parts with
      | .ok (o, none) => run o
      | .ok (_, some _) => refused
      | .error i => i
  | word :: next :: rest =>
    match ofParts o (Argument.ofWord word) with
    | .ok (o, none) => ofWords o (next :: rest)
    | .ok (o, some name) =>
      if isValueWord next then
        match o.assign? next name with
        | some o => ofWords o rest
        | none => refused
      else refused
    | .error i => i

def ofArguments (arguments : List String) : Invocation := ofWords {} arguments

end Invocation

end PlayerSlots
