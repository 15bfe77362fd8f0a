import PlayerSlots.Json.Token

/-! # Reading JSON

`Json.read?` builds the document of a text. It takes one token at a time and keeps the containers
that are still open in a stack of `Frame`s, so it takes any depth.
-/

namespace PlayerSlots.Json
set_option autoImplicit false

/-- A container that is still open: what it holds so far, the last first. -/
inductive Frame where
  | array (elements : List Json)
  /-- An object, and the name of the field whose value comes next. -/
  | object (fields : List (Option String × Json)) (name : Option String)
deriving Repr

/-- What may come next. -/
inductive Expect where
  | value
  /-- A value, or the end of an empty array. -/
  | firstElement
  /-- A name, or the end of an empty object. -/
  | firstField
  | name
  | colon
  /-- What follows a value: a comma or the end of its container, or the end of the text. -/
  | after (value : Json)
deriving Repr

structure Reading where
  frames : List Frame
  expect : Expect
deriving Repr

namespace Reading

def complete (frames : List Frame) (j : Json) : Option Reading := some ⟨frames, .after j⟩

/-- A token where a value may start. -/
def startValue (frames : List Frame) : Token → Option Reading
  | .null => complete frames .null
  | .bool b => complete frames (.bool b)
  | .number n => complete frames (.number n)
  | .text s => complete frames (.text s)
  | .openArray => some ⟨.array [] :: frames, .firstElement⟩
  | .openObject => some ⟨.object [] none :: frames, .firstField⟩
  | _ => none

/-- A token where a name may start. -/
def startField (frames : List Frame) (t : Token) : Option Reading :=
  match frames, t with
  | .object fields _ :: frames, .text name => some ⟨.object fields name :: frames, .colon⟩
  | _, _ => none

/-- A token after a value. -/
def afterValue (frames : List Frame) (j : Json) (t : Token) : Option Reading :=
  match frames, t with
  | .array elements :: frames, .comma => some ⟨.array (j :: elements) :: frames, .value⟩
  | .array elements :: frames, .closeArray => complete frames (.array (j :: elements).reverse)
  | .object fields name :: frames, .comma => some ⟨.object ((name, j) :: fields) none :: frames, .name⟩
  | .object fields name :: frames, .closeObject =>
    complete frames (.object ((name, j) :: fields).reverse)
  | _, _ => none

def step (r : Reading) (t : Token) : Option Reading :=
  match r.expect with
  | .value => startValue r.frames t
  | .firstElement =>
    match r.frames, t with
    | .array _ :: frames, .closeArray => complete frames (.array [])
    | frames, t => startValue frames t
  | .firstField =>
    match r.frames, t with
    | .object _ _ :: frames, .closeObject => complete frames (.object [])
    | frames, t => startField frames t
  | .name => startField r.frames t
  | .colon => if t = .colon then some ⟨r.frames, .value⟩ else none
  | .after j => afterValue r.frames j t

/-- The value that has been read, at the end of the text. -/
def finish? (r : Reading) : Option Json :=
  match r.frames, r.expect with
  | [], .after j => some j
  | _, _ => none

end Reading

def ofTokens? (tokens : List Token) : Option Json := do
  let r ← tokens.foldlM Reading.step ⟨[], .value⟩
  r.finish?

/-- The document of a text in which `none` stands for a byte that belongs to no character. -/
def read? (cs : List (Option Char)) : Option Json := do
  ofTokens? (← Token.lex? cs)

def parse? (s : String) : Option Json := read? (s.toList.map some)

end PlayerSlots.Json
