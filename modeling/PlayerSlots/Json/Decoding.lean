import PlayerSlots.Json.Basic

/-! # Values from JSON

The common ways to read a value from a document.

* Integers come from numerals without fraction and exponent alone; floating-point numbers from any
  numeral.
* A name of a fixed set is written as a string, or as an object with the name as its only field
  (`choice?`).
* A structure is written as an object, or as an array of its fields in order (`members?`). Fields
  that it does not have are skipped, one that it has may occur only once.
-/

namespace PlayerSlots
set_option autoImplicit false

namespace Json

def asText? : Json → Option String
  | text s => s
  | _ => none

def asBool? : Json → Option Bool
  | bool b => some b
  | _ => none

def asInt? : Json → Option Int
  | number n =>
    match n.value? with
    | some (.integer i) => some i
    | _ => none
  | _ => none

def asNat? (bound : Nat) (j : Json) : Option Nat := do
  let i ← j.asInt?
  if 0 ≤ i ∧ i < bound then some i.toNat else none

/-- A floating-point number. An integer is rounded in one step, any other numeral by way of double
precision. -/
def asFloating? {f : BinaryFormat} : Json → Option (Floating f)
  | number n =>
    match n.value? with
    | some (.integer i) => some (.ofInt i)
    | some (.real x) => some x.convert
    | none => none
  | _ => none

def asList? {α : Type} (decode : Json → Option α) : Json → Option (List α)
  | array elements => elements.mapM decode
  | _ => none

/-- One of some names. The value beside the name in an object must be of a given kind. -/
def choice? {α : Type} (isUnit : Json → Bool) (names : List (String × α)) : Json → Option α
  | text (some name) => names.lookup name
  | object [(some name, j)] => if isUnit j then names.lookup name else none
  | _ => none

/-- The value beside a name: `null`. -/
def isNull : Json → Bool
  | null => true
  | _ => false

/-- The value beside a name where it has been kept for later: `null` or an empty object. -/
def isEmptyUnit : Json → Bool
  | null => true
  | object [] => true
  | _ => false

/-- The members of a structure with the given field names that a document has. -/
def members? (names : List String) : Json → Option (List (String × Json))
  | object fields => do
    let named ← fields.mapM fun (name, j) => name.map (·, j)
    let known := named.filter (·.1 ∈ names)
    if (known.map (·.1)).Nodup then some known else none
  | array elements => if elements.length ≤ names.length then some (names.zip elements) else none
  | _ => none

/-- A member that has to be there. -/
def required? {α : Type} (members : List (String × Json)) (name : String)
    (decode : Json → Option α) : Option α := do
  decode (← members.lookup name)

/-- A member with a default. -/
def optional? {α : Type} (members : List (String × Json)) (name : String) (default : α)
    (decode : Json → Option α) : Option α :=
  match members.lookup name with
  | some j => decode j
  | none => some default

/-- A finite floating-point number in the shortest form, an infinite one as `null`. -/
def floating {f : BinaryFormat} (style : Numeral.DecimalStyle) (x : Floating f) : Json :=
  if x.IsFinite then number (.ofFloating style x) else null

/-- The bound of 64-bit words. -/
def wordBound : Nat := UInt64.size

def asWord32? (j : Json) : Option UInt32 := do
  some (.ofNat (← j.asNat? UInt32.size))

def asInt64? (j : Json) : Option Int := do
  let i ← j.asInt?
  if -0x8000000000000000 ≤ i ∧ i < 0x8000000000000000 then some i else none

end Json

end PlayerSlots
