import PlayerSlots.Numeric.Digit
import PlayerSlots.Numeric.Hexadecimal
import PlayerSlots.Yaml.Node

/-! # Values from YAML

The common ways to read a value from a node of a document. Aliases count as what they stand for.

* Truth values and numbers are plain scalars, or literal ones with the tag of their kind.
* A name of a fixed set is a scalar in any style, or the tag of a node without a value.
* A structure is a mapping with scalar keys, or left out. Fields that it does not have are skipped,
  one that it has may occur only once.
-/

namespace PlayerSlots.Yaml
set_option autoImplicit false

namespace Node

/-- The text of a scalar that may stand for a value of some kind. -/
def valueText? (kind : String) : Node → Option String
  | scalar _ .plain text => some text
  | scalar p .literal text => if p.tag = some ("tag:yaml.org,2002:" ++ kind) then some text else none
  | _ => none

/-- Whether a node leaves a value out. -/
def isLeftOut : Node → Bool
  | scalar _ .plain text => text.isEmpty
  | _ => false

def isNull (n : Node) : Bool :=
  match n.valueText? "null" with
  | some text => text.isEmpty || text == "~" || text == "null" || text == "Null" || text == "NULL"
  | none => false

end Node

/-! ## Scalars -/

/-- A truth value in small letters, in capitals, or with one capital. -/
def boolOfText? (text : String) : Option Bool :=
  if ["true", "True", "TRUE"].contains text then some true
  else if ["false", "False", "FALSE"].contains text then some false
  else none

def digitsValue? (base : Nat) (cs : List Char) : Option Nat := do
  let digits ← cs.mapM hexDigit?
  if digits ≠ [] ∧ digits.all (· < base) then
    some (digits.foldl (fun n d => n * base + d) 0)
  else none

/-- A natural number: decimal without leading zeros, or hexadecimal, octal or binary after `0x`,
`0o` or `0b`; a plus sign may stand before it. -/
def natOfText? (text : String) : Option Nat :=
  let cs := text.toList
  match if cs.head? = some '+' then cs.tail else cs with
  | '0' :: 'x' :: rest => digitsValue? 16 rest
  | '0' :: 'o' :: rest => digitsValue? 8 rest
  | '0' :: 'b' :: rest => digitsValue? 2 rest
  | ['0'] => some 0
  | '0' :: _ => none
  | rest => digitsValue? 10 rest

namespace Document

def asBool? (d : Document) (n : Node) : Option Bool := do
  boolOfText? (← (← d.resolve? n).valueText? "bool")

def asNat? (bound : Nat) (d : Document) (n : Node) : Option Nat := do
  let i ← natOfText? (← (← d.resolve? n).valueText? "int")
  if i < bound then some i else none

/-- A scalar in any style. -/
def asText? (d : Document) (n : Node) : Option String := do
  match ← d.resolve? n with
  | .scalar _ _ text => some text
  | _ => none

/-- One of some names. -/
def choice? {α : Type} (names : List (String × α)) (d : Document) (n : Node) : Option α := do
  match ← d.resolve? n with
  | .scalar p style text =>
    match p.tag.map String.toList with
    | some ('!' :: own) =>
      if (Node.scalar {} style text).isNull then names.lookup (String.ofList own) else none
    | _ => names.lookup text
  | _ => none

/-- The members of a structure with the given field names. -/
def members? (names : List String) (d : Document) (n : Node) : Option (List (String × Node)) := do
  match ← d.resolve? n with
  | .mapping _ fields =>
    let named ← fields.mapM fun (k, v) => do some (← d.asText? k, v)
    let known := named.filter (·.1 ∈ names)
    if (known.map (·.1)).Nodup then some known else none
  | n => if n.isLeftOut then some [] else none

def optional? {α : Type} (members : List (String × Node)) (name : String) (default : α)
    (decode : Node → Option α) : Option α :=
  match members.lookup name with
  | some n => decode n
  | none => some default

end Document

end PlayerSlots.Yaml
