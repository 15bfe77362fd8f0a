import PlayerSlots.Json.Numeral

/-! # JSON documents

A `Json` is a document as it is written: numbers are numerals, and a string is `none` where its
escapes or bytes form no text. Such a string can be skipped, but not read. Objects keep all their
fields in the order in which they are written.
-/

namespace PlayerSlots
set_option autoImplicit false

inductive Json where
  | null
  | bool (b : Bool)
  | number (n : Numeral)
  | text (s : Option String)
  | array (elements : List Json)
  | object (fields : List (Option String × Json))
deriving Repr, Inhabited

namespace Json

def str (s : String) : Json := text (some s)

def int (n : Int) : Json := number (.ofInt n)

def nat (n : Nat) : Json := int n

/-- An object with readable names. -/
def record (fields : List (String × Json)) : Json := object (fields.map fun f => (some f.1, f.2))

mutual

/-- How deeply arrays and objects are nested. -/
def depth : Json → Nat
  | array elements => depthElements elements + 1
  | object fields => depthFields fields + 1
  | _ => 0

def depthElements : List Json → Nat
  | [] => 0
  | j :: rest => max j.depth (depthElements rest)

def depthFields : List (Option String × Json) → Nat
  | [] => 0
  | (_, j) :: rest => max j.depth (depthFields rest)

end

mutual

/-- Whether every string can be read and every number has a value. -/
def isReadable : Json → Bool
  | number n => n.value?.isSome
  | text s => s.isSome
  | array elements => readableElements elements
  | object fields => readableFields fields
  | _ => true

def readableElements : List Json → Bool
  | [] => true
  | j :: rest => j.isReadable && readableElements rest

def readableFields : List (Option String × Json) → Bool
  | [] => true
  | (name, j) :: rest => name.isSome && j.isReadable && readableFields rest

end

end Json

end PlayerSlots
