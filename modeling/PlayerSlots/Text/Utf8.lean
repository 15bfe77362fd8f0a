/-! # UTF-8

`encode` writes characters as bytes. `decode` splits bytes into characters. A byte that belongs to
no character stands as `none`, so text with stray bytes can still be read around them. `decodeAll?`
accepts only bytes without any.
-/

namespace PlayerSlots.Text
set_option autoImplicit false

/-- The continuation byte with a payload. -/
def continuation (payload : Nat) : UInt8 := .ofNat (0x80 + payload % 64)

def encodeChar (c : Char) : List UInt8 :=
  let n := c.toNat
  if n < 0x80 then [.ofNat n]
  else if n < 0x800 then [.ofNat (0xC0 + n / 64), continuation n]
  else if n < 0x10000 then [.ofNat (0xE0 + n / 4096), continuation (n / 64), continuation n]
  else
    [.ofNat (0xF0 + n / 262144), continuation (n / 4096), continuation (n / 64), continuation n]

def encode (cs : List Char) : List UInt8 := cs.flatMap encodeChar

/-- The payload of a continuation byte. -/
def continuation? (b : UInt8) : Option Nat :=
  if 0x80 ≤ b.toNat ∧ b.toNat < 0xC0 then some (b.toNat - 0x80) else none

/-- The character with a code point that needs at least `least`. Surrogates are no characters. -/
def codePoint? (least n : Nat) : Option Char :=
  if h : least ≤ n ∧ n.isValidChar then some (Char.ofNatAux n h.2) else none

def oneByte? (a : UInt8) : Option Char :=
  if a.toNat < 0x80 then codePoint? 0 a.toNat else none

def twoBytes? (a b : UInt8) : Option Char :=
  if 0xC0 ≤ a.toNat ∧ a.toNat < 0xE0 then do
    codePoint? 0x80 ((a.toNat - 0xC0) * 64 + (← continuation? b))
  else none

def threeBytes? (a b c : UInt8) : Option Char :=
  if 0xE0 ≤ a.toNat ∧ a.toNat < 0xF0 then do
    codePoint? 0x800 ((a.toNat - 0xE0) * 4096 + (← continuation? b) * 64 + (← continuation? c))
  else none

def fourBytes? (a b c d : UInt8) : Option Char :=
  if 0xF0 ≤ a.toNat ∧ a.toNat < 0xF8 then do
    codePoint? 0x10000 ((a.toNat - 0xF0) * 262144 + (← continuation? b) * 4096
      + (← continuation? c) * 64 + (← continuation? d))
  else none

/-- The character that starts with a byte, and how many of the bytes that follow belong to it. -/
def character? (a : UInt8) (rest : List UInt8) : Option (Char × Nat) :=
  let one := (oneByte? a).map (·, 0)
  let two := do some (← twoBytes? a (← rest[0]?), 1)
  let three := do some (← threeBytes? a (← rest[0]?) (← rest[1]?), 2)
  let four := do some (← fourBytes? a (← rest[0]?) (← rest[1]?) (← rest[2]?), 3)
  one <|> two <|> three <|> four

/-- The characters of some bytes; `none` stands for a byte that belongs to no character. -/
def decode : List UInt8 → List (Option Char)
  | [] => []
  | a :: rest =>
    match character? a rest with
    | some (c, more) => some c :: decode (rest.drop more)
    | none => none :: decode rest
termination_by bytes => bytes.length

/-- The characters of some bytes, if all of them belong to characters. -/
def decodeAll? (bytes : List UInt8) : Option (List Char) := (decode bytes).mapM id

end PlayerSlots.Text
