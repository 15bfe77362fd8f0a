import PlayerSlots.Numeric.Digit
import PlayerSlots.Numeric.Hexadecimal
import PlayerSlots.Text.Utf8
import PlayerSlots.Yaml.Glyph
import PlayerSlots.Yaml.Token

/-! # YAML names, tags and directives

The words that start with `&`, `*`, `!` and `%`. Each function gets the glyphs after that character
and yields a token and the glyphs that follow.
-/

namespace PlayerSlots.Yaml
set_option autoImplicit false

/-! ## Names -/

/-- A character that names may consist of. -/
def isNameChar (c : Char) : Bool := c.isAlphanum || c == '_' || c == '-'

/-- The longest name at the start of a text; empty if there is none. -/
def name (gs : List Glyph) : String :=
  String.ofList ((gs.takeWhile (isNameChar ·.char)).map (·.char))

/-- What follows the longest name at the start of a text. -/
def afterName (gs : List Glyph) : List Glyph := gs.dropWhile (isNameChar ·.char)

/-- The name of an anchor. Only a blank, a line break or one of some indicators may follow it. -/
def anchorName? (gs : List Glyph) : Option (String × List Glyph) :=
  let rest := afterName gs
  if name gs ≠ "" ∧ (wordEndsAt rest 0 ∨ "?:,]\x7d%@`".toList.any (startsWith · rest)) then
    some (name gs, rest)
  else none

/-! ## Tags -/

/-- A character that the rest of a tag may hold; some more are allowed in brackets. -/
def isTagChar (bracketed : Bool) (c : Char) : Bool :=
  isNameChar c || ";/?:@&=+$.!~*'()".toList.contains c || (bracketed && ",[]".toList.contains c)

/-- How many octets follow the first octet of a character. -/
def followers? (octet : Nat) : Option Nat :=
  if octet < 0x80 then some 0
  else if 0xC0 ≤ octet ∧ octet < 0xE0 then some 1
  else if 0xE0 ≤ octet ∧ octet < 0xF0 then some 2
  else if 0xF0 ≤ octet ∧ octet < 0xF8 then some 3
  else none

/-- The octets of part of a tag, some of which may be escaped. `missing` octets of a character that
has started are still to come. -/
def tagOctets? (bracketed : Bool) (missing : Nat) : List Glyph → Option (List UInt8 × List Glyph)
  | [] => if missing = 0 then some ([], []) else none
  | g :: rest =>
    if g.char = '%' then
      match rest with
      | a :: b :: rest => do
        let octet := (← hexDigit? a.char) * 16 + (← hexDigit? b.char)
        let missing ←
          if missing = 0 then followers? octet
          else if 0x80 ≤ octet ∧ octet < 0xC0 then some (missing - 1)
          else none
        let (octets, after) ← tagOctets? bracketed missing rest
        some (.ofNat octet :: octets, after)
      | _ => none
    else if missing ≠ 0 then none
    else if isTagChar bracketed g.char then do
      let (octets, after) ← tagOctets? bracketed 0 rest
      some (.ofNat g.char.toNat :: octets, after)
    else some ([], g :: rest)

/-- The text of octets; what is no character becomes the replacement character. -/
def tagText (octets : List UInt8) : String :=
  String.ofList ((Text.decode octets).map (·.getD (Char.ofNat 0xFFFD)))

/-- Part of a tag, which may be empty. -/
def tagPart? (bracketed : Bool) (gs : List Glyph) : Option (String × List Glyph) := do
  let (octets, rest) ← tagOctets? bracketed 0 gs
  some (tagText octets, rest)

/-- Part of a tag that is not empty. -/
def tagPartSome? (bracketed : Bool) (gs : List Glyph) : Option (String × List Glyph) := do
  let (text, rest) ← tagPart? bracketed gs
  if text = "" then none else some (text, rest)

/-- A tag up to what follows it: in full between angle brackets, after a handle, or local. The tag
of one exclamation mark stands for itself. -/
def tagWord? (gs : List Glyph) : Option (Token × List Glyph) :=
  if startsWith '<' gs then do
    let (text, rest) ← tagPartSome? true (gs.drop 1)
    if startsWith '>' rest then some (.tag "" text, rest.drop 1) else none
  else if startsWith '!' (afterName gs) then do
    let (text, rest) ← tagPartSome? false ((afterName gs).drop 1)
    some (.tag ("!" ++ name gs ++ "!") text, rest)
  else do
    let (text, rest) ← tagPart? false (afterName gs)
    let own := name gs ++ text
    some (if own = "" then .tag "" "!" else .tag "!" own, rest)

/-- A tag, which a blank or a line break must follow; inside flow collections a comma may, too. -/
def tag? (flow : Bool) (gs : List Glyph) : Option (Token × List Glyph) := do
  let (t, rest) ← tagWord? gs
  if wordEndsAt rest 0 ∨ (flow ∧ startsWith ',' rest) then some (t, rest) else none

/-! ## Directives -/

def dropBlanks (gs : List Glyph) : List Glyph := gs.dropWhile (isBlank ·.char)

def number? (gs : List Glyph) : Option (Nat × List Glyph) :=
  let digits := (gs.takeWhile (·.char.isDigit)).filterMap (Digit.ofChar? ·.char)
  if 1 ≤ digits.length ∧ digits.length ≤ 9 then
    some (valueOf digits, gs.dropWhile (·.char.isDigit))
  else none

def version? (gs : List Glyph) : Option (Token × List Glyph) := do
  let (major, rest) ← number? (dropBlanks gs)
  if startsWith '.' rest then
    let (minor, rest) ← number? (rest.drop 1)
    some (.version major minor, rest)
  else none

/-- The handle in a directive, and what it stands for. -/
def handle? (gs : List Glyph) : Option (Token × List Glyph) := do
  let gs := dropBlanks gs
  if startsWith '!' gs then
    let named := gs.drop 1
    let (handle, rest) ←
      if startsWith '!' (afterName named) then
        some ("!" ++ name named ++ "!", (afterName named).drop 1)
      else if name named = "" then some ("!", named)
      else none
    if rest.head?.any (isBlank ·.char) then
      let (expansion, rest) ← tagPartSome? true (dropBlanks rest)
      if wordEndsAt rest 0 then some (.handle handle expansion, rest) else none
    else none
  else none

/-- A directive, which ends with its line. -/
def directive? (gs : List Glyph) : Option (Token × List Glyph) := do
  let rest := afterName gs
  if wordEndsAt rest 0 then
    let (t, rest) ←
      if name gs = "YAML" then version? rest
      else if name gs = "TAG" then handle? rest
      else none
    some (t, ← restOfLine? rest)
  else none

end PlayerSlots.Yaml
