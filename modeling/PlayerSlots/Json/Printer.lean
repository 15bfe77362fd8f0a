import PlayerSlots.Json.Basic
import PlayerSlots.Numeric.Hexadecimal

/-! # Writing JSON

`Json.render` writes a document, either without any blanks or with one element to a line, each level
indented by two blanks. Quotes, backslashes and control characters are escaped, all else is written
as it is.
-/

namespace PlayerSlots.Json
set_option autoImplicit false

inductive Style where
  /-- On one line, without blanks. -/
  | compact
  /-- One element to a line, indented. -/
  | pretty
deriving DecidableEq, Repr

namespace Style

/-- What stands before an element at some depth. -/
def lineBreak : Style → Nat → List Char
  | compact, _ => []
  | pretty, depth => '\n' :: List.replicate (2 * depth) ' '

def colon : Style → List Char
  | compact => [':']
  | pretty => [':', ' ']

end Style

def escape (c : Char) : List Char :=
  if c = '"' then ['\\', '"']
  else if c = '\\' then ['\\', '\\']
  else if c.toNat = 8 then ['\\', 'b']
  else if c.toNat = 12 then ['\\', 'f']
  else if c = '\n' then ['\\', 'n']
  else if c = '\r' then ['\\', 'r']
  else if c = '\t' then ['\\', 't']
  else if c.toNat < 0x20 then ['\\', 'u', '0', '0', hexDigit (c.toNat / 16), hexDigit (c.toNat % 16)]
  else [c]

/-- A string in quotes. -/
def quoted (s : String) : List Char := '"' :: s.toList.flatMap escape ++ ['"']

/-- A string in quotes, or `null` in place of one that cannot be read. -/
def quoted? (s : Option String) : List Char := (s.map quoted).getD ['n', 'u', 'l', 'l']

mutual

/-- The text of a document that stands at some depth. -/
def renderAt (style : Style) (depth : Nat) : Json → List Char
  | null => ['n', 'u', 'l', 'l']
  | bool true => ['t', 'r', 'u', 'e']
  | bool false => ['f', 'a', 'l', 's', 'e']
  | number n => n.render
  | text s => quoted? s
  | array [] => ['[', ']']
  | array (j :: rest) =>
    '[' :: style.lineBreak (depth + 1) ++ renderAt style (depth + 1) j
      ++ renderElements style (depth + 1) rest ++ style.lineBreak depth ++ [']']
  | object [] => ['\x7b', '\x7d']
  | object ((name, j) :: rest) =>
    '\x7b' :: style.lineBreak (depth + 1) ++ quoted? name ++ style.colon
      ++ renderAt style (depth + 1) j
      ++ renderFields style (depth + 1) rest ++ style.lineBreak depth ++ ['\x7d']

/-- The text of the elements after the first. -/
def renderElements (style : Style) (depth : Nat) : List Json → List Char
  | [] => []
  | j :: rest =>
    ',' :: style.lineBreak depth ++ renderAt style depth j ++ renderElements style depth rest

/-- The text of the fields after the first. -/
def renderFields (style : Style) (depth : Nat) : List (Option String × Json) → List Char
  | [] => []
  | (name, j) :: rest =>
    ',' :: style.lineBreak depth ++ quoted? name ++ style.colon ++ renderAt style depth j
      ++ renderFields style depth rest

end

def render (style : Style) (j : Json) : String := String.ofList (renderAt style 0 j)

end PlayerSlots.Json
