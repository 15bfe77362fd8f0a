/-! # The characters of a YAML text

A YAML text is read as a list of `Glyph`s: characters with the places at which they stand, since
both columns and lines carry meaning. A line break is one glyph, however it is written.

* `glyphs?`: the glyphs of a text, unless it holds a control character.
* `wordEndsAt`, `isDocumentMark`: what a few glyphs ahead decide.
* `restOfLine?`: what follows a line with nothing but blanks and a comment left.
-/

namespace PlayerSlots.Yaml
set_option autoImplicit false

structure Glyph where
  char : Char
  /-- How many characters stand before it in the text. -/
  index : Nat
  line : Nat
  /-- How many characters stand before it in its line. -/
  column : Nat
deriving DecidableEq, Repr

/-- A blank inside a line. -/
def isBlank (c : Char) : Bool := c == ' ' || c == '\t'

/-- The separators U+2028 and U+2029, which end a line or a paragraph. -/
def isSeparator (c : Char) : Bool := c.toNat == 0x2028 || c.toNat == 0x2029

/-- A character that ends a line. -/
def isBreak (c : Char) : Bool := c == '\n' || c == '\r' || c.toNat == 0x85 || isSeparator c

/-- Characters that a text may hold: no control characters but tabs and line breaks. -/
def isAllowed (c : Char) : Bool :=
  let n := c.toNat
  c == '\t' || c == '\n' || c == '\r' || (0x20 ≤ n && n ≤ 0x7E) || n == 0x85 ||
    (0xA0 ≤ n && n ≤ 0xFFFD) || 0x10000 ≤ n

/-- The mark that may stand at the start of a line and is skipped there. -/
def byteOrderMark : Char := Char.ofNat 0xFEFF

/-- The glyphs of a text that starts at some place. Line breaks other than separators become line
feeds; a carriage return with the line feed that follows is one. -/
def glyphsFrom (index line column : Nat) : List Char → List Glyph
  | [] => []
  | '\r' :: '\n' :: rest => ⟨'\n', index, line, column⟩ :: glyphsFrom (index + 2) (line + 1) 0 rest
  | c :: rest =>
    if isBreak c then
      ⟨if isSeparator c then c else '\n', index, line, column⟩ ::
        glyphsFrom (index + 1) (line + 1) 0 rest
    else ⟨c, index, line, column⟩ :: glyphsFrom (index + 1) line (column + 1) rest

/-- The glyphs of a text, unless it holds a character that is not allowed. -/
def glyphs? (cs : List Char) : Option (List Glyph) :=
  if cs.all isAllowed then some (glyphsFrom 0 0 0 cs) else none

def startsWith (c : Char) (gs : List Glyph) : Bool := (gs.head?.map (·.char)) == some c

/-- Whether a blank, a line break or the end of the text stands `n` glyphs ahead. -/
def wordEndsAt (gs : List Glyph) (n : Nat) : Bool :=
  match gs[n]? with
  | some g => isBlank g.char || isBreak g.char
  | none => true

/-- Whether a line starts with three times the same character and nothing more in that word: with
hyphens a document starts, with full stops it ends. -/
def isMark (c : Char) (gs : List Glyph) : Bool :=
  (gs.head?.map (·.column)) == some 0 && (gs.take 3).map (·.char) == [c, c, c] && wordEndsAt gs 3

def isDocumentMark (gs : List Glyph) : Bool := isMark '-' gs || isMark '.' gs

/-- What follows the line break or comment that ends a line, if there is nothing else before. -/
def restOfLine? (gs : List Glyph) : Option (List Glyph) :=
  let gs := gs.dropWhile (isBlank ·.char)
  match if startsWith '#' gs then gs.dropWhile (!isBreak ·.char) else gs with
  | [] => some []
  | g :: rest => if isBreak g.char then some rest else none

end PlayerSlots.Yaml
