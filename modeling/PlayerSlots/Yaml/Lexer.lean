import PlayerSlots.Yaml.Scalar
import PlayerSlots.Yaml.Tag

/-! # Reading YAML tokens

`Token.lex?` splits a text into tokens. Two things make this more than a walk over the text:

* Blocks have no brackets. A token in a new column opens a block, one in a smaller column closes
  those that are indented further (`Lexer.openBlock`, `Lexer.closeBlocks`).
* A key is recognized at the colon after it. So for each level of nesting the place of a possible
  key is kept (`PossibleKey`), and its token is put in there when the colon comes.
-/

namespace PlayerSlots.Yaml
set_option autoImplicit false

/-- A place where a key may have started. -/
structure PossibleKey where
  /-- How many tokens stand before it. -/
  number : Nat
  index : Nat
  line : Nat
  column : Nat
  /-- Whether nothing but a key can stand there. -/
  required : Bool
deriving Repr

/-- How far a key may be from its colon. -/
def greatestKeyLength : Nat := 1024

/-- What has been read, and what is left. -/
structure Lexer where
  rest : List Glyph
  /-- The tokens, the last first. -/
  tokens : List Token := []
  count : Nat := 0
  /-- The columns of the open blocks, the innermost first. -/
  blocks : List Nat := []
  /-- The possible key at each level of flow collections, the innermost first. -/
  keys : List (Option PossibleKey) := [none]
  /-- Whether a key may start here. -/
  keyAllowed : Bool := true
deriving Repr

namespace Lexer

def inFlow (s : Lexer) : Bool := 1 < s.keys.length

/-- The least column of what belongs to the innermost block. -/
def inner (s : Lexer) : Nat :=
  match s.blocks with
  | [] => 0
  | column :: _ => column + 1

/-! ## Tokens and blocks -/

def push (t : Token) (s : Lexer) : Lexer := { s with tokens := t :: s.tokens, count := s.count + 1 }

/-- Puts a token in after the first `number` tokens. -/
def insert (number : Nat) (t : Token) (s : Lexer) : Lexer :=
  { s with tokens := s.tokens.insertIdx (s.count - number) t, count := s.count + 1 }

/-- Closes the blocks that stand at some column or beyond. -/
def closeBlocks (column : Nat) (s : Lexer) : Lexer :=
  if s.inFlow then s
  else
    let closed := s.blocks.takeWhile (column ≤ ·)
    { s with
      tokens := List.replicate closed.length .blockEnd ++ s.tokens
      count := s.count + closed.length
      blocks := s.blocks.dropWhile (column ≤ ·) }

/-- Opens a block at a column if it is indented further than those that are open. Its token goes
after the first `number` tokens. -/
def openBlock (column number : Nat) (t : Token) (s : Lexer) : Lexer :=
  if s.inFlow ∨ column < s.inner then s
  else { s with blocks := column :: s.blocks }.insert number t

/-! ## Possible keys -/

/-- Gives up the possible keys that are too far behind a glyph. None of them may be required. -/
def dropStaleKeys? (g : Glyph) (s : Lexer) : Option Lexer := do
  let keys ← s.keys.mapM fun
    | some k =>
      if k.line < g.line ∨ k.index + greatestKeyLength < g.index then
        if k.required then none else some none
      else some (some k)
    | none => some none
  some { s with keys }

/-- Sets the possible key of the innermost level. One that is required must not be given up. -/
def replaceKey? (key : Option PossibleKey) (s : Lexer) : Option Lexer :=
  match s.keys with
  | some k :: outer => if k.required then none else some { s with keys := key :: outer }
  | none :: outer => some { s with keys := key :: outer }
  | [] => some s

/-- Gives up the possible key of the innermost level. -/
def forgetKey? (s : Lexer) : Option Lexer := s.replaceKey? none

/-- Notes that a key may start at a glyph. -/
def noteKey? (g : Glyph) (s : Lexer) : Option Lexer :=
  if s.keyAllowed then
    s.replaceKey? (some
      { number := s.count, index := g.index, line := g.line, column := g.column
        required := !s.inFlow && s.blocks.head? == some g.column })
  else some s

/-! ## From one token to the next -/

/-- Skips blanks, comments and line breaks. Tabs count as blanks inside flow collections and where
no key may start. Outside flow collections a key may start in a new line. -/
def skipFrom (inFlow : Bool) (allowed inComment : Bool) : List Glyph → Bool × List Glyph
  | [] => (allowed, [])
  | g :: rest =>
    if isBreak g.char then skipFrom inFlow (allowed || !inFlow) false rest
    else if inComment then skipFrom inFlow allowed true rest
    else if g.char = ' ' ∨ (g.char = '\t' ∧ (inFlow ∨ ¬allowed))
        ∨ (g.char = byteOrderMark ∧ g.column = 0) then
      skipFrom inFlow allowed false rest
    else if g.char = '#' then skipFrom inFlow allowed true rest
    else (allowed, g :: rest)

/-- Skips to the next token. -/
def skip (s : Lexer) : Lexer :=
  let (keyAllowed, rest) := skipFrom s.inFlow s.keyAllowed false s.rest
  { s with keyAllowed, rest }

/-! ## One token -/

/-- A token that stands outside all blocks: a directive, or the start or end of a document. -/
def outside? (t : Token) (rest : List Glyph) (s : Lexer) : Option Lexer := do
  let s ← (s.closeBlocks 0).forgetKey?
  some ({ s with keyAllowed := false, rest }.push t)

def openFlow? (t : Token) (g : Glyph) (rest : List Glyph) (s : Lexer) : Option Lexer := do
  let s ← s.noteKey? g
  some ({ s with keys := none :: s.keys, keyAllowed := true, rest }.push t)

def closeFlow? (t : Token) (rest : List Glyph) (s : Lexer) : Option Lexer := do
  let s ← s.forgetKey?
  let keys := if s.inFlow then s.keys.tail else s.keys
  some ({ s with keys, keyAllowed := false, rest }.push t)

def separator? (rest : List Glyph) (s : Lexer) : Option Lexer := do
  let s ← s.forgetKey?
  some ({ s with keyAllowed := true, rest }.push .separator)

/-- Opens a block for a token at a glyph, outside flow collections and only where a key may
start. -/
def startBlock? (t : Token) (g : Glyph) (s : Lexer) : Option Lexer :=
  if s.inFlow then some s
  else if s.keyAllowed then some (s.openBlock g.column s.count t)
  else none

def entry? (g : Glyph) (rest : List Glyph) (s : Lexer) : Option Lexer := do
  let s ← (← s.startBlock? .blockSequenceStart g).forgetKey?
  some ({ s with keyAllowed := true, rest }.push .entry)

def key? (g : Glyph) (rest : List Glyph) (s : Lexer) : Option Lexer := do
  let s ← (← s.startBlock? .blockMappingStart g).forgetKey?
  some ({ s with keyAllowed := !s.inFlow, rest }.push .key)

/-- The colon before a value. If a key is possible before it, that is one. -/
def value? (g : Glyph) (rest : List Glyph) (s : Lexer) : Option Lexer :=
  match s.keys with
  | some k :: outer =>
    let s := { s with keys := none :: outer, keyAllowed := false, rest }
    some (((s.insert k.number .key).openBlock k.column k.number .blockMappingStart).push .value)
  | _ => do
    let s ← s.startBlock? .blockMappingStart g
    some ({ s with keyAllowed := !s.inFlow, rest }.push .value)

/-- A word that may start a key. -/
def word? (g : Glyph) (t : Token) (rest : List Glyph) (s : Lexer) : Option Lexer := do
  let s ← s.noteKey? g
  some ({ s with keyAllowed := false, rest }.push t)

def quotedWord? (double : Bool) (g : Glyph) (rest : List Glyph) (s : Lexer) : Option Lexer := do
  let (text, rest) ← quoted? double rest
  let style : ScalarStyle := if double then .doubleQuoted else .singleQuoted
  s.word? g (.scalar style (String.ofList text)) rest

/-- A plain scalar. After its line a key may start. -/
def plainWord? (g : Glyph) (rest : List Glyph) (s : Lexer) : Option Lexer := do
  let p ← plain? s.inFlow s.inner (g :: rest)
  let s ← s.word? g (.scalar .plain (String.ofList p.text)) p.rest
  some { s with keyAllowed := p.endsLine }

def blockWord? (folded : Bool) (rest : List Glyph) (s : Lexer) : Option Lexer := do
  let s ← s.forgetKey?
  let (text, rest) ← block? folded s.inner rest
  let style : ScalarStyle := if folded then .folded else .literal
  some ({ s with keyAllowed := true, rest }.push (.scalar style (String.ofList text)))

/-- Whether a plain scalar may start with a character. Hyphens, question marks and colons may start
one if more of it follows, the latter two only outside flow collections. -/
def startsPlain (inFlow : Bool) (c : Char) (rest : List Glyph) : Bool :=
  (!isBlank c && !"-?:,[]\x7b\x7d#&*!|>'\"%@`".toList.contains c) ||
    (c == '-' && !rest.head?.any (isBlank ·.char)) ||
    (!inFlow && (c == '?' || c == ':') && !wordEndsAt rest 0)

def token? (g : Glyph) (rest : List Glyph) (s : Lexer) : Option Lexer :=
  let alone := wordEndsAt rest 0
  if g.column = 0 ∧ g.char = '%' then do
    let (t, rest) ← directive? rest
    s.outside? t rest
  else if isMark '-' (g :: rest) then s.outside? .documentStart (rest.drop 2)
  else if isMark '.' (g :: rest) then s.outside? .documentEnd (rest.drop 2)
  else if g.char = '[' then s.openFlow? .flowSequenceStart g rest
  else if g.char = '\x7b' then s.openFlow? .flowMappingStart g rest
  else if g.char = ']' then s.closeFlow? .flowSequenceEnd rest
  else if g.char = '\x7d' then s.closeFlow? .flowMappingEnd rest
  else if g.char = ',' then s.separator? rest
  else if g.char = '-' ∧ alone then s.entry? g rest
  else if g.char = '?' ∧ (s.inFlow ∨ alone) then s.key? g rest
  else if g.char = ':' ∧ (s.inFlow ∨ alone) then s.value? g rest
  else if g.char = '*' then do
    let (name, rest) ← anchorName? rest
    s.word? g (.reference name) rest
  else if g.char = '&' then do
    let (name, rest) ← anchorName? rest
    s.word? g (.anchor name) rest
  else if g.char = '!' then do
    let (t, rest) ← tag? s.inFlow rest
    s.word? g t rest
  else if g.char = '|' ∧ ¬s.inFlow then s.blockWord? false rest
  else if g.char = '>' ∧ ¬s.inFlow then s.blockWord? true rest
  else if g.char = '\'' then s.quotedWord? false g rest
  else if g.char = '"' then s.quotedWord? true g rest
  else if startsPlain s.inFlow g.char rest then s.plainWord? g rest
  else none

/-- Reads one token, and those that follow from its column. -/
def next? (s : Lexer) : Option Lexer :=
  let s := s.skip
  match s.rest with
  | [] => s.outside? .streamEnd []
  | g :: rest => do
    let s ← s.dropStaleKeys? g
    (s.closeBlocks (g.column + 1)).token? g rest

/-- Reads tokens up to the end of the text. Each takes at least one glyph, so `fuel` need not be
more than the number of glyphs and one for the end. -/
def run? (s : Lexer) : Nat → Option (List Token)
  | 0 => none
  | fuel + 1 => do
    let s ← s.next?
    if s.tokens.head? = some .streamEnd then some s.tokens.reverse else s.run? fuel

end Lexer

def Token.lex? (text : String) : Option (List Token) := do
  let gs ← glyphs? text.toList
  Lexer.run? { rest := gs } (gs.length + 1)

end PlayerSlots.Yaml
