import PlayerSlots.Numeric.Hexadecimal
import PlayerSlots.Text.Utf8
import PlayerSlots.Yaml.Glyph

/-! # YAML scalars

How the text of a scalar follows from its lines, for the three ways to write one.

* `Gap.fold`: blanks between two words stay, a single line break becomes a blank, and of several
  the first goes.
* `plain?`: a scalar without quotes, up to an indicator, a comment or a line with less indentation.
* `quoted?`: a scalar in single or double quotes.
* `block?`: a literal or folded scalar, which is all that is indented below its header.

Each yields the text and the glyphs that follow, or nothing where the text is malformed.
-/

namespace PlayerSlots.Yaml
set_option autoImplicit false

/-! ## Folding -/

/-- What stands between two words of a scalar: blanks, and perhaps line breaks. -/
structure Gap where
  blanks : List Char := []
  /-- The first line break, if there is one; empty if it is escaped. -/
  first : Option (List Char) := none
  /-- The line breaks after the first. -/
  more : List Char := []
deriving DecidableEq, Repr

namespace Gap

def isEmpty (g : Gap) : Bool := g.blanks.isEmpty && g.first.isNone

/-- Whether the words stand in different lines. -/
def spansLines (g : Gap) : Bool := g.first.isSome

/-- One more blank. Blanks at the start of a line do not count. -/
def blank (c : Char) (g : Gap) : Gap :=
  if g.spansLines then g else { g with blanks := g.blanks ++ [c] }

/-- One more line break. Blanks before it do not count. -/
def lineBreak (c : Char) (g : Gap) : Gap :=
  if g.spansLines then { g with more := g.more ++ [c] } else { first := some [c] }

/-- What the gap adds to the text. -/
def fold (g : Gap) : List Char :=
  match g.first with
  | none => g.blanks
  | some first =>
    if first = ['\n'] then if g.more = [] then [' '] else g.more else first ++ g.more

end Gap

/-! ## Plain scalars -/

structure Plain where
  text : List Char
  /-- Whether line breaks stand between the scalar and what follows. -/
  endsLine : Bool
  rest : List Glyph
deriving Repr

/-- Whether a character ends a plain scalar: a colon at the end of a word, and inside flow
collections what separates or closes them. -/
def endsPlain (flow : Bool) (c : Char) (after : List Glyph) : Bool :=
  (c == ':' && wordEndsAt after 0) || (flow && ",[]\x7b\x7d".toList.contains c)

/-- Whether a colon stands where no plain scalar of a flow collection may hold one. -/
def misplacedColon (flow : Bool) (c : Char) (after : List Glyph) : Bool :=
  flow && c == ':' && ",?[]\x7b\x7d".toList.any (startsWith · after)

/-- The rest of a plain scalar whose lines stand at column `indent` or beyond, after some text (the
last character first) and a gap. -/
def plainFrom (flow : Bool) (indent : Nat) (text : List Char) (gap : Gap) :
    List Glyph → Option Plain
  | [] => some ⟨text.reverse, gap.spansLines, []⟩
  | g :: rest =>
    if isBlank g.char then
      if g.char = '\t' ∧ gap.spansLines ∧ g.column < indent then none
      else plainFrom flow indent text (gap.blank g.char) rest
    else if isBreak g.char then plainFrom flow indent text (gap.lineBreak g.char) rest
    else if ¬gap.isEmpty ∧ ((¬flow ∧ g.column < indent) ∨ isDocumentMark (g :: rest) ∨ g.char = '#')
    then some ⟨text.reverse, gap.spansLines, g :: rest⟩
    else if misplacedColon flow g.char rest then none
    else if endsPlain flow g.char rest then some ⟨text.reverse, gap.spansLines, g :: rest⟩
    else plainFrom flow indent (g.char :: (gap.fold.reverse ++ text)) {} rest

def plain? (flow : Bool) (indent : Nat) (gs : List Glyph) : Option Plain :=
  plainFrom flow indent [] {} gs

/-! ## Quoted scalars -/

/-- The character that a letter after a backslash stands for. -/
def escaped? (c : Char) : Option Char :=
  match c with
  | '0' => some (Char.ofNat 0)
  | 'a' => some (Char.ofNat 7)
  | 'b' => some (Char.ofNat 8)
  | 't' => some '\t'
  | '\t' => some '\t'
  | 'n' => some '\n'
  | 'v' => some (Char.ofNat 11)
  | 'f' => some (Char.ofNat 12)
  | 'r' => some '\r'
  | 'e' => some (Char.ofNat 27)
  | ' ' => some ' '
  | '"' => some '"'
  | '/' => some '/'
  | '\\' => some '\\'
  | 'N' => some (Char.ofNat 0x85)
  | '_' => some (Char.ofNat 0xA0)
  | 'L' => some (Char.ofNat 0x2028)
  | 'P' => some (Char.ofNat 0x2029)
  | _ => none

/-- How many hexadecimal digits follow a letter after a backslash. -/
def codeLength? (c : Char) : Option Nat :=
  match c with
  | 'x' => some 2
  | 'u' => some 4
  | 'U' => some 8
  | _ => none

/-- What has been read of an escape. -/
inductive Escape where
  | none
  | backslash
  /-- Part of a code: how many digits are missing, and the value so far. -/
  | code (missing value : Nat)
  /-- A single quote, which is part of the text if another one follows. -/
  | quote
deriving DecidableEq, Repr

/-- The rest of a quoted scalar, after some text (the last character first), a gap and part of an
escape. -/
def quotedFrom (double : Bool) (text : List Char) (gap : Gap) (escape : Escape) :
    List Glyph → Option (List Char × List Glyph)
  | [] => if escape = .quote then some (text.reverse, []) else none
  | g :: rest =>
    match escape with
    | .quote =>
      if g.char = '\'' then quotedFrom double ('\'' :: text) {} .none rest
      else some (text.reverse, g :: rest)
    | .backslash =>
      if isBreak g.char then quotedFrom double text { first := some [] } .none rest
      else
        match codeLength? g.char with
        | some n => quotedFrom double text {} (.code n 0) rest
        | none => do quotedFrom double ((← escaped? g.char) :: text) {} .none rest
    | .code missing value => do
      let value := value * 16 + (← hexDigit? g.char)
      if missing = 1 then quotedFrom double ((← Text.codePoint? 0 value) :: text) {} .none rest
      else quotedFrom double text {} (.code (missing - 1) value) rest
    | .none =>
      if isBlank g.char then quotedFrom double text (gap.blank g.char) .none rest
      else if isBreak g.char then quotedFrom double text (gap.lineBreak g.char) .none rest
      else if isDocumentMark (g :: rest) then none
      else
        let text := gap.fold.reverse ++ text
        if double ∧ g.char = '"' then some (text.reverse, rest)
        else if double ∧ g.char = '\\' then quotedFrom double text {} .backslash rest
        else if ¬double ∧ g.char = '\'' then quotedFrom double text {} .quote rest
        else quotedFrom double (g.char :: text) {} .none rest

/-- A quoted scalar after its opening quote. -/
def quoted? (double : Bool) (gs : List Glyph) : Option (List Char × List Glyph) :=
  quotedFrom double [] {} .none gs

/-! ## Block scalars -/

inductive Chomping where
  /-- They go. -/
  | strip
  /-- The first stays. -/
  | clip
  /-- They stay. -/
  | keep
deriving DecidableEq, Repr

/-- The sign in a header that says what becomes of the last line breaks. -/
def chomping : List Glyph → Chomping × List Glyph
  | [] => (.clip, [])
  | g :: rest =>
    if g.char = '+' then (.keep, rest)
    else if g.char = '-' then (.strip, rest)
    else (.clip, g :: rest)

/-- The digit in a header that gives the indentation relative to the surrounding block; zero stands
for none, and may not be written. -/
def increment? : List Glyph → Option (Nat × List Glyph)
  | [] => some (0, [])
  | g :: rest =>
    if g.char = '0' then none
    else if '1' ≤ g.char ∧ g.char ≤ '9' then some (g.char.toNat - 48, rest)
    else some (0, g :: rest)

/-- A block scalar as far as it has been read. -/
structure BlockText where
  folded : Bool
  /-- The least indentation that the text may have. -/
  least : Nat
  /-- The indentation of the text; zero as long as it is not known. -/
  indent : Nat
  /-- The text, the last character first. -/
  text : List Char := []
  /-- The line break after the last line that is not empty. -/
  lead : List Char := []
  /-- The line breaks after that. -/
  trail : List Char := []
  /-- Whether the last line that is not empty starts with a blank. -/
  afterBlank : Bool := false
  /-- The widest indentation so far. -/
  widest : Nat := 0
deriving Repr

namespace BlockText

/-- Fixes the indentation, if it is not known yet, as the widest so far. -/
def settle (s : BlockText) : BlockText :=
  if s.indent = 0 then { s with indent := max s.widest s.least } else s

/-- Starts a line with a character. In folded text a single line break between two lines that do
not start with blanks becomes a blank. -/
def startLine (c : Char) (s : BlockText) : BlockText :=
  let blank := isBlank c
  let joint :=
    if s.folded ∧ s.lead = ['\n'] ∧ ¬s.afterBlank ∧ ¬blank then
      if s.trail = [] then [' '] else s.trail
    else s.lead ++ s.trail
  { s with text := c :: (joint.reverse ++ s.text), lead := [], trail := [], afterBlank := blank }

def finish (chomping : Chomping) (s : BlockText) : List Char :=
  s.text.reverse ++ (if chomping = .strip then [] else s.lead)
    ++ (if chomping = .keep then s.trail else [])

end BlockText

/-- The rest of a block scalar, inside a line or at the start of one. -/
def blockFrom (s : BlockText) (insideLine : Bool) : List Glyph → Option (BlockText × List Glyph)
  | [] => some (s, [])
  | g :: rest =>
    if insideLine then
      if isBreak g.char then blockFrom { s with lead := [g.char] } false rest
      else blockFrom { s with text := g.char :: s.text } true rest
    else
      let belowIndent := s.indent = 0 ∨ g.column < s.indent
      if g.char = ' ' ∧ belowIndent then blockFrom s false rest
      else if g.char = '\t' ∧ belowIndent then none
      else
        let s := { s with widest := max s.widest g.column }
        if isBreak g.char then blockFrom { s with trail := s.trail ++ [g.char] } false rest
        else
          let s := s.settle
          if g.column = s.indent then blockFrom (s.startLine g.char) true rest
          else some (s, g :: rest)

/-- A block scalar after its indicator, in a block whose elements stand at column `inner` or
beyond. An indentation that the header gives counts from the column of the block. -/
def block? (folded : Bool) (inner : Nat) (gs : List Glyph) : Option (List Char × List Glyph) := do
  let (early, gs) := chomping gs
  let (increment, gs) ← increment? gs
  let (late, gs) := if early = .clip ∧ increment ≠ 0 then chomping gs else (early, gs)
  let gs ← restOfLine? gs
  let indent := if increment = 0 then 0 else inner - 1 + increment
  let (s, rest) ← blockFrom { folded, least := max inner 1, indent } false gs
  some (s.finish late, rest)

end PlayerSlots.Yaml
