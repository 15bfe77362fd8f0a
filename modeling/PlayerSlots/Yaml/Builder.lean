import PlayerSlots.Yaml.Lexer
import PlayerSlots.Yaml.Node

/-! # Reading YAML documents

`Document.ofTokens?` builds the document of some tokens, one token at a time. What is still open is
a stack of `Frame`s.

Values and keys may be left out, and a block sequence may stand in the column of the key that it
belongs to. So before a token is taken, whatever it shows to be complete is completed
(`Builder.settle`).
-/

namespace PlayerSlots.Yaml
set_option autoImplicit false

/-- A part of a document that is still open: what it holds so far, the last first. -/
inductive Frame where
  /-- The document itself, with or without a mark at its start. -/
  | document (marked : Bool)
  | blockSequence (properties : Properties) (elements : List Node)
  /-- A block sequence in the column of its key. -/
  | flatSequence (properties : Properties) (elements : List Node)
  /-- A block mapping where a key comes next. -/
  | blockKey (properties : Properties) (fields : List (Node × Node))
  /-- A block mapping where a value comes next. -/
  | blockValue (properties : Properties) (fields : List (Node × Node)) (key : Node)
  | flowSequence (properties : Properties) (elements : List Node)
  /-- A mapping of one field inside a flow sequence, where the key comes next. -/
  | pairKey
  /-- The same where the value comes next. -/
  | pairValue (key : Node)
  /-- A flow mapping where a key comes next, perhaps after a question mark. -/
  | flowKey (properties : Properties) (fields : List (Node × Node)) (marked : Bool)
  /-- A flow mapping where a value comes next. -/
  | flowValue (properties : Properties) (fields : List (Node × Node)) (key : Node)
deriving Repr

/-- What comes next. -/
inductive Expect where
  /-- The document, perhaps after some directives. -/
  | start (directives version : Bool)
  /-- A node, some of whose properties have come. -/
  | node (properties : Properties)
  /-- What belongs to the innermost frame between or after its nodes. -/
  | indicator
  | ending (document : Document)
deriving Repr

structure Builder where
  frames : List Frame := []
  expect : Expect := .start false false
  /-- The names of anchors with their numbers. -/
  anchors : List (String × Nat) := []
  /-- What the handles of directives stand for. -/
  handles : List (String × String) := []
deriving Repr

namespace Builder

/-- Waits for what belongs to the innermost of some frames. -/
def wait (b : Builder) (frames : List Frame) : Builder := { b with frames, expect := .indicator }

def enter (b : Builder) (frames : List Frame) : Builder := { b with frames, expect := .node {} }

/-- Puts a complete node in its place. -/
def complete (b : Builder) (n : Node) : Builder :=
  match b.frames with
  | .document _ :: _ => { b with frames := [], expect := .ending ⟨some n⟩ }
  | .blockSequence p elements :: outer => b.wait (.blockSequence p (n :: elements) :: outer)
  | .flatSequence p elements :: outer => b.wait (.flatSequence p (n :: elements) :: outer)
  | .blockKey p fields :: outer => b.wait (.blockValue p fields n :: outer)
  | .blockValue p fields k :: outer => b.wait (.blockKey p ((k, n) :: fields) :: outer)
  | .flowSequence p elements :: outer => b.wait (.flowSequence p (n :: elements) :: outer)
  | .pairKey :: outer => b.wait (.pairValue n :: outer)
  | .pairValue k :: .flowSequence p elements :: outer =>
    b.wait (.flowSequence p (.mapping {} [(k, n)] :: elements) :: outer)
  | .flowKey p fields true :: outer => b.wait (.flowValue p fields n :: outer)
  | .flowKey p fields false :: outer => b.wait (.flowKey p ((n, .empty {}) :: fields) false :: outer)
  | .flowValue p fields k :: outer => b.wait (.flowKey p ((k, n) :: fields) false :: outer)
  | .pairValue _ :: _ => b
  | [] => b

/-- Puts the node of the innermost frame in its place. -/
def close (b : Builder) (n : Node) : Builder := { b with frames := b.frames.tail }.complete n

/-! ## What may be left out -/

/-- Whether a token shows that the node of the innermost frame is left out. -/
def leavesOut (b : Builder) (t : Token) : Bool :=
  match b.frames with
  | .document true :: _ =>
    match t with
    | .version .. | .handle .. | .documentStart | .documentEnd | .streamEnd => true
    | _ => false
  | .blockSequence .. :: _ => t == .entry || t == .blockEnd
  | .flatSequence .. :: _ => t == .entry || t == .key || t == .value || t == .blockEnd
  | .blockKey .. :: _ | .blockValue .. :: _ => t == .key || t == .value || t == .blockEnd
  | .flowKey _ _ true :: _ => t == .value || t == .separator || t == .flowMappingEnd
  | .flowValue .. :: _ => t == .separator || t == .flowMappingEnd
  | .pairValue _ :: _ => t == .separator || t == .flowSequenceEnd
  | _ => false

/-- Whether a block sequence may start without indentation of its own. -/
def allowsFlat (b : Builder) : Bool :=
  match b.frames with
  | .blockKey .. :: _ | .blockValue .. :: _ => true
  | _ => false

/-- Whether a token belongs to the node whose properties have come. -/
def continues (b : Builder) (p : Properties) (t : Token) : Bool :=
  match t with
  | .scalar .. | .flowSequenceStart | .flowMappingStart | .blockSequenceStart | .blockMappingStart =>
    true
  | .anchor _ => p.anchor.isNone
  | .tag .. => p.tag.isNone
  | .entry => b.allowsFlat
  | _ => false

/-- Completes a node that is left out before a token. -/
def fillNode (t : Token) (b : Builder) : Builder :=
  match b.expect with
  | .node p =>
    if if p.isEmpty then b.leavesOut t else !b.continues p t then b.complete (.empty p) else b
  | _ => b

/-- Completes a sequence without indentation of its own before a token that does not belong to
it. -/
def fillSequence (t : Token) (b : Builder) : Builder :=
  match b.expect, b.frames with
  | .indicator, .flatSequence p elements :: _ =>
    if t = .entry then b else b.close (.sequence p elements.reverse)
  | _, _ => b

/-- Completes a field without a value before a token. -/
def fillValue (t : Token) (b : Builder) : Builder :=
  match b.expect, b.frames with
  | .indicator, .blockValue .. :: _ | .indicator, .flowValue .. :: _
  | .indicator, .pairValue _ :: _ => if t = .value then b else b.complete (.empty {})
  | _, _ => b

/-- Completes what a token shows to be complete. -/
def settle (t : Token) (b : Builder) : Builder := ((b.fillNode t).fillSequence t).fillValue t

/-! ## One token -/

/-- Gives the next number to the name of an anchor. -/
def nameAnchor (name : String) (b : Builder) : Nat × Builder :=
  let number := b.anchors.length
  (number, { b with anchors := (name, number) :: b.anchors.filter (·.1 ≠ name) })

/-- The tag for a handle and what follows it. Without directives `!` stands for itself and `!!` for
the tags of the standard. -/
def tag? (b : Builder) (handle rest : String) : Option String :=
  if handle = "" then some rest
  else do some ((← (b.handles ++ [("!", "!"), ("!!", "tag:yaml.org,2002:")]).lookup handle) ++ rest)

/-- A token where a node is expected. -/
def nodeToken? (p : Properties) (t : Token) (b : Builder) : Option Builder :=
  match t with
  | .scalar style text =>
    some (b.complete (.scalar (if p.tag = some "!" then { p with tag := none } else p) style text))
  | .reference name => do
    if p.isEmpty then some (b.complete (.reference (← b.anchors.lookup name))) else none
  | .anchor name =>
    let (number, b) := b.nameAnchor name
    some { b with expect := .node { p with anchor := some number } }
  | .tag handle rest => do some { b with expect := .node { p with tag := ← b.tag? handle rest } }
  | .blockSequenceStart => some (b.wait (.blockSequence p [] :: b.frames))
  | .blockMappingStart => some (b.wait (.blockKey p [] :: b.frames))
  | .flowSequenceStart => some (b.enter (.flowSequence p [] :: b.frames))
  | .flowMappingStart => some (b.enter (.flowKey p [] false :: b.frames))
  | .entry => if b.allowsFlat then some (b.enter (.flatSequence p [] :: b.frames)) else none
  | _ =>
    match b.frames, t with
    | .flowSequence q elements :: _, .flowSequenceEnd => some (b.close (.sequence q elements.reverse))
    | .flowSequence .. :: _, .key => some (b.enter (.pairKey :: b.frames))
    | .pairKey :: outer, .value | .pairKey :: outer, .separator
    | .pairKey :: outer, .flowSequenceEnd => some (b.wait (.pairValue (.empty {}) :: outer))
    | .flowKey q fields false :: _, .flowMappingEnd => some (b.close (.mapping q fields.reverse))
    | .flowKey q fields false :: outer, .key => some (b.enter (.flowKey q fields true :: outer))
    | _, _ => none

/-- A token between or after the nodes of the innermost frame. -/
def indicatorToken? (t : Token) (b : Builder) : Option Builder :=
  match b.frames, t with
  | .blockSequence .. :: _, .entry | .flatSequence .. :: _, .entry | .blockKey .. :: _, .key
  | .blockValue .. :: _, .value | .flowSequence .. :: _, .separator | .flowValue .. :: _, .value
  | .pairValue _ :: _, .value => some (b.enter b.frames)
  | .flowKey p fields _ :: outer, .separator => some (b.enter (.flowKey p fields false :: outer))
  | .blockSequence p elements :: _, .blockEnd
  | .flowSequence p elements :: _, .flowSequenceEnd =>
    some (b.close (.sequence p elements.reverse))
  | .blockKey p fields :: _, .blockEnd
  | .flowKey p fields _ :: _, .flowMappingEnd => some (b.close (.mapping p fields.reverse))
  | _, _ => none

/-- A token before the document. -/
def startToken? (directives version : Bool) (t : Token) (b : Builder) : Option Builder :=
  match t with
  | .version major minor =>
    if ¬version ∧ major = 1 ∧ (minor = 1 ∨ minor = 2) then some { b with expect := .start true true }
    else none
  | .handle name expansion =>
    if (b.handles.lookup name).isNone then
      some { b with expect := .start true version, handles := (name, expansion) :: b.handles }
    else none
  | .documentStart => some (b.enter [.document true])
  | .streamEnd => if directives then none else some { b with expect := .ending ⟨none⟩ }
  | _ => if directives then none else (b.enter [.document false]).nodeToken? {} t

def step? (b : Builder) (t : Token) : Option Builder :=
  let b := b.settle t
  match b.expect with
  | .start directives version => b.startToken? directives version t
  | .node p => b.nodeToken? p t
  | .indicator => b.indicatorToken? t
  | .ending _ => if t = .documentEnd ∨ t = .streamEnd then some b else none

end Builder

namespace Document

/-- The document of some tokens. There may be only one. -/
def ofTokens? (tokens : List Token) : Option Document := do
  match (← tokens.foldlM Builder.step? {}).expect with
  | .ending d => some d
  | _ => none

def parse? (text : String) : Option Document := do ofTokens? (← Token.lex? text)

end Document

end PlayerSlots.Yaml
