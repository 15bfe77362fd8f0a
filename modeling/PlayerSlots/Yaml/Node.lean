import PlayerSlots.Yaml.Token

/-! # YAML documents

A `Document` is a tree of nodes. A node may have an anchor, and an alias stands for the node with
its anchor (`Document.resolve?`).

Anchors are numbers. A name gets a number when it is first used, and the next one each time it is
used again; so two anchors can share a number. An alias then stands for the last node that has it.
-/

namespace PlayerSlots.Yaml
set_option autoImplicit false

/-- What may stand before a node. -/
structure Properties where
  anchor : Option Nat := none
  tag : Option String := none
deriving DecidableEq, Repr

def Properties.isEmpty (p : Properties) : Bool := p.anchor.isNone && p.tag.isNone

inductive Node where
  | scalar (properties : Properties) (style : ScalarStyle) (text : String)
  | sequence (properties : Properties) (elements : List Node)
  | mapping (properties : Properties) (fields : List (Node × Node))
  | reference (anchor : Nat)
deriving Repr, Inhabited

namespace Node

/-- The node where a value is left out. -/
def empty (properties : Properties) : Node := scalar properties .plain ""

/-- A node with its anchor, if it has one. -/
def atAnchor (p : Properties) (n : Node) : List (Nat × Node) :=
  match p.anchor with
  | some a => [(a, n)]
  | none => []

mutual

/-- The nodes with anchors, in the order in which they start. -/
def anchored : Node → List (Nat × Node)
  | scalar p style text => atAnchor p (scalar p style text)
  | sequence p elements => atAnchor p (sequence p elements) ++ anchoredElements elements
  | mapping p fields => atAnchor p (mapping p fields) ++ anchoredFields fields
  | reference _ => []

def anchoredElements : List Node → List (Nat × Node)
  | [] => []
  | n :: rest => n.anchored ++ anchoredElements rest

def anchoredFields : List (Node × Node) → List (Nat × Node)
  | [] => []
  | (k, v) :: rest => k.anchored ++ v.anchored ++ anchoredFields rest

end

end Node

/-- A document. A text without any content is a document without a root. -/
structure Document where
  root : Option Node
deriving Repr

namespace Document

/-- The node that an alias stands for; another node stands for itself. -/
def resolve? (d : Document) : Node → Option Node
  | .reference a => do (← d.root).anchored.reverse.lookup a
  | n => some n

end Document

end PlayerSlots.Yaml
