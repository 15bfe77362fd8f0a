/-! # YAML tokens -/

namespace PlayerSlots.Yaml
set_option autoImplicit false

inductive ScalarStyle where
  | plain
  | singleQuoted
  | doubleQuoted
  | literal
  | folded
deriving DecidableEq, Repr

/-- A word of the YAML grammar. Block collections have tokens for their start and end, which follow
from the indentation. -/
inductive Token where
  | version (major minor : Nat)
  /-- A directive that lets a handle stand for the start of a tag. -/
  | handle (name expansion : String)
  | documentStart
  | documentEnd
  | blockSequenceStart
  | blockMappingStart
  | blockEnd
  | flowSequenceStart
  | flowSequenceEnd
  | flowMappingStart
  | flowMappingEnd
  | entry
  | separator
  /-- The start of a key, written as a question mark or found at the colon that follows. -/
  | key
  | value
  | reference (name : String)
  | anchor (name : String)
  | tag (handle rest : String)
  | scalar (style : ScalarStyle) (text : String)
  | streamEnd
deriving DecidableEq, Repr

end PlayerSlots.Yaml
