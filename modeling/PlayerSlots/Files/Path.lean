/-! # Paths

A path is a text of segments with slashes between them. One that starts with a slash starts at the
root, any other at a working directory.
-/

namespace PlayerSlots.Path
set_option autoImplicit false

/-- The segments of a text between its slashes; there is at least one. -/
def split : List Char → List (List Char)
  | [] => [[]]
  | c :: rest =>
    if c = '/' then [] :: split rest
    else
      match split rest with
      | [] => [[c]]
      | segment :: more => (c :: segment) :: more

def segments (path : String) : List String := (split path.toList).map String.ofList

def ofSegments (segments : List String) : String := String.intercalate "/" segments

def isAbsolute (path : String) : Bool := path.toList.head? == some '/'

/-- A path seen from a base, which an absolute path ignores. -/
def join (base path : String) : String :=
  if isAbsolute path ∨ base = "" then path
  else if base.toList.getLast? = some '/' then base ++ path
  else base ++ "/" ++ path

/-- Drops empty segments and full stops after the first segment, from the end on. The segments
are reversed. -/
def trim : List String → List String
  | [] => []
  | [first] => [first]
  | s :: next :: rest => if s = "" ∨ s = "." then trim (next :: rest) else s :: next :: rest

/-- The path without its last segment; the root and the empty path have none. -/
def parent? (path : String) : Option String :=
  match trim (segments path).reverse with
  | [] => none
  | [first] => if first = "" then none else some ""
  | _ :: rest =>
    let left := trim rest
    some (if left = [""] then "/" else ofSegments left.reverse)

end PlayerSlots.Path
