import PlayerSlots.Files.Path

/-! # Files and directories

A `FileTree` holds the files and directories below the root.

* `FileTree.locate`: where a path leads, segment by segment.
* `FileTree.read`, `FileTree.write`: the content of a file.
* `FileTree.makeDirectories`: a directory and those above it.
-/

namespace PlayerSlots
set_option autoImplicit false

inductive FileError where
  | missing
  | alreadyThere
  | notDirectory
  | isDirectory
  | nameTooLong
  /-- A name holds the character with code zero. -/
  | zeroInName
  /-- Something else, in the words of the system. -/
  | other (reason : String)
deriving DecidableEq, Repr

def FileError.message : FileError → String
  | missing => "No such file or directory (os error 2)"
  | alreadyThere => "File exists (os error 17)"
  | notDirectory => "Not a directory (os error 20)"
  | isDirectory => "Is a directory (os error 21)"
  | nameTooLong => "File name too long (os error 36)"
  | zeroInName => "file name contained an unexpected NUL byte"
  | other reason => reason

inductive FileEntry where
  | directory
  | file (bytes : List UInt8)
deriving DecidableEq, Repr

/-- The files and directories below the root, by the segments of their paths. -/
structure FileTree where
  entries : List (List String × FileEntry) := []
deriving DecidableEq, Repr

/-- Where a path leads. Slashes after the last name are noted, since they demand a directory. -/
inductive Place where
  | directory (spot : List String)
  | file (spot : List String) (bytes : List UInt8) (slashed : Bool)
  /-- Nothing is there, but the directory above is. -/
  | free (spot : List String) (slashed : Bool)
deriving DecidableEq, Repr

namespace FileTree

/-- What stands at a path, given by its segments. The root is always there. -/
def entry? (t : FileTree) (spot : List String) : Option FileEntry :=
  if spot = [] then some .directory else t.entries.lookup spot

/-- Puts an entry at a path, given by its segments. -/
def put (t : FileTree) (spot : List String) (e : FileEntry) : FileTree :=
  { entries := (spot, e) :: t.entries.filter (·.1 ≠ spot) }

/-- The greatest length of a name, in bytes. -/
def greatestName : Nat := 255

/-- The greatest length of a path, in bytes. -/
def greatestPath : Nat := 4095

/-- Where segments lead from a directory. -/
def walk (t : FileTree) (spot : List String) : List String → Except FileError Place
  | [] => .ok (.directory spot)
  | s :: rest =>
    let next := spot ++ [s]
    let isLast := rest.all (· = "")
    if s = "" ∨ s = "." then t.walk spot rest
    else if s = ".." then t.walk spot.dropLast rest
    else if greatestName < s.utf8ByteSize then .error .nameTooLong
    else
      match t.entry? next with
      | some .directory => t.walk next rest
      | some (.file bytes) =>
        if isLast then .ok (.file next bytes (rest ≠ [])) else .error .notDirectory
      | none => if isLast then .ok (.free next (rest ≠ [])) else .error .missing

/-- Where a path leads from a working directory. -/
def locate (t : FileTree) (workingDirectory : List String) (path : String) :
    Except FileError Place :=
  if path.toList.contains (Char.ofNat 0) then .error .zeroInName
  else if path = "" then .error .missing
  else if greatestPath < path.utf8ByteSize then .error .nameTooLong
  else t.walk (if Path.isAbsolute path then [] else workingDirectory) (Path.segments path)

def read (t : FileTree) (workingDirectory : List String) (path : String) :
    Except FileError (List UInt8) := do
  match ← t.locate workingDirectory path with
  | .directory _ => .error .isDirectory
  | .file _ bytes slashed => if slashed then .error .notDirectory else .ok bytes
  | .free .. => .error .missing

def write (t : FileTree) (workingDirectory : List String) (path : String) (bytes : List UInt8) :
    Except FileError FileTree := do
  match ← t.locate workingDirectory path with
  | .directory _ => .error .isDirectory
  | .file spot _ slashed | .free spot slashed =>
    if slashed then .error .isDirectory else .ok (t.put spot (.file bytes))

def isPresent (t : FileTree) (workingDirectory : List String) (path : String) : Bool :=
  match t.locate workingDirectory path with
  | .ok (.directory _) => true
  | .ok (.file _ _ slashed) => !slashed
  | _ => false

def isDirectory (t : FileTree) (workingDirectory : List String) (path : String) : Bool :=
  match t.locate workingDirectory path with
  | .ok (.directory _) => true
  | _ => false

def makeDirectory (t : FileTree) (workingDirectory : List String) (path : String) :
    Except FileError FileTree := do
  match ← t.locate workingDirectory path with
  | .free spot _ => .ok (t.put spot .directory)
  | _ => .error .alreadyThere

/-- Makes a directory unless it is there, and first the one above if that is missing, through at
most `depth` of them. -/
def makeUpTo (workingDirectory : List String) (t : FileTree) (path : String) :
    Nat → Except FileError FileTree
  | 0 => .error .missing
  | depth + 1 =>
    let settle (t : FileTree) (e : FileError) :=
      if t.isDirectory workingDirectory path then .ok t else .error e
    if path = "" then .ok t
    else
      match t.makeDirectory workingDirectory path with
      | .ok t => .ok t
      | .error .missing =>
        match Path.parent? path with
        | none => .error .missing
        | some above => do
          let t ← makeUpTo workingDirectory t above depth
          match t.makeDirectory workingDirectory path with
          | .ok t => .ok t
          | .error e => settle t e
      | .error e => settle t e

/-- Makes a directory unless it is there, and before it those above that are missing. -/
def makeDirectories (t : FileTree) (workingDirectory : List String) (path : String) :
    Except FileError FileTree :=
  makeUpTo workingDirectory t path ((Path.segments path).length + 1)

/-- What is below a directory: paths relative to it, directories with a slash at the end, in the
order of their names and each directory before what is in it. -/
def listing (t : FileTree) (spot : List String) : List String :=
  let below := t.entries.filterMap fun (path, e) =>
    if spot.isPrefixOf path ∧ path ≠ spot then some (path.drop spot.length, e) else none
  (below.mergeSort fun a b => ¬b.1 < a.1).map fun (path, e) =>
    Path.ofSegments path ++ if e = .directory then "/" else ""

end FileTree

end PlayerSlots
