import PlayerSlots.Files.Tree

/-! # Access to files

What a program does with files, apart from where they are: on a disk, or in a `FileTree`
(`FileAccess.ofTree`).
-/

namespace PlayerSlots
set_option autoImplicit false

structure FileAccess (m : Type → Type) where
  read : String → m (Except FileError (List UInt8))
  write : String → List UInt8 → m (Except FileError Unit)
  isPresent : String → m Bool
  isDirectory : String → m Bool
  makeDirectories : String → m (Except FileError Unit)

namespace FileAccess

/-- Takes the new tree of an operation that succeeds. -/
def keep (change : FileTree → Except FileError FileTree) : StateM FileTree (Except FileError Unit) :=
  fun t =>
    match change t with
    | .ok t' => (.ok (), t')
    | .error e => (.error e, t)

/-- Access to the files of a tree, from a working directory. -/
def ofTree (workingDirectory : List String) : FileAccess (StateM FileTree) where
  read path := fun t => (t.read workingDirectory path, t)
  write path bytes := keep fun t => t.write workingDirectory path bytes
  isPresent path := fun t => (t.isPresent workingDirectory path, t)
  isDirectory path := fun t => (t.isDirectory workingDirectory path, t)
  makeDirectories path := keep fun t => t.makeDirectories workingDirectory path

end FileAccess

end PlayerSlots
