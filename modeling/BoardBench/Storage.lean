import BoardBench.Storage.Tree

/-!
# Storage

What the bench asks of a file system: the bytes of a file, directories, and files with a text. A
tree in memory offers all of it.

It is a record of operations and no class, since a bench is given its file system: the tree in
memory for what is proved, and that of the machine for what is run. What saves a report or loads a
configuration is written once, over any storage.
-/

set_option autoImplicit false

namespace BoardBench

/-- A file system, as far as the bench uses one. -/
structure Storage (m : Type → Type) where
  /-- The bytes of a file. -/
  read : String → m (Except StorageFailure (List UInt8))
  /-- Makes a directory and all those above it that are missing. -/
  makeDirectories : String → m (Except StorageFailure Unit)
  /-- Writes a text to a file, in lieu of what the file held before. -/
  write : String → String → m (Except StorageFailure Unit)

namespace Storage

/-- A file system that is part of something larger. -/
def lift {m n : Type → Type} (f : {α : Type} → m α → n α) (s : Storage m) : Storage n where
  read path := f (s.read path)
  makeDirectories path := f (s.makeDirectories path)
  write path text := f (s.write path text)

end Storage

def Tree.storage : Storage (StateM Tree) where
  read path := fun t => (t.read path, t)
  makeDirectories path := fun t => t.makeDirectories path
  write path text := fun t =>
    match t.write path (Text.encode text) with
    | .ok written => (.ok (), written)
    | .error f => (.error f, t)

end BoardBench
