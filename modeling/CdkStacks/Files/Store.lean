import CdkStacks.Failure
import CdkStacks.Files.Tree

/-!
# Stores

What the commands need of the files they work on, and file trees as such a store.

* `Store` is what a command may do with files;
* `Tree.store` does it on a file tree that is passed along.
-/

namespace CdkStacks.Files

/-- What a command may do with files. -/
structure Store (m : Type → Type) where
  /-- Whether a path names something. -/
  holds : FilePath → m Bool
  /-- Whether a path names a directory. -/
  isDirectory : FilePath → m Bool
  /-- The text of a file. -/
  read : FilePath → m (Except Failure String)
  /-- Make a file, and the directories it needs. It must not exist yet. -/
  create : FilePath → String → m (Except Failure Unit)

/-- The failure of a fault in reading a file. -/
def readFailure (path : FilePath) : Fault → Failure
  | .missing => .absent path
  | fault => .read fault

/-- The failure of a fault in creating a file, which comes from the directories on the left and from
the file on the right. -/
def createFailure (path : FilePath) : Fault ⊕ Fault → Failure
  | .inr .occupied => .write path .taken
  | .inl fault | .inr fault => .write path (.fault fault)

/-- The text of a file in a tree. -/
def Tree.readText (tree : Tree) (path : FilePath) : Except Failure String :=
  match tree.read path with
  | .ok contents => .ok contents
  | .error fault => .error (readFailure path fault)

/-- Make a file in a tree. -/
def Tree.createText (tree : Tree) (path : FilePath) (contents : String) :
    Except Failure Unit × Tree :=
  match tree.create path (.text contents) with
  | (made, none) => (.ok (), made)
  | (made, some fault) => (.error (createFailure path fault), made)

/-- A file tree as a store. -/
def Tree.store : Store (StateM Tree) where
  holds path := return (← get).holds path
  isDirectory path := return (← get).isDirectory path
  read path := return (← get).readText path
  create path contents := modifyGet fun tree => tree.createText path contents

end CdkStacks.Files
