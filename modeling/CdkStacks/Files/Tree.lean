import CdkStacks.Files.Fault
import CdkStacks.Files.Path

/-!
# File trees

A tree of directories and files, and what can be done with it by path. Paths are followed step by
step: every step leads from a directory that exists, `..` leads to its parent.

* `Tree.stat` finds what a path names, `Tree.read` the text of a file;
* `Tree.makeAll` makes a directory with all directories on the way to it;
* `Tree.create` makes a file that does not exist yet, with the directories it needs. No file that
  exists is ever changed.
-/

namespace CdkStacks.Files

/-- What a name stands for in a tree. -/
inductive Entry where
  | directory
  | text (contents : String)
  /-- A file whose contents are no text. -/
  | binary (contents : List UInt8)
  deriving DecidableEq, Repr

/-- The file with the given bytes, which are a text when they are UTF-8. -/
def Entry.ofBytes (bytes : List UInt8) : Entry :=
  match String.fromUTF8? ⟨bytes.toArray⟩ with
  | some contents => .text contents
  | none => .binary bytes

/-- The place of an entry: the names on the way to it from the root. -/
abbrev Location := List String

/-- A tree of directories and files. The root is a directory without an entry. -/
structure Tree where
  /-- Where relative paths start. -/
  working : Location
  entries : List (Location × Entry)
  deriving DecidableEq, Repr

/-! ## Following paths -/

/-- A step on the way along a path. -/
inductive Hop where
  | up
  | down (name : String)
  deriving DecidableEq, Repr

/-- The step of a component. -/
def Component.hop? : Component → Option Hop
  | .root | .here => none
  | .parent => some .up
  | .name text => some (.down text)

/-- How a path ends. -/
inductive Ending where
  /-- With a name. -/
  | name
  /-- With a slash behind a name. -/
  | slash
  /-- With `.` or `..`. -/
  | dots
  deriving DecidableEq, Repr

/-- How a path ends; the empty path names the working directory, as if a slash stood behind it. -/
def FilePath.ending (path : FilePath) : Ending :=
  match (segments path.text.toList).reverse with
  | [] => .slash
  | [] :: rest =>
    match rest.find? fun segment => !segment.isEmpty with
    | none => if path.isAbsolute then .dots else .slash
    | some segment => if segment = ['.'] || segment = ['.', '.'] then .dots else .slash
  | segment :: _ => if segment = ['.'] || segment = ['.', '.'] then .dots else .name

/-- The longest name, in bytes. -/
def maxNameLength : Nat := 255

namespace Tree

/-- The steps from the root to what a path names. -/
def hops (tree : Tree) (path : FilePath) : List Hop :=
  let steps := path.components.filterMap Component.hop?
  if path.isAbsolute then steps else tree.working.map .down ++ steps

/-- The entry at a location. -/
def find? (tree : Tree) (location : Location) : Option Entry :=
  if location = [] then some .directory
  else (tree.entries.find? fun e => e.1 = location).map Prod.snd

/-- A location has to be a directory. -/
def enter (tree : Tree) (location : Location) : Except Fault Unit :=
  match tree.find? location with
  | some .directory => .ok ()
  | some _ => .error .notDirectory
  | none => .error .missing

/-- Follow steps from a location. Every step but the last one has to lead to a directory; the last
one may lead to nothing. -/
def follow (tree : Tree) : Location → List Hop → Except Fault Location
  | location, [] => .ok location
  | location, .up :: rest => do
    tree.enter location
    tree.follow location.dropLast rest
  | location, .down name :: rest => do
    tree.enter location
    if maxNameLength < name.utf8ByteSize then throw .nameTooLong
    tree.follow (location ++ [name]) rest

/-- Find what steps lead to. -/
def statHops (tree : Tree) (hops : List Hop) : Except Fault Entry := do
  match tree.find? (← tree.follow [] hops) with
  | some entry => return entry
  | none => throw .missing

/-- Find what a path names. A path that does not end with a name needs a directory. -/
def stat (tree : Tree) (path : FilePath) : Except Fault Entry := do
  let entry ← tree.statHops (tree.hops path)
  if path.ending ≠ .name && entry ≠ .directory then throw .notDirectory
  return entry

/-- Whether a path names something. -/
def holds (tree : Tree) (path : FilePath) : Bool :=
  match tree.stat path with
  | .ok _ => true
  | .error _ => false

/-- Whether steps lead to a directory. -/
def isDirectoryAt (tree : Tree) (hops : List Hop) : Bool :=
  match tree.statHops hops with
  | .ok .directory => true
  | _ => false

/-- Whether a path names a directory. -/
def isDirectory (tree : Tree) (path : FilePath) : Bool :=
  match tree.stat path with
  | .ok .directory => true
  | _ => false

/-- The text of the file that a path names. -/
def read (tree : Tree) (path : FilePath) : Except Fault String := do
  match ← tree.stat path with
  | .text contents => return contents
  | .directory => throw .isDirectory
  | .binary _ => throw .notText

/-! ## Making directories and files -/

/-- Add an entry. -/
def insert (tree : Tree) (location : Location) (entry : Entry) : Tree :=
  { tree with entries := tree.entries ++ [(location, entry)] }

/-- Make one directory. -/
def make (tree : Tree) (hops : List Hop) : Except Fault Tree := do
  let location ← tree.follow [] hops
  match hops.getLast? with
  | some (.down _) =>
    match tree.find? location with
    | some _ => throw .occupied
    | none => return tree.insert location .directory
  | _ => do
    tree.enter location
    throw .occupied

/-- Make a directory and all directories on the way to it; a directory that exists is kept. The
steps come last one first. What was made before a fault stays. -/
def makeAll (tree : Tree) : List Hop → Tree × Option Fault
  | [] => (tree, none)
  | hop :: rest =>
    let hops := (hop :: rest).reverse
    match tree.make hops with
    | .ok made => (made, none)
    | .error .missing =>
      match tree.makeAll rest with
      | (parent, some fault) => (parent, some fault)
      | (parent, none) =>
        match parent.make hops with
        | .ok made => (made, none)
        | .error fault => (parent, if parent.isDirectoryAt hops then none else some fault)
    | .error fault => (tree, if tree.isDirectoryAt hops then none else some fault)

/-- Make a file where there is none; its directory exists. -/
def createAt (tree : Tree) (hops : List Hop) (ending : Ending) (file : Entry) :
    Except Fault Tree := do
  let location ← tree.follow [] hops
  match ending with
  | .slash => throw .isDirectory
  | .dots => do
    tree.enter location
    throw .occupied
  | .name =>
    match tree.find? location with
    | some _ => throw .occupied
    | none => return tree.insert location file

/-- Make a file with the directories it needs. The fault says whether it comes from the directories
or from the file; directories made before it stay. -/
def create (tree : Tree) (path : FilePath) (file : Entry) : Tree × Option (Fault ⊕ Fault) :=
  let hops := tree.hops path
  match tree.makeAll hops.dropLast.reverse with
  | (parent, some fault) => (parent, some (.inl fault))
  | (parent, none) =>
    match parent.createAt hops path.ending file with
    | .ok made => (made, none)
    | .error fault => (parent, some (.inr fault))

end Tree

end CdkStacks.Files
