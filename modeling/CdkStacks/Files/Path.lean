/-!
# Paths

A path is kept as it was written. What it names is read off its components.

* `FilePath.components` drops empty segments and every `.` but a leading one, so `a//b`, `a/./b` and
  `a/b/` have the same components;
* `FilePath.same` compares paths by their components;
* `FilePath.join` puts a path below a directory;
* `FilePath.fileName?`, `FilePath.stem?`, `FilePath.extension?` take the last component apart.
-/

namespace CdkStacks.Files

/-- A path, as it was written. -/
structure FilePath where
  text : String
  deriving DecidableEq, Repr

/-- A component of a path. -/
inductive Component where
  /-- The slash in front of an absolute path. -/
  | root
  /-- A leading `.`. -/
  | here
  /-- The segment `..`. -/
  | parent
  | name (text : String)
  deriving DecidableEq, Repr

/-- Cut a list of characters at every slash. -/
def segments : List Char → List (List Char)
  | [] => [[]]
  | c :: rest =>
    match segments rest with
    | [] => [[c]]
    | segment :: more =>
      if c = '/' then [] :: segment :: more else (c :: segment) :: more

/-- The component of a segment that is not the first; an empty segment and `.` have none. -/
def Component.ofSegment? : List Char → Option Component
  | [] | ['.'] => none
  | ['.', '.'] => some .parent
  | segment => some (.name (String.ofList segment))

namespace FilePath

/-- Whether a path starts at the root. -/
def isAbsolute (path : FilePath) : Bool :=
  path.text.toList.head? = some '/'

/-- The components of a path. -/
def components (path : FilePath) : List Component :=
  let found := (segments path.text.toList).filterMap Component.ofSegment?
  match segments path.text.toList with
  | [] :: _ :: _ => .root :: found
  | ['.'] :: _ => .here :: found
  | _ => found

/-- Whether two paths have the same components. -/
def same (a b : FilePath) : Bool :=
  a.components = b.components

/-- The path `path` seen from the directory `base`: an absolute path stays, any other is put behind
the directory and a slash. -/
def join (base path : FilePath) : FilePath :=
  if path.isAbsolute || base.text = "" then path
  else if base.text.toList.getLast? = some '/' then ⟨base.text ++ path.text⟩
  else ⟨base.text ++ "/" ++ path.text⟩

/-- The last component, when it is a name. -/
def fileName? (path : FilePath) : Option String :=
  match path.components.getLast? with
  | some (.name text) => some text
  | _ => none

end FilePath

/-- Split a file name at its last dot; a name without a dot, or with no dot but the first
character, is not split. -/
def splitExtension (name : String) : String × Option String :=
  let reversed := name.toList.reverse
  let tail := reversed.takeWhile (· ≠ '.')
  match reversed.drop tail.length with
  | _ :: stem@(_ :: _) => (String.ofList stem.reverse, some (String.ofList tail.reverse))
  | _ => (name, none)

namespace FilePath

/-- The file name without its extension. -/
def stem? (path : FilePath) : Option String :=
  path.fileName?.map fun name => (splitExtension name).1

/-- The part of the file name behind its last dot. -/
def extension? (path : FilePath) : Option String :=
  path.fileName?.bind fun name => (splitExtension name).2

end FilePath

end CdkStacks.Files
