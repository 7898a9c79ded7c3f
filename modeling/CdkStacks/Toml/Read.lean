import CdkStacks.Toml.Tree

/-!
# Reading TOML

* `path?` reads a dotted key, `value?` a value with a bound on its nesting;
* `document?` reads the lines of a document;
* `read?` reads a whole text.
-/

namespace CdkStacks.Toml

/-! ## Keys -/

/-- Whether a character may stand in a bare key. -/
def isKeyChar (c : Char) : Bool :=
  c.isAlphanum || c = '_' || c = '-'

/-- Read a key without dots. -/
def key? (cs : List Char) : Option (String × List Char) :=
  match cs with
  | '"' :: rest => basic? [] rest
  | '\'' :: rest => literal? rest
  | _ =>
    let (key, rest) := cs.span isKeyChar
    if key.isEmpty then none else some (String.ofList key, rest)

/-- Read a dotted key, blanks around its parts included. -/
def path? (cs : List Char) : Option (List String × List Char) :=
  match key? (skipBlanks cs) with
  | none => none
  | some (key, rest) =>
    match skipBlanks rest with
    | '.' :: rest =>
      if rest.length < cs.length then (path? rest).map fun (path, rest) => (key :: path, rest)
      else none
    | rest => some ([key], rest)
termination_by cs.length

/-- How many levels may nest, and how many parts a dotted key may have, plus one. -/
def nestingLimit : Nat := 80

/-- Read a dotted key as the path to its last part and the last part. -/
def dotted? (cs : List Char) : Option ((List String × String) × List Char) :=
  match path? cs with
  | some (path, rest) =>
    match path.getLast? with
    | some key => if path.length < nestingLimit then some ((path.dropLast, key), rest) else none
    | none => none
  | none => none

/-! ## Values -/

/-- Drop blanks, ends of lines and comments; `comment` says that a comment has started. -/
def skipSpace (comment : Bool) : List Char → List Char
  | [] => []
  | c :: rest =>
    if comment && isLineChar c then skipSpace true rest
    else if isBlankChar c || c = '\n' || startsBreak c rest then skipSpace false rest
    else if c = '#' then skipSpace true rest
    else c :: rest

/-- Read the items of an array, each by `value`, up to the closing bracket. -/
def items? (value : List Char → Option (Item × List Char)) (cs : List Char) :
    Option (List Item × List Char) :=
  match skipSpace false cs with
  | ']' :: rest => some ([], rest)
  | start =>
    match value start with
    | none => none
    | some (item, rest) =>
      match skipSpace false rest with
      | ']' :: rest => some ([item], rest)
      | ',' :: rest =>
        if rest.length < cs.length then
          (items? value rest).map fun (items, rest) => (item :: items, rest)
        else none
      | _ => none
termination_by cs.length

/-- Read the entries of a table between braces, each value by `value`, up to the closing brace. -/
def members? (value : List Char → Option (Item × List Char)) (entries : Entries) (cs : List Char) :
    Option (Entries × List Char) :=
  match dotted? cs with
  | some ((path, key), '=' :: rest) =>
    match value (skipBlanks rest) with
    | none => none
    | some (item, rest) =>
      match assign path key item .closed entries with
      | none => none
      | some entries =>
        match skipBlanks rest with
        | '}' :: rest => some (entries, rest)
        | ',' :: rest => if rest.length < cs.length then members? value entries rest else none
        | _ => none
  | _ => none
termination_by cs.length

/-- Read a value in which `room` arrays and tables may nest. -/
def value? : Nat → List Char → Option (Item × List Char)
  | room, cs =>
    match cs with
    | '[' :: rest =>
      match room with
      | 0 => none
      | room + 1 => (items? (value? room) rest).map fun (items, rest) => (.array items, rest)
    | '{' :: rest =>
      match room with
      | 0 => none
      | room + 1 =>
        match skipBlanks rest with
        | '}' :: rest => some (.table .closed [], rest)
        | _ =>
          (members? (value? room) [] rest).map fun (entries, rest) =>
            (.table .closed entries, rest)
    | _ => (scalar? cs).map fun (value, rest) => (.scalar value, rest)

/-! ## Documents -/

/-- Read the end of a line: blanks, a comment, and the end of the line or of the text. -/
def lineEnd? (cs : List Char) : Option (List Char) :=
  let behind := match skipBlanks cs with
    | '#' :: rest => rest.dropWhile isLineChar
    | rest => rest
  match behind with
  | [] => some []
  | _ => lineBreak? behind

/-- What is read so far: the tables, and the path of the table that keys are added to. -/
structure Progress where
  root : Entries
  current : List String

/-- Read one line that is neither empty nor a comment. -/
def line? (progress : Progress) (cs : List Char) : Option (Progress × List Char) :=
  match cs with
  | '[' :: '[' :: rest =>
    match dotted? rest with
    | some ((path, key), ']' :: ']' :: rest) =>
      (within false (openRow key) path .header progress.root).map fun root =>
        (⟨root, path ++ [key]⟩, rest)
    | _ => none
  | '[' :: rest =>
    match dotted? rest with
    | some ((path, key), ']' :: rest) =>
      (within false (openTable key) path .header progress.root).map fun root =>
        (⟨root, path ++ [key]⟩, rest)
    | _ => none
  | _ =>
    match dotted? cs with
    | some ((path, key), '=' :: rest) =>
      match value? (nestingLimit - 1) (skipBlanks rest) with
      | some (item, rest) =>
        (within false (assign path key item) progress.current .header progress.root).map fun root =>
          ({ progress with root }, rest)
      | none => none
    | _ => none

/-- Read the lines of a document. -/
def document? (progress : Progress) (cs : List Char) : Option Entries :=
  match skipBlanks cs with
  | [] => some progress.root
  | start =>
    match lineEnd? start with
    | some rest => if rest.length < cs.length then document? progress rest else none
    | none =>
      match line? progress start with
      | none => none
      | some (progress, rest) =>
        match lineEnd? rest with
        | some rest => if rest.length < cs.length then document? progress rest else none
        | none => none
termination_by cs.length

/-- Read a text, which may start with a byte order mark. -/
def read? (text : String) : Option Entries :=
  let cs := match text.toList with
    | '\uFEFF' :: rest => rest
    | cs => cs
  document? ⟨[], []⟩ cs

end CdkStacks.Toml
