import CdkStacks.Files.Path

/-!
# Layout of source files

Source files are written step by step. Files nest: what is written goes to the file opened last
until it is closed. Blocks nest inside a file and decide the indentation of its lines.

* `Step` is one step, `Step.openBlock` and `Step.closeBlock` are the common blocks;
* `blanks` counts the blanks in front of a line, in a machine word; `tooWide` are the lines that no
  text has room for;
* `Writer.step` does one step. A step that does not fit is a `Misuse`;
* `Writer.run` does the steps in order and stops at the first misuse;
* `Writer.finish` gives the closed files when no file is left open.
-/

namespace CdkStacks.TypeScript

open CdkStacks.Files (FilePath)

/-! ## Steps -/

/-- A step of writing. -/
inductive Step where
  /-- Start a file; what follows goes to it. -/
  | openFile (path : FilePath)
  /-- End the file opened last. -/
  | closeFile (path : FilePath)
  | line (text : String)
  /-- Write a line, then indent. -/
  | indent (text : String)
  /-- Unindent, then write a line. -/
  | unindent (text : String)
  deriving DecidableEq, Repr

namespace Step

/-- An empty line. -/
def blank : Step := .line ""

/-- Open a block behind a header. -/
def openBlock (header : String) : Step :=
  .indent (if header = "" then "\x7b" else header ++ " \x7b")

/-- Close a block with a brace. -/
def closeBlock : Step := .unindent "\x7d"

end Step

/-! ## Files -/

/-- A finished file. -/
structure File where
  path : FilePath
  lines : List String
  deriving DecidableEq, Repr

/-- The contents of a file: its lines, each ended by a line feed, and one line feed when it has no
line. -/
def File.contents (file : File) : String :=
  "\n".intercalate file.lines ++ "\n"

/-- A file that is still open. -/
structure Draft where
  path : FilePath
  lines : List String
  /-- How many blocks are open. -/
  depth : Nat
  deriving DecidableEq, Repr

/-- The number of blanks in front of a line. It is a machine word: the product wraps around. -/
def blanks (width depth : Nat) : Nat :=
  depth * width % UInt64.size

/-- The most bytes that a text may have, which is half of what a machine word can count. -/
def maxBytes : Nat := UInt64.size / 2 - 1

/-- Whether a line needs more blanks than a text may have. An empty line needs none. -/
def tooWide (width depth : Nat) (text : String) : Bool :=
  text ≠ "" && maxBytes < blanks width depth

/-- A line at a depth; an empty line is not indented. -/
def indented (width depth : Nat) (text : String) : String :=
  if text = "" then "" else String.ofList (List.replicate (blanks width depth) ' ') ++ text

/-- Add a line at the current depth. -/
def Draft.push (draft : Draft) (width : Nat) (text : String) : Draft :=
  { draft with lines := draft.lines ++ [indented width draft.depth text] }

/-- Open a block. -/
def Draft.deepen (draft : Draft) : Draft :=
  { draft with depth := draft.depth + 1 }

/-! ## Misuse -/

/-- Why a step does not fit. -/
inductive Misuse where
  /-- There is no file to write to. -/
  | noFile
  /-- There is no block to close. -/
  | noBlock (path : FilePath)
  /-- There is no file to close. -/
  | nothingToClose (path : FilePath)
  | notInnermost (path innermost : FilePath)
  | blocksOpen (path : FilePath) (count : Nat)
  | neverClosed (path : FilePath)
  /-- A text has no room for the blanks of a line. -/
  | tooWide
  deriving DecidableEq, Repr

/-- The wording of a misuse. -/
def Misuse.message : Misuse → String
  | noFile => "no file is open"
  | noBlock path => "unbalanced block close in " ++ path.text
  | nothingToClose path => "cannot close " ++ path.text ++ ": no file is open"
  | notInnermost path innermost =>
    "cannot close " ++ path.text ++ ": innermost open file is " ++ innermost.text
  | blocksOpen path count =>
    "cannot close " ++ path.text ++ ": " ++ toString count ++ " block(s) still open"
  | neverClosed path => path.text ++ " was never closed"
  | tooWide => "capacity overflow"

/-! ## Writer -/

/-- The files written so far. -/
structure Writer where
  /-- The number of blanks per level. -/
  width : Nat
  /-- The open files, the innermost first. -/
  opened : List Draft
  /-- The closed files, in closing order. -/
  closed : List File
  deriving DecidableEq, Repr

namespace Writer

/-- A writer without files. -/
def new (width : Nat) : Writer :=
  { width, opened := [], closed := [] }

/-- Do one step. A misuse leaves the writer unchanged, except that a file which could not be closed
is given up, and that a block is closed although its last line is too wide. -/
def step (writer : Writer) : Step → Writer × Option Misuse
  | .openFile path => ({ writer with opened := ⟨path, [], 0⟩ :: writer.opened }, none)
  | .closeFile path =>
    match writer.opened with
    | [] => (writer, some (.nothingToClose path))
    | draft :: rest =>
      let left := { writer with opened := rest }
      if !draft.path.same path then (left, some (.notInnermost path draft.path))
      else if draft.depth ≠ 0 then (left, some (.blocksOpen draft.path draft.depth))
      else ({ left with closed := writer.closed ++ [⟨draft.path, draft.lines⟩] }, none)
  | .line text =>
    match writer.opened with
    | [] => (writer, some .noFile)
    | draft :: rest =>
      if tooWide writer.width draft.depth text then (writer, some .tooWide)
      else ({ writer with opened := draft.push writer.width text :: rest }, none)
  | .indent text =>
    match writer.opened with
    | [] => (writer, some .noFile)
    | draft :: rest =>
      if tooWide writer.width draft.depth text then (writer, some .tooWide)
      else ({ writer with opened := (draft.push writer.width text).deepen :: rest }, none)
  | .unindent text =>
    match writer.opened with
    | [] => (writer, some .noFile)
    | draft :: rest =>
      match draft.depth with
      | 0 => (writer, some (.noBlock draft.path))
      | depth + 1 =>
        let shallow := { draft with depth }
        if tooWide writer.width depth text then
          ({ writer with opened := shallow :: rest }, some .tooWide)
        else ({ writer with opened := shallow.push writer.width text :: rest }, none)

/-- Do one step, or fail with its misuse. -/
def step? (writer : Writer) (step : Step) : Except Misuse Writer :=
  match writer.step step with
  | (next, none) => .ok next
  | (_, some misuse) => .error misuse

/-- Do the steps in order, up to the first misuse. -/
def run (writer : Writer) (steps : List Step) : Except Misuse Writer :=
  steps.foldlM step? writer

/-- The closed files, when no file is left open. -/
def finish (writer : Writer) : Except Misuse (List File) :=
  match writer.opened with
  | [] => .ok writer.closed
  | draft :: _ => .error (.neverClosed draft.path)

end Writer

/-- The files that the steps write, from a writer without files. -/
def layOut (width : Nat) (steps : List Step) : Except Misuse (List File) := do
  (← (Writer.new width).run steps).finish

end CdkStacks.TypeScript
