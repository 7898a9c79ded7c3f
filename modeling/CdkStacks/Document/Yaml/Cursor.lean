/-!
# A place in a YAML text

A cursor is the rest of the text with the place where it starts. Indentation is counted in columns,
and a key that needs no mark of its own must fit one line, so both column and line are kept.

* `isBlank`, `isBreak` are the two kinds of white space;
* `Cursor.skip`, `Cursor.skipWhile`, `Cursor.moveTo` advance inside a line;
* `Cursor.takeBreak` advances over a line break and gives its text: every break but the two
  Unicode separators reads as a line feed.
-/

namespace CdkStacks.Document.Yaml

/-- A space or a tab. -/
def isBlank (c : Char) : Bool :=
  c = ' ' || c = '\t'

/-- A line break. -/
def isBreak (c : Char) : Bool :=
  c = '\r' || c = '\n' || c = '\u0085' || c = '\u2028' || c = '\u2029'

/-- Whether a character separates words: a blank, a break or the end of the text. -/
def isGap : Option Char → Bool
  | none => true
  | some c => isBlank c || isBreak c

/-- A letter, a digit, an underscore or a hyphen. -/
def isWordChar (c : Char) : Bool :=
  c.isAlphanum || c = '_' || c = '-'

/-- Whether a character may stand in a document at all. -/
def isAllowed (c : Char) : Bool :=
  let n := c.toNat
  n = 0x09 || n = 0x0A || n = 0x0D || (0x20 ≤ n && n ≤ 0x7E) || n = 0x85 ||
    (0xA0 ≤ n && n ≤ 0xD7FF) || (0xE000 ≤ n && n ≤ 0xFFFD) || 0x10000 ≤ n

/-- The rest of a text and the place where it starts. -/
structure Cursor where
  rest : List Char
  index : Nat := 0
  line : Nat := 0
  column : Nat := 0

namespace Cursor

/-- The next character. -/
def peek (c : Cursor) : Option Char :=
  c.rest.head?

/-- Move inside the line to `rest`, which is an end of the current rest. -/
def moveTo (c : Cursor) (rest : List Char) : Cursor :=
  let n := c.rest.length - rest.length
  { c with rest := rest, index := c.index + n, column := c.column + n }

/-- Skip one character inside the line. -/
def skip (c : Cursor) : Cursor :=
  { c with rest := c.rest.tail, index := c.index + 1, column := c.column + 1 }

/-- Skip the characters that satisfy `p`, none of them a line break. -/
def skipWhile (c : Cursor) (p : Char → Bool) : Cursor :=
  c.moveTo (c.rest.dropWhile p)

/-- The line break at the cursor, as text, and the start of the next line. Without a break the
cursor stays. -/
def takeBreak (c : Cursor) : List Char × Cursor :=
  let next (rest : List Char) (n : Nat) : Cursor :=
    { rest := rest, index := c.index + n, line := c.line + 1, column := 0 }
  match c.rest with
  | '\r' :: '\n' :: rest => (['\n'], next rest 2)
  | b :: rest =>
    if b = '\u2028' || b = '\u2029' then ([b], next rest 1)
    else if isBreak b then (['\n'], next rest 1)
    else ([], c)
  | [] => ([], c)

/-- Whether a document mark (three hyphens or three dots) starts the line here. -/
def atMark (c : Cursor) (mark : Char) : Bool :=
  c.column = 0 &&
    match c.rest with
    | x :: y :: z :: rest => x = mark && y = mark && z = mark && isGap rest.head?
    | _ => false

/-- Whether either document mark starts the line here. -/
def atAnyMark (c : Cursor) : Bool :=
  c.atMark '-' || c.atMark '.'

/-- Skip a comment, if one starts here, up to the end of the line. -/
def skipComment (c : Cursor) : Cursor :=
  if c.peek = some '#' then c.skipWhile (fun x => !isBreak x) else c

/-- Skip blanks and a comment; there must be nothing else on the line, whose break is skipped. -/
def endLine? (c : Cursor) : Option Cursor :=
  let c := (c.skipWhile isBlank).skipComment
  match c.peek with
  | none => some c
  | some x => if isBreak x then some c.takeBreak.2 else none

end Cursor

end CdkStacks.Document.Yaml
