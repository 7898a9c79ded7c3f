import CdkStacks.Document.Yaml.Cursor
import CdkStacks.Text.Digit

/-!
# Scalars of a YAML text

How the text of a scalar is read in its three styles.

* `quoted?` reads a scalar in single or double quotes, after the opening quote;
* `plain?` reads a scalar without quotes;
* `block?` reads a literal (`|`) or folded (`>`) scalar, after its indicator.

Line breaks inside a quoted or plain scalar are folded: a single break reads as a space, and of
several breaks the first is dropped. `Fold` is the white space met since the last visible
character. All readers give `none` where the text is no scalar.
-/

namespace CdkStacks.Document.Yaml

open CdkStacks.Text

/-! ## Folding -/

/-- White space inside a scalar. -/
structure Fold where
  /-- Blanks before any break, last first. -/
  blanks : List Char := []
  /-- Whether a break has been met. -/
  broken : Bool := false
  /-- The first break. -/
  first : List Char := []
  /-- The breaks after the first. -/
  more : List Char := []

/-- What white space reads as, put before the characters `text`, which are kept last first. -/
def Fold.join (f : Fold) (text : List Char) : List Char :=
  if f.broken then
    if f.first.head? = some '\n' then
      if f.more.isEmpty then ' ' :: text else f.more.reverse ++ text
    else f.more.reverse ++ (f.first.reverse ++ text)
  else f.blanks ++ text

/-- Collect white space. After a break a tab left of column `margin` is refused. -/
def collect? (margin : Int) (f : Fold) (c : Cursor) : Option (Fold × Cursor) :=
  match c.rest with
  | [] => some (f, c)
  | x :: rest =>
    if isBlank x then
      if f.broken && x = '\t' && (c.column : Int) < margin then none
      else
        let next := { c with rest := rest, index := c.index + 1, column := c.column + 1 }
        if next.rest.length < c.rest.length then
          collect? margin (if f.broken then f else { f with blanks := x :: f.blanks }) next
        else none
    else if isBreak x then
      let (text, next) := c.takeBreak
      if next.rest.length < c.rest.length then
        collect? margin
          (if f.broken then { f with more := f.more ++ text }
           else { f with blanks := [], broken := true, first := text })
          next
      else none
    else some (f, c)
termination_by c.rest.length

/-! ## Quoted scalars -/

/-- The character of a one-letter escape. -/
def escape? : Char → Option Char
  | '0' => some '\x00'
  | 'a' => some '\x07'
  | 'b' => some '\x08'
  | 't' => some '\t'
  | '\t' => some '\t'
  | 'n' => some '\n'
  | 'v' => some '\x0b'
  | 'f' => some '\x0c'
  | 'r' => some '\r'
  | 'e' => some '\x1b'
  | ' ' => some ' '
  | '"' => some '"'
  | '/' => some '/'
  | '\\' => some '\\'
  | 'N' => some '\u0085'
  | '_' => some '\u00a0'
  | 'L' => some '\u2028'
  | 'P' => some '\u2029'
  | _ => none

/-- How many hexadecimal digits follow an escape letter. -/
def escapeLength? : Char → Option Nat
  | 'x' => some 2
  | 'u' => some 4
  | 'U' => some 8
  | _ => none

/-- What ends a run of visible characters in a quoted scalar. -/
inductive RunEnd where
  /-- A blank, a break, the closing quote or the end of the text. -/
  | visible
  /-- A backslash before a line break; both are consumed with the break still ahead. -/
  | escapedBreak

/-- Read visible characters of a quoted scalar onto `text`, last first. -/
def quotedRun? (quote : Char) (text : List Char) (cs : List Char) :
    Option (List Char × RunEnd × List Char) :=
  match cs with
  | [] => some (text, .visible, [])
  | x :: rest =>
    if isBlank x || isBreak x then some (text, .visible, cs)
    else if x = '\'' && quote = '\'' then
      match rest with
      | '\'' :: rest => quotedRun? quote ('\'' :: text) rest
      | _ => some (text, .visible, cs)
    else if x = quote then some (text, .visible, cs)
    else if x = '\\' && quote = '"' then
      match rest with
      | [] => none
      | e :: rest =>
        if isBreak e then some (text, .escapedBreak, e :: rest)
        else
          match escapeLength? e with
          | some n =>
            let digits := rest.take n
            if digits.length < n then none
            else
              match (readNat? 16 digits).bind scalar? with
              | some ch => quotedRun? quote (ch :: text) (rest.drop n)
              | none => none
          | none =>
            match escape? e with
            | some ch => quotedRun? quote (ch :: text) rest
            | none => none
    else quotedRun? quote (x :: text) rest
termination_by cs.length
decreasing_by all_goals simp_all; try omega

/-- Read the rest of a quoted scalar onto `text`, last first. -/
def quotedFrom? (quote : Char) (text : List Char) (c : Cursor) : Option (String × Cursor) :=
  if c.atAnyMark || c.rest.isEmpty then none
  else
    match quotedRun? quote text c.rest with
    | none => none
    | some (text, runEnd, rest) =>
      let (fold, next) : Fold × Cursor := match runEnd with
        | .visible => ({}, c.moveTo rest)
        | .escapedBreak => ({ broken := true }, (c.moveTo rest).takeBreak.2)
      if next.peek = some quote then some (String.ofList text.reverse, next.skip)
      else
        match collect? 0 fold next with
        | none => none
        | some (fold, next) =>
          if next.rest.length < c.rest.length then quotedFrom? quote (fold.join text) next
          else none
termination_by c.rest.length

/-- Read a quoted scalar after its opening quote. -/
def quoted? (quote : Char) (c : Cursor) : Option (String × Cursor) :=
  quotedFrom? quote [] c

/-! ## Plain scalars -/

/-- The indicators of flow collections. -/
def isFlowIndicator (c : Char) : Bool :=
  c = ',' || c = '[' || c = ']' || c = '{' || c = '}'

/-- Read visible characters of a plain scalar onto `text`, last first. A colon before white space
ends it; inside a flow collection a flow indicator ends it too, and a colon right before an
indicator is refused. -/
def plainRun? (flow : Bool) (text : List Char) : List Char → Option (List Char × List Char)
  | [] => some (text, [])
  | x :: rest =>
    let next := rest.head?
    if isBlank x || isBreak x then some (text, x :: rest)
    else if flow && x = ':' && next.any (fun n => isFlowIndicator n || n = '?') then none
    else if (x = ':' && isGap next) || (flow && isFlowIndicator x) then some (text, x :: rest)
    else plainRun? flow (x :: text) rest

/-- The end of a plain scalar. -/
structure PlainEnd where
  /-- The characters, last first. -/
  text : List Char
  /-- Whether the scalar is followed by a line break. -/
  broken : Bool
  cursor : Cursor

/-- Read a plain scalar from `c` on, after the white space `fold`. A line that starts left of
`margin` does not belong to a scalar outside flow collections. -/
def plainFrom? (flow : Bool) (margin : Int) (text : List Char) (fold : Fold) (c : Cursor) :
    Option PlainEnd :=
  if c.atAnyMark || c.peek = some '#' then some ⟨text, fold.broken, c⟩
  else
    match plainRun? flow [] c.rest with
    | none => none
    | some (run, rest) =>
      if run.isEmpty then some ⟨text, fold.broken, c⟩
      else
        let text := run ++ fold.join text
        let next := c.moveTo rest
        if !(next.peek.any fun x => isBlank x || isBreak x) then some ⟨text, false, next⟩
        else
          match collect? margin {} next with
          | none => none
          | some (fold, next) =>
            if !flow && (next.column : Int) < margin then some ⟨text, fold.broken, next⟩
            else if next.rest.length < c.rest.length then plainFrom? flow margin text fold next
            else none
termination_by c.rest.length

/-- Read a plain scalar: its text, whether a line break follows it, and the place after it. -/
def plain? (flow : Bool) (indent : Int) (c : Cursor) : Option (String × Bool × Cursor) :=
  (plainFrom? flow (indent + 1) [] {} c).map fun e =>
    (String.ofList e.text.reverse, e.broken, e.cursor)

/-! ## Block scalars -/

/-- What happens to the line breaks at the end of a block scalar. -/
inductive Chomping where
  /-- One break is kept. -/
  | clip
  /-- None is kept. -/
  | strip
  /-- All are kept. -/
  | keep
  deriving DecidableEq

/-- The chomping of an indicator. -/
def chomping? : Option Char → Option Chomping
  | some '+' => some .keep
  | some '-' => some .strip
  | _ => none

/-- The header of a block scalar: chomping and indentation indicators in either order. -/
def blockHeader? (cs : List Char) : Option (Chomping × Nat × List Char) :=
  match chomping? cs.head? with
  | some chomping =>
    match cs.tail with
    | [] => some (chomping, 0, [])
    | d :: rest =>
      match digit? 10 d with
      | some 0 => none
      | some n => some (chomping, n, rest)
      | none => some (chomping, 0, d :: rest)
  | none =>
    match cs with
    | [] => some (.clip, 0, [])
    | d :: rest =>
      match digit? 10 d with
      | some 0 => none
      | some n =>
        match chomping? rest.head? with
        | some chomping => some (chomping, n, rest.tail)
        | none => some (.clip, n, rest)
      | none => some (.clip, 0, cs)

/-- Collect the breaks of empty lines onto `breaks`, and the greatest column reached. Without an
indentation (`indent = 0`) all spaces are skipped, otherwise those up to the indentation; a tab
among them is refused. -/
def emptyLines? (indent widest : Nat) (breaks : List Char) (c : Cursor) :
    Option (List Char × Nat × Cursor) :=
  let spaces := c.rest.takeWhile (· = ' ')
  let count := if indent = 0 then spaces.length else min spaces.length (indent - c.column)
  let next := c.moveTo (c.rest.drop count)
  let widest := max widest next.column
  match next.peek with
  | none => some (breaks, widest, next)
  | some x =>
    if x = '\t' && (indent = 0 || next.column < indent) then none
    else if isBreak x then
      let (text, after) := next.takeBreak
      if after.rest.length < c.rest.length then emptyLines? indent widest (breaks ++ text) after
      else none
    else some (breaks, widest, next)
termination_by c.rest.length

/-- The lines of a block scalar as they are read. -/
structure BlockLines where
  /-- The characters, last first. -/
  text : List Char := []
  /-- The break that ended the last line. -/
  ended : List Char := []
  /-- The breaks of the empty lines after it. -/
  empty : List Char := []
  /-- Whether the last line started with a blank. -/
  blank : Bool := false

/-- Read the lines of a block scalar of indentation `indent`. In a folded scalar the break between
two lines that start with no blank is folded. -/
def blockLines? (folded : Bool) (indent : Nat) (b : BlockLines) (c : Cursor) :
    Option (BlockLines × Cursor) :=
  match c.rest with
  | [] => some (b, c)
  | x :: _ =>
    if c.column ≠ indent then some (b, c)
    else
      let blank := isBlank x
      let text :=
        if folded && b.ended.head? = some '\n' && !b.blank && !blank then
          if b.empty.isEmpty then ' ' :: b.text else b.text
        else b.ended.reverse ++ b.text
      let line := c.rest.takeWhile (fun y => !isBreak y)
      let text := line.reverse ++ (b.empty.reverse ++ text)
      let (ended, next) := (c.moveTo (c.rest.dropWhile (fun y => !isBreak y))).takeBreak
      match emptyLines? indent 0 [] next with
      | none => none
      | some (empty, _, next) =>
        if next.rest.length < c.rest.length then
          blockLines? folded indent ⟨text, ended, empty, blank⟩ next
        else none
termination_by c.rest.length

/-- Read a block scalar after its indicator, in a block of indentation `parent` (`-1` at the top).
Without an indentation indicator the first non-empty line sets the indentation. -/
def block? (folded : Bool) (parent : Int) (c : Cursor) : Option (String × Cursor) := do
  let (chomping, increment, rest) ← blockHeader? c.rest
  let c ← (c.moveTo rest).endLine?
  let given : Nat :=
    if increment = 0 then 0
    else if 0 ≤ parent then parent.toNat + increment else increment
  let (empty, widest, c) ← emptyLines? given 0 [] c
  let indent := if given = 0 then max (max widest (parent + 1).toNat) 1 else given
  let (b, c) ← blockLines? folded indent { empty := empty } c
  let text := if chomping = .strip then b.text else b.ended.reverse ++ b.text
  let text := if chomping = .keep then b.empty.reverse ++ text else text
  some (String.ofList text.reverse, c)

end CdkStacks.Document.Yaml
