import CdkStacks.Document.Yaml.Scalar
import CdkStacks.Document.Yaml.Tag

/-!
# Tokens of a YAML text

The text of a document as a list of tokens. Indentation becomes tokens that open and close blocks,
and a key without a mark of its own is found when its colon is met: until then every place where
such a key may have started is remembered.

* `Token` is a token; the end of the list is the end of the text;
* `Scanner` is the state of the scan: the place, the tokens so far, the open indentations and the
  possible keys, one for each level of flow collections;
* `Scanner.step?` reads the next token, `Token.scan?` all tokens of a text.
-/

namespace CdkStacks.Document.Yaml

/-- A token. -/
inductive Token where
  | directive (d : Directive)
  | documentStart
  | documentEnd
  | blockSequenceStart
  | blockMappingStart
  | blockEnd
  | flowSequenceStart
  | flowSequenceEnd
  | flowMappingStart
  | flowMappingEnd
  | blockEntry
  | flowEntry
  | key
  | value
  | alias (name : String)
  | anchor (name : String)
  | tag (t : Tag)
  | scalar (text : String) (plain : Bool)

/-- A place where a key may have started. -/
structure KeyStart where
  /-- Whether only a key can stand there. -/
  required : Bool
  /-- The number of tokens before it. -/
  token : Nat
  index : Nat
  line : Nat
  column : Nat

/-- The state of a scan. -/
structure Scanner where
  cursor : Cursor
  tokens : Array Token := #[]
  /-- How many flow collections are open. -/
  flow : Nat := 0
  /-- The column of the innermost open block, `-1` when there is none. -/
  indent : Int := -1
  /-- The columns of the blocks around it, innermost first. -/
  indents : List Int := []
  /-- Whether a key may start here. -/
  keyAllowed : Bool := true
  /-- The possible key of each level of flow collections, innermost first. -/
  keys : List (Option KeyStart) := [none]

namespace Scanner

/-! ## White space -/

/-- Skip white space and comments up to the next token. A line break outside flow collections
allows a key. A tab is white space only where no key can start. -/
def skipTo (flow keyAllowed : Bool) (c : Cursor) : Bool × Cursor :=
  let d := if c.column = 0 && c.peek = some '\ufeff' then c.skip else c
  let d := d.skipWhile fun x => x = ' ' || ((flow || !keyAllowed) && x = '\t')
  let d := d.skipComment
  if d.peek.any isBreak then
    let next := d.takeBreak.2
    if _h : next.rest.length < c.rest.length then skipTo flow (!flow || keyAllowed) next
    else (keyAllowed, d)
  else (keyAllowed, d)
termination_by c.rest.length
decreasing_by exact _h

/-! ## Tokens and indentation -/

/-- Add a token. -/
def push (s : Scanner) (t : Token) : Scanner :=
  { s with tokens := s.tokens.push t }

/-- Open a block at `column` if that is right of the innermost block. The token goes to position
`at?`, or to the end. -/
def openBlock (s : Scanner) (column : Nat) (at? : Option Nat) (t : Token) : Scanner :=
  if s.flow = 0 && s.indent < column then
    { s with
      indents := s.indent :: s.indents
      indent := column
      tokens := match at? with
        | some i => s.tokens.insertIdxIfInBounds i t
        | none => s.tokens.push t }
  else s

/-- Close the blocks right of `column`: their tokens, the new innermost column and the rest. -/
def closing (column : Int) : Int → List Int → Array Token → Array Token × Int × List Int
  | indent, [], tokens => (tokens, indent, [])
  | indent, outer :: more, tokens =>
    if column < indent then closing column outer more (tokens.push .blockEnd)
    else (tokens, indent, outer :: more)

/-- Close the blocks right of `column`. Inside flow collections indentation has no meaning. -/
def closeBlocks (s : Scanner) (column : Int) : Scanner :=
  if s.flow = 0 then
    let (tokens, indent, indents) := closing column s.indent s.indents s.tokens
    { s with tokens := tokens, indent := indent, indents := indents }
  else s

/-! ## Possible keys -/

/-- Give up the possible key of the innermost level; a required key cannot be given up. -/
def dropKey? (s : Scanner) : Option Scanner :=
  match s.keys with
  | some k :: keys => if k.required then none else some { s with keys := none :: keys }
  | _ => some s

/-- A key that starts here. At the column of the innermost block nothing else can start. -/
def keyHere (s : Scanner) : KeyStart where
  required := s.flow = 0 && s.indent = s.cursor.column
  token := s.tokens.size
  index := s.cursor.index
  line := s.cursor.line
  column := s.cursor.column

/-- Remember this place as a possible key, if a key is allowed. -/
def markKey? (s : Scanner) : Option Scanner :=
  if s.keyAllowed then
    s.dropKey?.map fun s => { s with keys := some s.keyHere :: s.keys.tail }
  else some s

/-- Whether a key that started at `k` can still end at the cursor: on the same line and within
1024 characters. -/
def KeyStart.reaches (k : KeyStart) (c : Cursor) : Bool :=
  k.line = c.line && c.index ≤ k.index + 1024

/-- Give up the possible keys that can no longer end here. -/
def dropOldKeys? (c : Cursor) : List (Option KeyStart) → Option (List (Option KeyStart))
  | [] => some []
  | none :: keys => (dropOldKeys? c keys).map (none :: ·)
  | some k :: keys =>
    if KeyStart.reaches k c then (dropOldKeys? c keys).map (some k :: ·)
    else if k.required then none
    else (dropOldKeys? c keys).map (none :: ·)

/-! ## Reading one token -/

/-- Skip one character and add a token. -/
def mark (s : Scanner) (t : Token) : Scanner :=
  { s with cursor := s.cursor.skip, tokens := s.tokens.push t }

/-- A document mark closes all blocks. -/
def documentMark? (s : Scanner) (t : Token) : Option Scanner := do
  let s ← (s.closeBlocks (-1)).dropKey?
  let s := { s with keyAllowed := false, cursor := s.cursor.skip.skip.skip }
  some (s.push t)

/-- A directive closes all blocks. -/
def directiveLine? (s : Scanner) : Option Scanner := do
  let s ← (s.closeBlocks (-1)).dropKey?
  let (d, rest) ← directive? s.cursor.rest.tail
  let cursor ← (s.cursor.moveTo rest).endLine?
  some { s with keyAllowed := false, cursor := cursor, tokens := s.tokens.push (.directive d) }

/-- Open a flow collection. -/
def openFlow? (s : Scanner) (t : Token) : Option Scanner := do
  let s ← s.markKey?
  some (mark { s with flow := s.flow + 1, keys := none :: s.keys, keyAllowed := true } t)

/-- Close a flow collection. -/
def closeFlow? (s : Scanner) (t : Token) : Option Scanner := do
  let s ← s.dropKey?
  let s := if s.flow = 0 then s else { s with flow := s.flow - 1, keys := s.keys.tail }
  some (mark { s with keyAllowed := false } t)

/-- The comma of a flow collection. -/
def flowEntry? (s : Scanner) : Option Scanner := do
  let s ← s.dropKey?
  some (mark { s with keyAllowed := true } .flowEntry)

/-- The hyphen of a block sequence opens the sequence if need be. -/
def blockEntry? (s : Scanner) : Option Scanner := do
  let s ←
    if s.flow ≠ 0 then some s
    else if s.keyAllowed then some (s.openBlock s.cursor.column none .blockSequenceStart)
    else none
  let s ← s.dropKey?
  some (mark { s with keyAllowed := true } .blockEntry)

/-- The question mark before a key opens a block mapping if need be. -/
def keyMark? (s : Scanner) : Option Scanner := do
  let s ←
    if s.flow ≠ 0 then some s
    else if s.keyAllowed then some (s.openBlock s.cursor.column none .blockMappingStart)
    else none
  let s ← s.dropKey?
  some (mark { s with keyAllowed := s.flow = 0 } .key)

/-- The colon before a value. A possible key becomes a key: its token, and the start of a block
mapping if need be, go before it. -/
def valueMark? (s : Scanner) : Option Scanner :=
  match s.keys with
  | some k :: keys =>
    let s := { s with tokens := s.tokens.insertIdxIfInBounds k.token .key }
    let s := s.openBlock k.column (some k.token) .blockMappingStart
    some (mark { s with keys := none :: keys, keyAllowed := false } .value)
  | _ =>
    if s.flow ≠ 0 then some (mark { s with keyAllowed := false } .value)
    else if s.keyAllowed then
      let s := s.openBlock s.cursor.column none .blockMappingStart
      some (mark { s with keyAllowed := true } .value)
    else none

/-- The name after the mark of an anchor or an alias. -/
def anchorName? (cs : List Char) : Option (String × List Char) :=
  let (name, rest) := cs.span isWordChar
  let ended := isGap rest.head? ||
    rest.head?.any (fun c => "?:,]\x7d%@`".toList.contains c)
  if name.isEmpty || !ended then none else some (String.ofList name, rest)

/-- An anchor or an alias. -/
def anchor? (s : Scanner) (t : String → Token) : Option Scanner := do
  let s ← s.markKey?
  let (name, rest) ← anchorName? s.cursor.rest.tail
  some { s with
    keyAllowed := false, cursor := s.cursor.moveTo rest, tokens := s.tokens.push (t name) }

/-- A tag. -/
def tagMark? (s : Scanner) : Option Scanner := do
  let s ← s.markKey?
  let (t, rest) ← tag? (s.flow ≠ 0) s.cursor.rest
  some { s with
    keyAllowed := false, cursor := s.cursor.moveTo rest, tokens := s.tokens.push (.tag t) }

/-- A block scalar. -/
def blockScalar? (s : Scanner) (folded : Bool) : Option Scanner := do
  let s ← s.dropKey?
  let (text, cursor) ← block? folded s.indent s.cursor.skip
  some { s with keyAllowed := true, cursor := cursor, tokens := s.tokens.push (.scalar text false) }

/-- A quoted scalar. -/
def quotedScalar? (s : Scanner) (quote : Char) : Option Scanner := do
  let s ← s.markKey?
  let (text, cursor) ← quoted? quote s.cursor.skip
  some { s with
    keyAllowed := false, cursor := cursor, tokens := s.tokens.push (.scalar text false) }

/-- A plain scalar. A key may follow the line break after it. -/
def plainScalar? (s : Scanner) : Option Scanner := do
  let s ← s.markKey?
  let (text, broken, cursor) ← plain? (s.flow ≠ 0) s.indent s.cursor
  some { s with
    keyAllowed := broken, cursor := cursor, tokens := s.tokens.push (.scalar text true) }

/-- The characters that cannot start a plain scalar. -/
def isIndicator (c : Char) : Bool :=
  "-?:,[]{}#&*!|>'\"%@`".toList.contains c

/-- Whether a plain scalar starts with `c`, followed by `next`. -/
def startsPlain (flow : Bool) (c : Char) (next : Option Char) : Bool :=
  !(isIndicator c || isGap (some c)) || (c = '-' && !(next.any isBlank)) ||
    (!flow && (c = '?' || c = ':') && !isGap next)

/-- Read the token that starts with `c`, followed by `rest`. -/
def token? (s : Scanner) (c : Char) (rest : List Char) : Option Scanner :=
  let next := rest.head?
  let flow : Bool := s.flow ≠ 0
  if c = '%' && s.cursor.column = 0 then s.directiveLine?
  else if s.cursor.atMark '-' then s.documentMark? .documentStart
  else if s.cursor.atMark '.' then s.documentMark? .documentEnd
  else if c = '[' then s.openFlow? .flowSequenceStart
  else if c = '{' then s.openFlow? .flowMappingStart
  else if c = ']' then s.closeFlow? .flowSequenceEnd
  else if c = '}' then s.closeFlow? .flowMappingEnd
  else if c = ',' then s.flowEntry?
  else if c = '-' && isGap next then s.blockEntry?
  else if c = '?' && (flow || isGap next) then s.keyMark?
  else if c = ':' && (flow || isGap next) then s.valueMark?
  else if c = '*' then s.anchor? .alias
  else if c = '&' then s.anchor? .anchor
  else if c = '!' then s.tagMark?
  else if c = '|' && !flow then s.blockScalar? false
  else if c = '>' && !flow then s.blockScalar? true
  else if c = '\'' || c = '"' then s.quotedScalar? c
  else if startsPlain flow c next then s.plainScalar?
  else none

/-- Skip to the next token: give up old keys and close the blocks that end before it. -/
def advance? (s : Scanner) : Option Scanner := do
  let (keyAllowed, cursor) := skipTo (s.flow ≠ 0) s.keyAllowed s.cursor
  let keys ← dropOldKeys? cursor s.keys
  let s := { s with keyAllowed := keyAllowed, cursor := cursor, keys := keys }
  some (s.closeBlocks cursor.column)

/-- Read all tokens from here on. -/
def run? (s : Scanner) : Option (List Token) :=
  match s.advance? with
  | none => none
  | some t =>
    match t.cursor.rest with
    | [] => (t.closeBlocks (-1)).dropKey?.map (·.tokens.toList)
    | c :: rest =>
      match t.token? c rest with
      | none => none
      | some u => if u.cursor.rest.length < s.cursor.rest.length then run? u else none
termination_by s.cursor.rest.length

end Scanner

/-- The tokens of a text, or `none` where it has none. -/
def Token.scan? (text : String) : Option (List Token) :=
  let cs := text.toList
  if cs.all isAllowed then Scanner.run? { cursor := { rest := cs } } else none

end CdkStacks.Document.Yaml
