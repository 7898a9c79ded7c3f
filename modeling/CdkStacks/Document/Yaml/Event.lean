import CdkStacks.Document.Yaml.Token

/-!
# Events of a YAML text

The nodes of a document in the order in which they start and end. Aliases are still names here.

* `Event α` is an event whose aliases are named by `α`;
* `node?` reads one node; `room` bounds how deep collections may nest;
* `Event.ofTokens?` reads the only document of a text. An empty text gives no event at all.

The readers take the tokens that are left and the events so far, and give both after what they
read, or `none` where the tokens form no document.
-/

namespace CdkStacks.Document.Yaml

/-- What may stand before the content of a node. -/
structure Properties where
  anchor : Option String := none
  tag : Option String := none

/-- An event; `α` names the target of an alias. -/
inductive Event (α : Type) where
  | alias (target : α)
  | scalar (properties : Properties) (text : String) (plain : Bool)
  | sequenceStart (properties : Properties)
  | sequenceEnd
  | mappingStart (properties : Properties)
  | mappingEnd

/-- The tokens that are left and the events so far. -/
structure Progress where
  tokens : List Token
  events : Array (Event String)

namespace Progress

/-- Add an event. -/
def emit (p : Progress) (e : Event String) : Progress :=
  { p with events := p.events.push e }

/-- Add the event of a node that is not there: an empty scalar. -/
def emitEmpty (p : Progress) : Progress :=
  p.emit (.scalar {} "" true)

/-- Go on with other tokens. -/
def next (p : Progress) (tokens : List Token) : Progress :=
  { p with tokens := tokens }

/-- Whether fewer tokens are left than in `q`. -/
def Shorter (p q : Progress) : Prop := p.tokens.length < q.tokens.length

instance (p q : Progress) : Decidable (p.Shorter q) :=
  inferInstanceAs (Decidable (_ < _))

end Progress

/-- Where a node stands. -/
inductive Place where
  /-- In a block; `compact` when the node is part of a mapping, so that a sequence may stand at the
  column of its key. -/
  | block (compact : Bool)
  | flow
  deriving DecidableEq

/-- A reader of one node at a place. -/
abbrev NodeReader := Place → Progress → Option Progress

/-! ## Collections -/

/-- The items of a block sequence. -/
def blockItems? (node : NodeReader) (p : Progress) : Option Progress :=
  match p.tokens with
  | .blockEntry :: rest =>
    let after : Option Progress := match rest with
      | .blockEntry :: _ => some (p.next rest).emitEmpty
      | .blockEnd :: _ => some (p.next rest).emitEmpty
      | _ => node (.block false) (p.next rest)
    match after with
    | some q => if q.Shorter p then blockItems? node q else none
    | none => none
  | .blockEnd :: rest => some ((p.next rest).emit .sequenceEnd)
  | _ => none
termination_by p.tokens.length

/-- The items of a block sequence that stands at the column of its key. It ends before the next
key. -/
def compactItems? (node : NodeReader) (p : Progress) : Option Progress :=
  match p.tokens with
  | .blockEntry :: rest =>
    let after : Option Progress := match rest with
      | .blockEntry :: _ => some (p.next rest).emitEmpty
      | .key :: _ => some (p.next rest).emitEmpty
      | .value :: _ => some (p.next rest).emitEmpty
      | .blockEnd :: _ => some (p.next rest).emitEmpty
      | _ => node (.block false) (p.next rest)
    match after with
    | some q => if q.Shorter p then compactItems? node q else none
    | none => none
  | _ => some (p.emit .sequenceEnd)
termination_by p.tokens.length

/-- A key or a value of a block mapping; it may be missing. -/
def blockPart? (node : NodeReader) (p : Progress) : Option Progress :=
  match p.tokens with
  | .key :: _ => some p.emitEmpty
  | .value :: _ => some p.emitEmpty
  | .blockEnd :: _ => some p.emitEmpty
  | _ => node (.block true) p

/-- The entries of a block mapping. -/
def blockEntries? (node : NodeReader) (p : Progress) : Option Progress :=
  match p.tokens with
  | .key :: rest =>
    match blockPart? node (p.next rest) with
    | none => none
    | some q =>
      let after : Option Progress := match q.tokens with
        | .value :: rest => blockPart? node (q.next rest)
        | _ => some q.emitEmpty
      match after with
      | some q => if q.Shorter p then blockEntries? node q else none
      | none => none
  | .blockEnd :: rest => some ((p.next rest).emit .mappingEnd)
  | _ => none
termination_by p.tokens.length

/-- The value of a flow entry; `closing` tells the token that closes the collection. -/
def flowValue? (node : NodeReader) (closing : Token → Bool) (p : Progress) : Option Progress :=
  match p.tokens with
  | .value :: rest =>
    match rest with
    | .flowEntry :: _ => some (p.next rest).emitEmpty
    | t :: _ => if closing t then some (p.next rest).emitEmpty else node .flow (p.next rest)
    | [] => node .flow (p.next rest)
  | _ => some p.emitEmpty

/-- The token `]`. -/
def closesSequence : Token → Bool
  | .flowSequenceEnd => true
  | _ => false

/-- The token `}`. -/
def closesMapping : Token → Bool
  | .flowMappingEnd => true
  | _ => false

/-- A mapping of one entry inside a flow sequence, after the token of its key. Where the key is
missing, the token in its place is passed over. -/
def flowPair? (node : NodeReader) (p : Progress) : Option Progress := do
  let p := p.emit (.mappingStart {})
  let q ← match p.tokens with
    | .value :: rest => some (p.next rest).emitEmpty
    | .flowEntry :: rest => some (p.next rest).emitEmpty
    | .flowSequenceEnd :: rest => some (p.next rest).emitEmpty
    | _ => node .flow p
  let r ← flowValue? node closesSequence q
  some (r.emit .mappingEnd)

/-- The items of a flow sequence; `first` until one has been read. -/
def flowItems? (node : NodeReader) (first : Bool) (p : Progress) : Option Progress :=
  match p.tokens with
  | .flowSequenceEnd :: rest => some ((p.next rest).emit .sequenceEnd)
  | tokens =>
    let start : Option (List Token) := match first, tokens with
      | true, _ => some tokens
      | false, .flowEntry :: rest => some rest
      | false, _ => none
    match start with
    | none => none
    | some (.flowSequenceEnd :: rest) => some ((p.next rest).emit .sequenceEnd)
    | some (.key :: rest) =>
      match flowPair? node (p.next rest) with
      | some q => if q.Shorter p then flowItems? node false q else none
      | none => none
    | some tokens =>
      match node .flow (p.next tokens) with
      | some q => if q.Shorter p then flowItems? node false q else none
      | none => none
termination_by p.tokens.length

/-- The entries of a flow mapping; `first` until one has been read. -/
def flowEntries? (node : NodeReader) (first : Bool) (p : Progress) : Option Progress :=
  match p.tokens with
  | .flowMappingEnd :: rest => some ((p.next rest).emit .mappingEnd)
  | tokens =>
    let start : Option (List Token) := match first, tokens with
      | true, _ => some tokens
      | false, .flowEntry :: rest => some rest
      | false, _ => none
    match start with
    | none => none
    | some (.flowMappingEnd :: rest) => some ((p.next rest).emit .mappingEnd)
    | some (.key :: rest) =>
      let key : Option Progress := match rest with
        | .value :: _ => some (p.next rest).emitEmpty
        | .flowEntry :: _ => some (p.next rest).emitEmpty
        | .flowMappingEnd :: _ => some (p.next rest).emitEmpty
        | _ => node .flow (p.next rest)
      match key.bind (flowValue? node closesMapping) with
      | some q => if q.Shorter p then flowEntries? node false q else none
      | none => none
    | some tokens =>
      match node .flow (p.next tokens) with
      | some q => if q.Shorter p then flowEntries? node false q.emitEmpty else none
      | none => none
termination_by p.tokens.length
decreasing_by all_goals assumption

/-! ## Nodes -/

/-- Read the anchor and the tag of a node, in either order. -/
def properties? (declared : List (String × String)) :
    List Token → Option (Properties × List Token)
  | .anchor a :: .tag t :: rest => (t.expand? declared).map fun n => (⟨some a, some n⟩, rest)
  | .anchor a :: rest => some (⟨some a, none⟩, rest)
  | .tag t :: .anchor a :: rest => (t.expand? declared).map fun n => (⟨some a, some n⟩, rest)
  | .tag t :: rest => (t.expand? declared).map fun n => (⟨none, some n⟩, rest)
  | tokens => some ({}, tokens)

/-- Whether a node has an anchor or a tag. -/
def Properties.any (p : Properties) : Bool :=
  p.anchor.isSome || p.tag.isSome

/-- Read a node in which `room` collections may nest. A node with an anchor or a tag may have no
content. The tag `!` is one like any other, on a scalar too. -/
def node? (declared : List (String × String)) : Nat → NodeReader
  | room, place, p =>
    match p.tokens with
    | .alias name :: rest => some ((p.next rest).emit (.alias name))
    | _ =>
      match properties? declared p.tokens with
      | none => none
      | some (props, tokens) =>
        let empty : Option Progress :=
          if props.any then some ((p.next tokens).emit (.scalar props "" true)) else none
        match tokens, room with
        | .scalar text plain :: rest, _ => some ((p.next rest).emit (.scalar props text plain))
        | .blockEntry :: _, room + 1 =>
          if place = .block true then
            compactItems? (node? declared room) ((p.next tokens).emit (.sequenceStart props))
          else empty
        | .flowSequenceStart :: rest, room + 1 =>
          flowItems? (node? declared room) true ((p.next rest).emit (.sequenceStart props))
        | .flowMappingStart :: rest, room + 1 =>
          flowEntries? (node? declared room) true ((p.next rest).emit (.mappingStart props))
        | .blockSequenceStart :: rest, room + 1 =>
          if place = .flow then empty
          else blockItems? (node? declared room) ((p.next rest).emit (.sequenceStart props))
        | .blockMappingStart :: rest, room + 1 =>
          if place = .flow then empty
          else blockEntries? (node? declared room) ((p.next rest).emit (.mappingStart props))
        | _, _ => empty

/-! ## Documents -/

/-- How many collections may nest in a document. -/
def maxNesting : Nat := 128

/-- Read the directives before a document: the handles they declare. A version must be 1.1 or 1.2,
and neither a version nor a handle may be given twice. -/
def directives? (versioned : Bool) (declared : List (String × String)) :
    List Token → Option (List (String × String) × List Token)
  | .directive (.version major minor) :: rest =>
    if versioned || major ≠ 1 || !(minor = 1 || minor = 2) then none
    else directives? true declared rest
  | .directive (.handle handle base) :: rest =>
    if declared.any (·.1 = handle) then none
    else directives? versioned (declared ++ [(handle, base)]) rest
  | tokens => some (declared, tokens)

/-- The root node of a document; after the start mark it may be missing. -/
def root? (declared : List (String × String)) (marked : Bool) (tokens : List Token) :
    Option Progress :=
  let p : Progress := ⟨tokens, #[]⟩
  let missing : Bool := match tokens with
    | [] => true
    | .directive _ :: _ => true
    | .documentStart :: _ => true
    | .documentEnd :: _ => true
    | _ => false
  if marked && missing then some p.emitEmpty
  else node? declared maxNesting (.block false) p

/-- Whether a token ends a document. -/
def endsDocument : Token → Bool
  | .documentEnd => true
  | _ => false

/-- The events of the only document of a text. -/
def Event.ofTokens? (tokens : List Token) : Option (List (Event String)) :=
  let finish (p : Option Progress) : Option (List (Event String)) :=
    match p with
    | some p => if (p.tokens.dropWhile endsDocument).isEmpty then some p.events.toList else none
    | none => none
  match tokens with
  | [] => some []
  | .documentStart :: rest => finish (root? [] true rest)
  | .directive d :: rest =>
    match directives? false [] (.directive d :: rest) with
    | some (declared, .documentStart :: rest) => finish (root? declared true rest)
    | _ => none
  | tokens => finish (root? [] false tokens)

end CdkStacks.Document.Yaml
