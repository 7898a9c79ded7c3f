import CdkStacks.Document.Yaml.Event
import CdkStacks.Document.Yaml.Plain

/-!
# YAML documents

The node tree of a YAML text: aliases are replaced by copies of the nodes they name, scalars are
resolved, and a mapping may not repeat a key.

* `numberAnchors?` numbers the anchors and finds where each number starts. A number is the count of
  names known so far, so a name that is given again shares its new number with the next new name;
* `content?` builds one node with room for a number of nested collections;
* `Yaml.read?` reads a document. Copying is bounded: at most a hundred copies for each event.
-/

namespace CdkStacks.Document.Yaml

/-! ## Anchors -/

/-- The anchors met so far. -/
structure Anchors where
  /-- Each name with its number. -/
  names : List (String × Nat) := []
  /-- Each number with the position of the event that it names, the latest first. -/
  starts : List (Nat × Nat) := []

/-- Give a name the next number, for the event at `position`. -/
def Anchors.add (a : Anchors) (name : String) (position : Nat) : Anchors where
  names := (name, a.names.length) :: a.names.filter (·.1 ≠ name)
  starts := (a.names.length, position) :: a.starts

/-- Take in the anchor of a node, if it has one. -/
def Anchors.addAll (a : Anchors) (p : Properties) (position : Nat) : Anchors :=
  match p.anchor with
  | some name => a.add name position
  | none => a

/-- Replace the names of aliases by numbers; a name must have been given before. -/
def numberAnchors? (a : Anchors) (position : Nat) :
    List (Event String) → Option (List (Event Nat) × Anchors)
  | [] => some ([], a)
  | e :: rest =>
    let go (e : Event Nat) (a : Anchors) : Option (List (Event Nat) × Anchors) :=
      (numberAnchors? a (position + 1) rest).map fun (es, a) => (e :: es, a)
    match e with
    | .alias name => (a.names.lookup name).bind fun n => go (.alias n) a
    | .scalar p text plain => go (.scalar p text plain) (a.addAll p position)
    | .sequenceStart p => go (.sequenceStart p) (a.addAll p position)
    | .sequenceEnd => go .sequenceEnd a
    | .mappingStart p => go (.mappingStart p) (a.addAll p position)
    | .mappingEnd => go .mappingEnd a

/-! ## Nodes -/

/-- The events that are left and the number of copies made. -/
structure Rest where
  events : List (Event Nat)
  copies : Nat

/-- A reader of one node; the flag tells that the tag of the node has been dealt with. -/
abbrev ContentReader := Bool → Rest → Option (Node × Rest)

/-- A local tag, without its exclamation mark. -/
def localTag? (tag : Option String) : Option String :=
  match tag.map String.toList with
  | some ['!'] => some "!"
  | some ('!' :: name) => some (String.ofList name)
  | _ => none

/-- The node of a scalar. -/
def scalarNode? (tagged : Bool) (tag : Option String) (text : String) (plain : Bool) :
    Option Node :=
  match tag, tagged with
  | some t, false => typedNode? t text
  | _, _ => if plain then plainNode? text else some (.string text)

/-- The items of a sequence, up to its end. -/
def items? (node : ContentReader) (r : Rest) : Option (List Node × Rest) :=
  match r.events with
  | .sequenceEnd :: rest => some ([], { r with events := rest })
  | _ =>
    match node false r with
    | none => none
    | some (item, q) =>
      if q.events.length < r.events.length then
        (items? node q).map fun (items, r) => (item :: items, r)
      else none
termination_by r.events.length

/-- The entries of a mapping, up to its end. `entries` holds those so far, last first. The keys of
a tagged mapping are read without tags of their own. -/
def entries? (node : ContentReader) (tagged : Bool) (entries : List (Node × Node)) (r : Rest) :
    Option (List (Node × Node) × Rest) :=
  match r.events with
  | .mappingEnd :: rest => some (entries.reverse, { r with events := rest })
  | _ =>
    match node tagged r with
    | none => none
    | some (key, q) =>
      if hasKey entries key then none
      else
        match node false q with
        | none => none
        | some (value, q) =>
          if q.events.length < r.events.length then
            entries? node tagged ((key, value) :: entries) q
          else none
termination_by r.events.length

/-- Follow an alias to the events it names, or read in place. -/
def follow? (target : Nat → List (Event Nat)) (limit : Nat) (node : ContentReader) :
    ContentReader
  | tagged, r =>
    match r.events with
    | .alias n :: rest =>
      if limit ≤ r.copies then none
      else
        (node false ⟨target n, r.copies + 1⟩).map fun (copy, q) => (copy, ⟨rest, q.copies⟩)
    | _ => node tagged r

/-- Build the node that starts here, in which `room` collections may nest. -/
def content? (target : Nat → List (Event Nat)) (limit : Nat) : Nat → ContentReader
  | room, tagged, r =>
    let under (tag : Option String) (read : Bool → Option (Node × Rest)) : Option (Node × Rest) :=
      match localTag? tag, tagged with
      | some name, false => (read true).map fun (node, r) => (.tagged name node, r)
      | _, _ => read tagged
    match r.events, room with
    | .scalar p text plain :: rest, _ =>
      under p.tag fun tagged =>
        (scalarNode? tagged p.tag text plain).map (·, { r with events := rest })
    | .sequenceStart p :: rest, room + 1 =>
      under p.tag fun _ =>
        (items? (follow? target limit (content? target limit room)) { r with events := rest }).map
          fun (items, r) => (.sequence items, r)
    | .mappingStart p :: rest, room + 1 =>
      under p.tag fun tagged =>
        (entries? (follow? target limit (content? target limit room)) tagged []
          { r with events := rest }).map fun (entries, r) => (.mapping entries, r)
    | _, _ => none

/-- How many copies may be made for each event of a document. -/
def copiesPerEvent : Nat := 100

/-- The node of a document. A document without events is null. -/
def Event.toNode? (events : List (Event String)) : Option Node :=
  match events with
  | [] => some .null
  | _ => do
    let (events, anchors) ← numberAnchors? {} 0 events
    let target (n : Nat) : List (Event Nat) :=
      match anchors.starts.lookup n with
      | some start => events.drop start
      | none => []
    let limit := events.length * copiesPerEvent
    let (node, _) ← follow? target limit (content? target limit maxNesting) false ⟨events, 0⟩
    some node

/-- Read a document. -/
def read? (text : String) : Option Node := do
  let tokens ← Token.scan? text
  let events ← Event.ofTokens? tokens
  Event.toNode? events

end CdkStacks.Document.Yaml
