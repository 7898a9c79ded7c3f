import CdkStacks.Document.Node
import CdkStacks.Template.Malformed
import CdkStacks.Template.Substitution

/-!
# Values of nodes

A node of a document is read as a value: a map with a single key that names a function is an
application of the function, and so is a node under the tag of a function.

* `Function.apply` reads the argument of a function;
* `decodeWithin` reads a node whose nesting is bounded;
* `decode` reads a node of at most `maxDepth` levels below the outermost one.
-/

namespace CdkStacks.Template

open CdkStacks.Document (Node)

/-- The text of a key. -/
def keyText (key : Node) : Except Malformed String :=
  match key.keyText? with
  | some text => .ok text
  | none => .error .key

/-- Read the entries of a mapping, each key before its value. -/
def decodeEntries (read : Node → Except Malformed Value) (entries : List (Node × Node)) :
    Except Malformed (List (String × Value)) :=
  entries.mapM fun (key, value) => do
    let name ← keyText key
    return (name, ← read value)

namespace Function

/-- A string argument, which may be tagged. -/
def text (f : Function) (node : Node) : Except Malformed String :=
  match node.text? with
  | some text => .ok text
  | none => .error (.argument f)

/-- The two items of a list argument. -/
def pairOf (f : Function) : Node → Except Malformed (Node × Node)
  | .sequence [first, second] => .ok (first, second)
  | _ => .error (.pair f)

/-- Read the argument of a function; `read` reads the values inside it. -/
def apply (read : Node → Except Malformed Value) (f : Function) (argument : Node) :
    Except Malformed Value :=
  match f with
  | ref => do
    let target ← f.text argument
    match Pseudo.ofName? target with
    | some parameter => return .pseudo parameter
    | none => return .ref target
  | getAtt =>
    match argument with
    | .string dotted =>
      match splitOnce? '.' dotted with
      | some (target, member) => .ok (.getAtt target member)
      | none => .error (.undotted dotted)
    | .sequence [target, member] => do
      let target ← f.text target
      return .getAtt target (← f.text member)
    | _ => .error .getAttShape
  | join => do
    let (delimiter, parts) ← f.pairOf argument
    let delimiter ← f.text delimiter
    return .join delimiter (← read parts)
  | sub =>
    match argument with
    | .string text => .ok (.sub (cut text []) [])
    | .sequence [text, bindings] => do
      let text ← f.text text
      match bindings with
      | .mapping entries => do
        let bound ← decodeEntries read entries
        return .sub (cut text (bound.map Prod.fst)) bound
      | _ => throw .subVariables
    | _ => .error .subShape
  | select => do
    let (index, list) ← f.pairOf argument
    let index ← read index
    return .select index (← read list)
  | split => do
    let (delimiter, source) ← f.pairOf argument
    let delimiter ← f.text delimiter
    return .split delimiter (← read source)
  | importValue => do return .importValue (← read argument)
  | base64 => do return .base64 (← read argument)
  | getAZs => do return .zones (← read argument)

end Function

/-- The function that a mapping applies, and its argument: the mapping has one entry, whose key is
the name of a function. -/
def application? : List (Node × Node) → Option (Function × Node)
  | [(.string key, argument)] => (Function.ofName? key).map fun f => (f, argument)
  | _ => none

/-- Read a node with less than `room` levels. -/
def decodeWithin : Nat → Node → Except Malformed Value
  | 0, _ => .error .tooDeep
  | room + 1, node =>
    match node with
    | .null => .ok .null
    | .bool value => .ok (.bool value)
    | .number value =>
      if value.isFinite then .ok (.number value.text) else .error (.notFinite value.text)
    | .string text => .ok (.string text)
    | .sequence items => do return .list (← items.mapM (decodeWithin room))
    | .mapping entries =>
      match application? entries with
      | some (f, argument) => f.apply (decodeWithin room) argument
      | none => do return .map (← decodeEntries (decodeWithin room) entries)
    | .tagged tag content =>
      match Function.ofName? (longName tag) with
      | some f => f.apply (decodeWithin room) content
      | none => do return .map [(longName tag, ← decodeWithin room content)]

/-- Read a node as a value. -/
def decode (node : Node) : Except Malformed Value :=
  decodeWithin (maxDepth + 1) node

end CdkStacks.Template
