import CdkStacks.Construct.Ledger

/-!
# Values as expressions

Each value of a template becomes an expression of the generated code.

* `View` is the place an expression stands at: it reads constructs declared before that place
  directly, and later ones when the stack is complete;
* `Resolver` writes expressions at such a place, and imports what they need as it goes;
* `Resolver.resolve` turns a value into an expression. A function without counterpart is passed
  through as an object, with a warning;
* `Resolver.properties` does so for the properties of a resource, whose names become property names,
  except below the paths that hold free-form maps.
-/

namespace CdkStacks.Construct

open CdkStacks.Template CdkStacks.TypeScript

/-- How the keys of maps are written. -/
inductive KeyStyle where
  /-- As property names. -/
  | property
  /-- As they stand in the template. -/
  | verbatim
  deriving DecidableEq, Repr

/-- A key as it is written. -/
def KeyStyle.apply : KeyStyle → String → String
  | property, key => propertyName key
  | verbatim, key => key

/-- The place at which an expression stands. -/
structure View where
  scope : Scope
  /-- The declaration that the expression belongs to. -/
  owner : String
  /-- The resources before this place are constructed already. -/
  place : Nat

/-- A place, and the modules that expressions import from. -/
structure Resolver extends View where
  libraries : Libraries

/-- The expression for a pseudo parameter. -/
def pseudoExpr : Pseudo → Expr
  | .accountId => .raw "this.account"
  | .notificationArns => .raw "this.notificationArns"
  | .noValue => .raw "undefined"
  | .partition => .raw "this.partition"
  | .region => .raw "this.region"
  | .stackId => .raw "this.stackId"
  | .stackName => .raw "this.stackName"
  | .urlSuffix => .raw "this.urlSuffix"

/-- Whether a region stands for the region of the stack. -/
def isOwnRegion : Value → Bool
  | .null => true
  | .string text => text.isEmpty
  | _ => false

/-- The text of a text piece. -/
def pieceText? : Piece → Option String
  | .text text => some text
  | _ => none

/-- Do what stands under each key, in order. -/
def doEntries (entries : List (String × Mapping Expr)) : Mapping (List (String × Expr)) :=
  entries.mapM fun (key, value) => do return (key, ← value)

/-- The object with the given entries, its keys written in a style. -/
def doObject (keys : KeyStyle) (entries : List (String × Mapping Expr)) : Mapping Expr := do
  return .object ((← doEntries entries).map fun (key, value) => (keys.apply key, value))

namespace Resolver

/-- Call an intrinsic function. -/
def call (resolver : Resolver) (function : String) (arguments : List Expr) : Mapping Expr := do
  Mapping.need (functionUse resolver.libraries)
  return .call function arguments

/-- Read a member of the construct at `place`. -/
def member (resolver : Resolver) (place : Nat) (identifier member : String) : Mapping Expr := do
  if place < resolver.place then return .read identifier member
  Mapping.need (lazyUse resolver.libraries)
  return .deferred identifier member

/-- The expression for `Ref`: the value of a parameter, the reference of a construct, or a call for
a name that has neither. -/
def reference (resolver : Resolver) (target : String) : Mapping Expr :=
  match resolver.scope.parameter? target with
  | some accessor => pure (.parameter target accessor)
  | none =>
    match resolver.scope.resource? target with
    | some ⟨_, some identifier, place⟩ => resolver.member place identifier "ref"
    | _ => resolver.call "ref" [.string target]

/-- The expression for `Fn::GetAtt`. -/
def getAtt (resolver : Resolver) (target name : String) : Mapping Expr :=
  match resolver.scope.resource? target with
  | some ⟨_, some identifier, place⟩ => resolver.member place identifier (attributeMember name)
  | _ => do return .asText (← resolver.call "getAtt" [.string target, .string name])

/-- The chunk for a piece of a substitution text with the given variables. -/
def chunk (resolver : Resolver) (bindings : List (String × Mapping Expr)) : Piece → Mapping Chunk
  | .text text => pure (.text text)
  | .bound name =>
    match bindings.find? fun v => v.1 = name with
    | some (_, value) => do return .hole (← value)
    | none => do return .hole (← resolver.reference name)
  | .name target => do return .hole (← resolver.reference target)
  | .getAtt target name => do return .hole (← resolver.getAtt target name)
  | .pseudo parameter => pure (.hole (pseudoExpr parameter))

/-- The expression for `Fn::Sub`: a string literal when there is only text, a template literal
otherwise. -/
def substitution (resolver : Resolver) (pieces : List Piece)
    (bindings : List (String × Mapping Expr)) : Mapping Expr :=
  if pieces.all fun p => (pieceText? p).isSome then
    pure (.string (String.join (pieces.filterMap pieceText?)))
  else do
    return .template (← pieces.mapM (resolver.chunk bindings))

mutual

/-- The expression for a value. Keys inside the arguments of a function are property names. -/
def resolve (resolver : Resolver) (keys : KeyStyle) : Value → Mapping Expr
  | .null => pure (.raw "undefined")
  | .bool value => pure (.raw (if value then "true" else "false"))
  | .number text => pure (.raw text)
  | .string text => pure (.string text)
  | .list items => do return .array (← resolver.resolveItems keys items)
  | .map entries =>
    match passedFunction? entries with
    | some function => do
      Mapping.warn (.unsupportedFunction resolver.owner function)
      doObject .verbatim (resolver.resolveEntries .verbatim entries)
    | none => doObject keys (resolver.resolveEntries keys entries)
  | .ref target => resolver.reference target
  | .pseudo parameter => pure (pseudoExpr parameter)
  | .getAtt target name => resolver.getAtt target name
  | .join delimiter parts => do
    resolver.call "join" [.string delimiter, ← resolver.resolve .property parts]
  | .sub pieces bindings =>
    resolver.substitution pieces (resolver.resolveEntries .property bindings)
  | .select index list => do
    let index ← resolver.resolve .property index
    resolver.call "select" [index, ← resolver.resolve .property list]
  | .split delimiter source => do
    resolver.call "split" [.string delimiter, ← resolver.resolve .property source]
  | .importValue name => do resolver.call "importValue" [← resolver.resolve .property name]
  | .base64 source => do resolver.call "base64" [← resolver.resolve .property source]
  | .zones region =>
    if isOwnRegion region then resolver.call "getAzs" []
    else do resolver.call "getAzs" [← resolver.resolve .property region]

/-- The expressions for the items of a list. -/
def resolveItems (resolver : Resolver) (keys : KeyStyle) : List Value → Mapping (List Expr)
  | [] => pure []
  | item :: rest => do
    let first ← resolver.resolve keys item
    return first :: (← resolver.resolveItems keys rest)

/-- What resolves the entries of a map, under the keys of the template. -/
def resolveEntries (resolver : Resolver) (keys : KeyStyle) :
    List (String × Value) → List (String × Mapping Expr)
  | [] => []
  | (key, value) :: rest =>
    (key, resolver.resolve keys value) :: resolver.resolveEntries keys rest

end

/-! ## Properties -/

mutual

/-- The expression for the property at a path. Below a path of `verbatim` all keys are kept; the
items of a list have the path of the list. -/
def property (resolver : Resolver) (verbatim path : List String) (value : Value) :
    Mapping Expr :=
  if verbatim.contains (".".intercalate path) then resolver.resolve .verbatim value
  else
    match value with
    | .map entries =>
      match passedFunction? entries with
      | some _ => resolver.resolve .property (.map entries)
      | none => doObject .property (resolver.propertyEntries verbatim path entries)
    | .list items => do return .array (← resolver.propertyItems verbatim path items)
    | other => resolver.resolve .property other

/-- The expressions for the items of a property that is a list. -/
def propertyItems (resolver : Resolver) (verbatim path : List String) :
    List Value → Mapping (List Expr)
  | [] => pure []
  | item :: rest => do
    let first ← resolver.property verbatim path item
    return first :: (← resolver.propertyItems verbatim path rest)

/-- What resolves the properties below a path. -/
def propertyEntries (resolver : Resolver) (verbatim path : List String) :
    List (String × Value) → List (String × Mapping Expr)
  | [] => []
  | (name, value) :: rest =>
    (name, resolver.property verbatim (path ++ [name]) value) ::
      resolver.propertyEntries verbatim path rest

end

/-- The object for the properties of a resource. -/
def properties (resolver : Resolver) (verbatim : List String) (entries : List (String × Value)) :
    Mapping Expr :=
  doObject .property (resolver.propertyEntries verbatim [] entries)

end Resolver

end CdkStacks.Construct
