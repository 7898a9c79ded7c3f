import CdkStacks.Construct.Stack

/-!
# Mapping without a ledger

What the declarations of a template become does not depend on the ledger. This is mapping without
it: results with the warnings met on the way, and the imports read off the finished statements.

* `Noted` is a result together with the warnings met on the way, in order;
* `View.resolve`, `View.properties` turn values into expressions;
* `parameterStatement`, `resourceStatement`, `dependencyStatement`, `outputStatement` turn one
  declaration into a statement;
* `Expr.calls` and `Expr.defers` say whether an expression calls an intrinsic function or reads a
  construct that is declared later, `expressionUses` what it imports for that;
* `StackCode.build` is the code of a template.
-/

namespace CdkStacks.TypeScript

/-! ## What expressions need -/

mutual

/-- Whether an expression calls an intrinsic function. -/
def Expr.calls : Expr → Bool
  | .call _ _ => true
  | .array items => itemsCall items
  | .object entries => entriesCall entries
  | .asText value => value.calls
  | .template chunks => chunksCall chunks
  | .raw _ | .string _ | .parameter _ _ | .read _ _ | .deferred _ _ => false

/-- Whether an item calls an intrinsic function. -/
def itemsCall : List Expr → Bool
  | [] => false
  | item :: rest => item.calls || itemsCall rest

/-- Whether the value of an entry calls an intrinsic function. -/
def entriesCall : List (String × Expr) → Bool
  | [] => false
  | (_, value) :: rest => value.calls || entriesCall rest

/-- Whether a piece of a template literal calls an intrinsic function. -/
def chunksCall : List Chunk → Bool
  | [] => false
  | .text _ :: rest => chunksCall rest
  | .hole value :: rest => value.calls || chunksCall rest

end

mutual

/-- Whether an expression reads a construct that is declared later. -/
def Expr.defers : Expr → Bool
  | .deferred _ _ => true
  | .call _ arguments => itemsDefer arguments
  | .array items => itemsDefer items
  | .object entries => entriesDefer entries
  | .asText value => value.defers
  | .template chunks => chunksDefer chunks
  | .raw _ | .string _ | .parameter _ _ | .read _ _ => false

/-- Whether an item reads a construct that is declared later. -/
def itemsDefer : List Expr → Bool
  | [] => false
  | item :: rest => item.defers || itemsDefer rest

/-- Whether the value of an entry reads a construct that is declared later. -/
def entriesDefer : List (String × Expr) → Bool
  | [] => false
  | (_, value) :: rest => value.defers || entriesDefer rest

/-- Whether a piece of a template literal reads a construct that is declared later. -/
def chunksDefer : List Chunk → Bool
  | [] => false
  | .text _ :: rest => chunksDefer rest
  | .hole value :: rest => value.defers || chunksDefer rest

end

theorem items_any (items : List Expr) : itemsCall items = items.any Expr.calls ∧
    itemsDefer items = items.any Expr.defers := by
  induction items with
  | nil => exact ⟨rfl, rfl⟩
  | cons item rest ih => exact ⟨congrArg (item.calls || ·) ih.1, congrArg (item.defers || ·) ih.2⟩

theorem entries_any (entries : List (String × Expr)) :
    entriesCall entries = (entries.map Prod.snd).any Expr.calls ∧
      entriesDefer entries = (entries.map Prod.snd).any Expr.defers := by
  induction entries with
  | nil => exact ⟨rfl, rfl⟩
  | cons entry rest ih =>
    exact ⟨congrArg (entry.2.calls || ·) ih.1, congrArg (entry.2.defers || ·) ih.2⟩

theorem chunksCall_cons (chunk : Chunk) (rest : List Chunk) :
    chunksCall (chunk :: rest) = (chunksCall [chunk] || chunksCall rest) := by
  cases chunk <;> simp [chunksCall]

theorem chunksDefer_cons (chunk : Chunk) (rest : List Chunk) :
    chunksDefer (chunk :: rest) = (chunksDefer [chunk] || chunksDefer rest) := by
  cases chunk <;> simp [chunksDefer]

theorem entriesCall_append (first second : List (String × Expr)) :
    entriesCall (first ++ second) = (entriesCall first || entriesCall second) := by
  simp [entries_any]

theorem entriesDefer_append (first second : List (String × Expr)) :
    entriesDefer (first ++ second) = (entriesDefer first || entriesDefer second) := by
  simp [entries_any]

/-- The keys of entries say nothing about what they need. -/
theorem entries_rename (rename : String → String) (entries : List (String × Expr)) :
    entriesCall (entries.map fun entry => (rename entry.1, entry.2)) = entriesCall entries ∧
      entriesDefer (entries.map fun entry => (rename entry.1, entry.2)) = entriesDefer entries := by
  simp only [entries_any, List.map_map]
  exact ⟨rfl, rfl⟩

end CdkStacks.TypeScript

namespace CdkStacks.Construct

open CdkStacks.Template CdkStacks.TypeScript

/-- The names that code needs which calls functions or defers values. -/
def helperUses (libraries : Libraries) (calls defers : Bool) : List Use :=
  (if calls then [functionUse libraries] else []) ++ (if defers then [lazyUse libraries] else [])

/-- The names that the expression of a statement needs. -/
def expressionUses (libraries : Libraries) (statement : Statement) : List Use :=
  match statement.props? with
  | some props => helperUses libraries props.calls props.defers
  | none => []

/-- The class of a resource, as a name to import. -/
def resourceUse? (libraries : Libraries) (scope : Scope) (resource : Resource) : Option Use :=
  (supported? scope resource).map fun (kind, _) => kind.use libraries

/-! ## Results with warnings -/

/-- A result and the warnings met on the way to it, in order. -/
structure Noted (α : Type) where
  value : α
  warnings : List Warning

namespace Noted

instance : Monad Noted where
  pure value := ⟨value, []⟩
  bind a f := ⟨(f a.value).value, a.warnings ++ (f a.value).warnings⟩

/-- A warning alone. -/
def warn (warning : Warning) : Noted Unit :=
  ⟨(), [warning]⟩

/-- The results of a list, with the warnings of all, in order. -/
def gather {α : Type} : List (Noted α) → Noted (List α)
  | [] => ⟨[], []⟩
  | a :: rest => ⟨a.value :: (gather rest).value, a.warnings ++ (gather rest).warnings⟩

/-- The results of named entries, with the warnings of all, in order. -/
def gatherEntries {α : Type} (entries : List (String × Noted α)) : Noted (List (String × α)) :=
  gather (entries.map fun (key, a) => ⟨(key, a.value), a.warnings⟩)

end Noted

/-! ## Values -/

/-- The object with the given entries, its keys written in a style. -/
def objectOf (keys : KeyStyle) (entries : List (String × Noted Expr)) : Noted Expr := do
  return .object ((← Noted.gatherEntries entries).map fun (key, value) => (keys.apply key, value))

namespace View

/-- Read a member of the construct at `place`. -/
def member (view : View) (place : Nat) (identifier member : String) : Expr :=
  if place < view.place then .read identifier member else .deferred identifier member

/-- The expression for `Ref`: the value of a parameter, the reference of a construct, or a call for
a name that has neither. -/
def reference (view : View) (target : String) : Expr :=
  match view.scope.parameter? target with
  | some accessor => .parameter target accessor
  | none =>
    match view.scope.resource? target with
    | some ⟨_, some identifier, place⟩ => view.member place identifier "ref"
    | _ => .call "ref" [.string target]

/-- The expression for `Fn::GetAtt`. -/
def getAtt (view : View) (target name : String) : Expr :=
  match view.scope.resource? target with
  | some ⟨_, some identifier, place⟩ => view.member place identifier (attributeMember name)
  | _ => .asText (.call "getAtt" [.string target, .string name])

/-- The chunk for a piece of a substitution text with the given variables. -/
def chunk (view : View) (bindings : List (String × Noted Expr)) : Piece → Noted Chunk
  | .text text => pure (.text text)
  | .bound name =>
    match bindings.find? fun v => v.1 = name with
    | some (_, value) => do return .hole (← value)
    | none => pure (.hole (view.reference name))
  | .name target => pure (.hole (view.reference target))
  | .getAtt target name => pure (.hole (view.getAtt target name))
  | .pseudo parameter => pure (.hole (pseudoExpr parameter))

/-- The expression for `Fn::Sub`: a string literal when there is only text, a template literal
otherwise. -/
def substitution (view : View) (pieces : List Piece) (bindings : List (String × Noted Expr)) :
    Noted Expr :=
  if pieces.all fun p => (pieceText? p).isSome then
    pure (.string (String.join (pieces.filterMap pieceText?)))
  else do
    return .template (← Noted.gather (pieces.map (view.chunk bindings)))

mutual

/-- The expression for a value. Keys inside the arguments of a function are property names. -/
def resolve (view : View) (keys : KeyStyle) : Value → Noted Expr
  | .null => pure (.raw "undefined")
  | .bool value => pure (.raw (if value then "true" else "false"))
  | .number text => pure (.raw text)
  | .string text => pure (.string text)
  | .list items => do return .array (← Noted.gather (view.resolveItems keys items))
  | .map entries =>
    match passedFunction? entries with
    | some function => do
      Noted.warn (.unsupportedFunction view.owner function)
      objectOf .verbatim (view.resolveEntries .verbatim entries)
    | none => objectOf keys (view.resolveEntries keys entries)
  | .ref target => pure (view.reference target)
  | .pseudo parameter => pure (pseudoExpr parameter)
  | .getAtt target name => pure (view.getAtt target name)
  | .join delimiter parts => do
    return .call "join" [.string delimiter, ← view.resolve .property parts]
  | .sub pieces bindings =>
    view.substitution pieces (view.resolveEntries .property bindings)
  | .select index list => do
    let index ← view.resolve .property index
    return .call "select" [index, ← view.resolve .property list]
  | .split delimiter source => do
    return .call "split" [.string delimiter, ← view.resolve .property source]
  | .importValue name => do return .call "importValue" [← view.resolve .property name]
  | .base64 source => do return .call "base64" [← view.resolve .property source]
  | .zones region =>
    if isOwnRegion region then pure (.call "getAzs" [])
    else do return .call "getAzs" [← view.resolve .property region]

/-- The expressions for the items of a list. -/
def resolveItems (view : View) (keys : KeyStyle) : List Value → List (Noted Expr)
  | [] => []
  | item :: rest => view.resolve keys item :: view.resolveItems keys rest

/-- The expressions for the entries of a map, under the keys of the template. -/
def resolveEntries (view : View) (keys : KeyStyle) :
    List (String × Value) → List (String × Noted Expr)
  | [] => []
  | (key, value) :: rest =>
    (key, view.resolve keys value) :: view.resolveEntries keys rest

end

/-! ## Properties -/

mutual

/-- The expression for the property at a path. Below a path of `verbatim` all keys are kept; the
items of a list have the path of the list. -/
def property (view : View) (verbatim path : List String) (value : Value) : Noted Expr :=
  if verbatim.contains (".".intercalate path) then view.resolve .verbatim value
  else
    match value with
    | .map entries =>
      match passedFunction? entries with
      | some _ => view.resolve .property (.map entries)
      | none => objectOf .property (view.propertyEntries verbatim path entries)
    | .list items => do
      return .array (← Noted.gather (view.propertyItems verbatim path items))
    | other => view.resolve .property other

/-- The expressions for the items of a property that is a list. -/
def propertyItems (view : View) (verbatim path : List String) : List Value → List (Noted Expr)
  | [] => []
  | item :: rest =>
    view.property verbatim path item :: view.propertyItems verbatim path rest

/-- The expressions for the properties below a path. -/
def propertyEntries (view : View) (verbatim path : List String) :
    List (String × Value) → List (String × Noted Expr)
  | [] => []
  | (name, value) :: rest =>
    (name, view.property verbatim (path ++ [name]) value) ::
      view.propertyEntries verbatim path rest

end

/-- The object for the properties of a resource. -/
def properties (view : View) (verbatim : List String) (entries : List (String × Value)) :
    Noted Expr :=
  objectOf .property (view.propertyEntries verbatim [] entries)

end View

/-! ## Declarations -/

/-- The entry of an object for a value that may be missing. -/
def valueEntry (view : View) (key : String) (value? : Option Value) :
    Noted (List (String × Expr)) :=
  match value? with
  | some value => do return [(key, ← view.resolve .property value)]
  | none => pure []

/-- The entry of an object for the allowed values of a parameter. -/
def allowedEntry (view : View) (allowed? : Option (List Value)) : Noted (List (String × Expr)) :=
  match allowed? with
  | some values => do
    return [("allowedValues", .array (← Noted.gather (view.resolveItems .property values)))]
  | none => pure []

/-- The statement for a parameter, which is declared before all resources. -/
def parameterStatement (scope : Scope) (parameter : Parameter) : Noted Statement := do
  let view : View := ⟨scope, parameter.name, 0⟩
  let type := if holdsText parameter then none else some parameter.type
  let default ← valueEntry view "default" parameter.default
  let allowed ← allowedEntry view parameter.allowed
  let constraints ← Noted.gatherEntries (view.resolveEntries .property parameter.constraints)
  return .parameter parameter.name (parameterClass parameter) (.object
    (textEntry "type" type ++ textEntry "description" parameter.description ++ default ++ allowed ++
      constraints.map fun (name, value) => (propertyName name, value)))

/-- Warn of a condition, which is lost. -/
def warnCondition (owner : String) (condition? : Option String) : Noted Unit :=
  match condition? with
  | some condition => Noted.warn (.conditionDropped owner condition)
  | none => pure ()

/-- The statement for the resource at a place. -/
def resourceStatement (scope : Scope) (place : Nat) (resource : Resource) : Noted Statement := do
  warnCondition resource.name resource.condition
  match supported? scope resource with
  | some (kind, identifier) => do
    let view : View := ⟨scope, resource.name, place⟩
    return .resource resource.name identifier kind.construct
      (← view.properties kind.verbatim resource.properties)
  | none => do
    Noted.warn (.unsupportedType resource.name resource.type)
    return .placeholder resource.name resource.type

/-- The statements for resources from a place on. -/
def resourceStatements (scope : Scope) (place : Nat) : List Resource → List (Noted Statement)
  | [] => []
  | resource :: rest =>
    resourceStatement scope place resource :: resourceStatements scope (place + 1) rest

/-- The statement for a dependency; none when one of the two has no construct. -/
def dependencyStatement (scope : Scope) (resource dependency : String) : Noted (Option Statement) :=
  match scope.identifier? resource, scope.identifier? dependency with
  | some identifier, some other => pure (some (.dependency identifier other))
  | _, _ => do
    Noted.warn (.dependencySkipped resource dependency)
    return none

/-- The statements for the dependencies of a resource. -/
def dependencyStatements (scope : Scope) (resource : Resource) : List (Noted (Option Statement)) :=
  resource.dependsOn.map (dependencyStatement scope resource.name)

/-- The statement for an output, which is declared behind the `count` resources. -/
def outputStatement (scope : Scope) (count : Nat) (output : Output) : Noted Statement := do
  let view : View := ⟨scope, output.name, count⟩
  warnCondition output.name output.condition
  let value ← view.resolve .property output.value
  let exportName ← valueEntry view "exportName" output.exportName
  return .output output.name (.object
    ([("value", value)] ++ textEntry "description" output.description ++ exportName))

/-! ## Templates -/

namespace StackCode

/-- The names that the code of a template needs. -/
def uses (template : Template) (libraries : Libraries) (scope : Scope)
    (statements : List Statement) : List Use :=
  template.parameters.map (parameterUse libraries) ++
    template.resources.filterMap (resourceUse? libraries scope) ++
    (if template.outputs.isEmpty then [] else [outputUse libraries]) ++
    statements.flatMap (expressionUses libraries)

/-- The code of a template whose references are no circle; its imports are added to `imports`. -/
def build (template : Template) (imports : Imports) (libraries : Libraries) : StackCode :=
  let scope := Scope.ofTemplate template
  let parameters := Noted.gather (template.parameters.map (parameterStatement scope))
  let resources := Noted.gather (resourceStatements scope 0 template.resources)
  let dependencies := Noted.gather (template.resources.flatMap (dependencyStatements scope))
  let outputs :=
    Noted.gather (template.outputs.map (outputStatement scope template.resources.length))
  let statements := parameters.value ++ resources.value ++ outputs.value
  { parameters := parameters.value
    resources := resources.value
    dependencies := dependencies.value.filterMap id
    outputs := outputs.value
    imports := (uses template libraries scope statements).foldl Use.addTo imports
    warnings :=
      parameters.warnings ++ resources.warnings ++ dependencies.warnings ++ outputs.warnings }

end StackCode

end CdkStacks.Construct
