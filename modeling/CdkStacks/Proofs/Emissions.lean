import CdkStacks.Proofs.Reads

/-!
# What values put into the code

Everything that resolving a value does besides copying literals, as one list in the order of the
code: the names it looks up, the functions it calls, and the functions it passes through.

* `Emission` is one of these, `Value.emissions` lists those of a value;
* `Part` is what an emission leaves in an expression, `Expr.parts` lists those of an expression;
* `View.part?` and `warningOf?` are the part and the warning that an emission becomes;
* `View.resolve_emits`, `View.properties_emits`: the parts and the warnings of a resolved value are
  those of its emissions, at any nesting;
* `parameterStatement_emits`, `outputStatement_emits`, `resourceStatement_parts`: so for whole
  statements.
-/

namespace CdkStacks.Template

/-! ## Emissions of a template -/

/-- What a value puts into the code. -/
inductive Emission where
  /-- A name is looked up. -/
  | access (access : Access)
  /-- A function is called, by the name that the code has for it. -/
  | call (function : String)
  /-- A function without counterpart is passed through. -/
  | passed (function : String)
  deriving DecidableEq, Repr

/-- The access of an emission. -/
def Emission.access? : Emission → Option Access
  | .access a => some a
  | .call _ | .passed _ => none

/-- The emissions of a piece of a substitution text whose variables have the given emissions. -/
def Piece.emissions (bindings : List (String × List Emission)) : Piece → List Emission
  | .text _ | .pseudo _ => []
  | .bound key =>
    match bindings.find? fun v => v.1 = key with
    | some (_, emissions) => emissions
    | none => [.access (.reference key)]
  | .name target => [.access (.reference target)]
  | .getAtt target member => [.access (.getAtt target member)]

/-- The emission of a map that passes a function through. -/
def passedEmission (entries : List (String × Value)) : List Emission :=
  ((passedFunction? entries).map Emission.passed).toList

mutual

/-- The emissions of a value, in the order of the code. A variable of a substitution is emitted
wherever the text names it. -/
def Value.emissions : Value → List Emission
  | .null | .bool _ | .number _ | .string _ | .pseudo _ => []
  | .list items => (itemEmissions items).flatten
  | .map entries => passedEmission entries ++ (entryEmissions entries).flatMap Prod.snd
  | .ref target => [.access (.reference target)]
  | .getAtt target name => [.access (.getAtt target name)]
  | .join _ parts => .call "join" :: parts.emissions
  | .sub pieces bindings => pieces.flatMap (Piece.emissions (entryEmissions bindings))
  | .select index list => .call "select" :: (index.emissions ++ list.emissions)
  | .split _ source => .call "split" :: source.emissions
  | .importValue name => .call "importValue" :: name.emissions
  | .base64 source => .call "base64" :: source.emissions
  | .zones region => .call "getAzs" :: region.emissions

/-- The emissions of each item of a list. -/
def itemEmissions : List Value → List (List Emission)
  | [] => []
  | item :: rest => item.emissions :: itemEmissions rest

/-- The emissions of each entry of a map. -/
def entryEmissions : List (String × Value) → List (String × List Emission)
  | [] => []
  | (key, value) :: rest => (key, value.emissions) :: entryEmissions rest

end

/-- The emissions of a value that may be missing. -/
def optionalEmissions : Option Value → List Emission
  | some value => value.emissions
  | none => []

/-- The emissions of a parameter, in the order of the code. -/
def Parameter.emissions (parameter : Parameter) : List Emission :=
  optionalEmissions parameter.default ++ (itemEmissions (parameter.allowed.getD [])).flatten ++
    (entryEmissions parameter.constraints).flatMap Prod.snd

/-- The emissions of the properties of a resource. -/
def Resource.emissions (resource : Resource) : List Emission :=
  (entryEmissions resource.properties).flatMap Prod.snd

/-- The emissions of an output, in the order of the code. -/
def Output.emissions (output : Output) : List Emission :=
  output.value.emissions ++ optionalEmissions output.exportName

/-! ## Accesses are emissions -/

theorem passedEmission_accesses (entries : List (String × Value)) :
    (passedEmission entries).filterMap Emission.access? = [] := by
  unfold passedEmission
  cases passedFunction? entries <;> rfl

theorem Piece.accesses_eq (bindings : List (String × List Emission)) (piece : Piece) :
    piece.accesses (bindings.map fun entry => (entry.1, entry.2.filterMap Emission.access?)) =
      (piece.emissions bindings).filterMap Emission.access? := by
  cases piece with
  | text | pseudo | name | getAtt => rfl
  | bound key =>
    simp only [Piece.accesses, Piece.emissions, List.find?_map, Function.comp_def]
    cases bindings.find? fun v => v.1 = key <;> rfl

mutual

theorem Value.accesses_eq : ∀ value : Value,
    value.accesses = value.emissions.filterMap Emission.access?
  | .null | .bool _ | .number _ | .string _ | .pseudo _ | .ref _ | .getAtt _ _ => rfl
  | .list items => itemAccesses_eq items
  | .map entries => by
    rw [Value.accesses, Value.emissions, entryAccesses_eq entries, List.filterMap_append,
      passedEmission_accesses, List.nil_append, List.flatMap_map, List.filterMap_flatMap]
  | .sub pieces bindings => by
    rw [Value.accesses, Value.emissions, entryAccesses_eq bindings, List.filterMap_flatMap]
    exact congrArg (List.flatMap · pieces) (funext (Piece.accesses_eq _))
  | .select index list => by
    rw [Value.accesses, Value.emissions, Value.accesses_eq index, Value.accesses_eq list,
      ← List.filterMap_append]
    rfl
  | .join _ inner | .split _ inner | .importValue inner | .base64 inner | .zones inner => by
    rw [Value.accesses, Value.emissions, Value.accesses_eq inner]
    rfl

theorem itemAccesses_eq : ∀ items : List Value,
    itemAccesses items = (itemEmissions items).flatten.filterMap Emission.access?
  | [] => rfl
  | item :: rest => by
    rw [itemAccesses, itemEmissions, Value.accesses_eq item, itemAccesses_eq rest,
      List.flatten_cons, List.filterMap_append]

theorem entryAccesses_eq : ∀ entries : List (String × Value),
    entryAccesses entries =
      (entryEmissions entries).map fun entry => (entry.1, entry.2.filterMap Emission.access?)
  | [] => rfl
  | (key, value) :: rest => by
    rw [entryAccesses, entryEmissions, Value.accesses_eq value, entryAccesses_eq rest,
      List.map_cons]

end

theorem optionalAccesses_eq (value? : Option Value) :
    optionalAccesses value? = (optionalEmissions value?).filterMap Emission.access? := by
  cases value? with
  | none => rfl
  | some value => exact value.accesses_eq

theorem entryAccesses_flatMap (entries : List (String × Value)) :
    (entryAccesses entries).flatMap Prod.snd =
      ((entryEmissions entries).flatMap Prod.snd).filterMap Emission.access? := by
  rw [entryAccesses_eq, List.flatMap_map, List.filterMap_flatMap]

theorem Parameter.accesses_eq (parameter : Parameter) :
    parameter.accesses = parameter.emissions.filterMap Emission.access? := by
  simp only [Parameter.accesses, Parameter.emissions, List.filterMap_append, optionalAccesses_eq,
    itemAccesses_eq, entryAccesses_flatMap]

theorem Resource.accesses_eq (resource : Resource) :
    resource.accesses = resource.emissions.filterMap Emission.access? :=
  entryAccesses_flatMap resource.properties

theorem Output.accesses_eq (output : Output) :
    output.accesses = output.emissions.filterMap Emission.access? := by
  simp only [Output.accesses, Output.emissions, List.filterMap_append, optionalAccesses_eq,
    Value.accesses_eq]

end CdkStacks.Template

namespace CdkStacks.TypeScript

/-! ## Parts of an expression -/

/-- What an emission leaves in an expression: the call of a function, or what stands for a name. -/
inductive Part where
  | call (function : String)
  | name (atom : Expr)

mutual

/-- The parts of an expression, from left to right. The reference to a name without construct and
the attribute of one are calls too, but stand for the name. -/
def Expr.parts : Expr → List Part
  | .raw _ | .string _ => []
  | .array items => itemParts items
  | .object entries => entryParts entries
  | .parameter name accessor => [.name (.parameter name accessor)]
  | .read construct member => [.name (.read construct member)]
  | .deferred construct member => [.name (.deferred construct member)]
  | .call function arguments =>
    if function = "ref" then [.name (.call function arguments)]
    else .call function :: itemParts arguments
  | .asText value => [.name (.asText value)]
  | .template chunks => chunkParts chunks

/-- The parts of the items of an array, or of the arguments of a call. -/
def itemParts : List Expr → List Part
  | [] => []
  | item :: rest => item.parts ++ itemParts rest

/-- The parts of the values of entries. -/
def entryParts : List (String × Expr) → List Part
  | [] => []
  | (_, value) :: rest => value.parts ++ entryParts rest

/-- The parts of the pieces of a template literal. -/
def chunkParts : List Chunk → List Part
  | [] => []
  | .text _ :: rest => chunkParts rest
  | .hole value :: rest => value.parts ++ chunkParts rest

end

/-- The parts of a piece of a template literal. -/
def Chunk.parts : Chunk → List Part
  | .text _ => []
  | .hole value => value.parts

theorem itemParts_eq (items : List Expr) : itemParts items = items.flatMap Expr.parts := by
  induction items with
  | nil => rfl
  | cons item rest ih => rw [itemParts, ih, List.flatMap_cons]

theorem entryParts_eq (entries : List (String × Expr)) :
    entryParts entries = entries.flatMap fun entry => entry.2.parts := by
  induction entries with
  | nil => rfl
  | cons entry rest ih => rw [entryParts, ih, List.flatMap_cons]

theorem entryParts_append (first second : List (String × Expr)) :
    entryParts (first ++ second) = entryParts first ++ entryParts second := by
  simp only [entryParts_eq, List.flatMap_append]

/-- Other keys leave the parts as they are. -/
theorem entryParts_map (rename : String → String) (entries : List (String × Expr)) :
    entryParts (entries.map fun (key, value) => (rename key, value)) = entryParts entries := by
  simp only [entryParts_eq, List.flatMap_map]

theorem chunkParts_eq (chunks : List Chunk) : chunkParts chunks = chunks.flatMap Chunk.parts := by
  induction chunks with
  | nil => rfl
  | cons chunk rest ih => cases chunk <;> simp [chunkParts, Chunk.parts, ih]

/-- Whether a part calls an intrinsic function. -/
def Part.calls : Part → Bool
  | .call _ => true
  | .name atom => atom.calls

/-- Whether a part reads a construct that is declared later. -/
def Part.defers : Part → Bool
  | .call _ => false
  | .name atom => atom.defers

mutual

theorem Expr.calls_eq : ∀ e : Expr, e.calls = e.parts.any Part.calls
  | .raw _ | .string _ | .parameter _ _ | .read _ _ | .deferred _ _ => rfl
  | .array items => itemsCall_eq items
  | .object entries => entriesCall_eq entries
  | .call function arguments => by
    rw [Expr.parts]
    split_ifs <;> rfl
  | .asText value => by simp [Expr.parts, Part.calls]
  | .template chunks => chunksCall_eq chunks

theorem itemsCall_eq : ∀ items : List Expr, itemsCall items = (itemParts items).any Part.calls
  | [] => rfl
  | item :: rest => by rw [itemsCall, itemParts, List.any_append, item.calls_eq, itemsCall_eq rest]

theorem entriesCall_eq : ∀ entries : List (String × Expr),
    entriesCall entries = (entryParts entries).any Part.calls
  | [] => rfl
  | (_, value) :: rest => by
    rw [entriesCall, entryParts, List.any_append, value.calls_eq, entriesCall_eq rest]

theorem chunksCall_eq : ∀ chunks : List Chunk,
    chunksCall chunks = (chunkParts chunks).any Part.calls
  | [] => rfl
  | .text _ :: rest => chunksCall_eq rest
  | .hole value :: rest => by
    rw [chunksCall, chunkParts, List.any_append, value.calls_eq, chunksCall_eq rest]

end

mutual

theorem Expr.defers_eq : ∀ e : Expr, e.defers = e.parts.any Part.defers
  | .raw _ | .string _ | .parameter _ _ | .read _ _ | .deferred _ _ => rfl
  | .array items => itemsDefer_eq items
  | .object entries => entriesDefer_eq entries
  | .call function arguments => by
    rw [Expr.parts]
    split_ifs
    · simp [Part.defers]
    · exact itemsDefer_eq arguments
  | .asText value => by simp [Expr.parts, Part.defers]
  | .template chunks => chunksDefer_eq chunks

theorem itemsDefer_eq : ∀ items : List Expr, itemsDefer items = (itemParts items).any Part.defers
  | [] => rfl
  | item :: rest => by
    rw [itemsDefer, itemParts, List.any_append, item.defers_eq, itemsDefer_eq rest]

theorem entriesDefer_eq : ∀ entries : List (String × Expr),
    entriesDefer entries = (entryParts entries).any Part.defers
  | [] => rfl
  | (_, value) :: rest => by
    rw [entriesDefer, entryParts, List.any_append, value.defers_eq, entriesDefer_eq rest]

theorem chunksDefer_eq : ∀ chunks : List Chunk,
    chunksDefer chunks = (chunkParts chunks).any Part.defers
  | [] => rfl
  | .text _ :: rest => chunksDefer_eq rest
  | .hole value :: rest => by
    rw [chunksDefer, chunkParts, List.any_append, value.defers_eq, chunksDefer_eq rest]

end

/-- The expression of a read. -/
def Read.expr (read : Read) : Expr :=
  if read.isLazy then .deferred read.construct read.member
  else .read read.construct read.member

end CdkStacks.TypeScript

namespace CdkStacks.Construct

open CdkStacks.Template CdkStacks.TypeScript

/-! ## Resolving -/

/-- The warning of an emission; `owner` is the declaration that it belongs to. -/
def warningOf? (owner : String) : Emission → Option Warning
  | .passed function => some (.unsupportedFunction owner function)
  | .access _ | .call _ => none

/-- What stands for an access to a name that is no parameter and has no construct. -/
def unresolved : Access → Expr
  | .reference target => .call "ref" [.string target]
  | .getAtt target name => .asText (.call "getAtt" [.string target, .string name])

namespace View

/-- What stands for an access in the code. -/
def lookup (view : View) : Access → Expr
  | .reference target => view.reference target
  | .getAtt target name => view.getAtt target name

/-- What stands for an access: a read of a construct, the value of a parameter, or a call when there
is neither. -/
theorem lookup_cases (view : View) (access : Access) :
    (∃ read, view.read? access = some read ∧ view.lookup access = read.expr) ∨
      (∃ target accessor, access = .reference target ∧
        view.scope.parameter? target = some accessor ∧
          view.lookup access = .parameter target accessor) ∨
      view.read? access = none ∧
        (∀ target, access = .reference target → view.scope.parameter? target = none) ∧
          view.lookup access = unresolved access := by
  have hmember : ∀ place identifier member, view.member place identifier member =
      (Read.mk identifier member (decide (view.place ≤ place))).expr := by
    intro place identifier member
    by_cases h : place < view.place
    · simp [View.member, Read.expr, h]
    · simp [View.member, Read.expr, h, Nat.not_lt.1 h]
  cases access with
  | reference target =>
    simp only [lookup, reference, read?, memberOf?]
    cases hparameter : view.scope.parameter? target with
    | some accessor => exact Or.inr (Or.inl ⟨target, accessor, rfl, hparameter, rfl⟩)
    | none =>
      have hnone : ∀ target', Access.reference target = .reference target' →
          view.scope.parameter? target' = none := by
        rintro _ ⟨⟩
        exact hparameter
      rcases view.scope.resource? target with _ | ⟨_, _ | identifier, place⟩
      · exact Or.inr (Or.inr ⟨rfl, hnone, rfl⟩)
      · exact Or.inr (Or.inr ⟨rfl, hnone, rfl⟩)
      · exact Or.inl ⟨_, rfl, hmember place identifier "ref"⟩
  | getAtt target name =>
    have hnone : ∀ target', Access.getAtt target name = .reference target' →
        view.scope.parameter? target' = none := by
      intro _ h
      cases h
    simp only [lookup, getAtt, read?, memberOf?]
    rcases view.scope.resource? target with _ | ⟨_, _ | identifier, place⟩
    · exact Or.inr (Or.inr ⟨rfl, hnone, rfl⟩)
    · exact Or.inr (Or.inr ⟨rfl, hnone, rfl⟩)
    · exact Or.inl ⟨_, rfl, hmember place identifier _⟩

/-- The part that an emission leaves in the code. -/
def part? (view : View) : Emission → Option Part
  | .access a => some (.name (view.lookup a))
  | .call function => some (.call function)
  | .passed _ => none

/-- A result with the parts and the warnings of some emissions. -/
structure Emits {α : Type} (view : View) (partsOf : α → List Part) (emissions : List Emission)
    (result : Noted α) : Prop where
  parts : partsOf result.value = emissions.filterMap view.part?
  warnings : result.warnings = emissions.filterMap (warningOf? view.owner)

/-- Named results with the parts and the warnings of named emissions. -/
def EmitsEntries (view : View) (emissions : List (String × List Emission))
    (results : List (String × Noted Expr)) : Prop :=
  List.Forall₂ (fun named result => named.1 = result.1 ∧ view.Emits Expr.parts named.2 result.2)
    emissions results

section Emits

variable {α β : Type} {view : View} {partsOf : α → List Part} {emissions : List Emission}

theorem Emits.pure {value : α} (h : partsOf value = []) :
    view.Emits partsOf [] (Pure.pure value) :=
  ⟨h, rfl⟩

theorem Emits.map {partsOf' : β → List Part} {result : Noted α} {f : α → β}
    (h : view.Emits partsOf emissions result) (hf : ∀ a, partsOf' (f a) = partsOf a) :
    view.Emits partsOf' emissions (do return f (← result)) := by
  refine ⟨(hf result.value).trans h.parts, ?_⟩
  change result.warnings ++ [] = _
  rw [List.append_nil, h.warnings]

theorem Emits.gather {emissions : List (List Emission)} {results : List (Noted α)}
    (h : List.Forall₂ (view.Emits partsOf) emissions results) :
    view.Emits (List.flatMap partsOf) emissions.flatten (Noted.gather results) := by
  induction h with
  | nil => exact ⟨rfl, rfl⟩
  | cons hitem _ ih =>
    constructor
    · rw [Noted.gather, List.flatMap_cons, hitem.parts, ih.parts, ← List.filterMap_append]
      rfl
    · rw [Noted.gather, hitem.warnings, ih.warnings, ← List.filterMap_append]
      rfl

theorem EmitsEntries.gather {emissions : List (String × List Emission)}
    {results : List (String × Noted Expr)} (h : view.EmitsEntries emissions results) :
    view.Emits entryParts (emissions.flatMap Prod.snd) (Noted.gatherEntries results) := by
  have hvalues : List.Forall₂ (view.Emits fun entry : String × Expr => entry.2.parts)
      (emissions.map Prod.snd)
      (results.map fun (key, a) => (⟨(key, a.value), a.warnings⟩ : Noted (String × Expr))) := by
    rw [List.forall₂_map_left_iff, List.forall₂_map_right_iff]
    exact h.imp fun _ _ hentry => ⟨hentry.2.parts, hentry.2.warnings⟩
  have hgather := Emits.gather hvalues
  rw [← List.flatMap_def] at hgather
  exact ⟨(entryParts_eq _).trans hgather.parts, hgather.warnings⟩

theorem EmitsEntries.object {emissions : List (String × List Emission)}
    {results : List (String × Noted Expr)} (h : view.EmitsEntries emissions results)
    (keys : KeyStyle) :
    view.Emits Expr.parts (emissions.flatMap Prod.snd) (objectOf keys results) :=
  h.gather.map (entryParts_map keys.apply)

/-- A call with one argument that is resolved. -/
theorem Emits.call {result : Noted Expr} (h : view.Emits Expr.parts emissions result)
    {function : String} (hfunction : function ≠ "ref") {arguments : Expr → List Expr}
    (harguments : ∀ e, itemParts (arguments e) = e.parts) :
    view.Emits Expr.parts (.call function :: emissions)
      (do return .call function (arguments (← result))) := by
  constructor
  · change (Expr.call function (arguments result.value)).parts = _
    rw [Expr.parts, if_neg hfunction, harguments, h.parts]
    rfl
  · change result.warnings ++ [] = _
    rw [List.append_nil, h.warnings]
    rfl

/-- A name is found among the emissions exactly when it is found among the results. -/
theorem EmitsEntries.find {emissions : List (String × List Emission)}
    {results : List (String × Noted Expr)} (h : view.EmitsEntries emissions results)
    (name : String) :
    ((emissions.find? fun v => v.1 = name) = none ∧ (results.find? fun v => v.1 = name) = none) ∨
      ∃ named result, (emissions.find? fun v => v.1 = name) = some named ∧
        (results.find? fun v => v.1 = name) = some result ∧
          view.Emits Expr.parts named.2 result.2 := by
  induction h with
  | nil => exact Or.inl ⟨rfl, rfl⟩
  | @cons named result _ _ hentry _ ih =>
    by_cases hname : named.1 = name
    · refine Or.inr ⟨named, result, ?_, ?_, hentry.2⟩
      · simp [hname]
      · simp [← hentry.1, hname]
    · simpa [List.find?_cons, ← hentry.1, hname] using ih

end Emits

theorem lookup_parts (view : View) (access : Access) :
    (view.lookup access).parts = [.name (view.lookup access)] := by
  rcases view.lookup_cases access with ⟨read, -, h⟩ | ⟨target, accessor, -, -, h⟩ | ⟨-, -, h⟩
  · rw [h, Read.expr]
    split_ifs <;> rfl
  · rw [h]
    rfl
  · rw [h]
    cases access <;> simp [unresolved, Expr.parts]

/-- An access is resolved by looking it up. -/
theorem lookup_emits (view : View) (access : Access) :
    view.Emits Expr.parts [.access access] (pure (view.lookup access)) :=
  ⟨view.lookup_parts access, rfl⟩

theorem chunk_emits {view : View} {emissions : List (String × List Emission)}
    {bindings : List (String × Noted Expr)} (h : view.EmitsEntries emissions bindings)
    (piece : Piece) :
    view.Emits Chunk.parts (piece.emissions emissions) (view.chunk bindings piece) := by
  have hlookup := fun access => (⟨view.lookup_parts access, rfl⟩ :
    view.Emits Chunk.parts [.access access] (pure (.hole (view.lookup access))))
  cases piece with
  | text text => exact .pure rfl
  | pseudo parameter => cases parameter <;> exact .pure rfl
  | name target => exact hlookup (.reference target)
  | getAtt target name => exact hlookup (.getAtt target name)
  | bound name =>
    rw [Piece.emissions, chunk]
    rcases h.find name with ⟨hnamed, hresult⟩ | ⟨named, result, hnamed, hresult, hemits⟩
    · rw [hnamed, hresult]
      exact hlookup (.reference name)
    · rw [hnamed, hresult]
      exact hemits.map fun _ => rfl

theorem substitution_emits {view : View} {emissions : List (String × List Emission)}
    {bindings : List (String × Noted Expr)} (h : view.EmitsEntries emissions bindings)
    (pieces : List Piece) :
    view.Emits Expr.parts (pieces.flatMap (Piece.emissions emissions))
      (view.substitution pieces bindings) := by
  unfold substitution
  split_ifs with htext
  · -- a text without placeholders emits nothing, whatever the substitution binds
    have hnone : ∀ piece ∈ pieces, piece.emissions emissions = [] := by
      intro piece hpiece
      have := List.all_eq_true.1 htext piece hpiece
      cases piece <;> simp_all [pieceText?, Piece.emissions]
    rw [List.flatMap_eq_nil_iff.2 hnone]
    exact .pure rfl
  · have hchunks : List.Forall₂ (view.Emits Chunk.parts)
        (pieces.map (Piece.emissions emissions)) (pieces.map (view.chunk bindings)) := by
      rw [List.forall₂_map_left_iff, List.forall₂_map_right_iff, List.forall₂_same]
      exact fun piece _ => chunk_emits h piece
    have hgather := Emits.gather hchunks
    rw [← List.flatMap_def] at hgather
    exact hgather.map chunkParts_eq

mutual

/-- **Resolving turns emissions into parts and warnings,** one by one and in order. -/
theorem resolve_emits (view : View) (keys : KeyStyle) : ∀ value : Value,
    view.Emits Expr.parts value.emissions (view.resolve keys value)
  | .null | .bool _ | .number _ | .string _ => .pure rfl
  | .pseudo parameter => by cases parameter <;> exact .pure rfl
  | .list items => by
    rw [resolve, Value.emissions]
    exact (Emits.gather (view.resolveItems_emits keys items)).map itemParts_eq
  | .map entries => by
    rw [resolve, Value.emissions, passedEmission]
    cases passedFunction? entries with
    | none => exact (view.resolveEntries_emits keys entries).object keys
    | some function =>
      have h := (view.resolveEntries_emits .verbatim entries).object .verbatim
      refine ⟨h.parts, ?_⟩
      change Warning.unsupportedFunction view.owner function :: (objectOf .verbatim _).warnings = _
      rw [h.warnings]
      rfl
  | .ref target => view.lookup_emits (.reference target)
  | .getAtt target name => view.lookup_emits (.getAtt target name)
  | .join delimiter parts => by
    rw [resolve, Value.emissions]
    exact (view.resolve_emits .property parts).call (by decide) fun e => by
      simp [itemParts, Expr.parts]
  | .sub pieces bindings => by
    rw [resolve, Value.emissions]
    exact substitution_emits (view.resolveEntries_emits .property bindings) pieces
  | .select index list => by
    have hindex := view.resolve_emits .property index
    have hlist := view.resolve_emits .property list
    rw [resolve, Value.emissions]
    constructor
    · change (Expr.call "select" [(view.resolve .property index).value,
        (view.resolve .property list).value]).parts = _
      simp [Expr.parts, itemParts, hindex.parts, hlist.parts, part?]
    · change (view.resolve .property index).warnings ++
        ((view.resolve .property list).warnings ++ []) = _
      rw [List.append_nil, hindex.warnings, hlist.warnings, ← List.filterMap_append]
      rfl
  | .split delimiter source => by
    rw [resolve, Value.emissions]
    exact (view.resolve_emits .property source).call (by decide) fun e => by
      simp [itemParts, Expr.parts]
  | .importValue name => by
    rw [resolve, Value.emissions]
    exact (view.resolve_emits .property name).call (by decide) fun e => by simp [itemParts]
  | .base64 source => by
    rw [resolve, Value.emissions]
    exact (view.resolve_emits .property source).call (by decide) fun e => by simp [itemParts]
  | .zones region => by
    rw [resolve, Value.emissions]
    split_ifs with hown
    · -- the region of the stack itself is no argument
      have hnone : region.emissions = [] := by
        cases region <;> first | rfl | simp [isOwnRegion] at hown
      rw [hnone]
      refine ⟨?_, rfl⟩
      change (Expr.call "getAzs" []).parts = _
      simp [Expr.parts, itemParts, part?]
    · exact (view.resolve_emits .property region).call (by decide) fun e => by simp [itemParts]

/-- Each item of a list has the parts and warnings of its emissions. -/
theorem resolveItems_emits (view : View) (keys : KeyStyle) : ∀ items : List Value,
    List.Forall₂ (view.Emits Expr.parts) (itemEmissions items) (view.resolveItems keys items)
  | [] => .nil
  | item :: rest => .cons (view.resolve_emits keys item) (view.resolveItems_emits keys rest)

/-- Each entry of a map has the parts and warnings of its emissions. -/
theorem resolveEntries_emits (view : View) (keys : KeyStyle) : ∀ entries : List (String × Value),
    view.EmitsEntries (entryEmissions entries) (view.resolveEntries keys entries)
  | [] => .nil
  | (_, value) :: rest =>
    .cons ⟨rfl, view.resolve_emits keys value⟩ (view.resolveEntries_emits keys rest)

end

mutual

/-- The property at a path has the parts and warnings of its emissions. -/
theorem property_emits (view : View) (verbatim path : List String) : ∀ value : Value,
    view.Emits Expr.parts value.emissions (view.property verbatim path value)
  | .map entries => by
    rw [property]
    split_ifs
    · exact view.resolve_emits .verbatim (.map entries)
    · split
      · exact view.resolve_emits .property (.map entries)
      · rename_i hpassed
        rw [Value.emissions, passedEmission, hpassed]
        exact (view.propertyEntries_emits verbatim path entries).object .property
  | .list items => by
    rw [property]
    split_ifs
    · exact view.resolve_emits .verbatim (.list items)
    · exact (Emits.gather (view.propertyItems_emits verbatim path items)).map itemParts_eq
  | .null | .bool _ | .number _ | .string _ | .ref _ | .pseudo _ | .getAtt _ _ | .join _ _
  | .sub _ _ | .select _ _ | .split _ _ | .importValue _ | .base64 _ | .zones _ => by
    rw [property]
    · split_ifs <;> exact view.resolve_emits _ _
    all_goals nofun

/-- Each item of a property has the parts and warnings of its emissions. -/
theorem propertyItems_emits (view : View) (verbatim path : List String) : ∀ items : List Value,
    List.Forall₂ (view.Emits Expr.parts) (itemEmissions items)
      (view.propertyItems verbatim path items)
  | [] => .nil
  | item :: rest =>
    .cons (view.property_emits verbatim path item) (view.propertyItems_emits verbatim path rest)

/-- Each property below a path has the parts and warnings of its emissions. -/
theorem propertyEntries_emits (view : View) (verbatim path : List String) :
    ∀ entries : List (String × Value),
      view.EmitsEntries (entryEmissions entries) (view.propertyEntries verbatim path entries)
  | [] => .nil
  | (name, value) :: rest =>
    .cons ⟨rfl, view.property_emits verbatim (path ++ [name]) value⟩
      (view.propertyEntries_emits verbatim path rest)

end

/-- The properties of a resource have the parts and warnings of their emissions. -/
theorem properties_emits (view : View) (verbatim : List String) (resource : Resource) :
    view.Emits Expr.parts resource.emissions (view.properties verbatim resource.properties) :=
  (view.propertyEntries_emits verbatim [] resource.properties).object .property

end View

/-! ## Statements -/

/-- The parts of a statement. -/
def Statement.parts (statement : Statement) : List Part :=
  (statement.props?.map Expr.parts).getD []

theorem textEntry_parts (key : String) (text? : Option String) :
    entryParts (textEntry key text?) = [] := by
  cases text? <;> rfl

theorem valueEntry_emits (view : View) (key : String) (value? : Option Value) :
    view.Emits entryParts (optionalEmissions value?) (valueEntry view key value?) := by
  cases value? with
  | none => exact .pure rfl
  | some value => exact (view.resolve_emits .property value).map fun e => by simp [entryParts]

theorem allowedEntry_emits (view : View) (allowed? : Option (List Value)) :
    view.Emits entryParts (itemEmissions (allowed?.getD [])).flatten
      (allowedEntry view allowed?) := by
  cases allowed? with
  | none => exact .pure rfl
  | some values =>
    refine (View.Emits.gather (view.resolveItems_emits .property values)).map fun items => ?_
    simp [entryParts, Expr.parts, itemParts_eq]

/-- The statement for a parameter has the parts and warnings of its emissions. -/
theorem parameterStatement_emits (scope : Scope) (parameter : Parameter) :
    (View.mk scope parameter.name 0).Emits Statement.parts parameter.emissions
      (parameterStatement scope parameter) := by
  let view : View := ⟨scope, parameter.name, 0⟩
  have hdefault := valueEntry_emits view "default" parameter.default
  have hallowed := allowedEntry_emits view parameter.allowed
  have hconstraints := (view.resolveEntries_emits .property parameter.constraints).gather
  constructor
  · change entryParts (textEntry "type" _ ++ textEntry "description" _ ++
      (valueEntry view "default" parameter.default).value ++
      (allowedEntry view parameter.allowed).value ++
      (Noted.gatherEntries (view.resolveEntries .property parameter.constraints)).value.map _) = _
    rw [entryParts_append, entryParts_map propertyName]
    simp only [entryParts_append, textEntry_parts, hdefault.parts, hallowed.parts,
      hconstraints.parts, Parameter.emissions, List.filterMap_append, List.nil_append]
    rfl
  · change (valueEntry view "default" parameter.default).warnings ++
      ((allowedEntry view parameter.allowed).warnings ++
      ((Noted.gatherEntries (view.resolveEntries .property parameter.constraints)).warnings ++
      [])) = _
    simp only [hdefault.warnings, hallowed.warnings, hconstraints.warnings, Parameter.emissions,
      List.filterMap_append, List.append_nil, List.append_assoc]
    rfl

/-- The statement for an output has the parts of its emissions, and warns of its condition too. -/
theorem outputStatement_emits (scope : Scope) (count : Nat) (output : Output) :
    (outputStatement scope count output).value.parts =
        output.emissions.filterMap (View.mk scope output.name count).part? ∧
      (outputStatement scope count output).warnings =
        (warnCondition output.name output.condition).warnings ++
          output.emissions.filterMap (warningOf? output.name) := by
  let view : View := ⟨scope, output.name, count⟩
  have hvalue := view.resolve_emits .property output.value
  have hexport := valueEntry_emits view "exportName" output.exportName
  constructor
  · change entryParts ([("value", (view.resolve .property output.value).value)] ++
      textEntry "description" _ ++ (valueEntry view "exportName" output.exportName).value) = _
    simp only [entryParts_append, textEntry_parts, hexport.parts, entryParts, hvalue.parts,
      Output.emissions, List.filterMap_append, List.append_nil]
    rfl
  · change _ ++ ((view.resolve .property output.value).warnings ++
      ((valueEntry view "exportName" output.exportName).warnings ++ [])) = _
    rw [List.append_nil, hvalue.warnings, hexport.warnings, ← List.filterMap_append]
    rfl

/-- The statement for a resource has the parts of its emissions when the resource has a construct,
and none otherwise. -/
theorem resourceStatement_parts (scope : Scope) (place : Nat) (resource : Resource) :
    (resourceStatement scope place resource).value.parts =
      if (supported? scope resource).isSome then
        resource.emissions.filterMap (View.mk scope resource.name place).part?
      else [] := by
  cases hs : supported? scope resource with
  | none =>
    rw [resourceStatement_of_unsupported hs]
    rfl
  | some pair =>
    obtain ⟨kind, identifier⟩ := pair
    rw [resourceStatement_of_supported hs]
    exact ((View.mk scope resource.name place).properties_emits kind.verbatim resource).parts

end CdkStacks.Construct
