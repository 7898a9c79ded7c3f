import CdkStacks.Proofs.Statements

/-!
# Reads of constructs

What a value of a template reads, and what the expression that it becomes reads.

* `Access` is a use of a name in a template, `Value.accesses` lists those that reach the code;
* `Read` is a read of a construct in the code, `Expr.reads` lists those of an expression;
* `View.read?` is the read that an access becomes at a place;
* `View.resolve_reads` and `View.properties_reads`: resolving turns the accesses of a value into the
  reads of its expression, one by one and in order, at any nesting.
-/

namespace CdkStacks.Template

/-! ## Accesses of a template -/

/-- A use of a name: of its reference, or of one of its attributes. -/
inductive Access where
  | reference (target : String)
  | getAtt (target name : String)
  deriving DecidableEq, Repr

/-- The name that is used. -/
def Access.target : Access → String
  | reference target | getAtt target _ => target

/-- The accesses of a piece of a substitution text whose variables have the given accesses. -/
def Piece.accesses (bindings : List (String × List Access)) : Piece → List Access
  | .text _ | .pseudo _ => []
  | .bound key =>
    match bindings.find? fun v => v.1 = key with
    | some (_, accesses) => accesses
    | none => [.reference key]
  | .name target => [.reference target]
  | .getAtt target member => [.getAtt target member]

mutual

/-- The accesses of a value, in the order of the code. A variable of a substitution is accessed
wherever the text names it. -/
def Value.accesses : Value → List Access
  | .null | .bool _ | .number _ | .string _ | .pseudo _ => []
  | .list items => itemAccesses items
  | .map entries => (entryAccesses entries).flatMap Prod.snd
  | .ref target => [.reference target]
  | .getAtt target name => [.getAtt target name]
  | .join _ parts => parts.accesses
  | .sub pieces bindings => pieces.flatMap (Piece.accesses (entryAccesses bindings))
  | .select index list => index.accesses ++ list.accesses
  | .split _ source => source.accesses
  | .importValue name => name.accesses
  | .base64 source => source.accesses
  | .zones region => region.accesses

/-- The accesses of the items of a list. -/
def itemAccesses : List Value → List Access
  | [] => []
  | item :: rest => item.accesses ++ itemAccesses rest

/-- The accesses of each entry of a map. -/
def entryAccesses : List (String × Value) → List (String × List Access)
  | [] => []
  | (key, value) :: rest => (key, value.accesses) :: entryAccesses rest

end

/-- The accesses of a value that may be missing. -/
def optionalAccesses : Option Value → List Access
  | some value => value.accesses
  | none => []

/-- The accesses of a parameter, in the order of the code. -/
def Parameter.accesses (parameter : Parameter) : List Access :=
  optionalAccesses parameter.default ++ itemAccesses (parameter.allowed.getD []) ++
    (entryAccesses parameter.constraints).flatMap Prod.snd

/-- The accesses of the properties of a resource. -/
def Resource.accesses (resource : Resource) : List Access :=
  (entryAccesses resource.properties).flatMap Prod.snd

/-- The accesses of an output, in the order of the code. -/
def Output.accesses (output : Output) : List Access :=
  output.value.accesses ++ optionalAccesses output.exportName

end CdkStacks.Template

namespace CdkStacks.TypeScript

/-! ## Reads of an expression -/

/-- A read of a member of a construct. -/
structure Read where
  construct : String
  member : String
  /-- Whether the read is put off until the stack is complete. -/
  isLazy : Bool
  deriving DecidableEq, Repr

mutual

/-- The reads of an expression, from left to right. -/
def Expr.reads : Expr → List Read
  | .read construct member => [⟨construct, member, false⟩]
  | .deferred construct member => [⟨construct, member, true⟩]
  | .array items => itemReads items
  | .object entries => entryReads entries
  | .call _ arguments => itemReads arguments
  | .asText value => value.reads
  | .template chunks => chunkReads chunks
  | .raw _ | .string _ | .parameter _ _ => []

/-- The reads of the items of an array, or of the arguments of a call. -/
def itemReads : List Expr → List Read
  | [] => []
  | item :: rest => item.reads ++ itemReads rest

/-- The reads of the values of entries. -/
def entryReads : List (String × Expr) → List Read
  | [] => []
  | (_, value) :: rest => value.reads ++ entryReads rest

/-- The reads of the pieces of a template literal. -/
def chunkReads : List Chunk → List Read
  | [] => []
  | .text _ :: rest => chunkReads rest
  | .hole value :: rest => value.reads ++ chunkReads rest

end

/-- The reads of a piece of a template literal. -/
def Chunk.reads : Chunk → List Read
  | .text _ => []
  | .hole value => value.reads

theorem itemReads_eq (items : List Expr) : itemReads items = items.flatMap Expr.reads := by
  induction items with
  | nil => rfl
  | cons item rest ih => rw [itemReads, ih, List.flatMap_cons]

theorem entryReads_eq (entries : List (String × Expr)) :
    entryReads entries = entries.flatMap fun entry => entry.2.reads := by
  induction entries with
  | nil => rfl
  | cons entry rest ih => rw [entryReads, ih, List.flatMap_cons]

theorem chunkReads_eq (chunks : List Chunk) : chunkReads chunks = chunks.flatMap Chunk.reads := by
  induction chunks with
  | nil => rfl
  | cons chunk rest ih => cases chunk <;> simp [chunkReads, Chunk.reads, ih]

end CdkStacks.TypeScript

namespace CdkStacks.Construct

open CdkStacks.Template CdkStacks.TypeScript

/-! ## Resolving -/

theorem objectOf_reads (keys : KeyStyle) (entries : List (String × Noted Expr)) :
    (objectOf keys entries).value.reads = entries.flatMap fun entry => entry.2.value.reads := by
  change entryReads ((Noted.gatherEntries entries).value.map _) = _
  rw [Noted.gatherEntries_value, entryReads_eq, List.map_map, List.flatMap_map]
  rfl

namespace View

/-- The read of a member of the construct of a name; none when the name has no construct. -/
def memberOf? (view : View) (target member : String) : Option Read :=
  match view.scope.resource? target with
  | some ⟨_, some identifier, place⟩ => some ⟨identifier, member, decide (view.place ≤ place)⟩
  | _ => none

/-- The read that an access becomes. A parameter hides a resource of its name from a reference, and
is no construct. -/
def read? (view : View) : Access → Option Read
  | .reference target =>
    if (view.scope.parameter? target).isSome then none else view.memberOf? target "ref"
  | .getAtt target name => view.memberOf? target (attributeMember name)

theorem member_reads (view : View) (place : Nat) (identifier name : String) :
    (view.member place identifier name).reads =
      [⟨identifier, name, decide (view.place ≤ place)⟩] := by
  unfold member
  split_ifs with h
  · simp [Expr.reads, h]
  · simp [Expr.reads, Nat.not_lt.1 h]

theorem getAtt_reads (view : View) (target name : String) :
    (view.getAtt target name).reads = [Access.getAtt target name].filterMap view.read? := by
  unfold getAtt
  simp only [List.filterMap_cons, List.filterMap_nil, read?, memberOf?]
  rcases view.scope.resource? target with _ | ⟨_, _ | identifier, place⟩ <;>
    simp [member_reads, Expr.reads, itemReads]

theorem reference_reads (view : View) (target : String) :
    (view.reference target).reads = [Access.reference target].filterMap view.read? := by
  unfold reference
  simp only [List.filterMap_cons, List.filterMap_nil, read?, memberOf?]
  cases view.scope.parameter? target with
  | some accessor => simp [Expr.reads]
  | none =>
    simp only [Option.isSome_none, Bool.false_eq_true, if_false]
    rcases view.scope.resource? target with _ | ⟨_, _ | identifier, place⟩ <;>
      simp [member_reads, Expr.reads, itemReads]

/-- Variables whose accesses become their reads. -/
def Bound (view : View) (accesses : List (String × List Access))
    (bindings : List (String × Noted Expr)) : Prop :=
  bindings.map (fun entry => (entry.1, entry.2.value.reads)) =
    accesses.map fun entry => (entry.1, entry.2.filterMap view.read?)

theorem Bound.reads {view : View} {accesses : List (String × List Access)}
    {bindings : List (String × Noted Expr)} (h : view.Bound accesses bindings) :
    bindings.flatMap (fun entry => entry.2.value.reads) =
      (accesses.flatMap Prod.snd).filterMap view.read? := by
  have := congrArg (List.flatMap Prod.snd) h
  rw [List.flatMap_map, List.flatMap_map] at this
  rw [List.filterMap_flatMap]
  exact this

/-- A variable is found with the accesses that belong to it. -/
theorem Bound.find {view : View} {accesses : List (String × List Access)}
    {bindings : List (String × Noted Expr)} (h : view.Bound accesses bindings) (name : String) :
    (bindings.find? fun v => v.1 = name).map (fun entry => entry.2.value.reads) =
      (accesses.find? fun v => v.1 = name).map fun entry => entry.2.filterMap view.read? := by
  have := congrArg (fun l => (l.find? fun v => v.1 = name).map Prod.snd) h
  simpa [List.find?_map, Function.comp_def] using this

theorem chunk_reads {view : View} {accesses : List (String × List Access)}
    {bindings : List (String × Noted Expr)} (h : view.Bound accesses bindings) (piece : Piece) :
    (view.chunk bindings piece).value.reads = (piece.accesses accesses).filterMap view.read? := by
  cases piece with
  | text text => rfl
  | name target => exact view.reference_reads target
  | getAtt target name => exact view.getAtt_reads target name
  | pseudo parameter => cases parameter <;> rfl
  | bound name =>
    have hfind := h.find name
    simp only [chunk, Piece.accesses]
    cases hb : bindings.find? fun v => v.1 = name with
    | none =>
      cases ha : accesses.find? fun v => v.1 = name with
      | none => exact view.reference_reads name
      | some entry => simp [hb, ha] at hfind
    | some entry =>
      cases ha : accesses.find? fun v => v.1 = name with
      | none => simp [hb, ha] at hfind
      | some entry' =>
        rw [hb, ha] at hfind
        exact Option.some.inj hfind

theorem substitution_reads {view : View} {accesses : List (String × List Access)}
    {bindings : List (String × Noted Expr)} (h : view.Bound accesses bindings)
    (pieces : List Piece) :
    (view.substitution pieces bindings).value.reads =
      (pieces.flatMap (Piece.accesses accesses)).filterMap view.read? := by
  unfold substitution
  split_ifs with htext
  · -- a text without placeholders has no accesses
    have hnone : ∀ piece ∈ pieces, piece.accesses accesses = [] := by
      intro piece hpiece
      have := List.all_eq_true.1 htext piece hpiece
      cases piece <;> simp_all [pieceText?, Piece.accesses]
    rw [List.flatMap_eq_nil_iff.2 hnone]
    rfl
  · change chunkReads (Noted.gather (pieces.map (view.chunk bindings))).value = _
    rw [Noted.gather_value, chunkReads_eq, List.map_map, List.flatMap_map, List.filterMap_flatMap]
    simp only [Function.comp_def, chunk_reads h]

mutual

/-- **Resolving keeps the accesses.** The reads of the expression for a value are what the accesses
of the value become, in order. -/
theorem resolve_reads (view : View) (keys : KeyStyle) : ∀ value : Value,
    (view.resolve keys value).value.reads = value.accesses.filterMap view.read?
  | .null | .bool _ | .number _ | .string _ => rfl
  | .pseudo parameter => by cases parameter <;> rfl
  | .list items => by
    change itemReads (Noted.gather (view.resolveItems keys items)).value = _
    rw [Noted.gather_value, itemReads_eq, List.flatMap_map, Value.accesses]
    exact view.resolveItems_reads keys items
  | .map entries => by
    have h := fun keys => (resolveEntries_bound view keys entries).reads
    rw [resolve, Value.accesses]
    split
    · change (objectOf .verbatim _).value.reads = _
      rw [objectOf_reads, h]
    · rw [objectOf_reads, h]
  | .ref target => view.reference_reads target
  | .getAtt target name => view.getAtt_reads target name
  | .join delimiter parts => by
    have h := view.resolve_reads .property parts
    change itemReads [.string delimiter, (view.resolve .property parts).value] = _
    simp [itemReads, Expr.reads, Value.accesses, h]
  | .sub pieces bindings => by
    rw [resolve, Value.accesses]
    exact substitution_reads (view.resolveEntries_bound .property bindings) pieces
  | .select index list => by
    have hindex := view.resolve_reads .property index
    have hlist := view.resolve_reads .property list
    change itemReads [(view.resolve .property index).value, (view.resolve .property list).value] = _
    simp [itemReads, Value.accesses, hindex, hlist]
  | .split delimiter source => by
    have h := view.resolve_reads .property source
    change itemReads [.string delimiter, (view.resolve .property source).value] = _
    simp [itemReads, Expr.reads, Value.accesses, h]
  | .importValue name => by
    have h := view.resolve_reads .property name
    change itemReads [(view.resolve .property name).value] = _
    simp [itemReads, Value.accesses, h]
  | .base64 source => by
    have h := view.resolve_reads .property source
    change itemReads [(view.resolve .property source).value] = _
    simp [itemReads, Value.accesses, h]
  | .zones region => by
    have h := view.resolve_reads .property region
    rw [resolve, Value.accesses]
    split_ifs with hown
    · -- the region of the stack itself is no access
      cases region <;> simp [isOwnRegion] at hown <;> rfl
    · change itemReads [(view.resolve .property region).value] = _
      simp [itemReads, h]

/-- The items of a list keep their accesses. -/
theorem resolveItems_reads (view : View) (keys : KeyStyle) : ∀ items : List Value,
    (view.resolveItems keys items).flatMap (fun item => item.value.reads) =
      (itemAccesses items).filterMap view.read?
  | [] => rfl
  | item :: rest => by
    rw [resolveItems, itemAccesses, List.flatMap_cons, List.filterMap_append,
      view.resolve_reads keys item, view.resolveItems_reads keys rest]

/-- The entries of a map keep their accesses. -/
theorem resolveEntries_bound (view : View) (keys : KeyStyle) : ∀ entries : List (String × Value),
    view.Bound (entryAccesses entries) (view.resolveEntries keys entries)
  | [] => rfl
  | (key, value) :: rest => by
    have h := view.resolveEntries_bound keys rest
    unfold Bound at h ⊢
    rw [resolveEntries, entryAccesses, List.map_cons, List.map_cons, h,
      view.resolve_reads keys value]

end

mutual

/-- The property at a path keeps its accesses. -/
theorem property_reads (view : View) (verbatim path : List String) : ∀ value : Value,
    (view.property verbatim path value).value.reads = value.accesses.filterMap view.read?
  | .map entries => by
    rw [property]
    split_ifs
    · exact view.resolve_reads .verbatim (.map entries)
    · split
      · exact view.resolve_reads .property (.map entries)
      · rw [objectOf_reads, Value.accesses]
        exact (view.propertyEntries_bound verbatim path entries).reads
  | .list items => by
    rw [property]
    split_ifs
    · exact view.resolve_reads .verbatim (.list items)
    · change itemReads (Noted.gather (view.propertyItems verbatim path items)).value = _
      rw [Noted.gather_value, itemReads_eq, List.flatMap_map, Value.accesses]
      exact view.propertyItems_reads verbatim path items
  | .null | .bool _ | .number _ | .string _ | .ref _ | .pseudo _ | .getAtt _ _ | .join _ _
  | .sub _ _ | .select _ _ | .split _ _ | .importValue _ | .base64 _ | .zones _ => by
    rw [property]
    · split_ifs <;> exact view.resolve_reads _ _
    all_goals nofun

/-- The items of a property keep their accesses. -/
theorem propertyItems_reads (view : View) (verbatim path : List String) : ∀ items : List Value,
    (view.propertyItems verbatim path items).flatMap (fun item => item.value.reads) =
      (itemAccesses items).filterMap view.read?
  | [] => rfl
  | item :: rest => by
    rw [propertyItems, itemAccesses, List.flatMap_cons, List.filterMap_append,
      view.property_reads verbatim path item, view.propertyItems_reads verbatim path rest]

/-- The properties below a path keep their accesses. -/
theorem propertyEntries_bound (view : View) (verbatim path : List String) :
    ∀ entries : List (String × Value),
      view.Bound (entryAccesses entries) (view.propertyEntries verbatim path entries)
  | [] => rfl
  | (name, value) :: rest => by
    have h := view.propertyEntries_bound verbatim path rest
    unfold Bound at h ⊢
    rw [propertyEntries, entryAccesses, List.map_cons, List.map_cons, h,
      view.property_reads verbatim (path ++ [name]) value]

end

/-- The properties of a resource keep their accesses. -/
theorem properties_reads (view : View) (verbatim : List String)
    (entries : List (String × Value)) :
    (view.properties verbatim entries).value.reads =
      ((entryAccesses entries).flatMap Prod.snd).filterMap view.read? := by
  rw [properties, objectOf_reads]
  exact (view.propertyEntries_bound verbatim [] entries).reads

end View

end CdkStacks.Construct
