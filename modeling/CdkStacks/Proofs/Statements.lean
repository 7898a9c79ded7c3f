import CdkStacks.Proofs.Circular

/-!
# Statements of a template

Every declaration of a template becomes one statement at its place.

* `slots_getElem?`: every resource has a slot at its place, with a local when it has a construct;
* `resource?_eq_some`, `exists_slot`: when no two resources share a name, looking the name of a
  resource up finds its slot;
* `resources_getElem?`, `parameters_eq`, `outputs_eq`, `dependencies_eq`: the statements of the code
  of a template.
-/

namespace CdkStacks.Construct

open CdkStacks.Template CdkStacks.TypeScript

/-! ## Results with warnings -/

theorem Noted.gatherEntries_value {α : Type} (entries : List (String × Noted α)) :
    (Noted.gatherEntries entries).value = entries.map fun entry => (entry.1, entry.2.value) := by
  rw [Noted.gatherEntries, Noted.gather_value, List.map_map]
  rfl

/-! ## Slots of resources -/

theorem find?_reverse_eq_some {α β : Type} [DecidableEq β] {key : α → β} {items : List α}
    (hkeys : (items.map key).Nodup) {name : β} {item : α} :
    (items.reverse.find? fun other => key other = name) = some item ↔
      item ∈ items ∧ key item = name := by
  constructor
  · intro h
    exact ⟨List.mem_reverse.1 (List.mem_of_find?_eq_some h), by simpa using List.find?_some h⟩
  · rintro ⟨hitem, hname⟩
    cases hfind : items.reverse.find? fun other => key other = name with
    | none =>
      have := List.find?_eq_none.1 hfind item (List.mem_reverse.2 hitem)
      simp [hname] at this
    | some other =>
      have hother : key other = name := by simpa using List.find?_some hfind
      have hmem := List.mem_reverse.1 (List.mem_of_find?_eq_some hfind)
      rw [List.inj_on_of_nodup_map hkeys hmem hitem (hother.trans hname.symm)]

/-- Every resource has a slot at its place, with a local exactly when its type has a construct. -/
theorem slots_getElem? : ∀ (used : List String) (place : Nat) (resources : List Resource) (i : Nat),
    ((slots used place resources)[i]?.map fun slot =>
        (slot.name, slot.identifier?.isSome, slot.place)) =
      resources[i]?.map fun resource =>
        (resource.name, (lookup resource.type).isSome, place + i)
  | _, _, [], i => by simp [slots]
  | used, place, resource :: rest, 0 => by
    cases h : lookup resource.type <;> simp [slots, h]
  | used, place, resource :: rest, i + 1 => by
    have hplace : place + (i + 1) = place + 1 + i := by omega
    cases h : lookup resource.type with
    | none =>
      have ih := slots_getElem? used (place + 1) rest i
      simpa [slots, h, hplace] using ih
    | some kind =>
      have ih := slots_getElem? (allocate used resource.name :: used) (place + 1) rest i
      simpa [slots, h, hplace] using ih

theorem slots_names (used : List String) (place : Nat) (resources : List Resource) :
    (slots used place resources).map Slot.name = resources.map Resource.name := by
  apply List.ext_getElem?
  intro i
  have h := congrArg (Option.map Prod.fst) (slots_getElem? used place resources i)
  simpa [List.getElem?_map, Function.comp_def] using h

/-! ## Statements of declarations -/

theorem resourceStatements_eq (scope : Scope) : ∀ (place : Nat) (resources : List Resource),
    resourceStatements scope place resources =
      (resources.zipIdx place).map fun (resource, i) => resourceStatement scope i resource
  | _, [] => rfl
  | place, resource :: rest => by
    rw [resourceStatements, resourceStatements_eq scope (place + 1) rest, List.zipIdx_cons,
      List.map_cons]

theorem resourceStatements_getElem? (scope : Scope) : ∀ (place : Nat) (resources : List Resource)
    (i : Nat), (resourceStatements scope place resources)[i]? =
      resources[i]?.map (resourceStatement scope (place + i))
  | _, [], i => by simp [resourceStatements]
  | place, resource :: rest, 0 => by simp [resourceStatements]
  | place, resource :: rest, i + 1 => by
    have hplace : place + (i + 1) = place + 1 + i := by omega
    simpa [resourceStatements, hplace] using resourceStatements_getElem? scope (place + 1) rest i

theorem resourceStatement_of_supported {scope : Scope} {resource : Resource} {kind : Kind}
    {identifier : String} (h : supported? scope resource = some (kind, identifier)) (place : Nat) :
    (resourceStatement scope place resource).value =
      .resource resource.name identifier kind.construct
        ((View.mk scope resource.name place).properties kind.verbatim
          resource.properties).value := by
  unfold resourceStatement
  rw [h]
  rfl

theorem resourceStatement_of_unsupported {scope : Scope} {resource : Resource}
    (h : supported? scope resource = none) (place : Nat) :
    (resourceStatement scope place resource).value = .placeholder resource.name resource.type := by
  unfold resourceStatement
  rw [h]
  rfl

theorem supported?_eq_some {scope : Scope} {resource : Resource} {kind : Kind}
    {identifier : String} : supported? scope resource = some (kind, identifier) ↔
      lookup resource.type = some kind ∧ scope.identifier? resource.name = some identifier := by
  unfold supported?
  cases lookup resource.type <;> cases scope.identifier? resource.name <;> simp

section Code

variable {template : Template} {imports : Imports} {libraries : Libraries} {code : StackCode}
  (hcode : StackCode.ofTemplate template imports libraries = .ok code)

include hcode

theorem checkCycles_eq_ok : template.checkCycles = .ok () := by
  rcases template.checkCycles_eq with ⟨hok, -⟩ | ⟨failure, herror, -⟩
  · exact hok
  · rw [ofTemplate_of_error herror] at hcode
    cases hcode

theorem eq_build : code = .build template imports libraries := by
  have hbuild := ofTemplate_of_ok (checkCycles_eq_ok hcode) imports libraries
  exact Except.ok.inj (hcode.symm.trans hbuild)

theorem resources_getElem? (i : Nat) : code.resources[i]? =
    template.resources[i]?.map fun resource =>
      (resourceStatement (Scope.ofTemplate template) i resource).value := by
  rw [eq_build hcode]
  change (Noted.gather (resourceStatements _ 0 template.resources)).value[i]? = _
  rw [Noted.gather_value, List.getElem?_map, resourceStatements_getElem?, Option.map_map,
    Nat.zero_add]
  rfl

/-- The statements for the resources, in one list. -/
theorem resources_eq : code.resources = template.resources.zipIdx.map fun (r, place) =>
    (resourceStatement (Scope.ofTemplate template) place r).value := by
  rw [eq_build hcode]
  change (Noted.gather (resourceStatements _ 0 template.resources)).value = _
  rw [Noted.gather_value, resourceStatements_eq, List.map_map]
  rfl

theorem resources_length : code.resources.length = template.resources.length := by
  apply Nat.le_antisymm
  · rw [← List.getElem?_eq_none_iff, resources_getElem? hcode]
    simp
  · rw [← List.getElem?_eq_none_iff]
    have h := resources_getElem? hcode code.resources.length
    rw [List.getElem?_eq_none (Nat.le_refl _)] at h
    simpa using h.symm

/-- The statement of a construct is that of a resource whose type has a kind. -/
theorem resource_of_statement {place : Nat} {name identifier construct : String} {props : Expr}
    (h : code.resources[place]? = some (.resource name identifier construct props)) :
    ∃ resource kind, template.resources[place]? = some resource ∧ resource.name = name ∧
      lookup resource.type = some kind ∧ kind.construct = construct := by
  rw [resources_getElem? hcode] at h
  obtain ⟨resource, hresource, hvalue⟩ := Option.map_eq_some_iff.1 h
  cases hs : supported? (Scope.ofTemplate template) resource with
  | none =>
    rw [resourceStatement_of_unsupported hs] at hvalue
    cases hvalue
  | some pair =>
    rw [resourceStatement_of_supported hs] at hvalue
    cases hvalue
    exact ⟨resource, pair.1, hresource, rfl, (supported?_eq_some.1 hs).1, rfl⟩

theorem parameters_eq : code.parameters = template.parameters.map fun parameter =>
    (parameterStatement (Scope.ofTemplate template) parameter).value := by
  rw [eq_build hcode]
  change (Noted.gather (template.parameters.map _)).value = _
  rw [Noted.gather_value, List.map_map]
  rfl

theorem outputs_eq : code.outputs = template.outputs.map fun output =>
    (outputStatement (Scope.ofTemplate template) template.resources.length output).value := by
  rw [eq_build hcode]
  change (Noted.gather (template.outputs.map _)).value = _
  rw [Noted.gather_value, List.map_map]
  rfl

theorem dependencies_eq : code.dependencies = template.resources.flatMap fun resource =>
    resource.dependsOn.filterMap fun dependency =>
      (dependencyStatement (Scope.ofTemplate template) resource.name dependency).value := by
  rw [eq_build hcode]
  change List.filterMap id (Noted.gather (template.resources.flatMap _)).value = _
  rw [Noted.gather_value, List.map_flatMap, List.filterMap_flatMap]
  simp only [dependencyStatements, List.map_map, List.filterMap_map]
  rfl

theorem eq_dependency {statement : Statement} (h : statement ∈ code.dependencies) :
    ∃ identifier other, statement = .dependency identifier other := by
  rw [dependencies_eq hcode] at h
  simp only [List.mem_flatMap, List.mem_filterMap] at h
  obtain ⟨resource, -, dependency, -, hvalue⟩ := h
  unfold dependencyStatement at hvalue
  split at hvalue
  · cases hvalue
    exact ⟨_, _, rfl⟩
  · cases hvalue

end Code

/-! ## Looking resources up -/

section Names

variable {template : Template} (hnames : (template.resources.map Resource.name).Nodup)

include hnames

/-- Looking a name up finds the slot of that name. -/
theorem resource?_eq_some {name : String} {slot : Slot} :
    (Scope.ofTemplate template).resource? name = some slot ↔
      slot ∈ (Scope.ofTemplate template).resources ∧ slot.name = name := by
  refine find?_reverse_eq_some ?_
  change ((slots [] 0 template.resources).map Slot.name).Nodup
  rw [slots_names]
  exact hnames

/-- The slot of the resource at a place, as it is looked up. -/
theorem exists_slot {place : Nat} {resource : Resource}
    (h : template.resources[place]? = some resource) :
    ∃ identifier?, identifier?.isSome = (lookup resource.type).isSome ∧
      (Scope.ofTemplate template).resource? resource.name =
        some ⟨resource.name, identifier?, place⟩ := by
  have hslot := slots_getElem? [] 0 template.resources place
  rw [h, Option.map_some, Option.map_eq_some_iff] at hslot
  obtain ⟨⟨name, identifier?, place'⟩, hget, heq⟩ := hslot
  simp only [Prod.mk.injEq, Nat.zero_add] at heq
  obtain ⟨rfl, hsome, rfl⟩ := heq
  exact ⟨identifier?, hsome, (resource?_eq_some hnames).2 ⟨List.mem_of_getElem? hget, rfl⟩⟩

/-- A resource is supported exactly when its type has a construct. -/
theorem supported?_isSome {place : Nat} {resource : Resource}
    (h : template.resources[place]? = some resource) :
    (supported? (Scope.ofTemplate template) resource).isSome = (lookup resource.type).isSome := by
  obtain ⟨identifier?, hsome, hfind⟩ := exists_slot hnames h
  unfold supported? Scope.identifier?
  rw [hfind, Option.bind_some]
  cases hl : lookup resource.type with
  | none => simp
  | some kind =>
    rw [hl] at hsome
    obtain ⟨identifier, rfl⟩ := Option.isSome_iff_exists.1 hsome
    simp

theorem lookup_eq_none {place : Nat} {resource : Resource}
    (h : template.resources[place]? = some resource)
    (hs : supported? (Scope.ofTemplate template) resource = none) :
    lookup resource.type = none := by
  simpa [hs] using (supported?_isSome hnames h).symm

end Names

end CdkStacks.Construct
