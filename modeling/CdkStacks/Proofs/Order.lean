import CdkStacks.Proofs.Reads

/-!
# Order of declarations

The generated constructor reads a construct directly only behind the statement that declares it; all
other reads wait until the stack is complete.

* `StackCode.Declares` says which statement declares the local of a construct;
* `StackCode.read?` is the read that an access becomes in front of a place of the code, by the
  statements of the code alone;
* `declares_iff`: the locals that values are resolved with are those that the statements declare;
* `reads_follow_declarations`: every statement reads what its declaration accesses, directly when
  the construct is declared before it and lazily otherwise.
-/

namespace CdkStacks.Construct

open CdkStacks.Template CdkStacks.TypeScript

/-! ## Declared locals -/

/-- The local that a statement declares for the construct of a name. -/
def Statement.localOf? (name : String) : Statement → Option String
  | .resource other identifier _ _ => if other = name then some identifier else none
  | .parameter .. | .placeholder .. | .dependency .. | .output .. => none

/-- Whether a statement declares the parameter of a name. -/
def Statement.isParameter (name : String) : Statement → Bool
  | .parameter other _ _ => other = name
  | .resource .. | .placeholder .. | .dependency .. | .output .. => false

/-- The locals that a statement uses as soon as it is run. -/
def Statement.uses : Statement → List String
  | .parameter _ _ props | .resource _ _ _ props | .output _ props =>
    (props.reads.filter fun read => !read.isLazy).map Read.construct
  | .dependency identifier other => [identifier, other]
  | .placeholder .. => []

namespace StackCode

/-- The statement at a place among the resources declares the local of a construct. -/
def Declares (code : StackCode) (place : Nat) (name identifier : String) : Prop :=
  ∃ construct props, code.resources[place]? = some (.resource name identifier construct props)

/-- The place of the statement that declares the construct of a name, and the local. -/
def construct? (code : StackCode) (name : String) : Option (Nat × String) :=
  code.resources.zipIdx.findSome? fun (statement, place) =>
    (statement.localOf? name).map fun identifier => (place, identifier)

/-- The read of a member of the construct of a name in front of a place: it is lazy when the
construct is not declared before that place. -/
def member? (code : StackCode) (place : Nat) (target member : String) : Option Read :=
  (code.construct? target).map fun (declared, identifier) =>
    ⟨identifier, member, decide (place ≤ declared)⟩

/-- The read that an access becomes in front of a place. A reference to a parameter reads no
construct, and neither does an access to a name without one. -/
def read? (code : StackCode) (place : Nat) : Access → Option Read
  | .reference target =>
    if code.parameters.any (Statement.isParameter target) then none
    else code.member? place target "ref"
  | .getAtt target name => code.member? place target (attributeMember name)

/-- The statements in the order in which they are written. -/
def written (code : StackCode) : List Statement :=
  code.parameters ++ code.resources ++ code.dependencies ++ code.outputs

end StackCode

theorem mem_directReads {props : Expr} {identifier : String} :
    identifier ∈ (props.reads.filter fun read => !read.isLazy).map Read.construct ↔
      ∃ read ∈ props.reads, read.isLazy = false ∧ read.construct = identifier := by
  simp [and_assoc]

/-! ## Reads of statements -/

theorem entryReads_append (first second : List (String × Expr)) :
    entryReads (first ++ second) = entryReads first ++ entryReads second := by
  simp [entryReads_eq]

theorem textEntry_reads (key : String) (text? : Option String) :
    entryReads (textEntry key text?) = [] := by
  cases text? <;> rfl

theorem valueEntry_reads (view : View) (key : String) (value? : Option Value) :
    entryReads (valueEntry view key value?).value =
      (optionalAccesses value?).filterMap view.read? := by
  cases value? with
  | none => rfl
  | some value =>
    change (view.resolve .property value).value.reads ++ [] = _
    rw [List.append_nil, view.resolve_reads]
    rfl

theorem allowedEntry_reads (view : View) (allowed? : Option (List Value)) :
    entryReads (allowedEntry view allowed?).value =
      (itemAccesses (allowed?.getD [])).filterMap view.read? := by
  cases allowed? with
  | none => rfl
  | some values =>
    change itemReads (Noted.gather (view.resolveItems .property values)).value ++ [] = _
    rw [List.append_nil, Noted.gather_value, itemReads_eq, List.flatMap_map]
    exact view.resolveItems_reads .property values

theorem parameterStatement_reads (scope : Scope) (parameter : Parameter) : ∃ construct props,
    (parameterStatement scope parameter).value = .parameter parameter.name construct props ∧
      props.reads = parameter.accesses.filterMap (View.mk scope parameter.name 0).read? := by
  refine ⟨_, _, rfl, ?_⟩
  let view : View := ⟨scope, parameter.name, 0⟩
  have hconstraints := (view.resolveEntries_bound .property parameter.constraints).reads
  change entryReads (textEntry "type" _ ++ textEntry "description" _ ++
    (valueEntry view "default" parameter.default).value ++
    (allowedEntry view parameter.allowed).value ++
    (Noted.gatherEntries (view.resolveEntries .property parameter.constraints)).value.map _) = _
  rw [Noted.gatherEntries_value, List.map_map]
  simp only [entryReads_append, textEntry_reads, valueEntry_reads, allowedEntry_reads,
    Parameter.accesses, List.filterMap_append, List.nil_append]
  rw [entryReads_eq, List.flatMap_map, ← hconstraints]
  rfl

theorem outputStatement_reads (scope : Scope) (count : Nat) (output : Output) : ∃ props,
    (outputStatement scope count output).value = .output output.name props ∧
      props.reads = output.accesses.filterMap (View.mk scope output.name count).read? := by
  refine ⟨_, rfl, ?_⟩
  let view : View := ⟨scope, output.name, count⟩
  change entryReads ([("value", (view.resolve .property output.value).value)] ++
    textEntry "description" _ ++ (valueEntry view "exportName" output.exportName).value) = _
  simp only [entryReads_append, textEntry_reads, valueEntry_reads, Output.accesses,
    List.filterMap_append, List.append_nil]
  rw [← view.resolve_reads .property output.value]
  simp [entryReads]
  rfl

/-! ## The written order -/

theorem written_of_resources {code : StackCode} {place : Nat} {statement : Statement}
    (h : code.resources[place]? = some statement) :
    code.written[code.parameters.length + place]? = some statement := by
  have hlt := (List.getElem?_eq_some_iff.1 h).1
  unfold StackCode.written
  rw [List.append_assoc, List.append_assoc, List.getElem?_append_right (by omega),
    Nat.add_sub_cancel_left, List.getElem?_append_left hlt, h]

/-- Where a written statement stands. -/
theorem written_cases {code : StackCode} {i : Nat} {statement : Statement}
    (h : code.written[i]? = some statement) :
    statement ∈ code.parameters ∨
      (∃ place, i = code.parameters.length + place ∧ code.resources[place]? = some statement) ∨
      code.parameters.length + code.resources.length ≤ i ∧
        (statement ∈ code.dependencies ∨ statement ∈ code.outputs) := by
  unfold StackCode.written at h
  rw [List.append_assoc, List.append_assoc, List.getElem?_append] at h
  split_ifs at h with hi
  · exact Or.inl (List.mem_of_getElem? h)
  rw [List.getElem?_append] at h
  split_ifs at h with hi'
  · exact Or.inr (Or.inl ⟨i - code.parameters.length, by omega, h⟩)
  · exact Or.inr (Or.inr ⟨by omega, List.mem_append.1 (List.mem_of_getElem? h)⟩)

theorem parameterSteps_sublist (parameters : List Statement) :
    (parameters.flatMap Statement.steps).Sublist (Scaffold.parameterSteps parameters) := by
  unfold Scaffold.parameterSteps
  split_ifs with h
  · rw [List.isEmpty_iff.1 h]
    exact .slnil
  · exact (List.sublist_append_right _ _).trans (List.sublist_append_left _ _)

theorem groupSteps_sublist (group : List Statement) :
    (group.flatMap Statement.steps).Sublist (Scaffold.groupSteps group) := by
  unfold Scaffold.groupSteps
  split_ifs with h
  · rw [List.isEmpty_iff.1 h]
    exact .slnil
  · exact .cons _ (.refl _)

/-- The statements of the code are written in their order. -/
theorem written_steps (stack : String) (code : StackCode) (comment : List String) :
    (code.written.flatMap Statement.steps).Sublist (Scaffold.stackSteps stack code comment) := by
  simp only [StackCode.written, List.flatMap_append]
  have hgroups := (((parameterSteps_sublist code.parameters).append
    (groupSteps_sublist code.resources)).append (groupSteps_sublist code.dependencies)).append
    (groupSteps_sublist code.outputs)
  refine hgroups.trans (List.Sublist.trans ?_ (List.sublist_append_left _ _))
  simp only [List.append_assoc]
  iterate 3 refine List.Sublist.trans ?_ (List.sublist_append_right _ _)
  exact .refl _

/-! ## Locals of the scope and of the code -/

section Code

variable {template : Template} {imports : Imports} {libraries : Libraries} {code : StackCode}
  (hcode : StackCode.ofTemplate template imports libraries = .ok code)

include hcode

theorem Declares.lt_length {place : Nat} {name identifier : String}
    (h : code.Declares place name identifier) : place < template.resources.length := by
  obtain ⟨construct, props, hget⟩ := h
  rw [← resources_length hcode]
  exact (List.getElem?_eq_some_iff.1 hget).1

/-- The parameters of the scope are those that the statements declare. -/
theorem parameter?_isSome (name : String) : ((Scope.ofTemplate template).parameter? name).isSome =
    code.parameters.any (Statement.isParameter name) := by
  have hstatement : ∀ parameter : Parameter, Statement.isParameter name
      (parameterStatement (Scope.ofTemplate template) parameter).value =
        decide (parameter.name = name) :=
    fun _ => rfl
  rw [parameters_eq hcode, List.any_map]
  simp only [Function.comp_def, hstatement]
  rw [Bool.eq_iff_iff]
  simp [Scope.parameter?, Scope.ofTemplate]

variable (hnames : (template.resources.map Resource.name).Nodup)

include hnames

/-- **The locals of the scope are those that the statements declare.** -/
theorem declares_iff {place : Nat} {name identifier : String} :
    code.Declares place name identifier ↔
      (Scope.ofTemplate template).resource? name = some ⟨name, some identifier, place⟩ := by
  unfold StackCode.Declares
  simp only [resources_getElem? hcode, Option.map_eq_some_iff]
  constructor
  · rintro ⟨construct, props, resource, hget, hvalue⟩
    cases hs : supported? (Scope.ofTemplate template) resource with
    | none =>
      rw [resourceStatement_of_unsupported hs] at hvalue
      cases hvalue
    | some pair =>
      obtain ⟨kind, identifier'⟩ := pair
      rw [resourceStatement_of_supported hs] at hvalue
      cases hvalue
      obtain ⟨identifier?, -, hfind⟩ := exists_slot hnames hget
      have hlocal := (supported?_eq_some.1 hs).2
      rw [Scope.identifier?, hfind] at hlocal
      rw [hfind, ← show identifier? = some identifier from hlocal]
  · intro hfind
    obtain ⟨hmem, -⟩ := (resource?_eq_some hnames).1 hfind
    obtain ⟨i, hi⟩ := List.mem_iff_getElem?.1 hmem
    have hslot := slots_getElem? [] 0 template.resources i
    rw [show (slots [] 0 template.resources)[i]? = _ from hi, Option.map_some] at hslot
    obtain ⟨resource, hget, heq⟩ := Option.map_eq_some_iff.1 hslot.symm
    simp only [Prod.mk.injEq, Nat.zero_add] at heq
    obtain ⟨rfl, hsome, rfl⟩ := heq
    obtain ⟨kind, hkind⟩ := Option.isSome_iff_exists.1 hsome
    have hs : supported? (Scope.ofTemplate template) resource = some (kind, identifier) :=
      supported?_eq_some.2 ⟨hkind, by rw [Scope.identifier?, hfind]; rfl⟩
    exact ⟨_, _, resource, hget, resourceStatement_of_supported hs i⟩

/-- A name has one declaring statement, which is found. -/
theorem construct?_eq_some {place : Nat} {name identifier : String} :
    code.construct? name = some (place, identifier) ↔ code.Declares place name identifier := by
  have hsound : ∀ {place identifier}, code.construct? name = some (place, identifier) →
      code.Declares place name identifier := by
    intro place identifier h
    obtain ⟨⟨statement, place'⟩, hmem, hlocal⟩ := List.exists_of_findSome?_eq_some h
    obtain ⟨identifier', hlocal, heq⟩ := Option.map_eq_some_iff.1 hlocal
    cases heq
    have hget := List.mem_zipIdx_iff_getElem?.1 hmem
    cases statement <;> simp only [Statement.localOf?, reduceCtorEq] at hlocal
    obtain ⟨rfl, hidentifier⟩ := Option.ite_none_right_eq_some.1 hlocal
    cases hidentifier
    exact ⟨_, _, hget⟩
  refine ⟨hsound, fun h => ?_⟩
  cases hfind : code.construct? name with
  | none =>
    obtain ⟨construct, props, hget⟩ := h
    have := List.findSome?_eq_none_iff.1 hfind (_, place) (List.mem_zipIdx_iff_getElem?.2 hget)
    simp [Statement.localOf?] at this
  | some found =>
    obtain ⟨place', identifier'⟩ := found
    have h₁ := (declares_iff hcode hnames).1 (hsound hfind)
    rw [(declares_iff hcode hnames).1 h] at h₁
    cases h₁
    rfl

/-- The reads by the scope are the reads by the statements. -/
theorem read?_eq (owner : String) (place : Nat) :
    (View.mk (Scope.ofTemplate template) owner place).read? = code.read? place := by
  have hmember : ∀ target member,
      (View.mk (Scope.ofTemplate template) owner place).memberOf? target member =
        code.member? place target member := by
    intro target member
    unfold View.memberOf? StackCode.member?
    cases hfind : code.construct? target with
    | some found =>
      obtain ⟨declared, identifier⟩ := found
      have := (declares_iff hcode hnames).1 ((construct?_eq_some hcode hnames).1 hfind)
      simp [this]
    | none =>
      rcases hslot : (Scope.ofTemplate template).resource? target with
        _ | ⟨name, _ | identifier, declared⟩
      · rfl
      · rfl
      · obtain ⟨-, rfl⟩ := (resource?_eq_some hnames).1 hslot
        have := (construct?_eq_some hcode hnames).2 ((declares_iff hcode hnames).2 hslot)
        rw [this] at hfind
        cases hfind
  funext access
  cases access with
  | reference target =>
    simp only [View.read?, StackCode.read?, hmember, parameter?_isSome hcode]
  | getAtt target name => exact hmember target _

/-- What has a local is declared. -/
theorem declares_of_identifier? {name identifier : String}
    (h : (Scope.ofTemplate template).identifier? name = some identifier) :
    ∃ place, code.Declares place name identifier := by
  obtain ⟨⟨name', identifier?, place⟩, hfind, hlocal⟩ := Option.bind_eq_some_iff.1 h
  obtain ⟨-, rfl⟩ := (resource?_eq_some hnames).1 hfind
  refine ⟨place, (declares_iff hcode hnames).2 ?_⟩
  rw [hfind, ← show identifier? = some identifier from hlocal]

/-- A read by the statements is direct exactly behind the declaration of its construct. -/
theorem read?_declares {place : Nat} {access : Access} {read : Read}
    (h : code.read? place access = some read) :
    ∃ declared, code.Declares declared access.target read.construct ∧
      (read.isLazy = false ↔ declared < place) := by
  have hmember : ∀ target member, code.member? place target member = some read →
      ∃ declared, code.Declares declared target read.construct ∧
        (read.isLazy = false ↔ declared < place) := by
    intro target member h
    obtain ⟨⟨declared, identifier⟩, hfind, rfl⟩ := Option.map_eq_some_iff.1 h
    exact ⟨declared, (construct?_eq_some hcode hnames).1 hfind, by simp⟩
  cases access with
  | reference target =>
    simp only [StackCode.read?, Option.ite_none_left_eq_some] at h
    exact hmember target _ h.2
  | getAtt target name => exact hmember target _ h

/-- A dependency is between declared constructs. -/
theorem dependency_declares {statement : Statement} (h : statement ∈ code.dependencies) :
    ∃ identifier other, statement = .dependency identifier other ∧
      (∃ place name, code.Declares place name identifier) ∧
      ∃ place name, code.Declares place name other := by
  rw [dependencies_eq hcode] at h
  simp only [List.mem_flatMap, List.mem_filterMap] at h
  obtain ⟨resource, -, dependency, -, hvalue⟩ := h
  unfold dependencyStatement at hvalue
  split at hvalue
  · rename_i identifier other hidentifier hother
    obtain ⟨place, hplace⟩ := declares_of_identifier? hcode hnames hidentifier
    obtain ⟨place', hplace'⟩ := declares_of_identifier? hcode hnames hother
    exact ⟨identifier, other, (Option.some.inj hvalue).symm, ⟨place, _, hplace⟩, place', _, hplace'⟩
  · cases hvalue

end Code

/-- What the statements for a template read, and when. -/
structure ReadsInOrder (template : Template) (code : StackCode) : Prop where
  /-- Parameters read every construct lazily. -/
  parameters : List.Forall₂ (fun (parameter : Parameter) statement => ∃ construct props,
    statement = .parameter parameter.name construct props ∧
      props.reads = parameter.accesses.filterMap (code.read? 0) ∧
      ∀ read ∈ props.reads, read.isLazy = true) template.parameters code.parameters
  /-- A resource with a construct reads what its properties access: directly what the statements
  before its own declare, and lazily what the others declare. -/
  resources : ∀ (place : Nat) (resource : Resource),
    template.resources[place]? = some resource → (lookup resource.type).isSome →
      ∃ identifier construct props,
        code.resources[place]? = some (.resource resource.name identifier construct props) ∧
          props.reads = resource.accesses.filterMap (code.read? place) ∧
          ∀ read ∈ props.reads, ∃ access ∈ resource.accesses, ∃ declared,
            code.Declares declared access.target read.construct ∧
              (read.isLazy = false ↔ declared < place)
  /-- A resource without a construct declares nothing. -/
  placeholders : ∀ (place : Nat) (resource : Resource),
    template.resources[place]? = some resource → lookup resource.type = none →
      code.resources[place]? = some (.placeholder resource.name resource.type)
  count : code.resources.length = template.resources.length
  /-- Outputs read every construct directly. -/
  outputs : List.Forall₂ (fun (output : Output) statement => ∃ props,
    statement = .output output.name props ∧
      props.reads = output.accesses.filterMap (code.read? template.resources.length) ∧
      ∀ read ∈ props.reads, read.isLazy = false ∧
        ∃ place name, code.Declares place name read.construct) template.outputs code.outputs
  /-- Both constructs of a dependency are declared. -/
  dependencies : ∀ statement ∈ code.dependencies, ∃ identifier other,
    statement = .dependency identifier other ∧
      (∃ place name, code.Declares place name identifier) ∧
      ∃ place name, code.Declares place name other
  /-- A local that a statement uses at once is declared by a statement written before it. -/
  written : ∀ (i : Nat) (statement : Statement), code.written[i]? = some statement →
    ∀ identifier ∈ statement.uses, ∃ j < i, ∃ name construct props,
      code.written[j]? = some (.resource name identifier construct props)
  /-- The statements are written in this order. -/
  steps : ∀ stack comment,
    (code.written.flatMap Statement.steps).Sublist (Scaffold.stackSteps stack code comment)

section Code

variable {template : Template} {imports : Imports} {libraries : Libraries} {code : StackCode}
  (hcode : StackCode.ofTemplate template imports libraries = .ok code)
  (hnames : (template.resources.map Resource.name).Nodup)

include hcode hnames

theorem parameter_reads (parameter : Parameter) : ∃ construct props,
      (parameterStatement (Scope.ofTemplate template) parameter).value =
        .parameter parameter.name construct props ∧
      props.reads = parameter.accesses.filterMap (code.read? 0) ∧
      ∀ read ∈ props.reads, read.isLazy = true := by
  obtain ⟨construct, props, hvalue, hreads⟩ :=
    parameterStatement_reads (Scope.ofTemplate template) parameter
  rw [read?_eq hcode hnames] at hreads
  refine ⟨construct, props, hvalue, hreads, fun read hread => ?_⟩
  rw [hreads] at hread
  obtain ⟨access, -, hread⟩ := List.mem_filterMap.1 hread
  obtain ⟨declared, -, hlazy⟩ := read?_declares hcode hnames hread
  simpa using hlazy

theorem output_reads (output : Output) :
    ∃ props, (outputStatement (Scope.ofTemplate template) template.resources.length output).value =
        .output output.name props ∧
      props.reads = output.accesses.filterMap (code.read? template.resources.length) ∧
      ∀ read ∈ props.reads, read.isLazy = false ∧
        ∃ place name, code.Declares place name read.construct := by
  obtain ⟨props, hvalue, hreads⟩ :=
    outputStatement_reads (Scope.ofTemplate template) template.resources.length output
  rw [read?_eq hcode hnames] at hreads
  refine ⟨props, hvalue, hreads, fun read hread => ?_⟩
  rw [hreads] at hread
  obtain ⟨access, -, hread⟩ := List.mem_filterMap.1 hread
  obtain ⟨declared, hdeclares, hlazy⟩ := read?_declares hcode hnames hread
  exact ⟨hlazy.2 (Declares.lt_length hcode hdeclares), declared, _, hdeclares⟩

theorem resource_reads {place : Nat} {resource : Resource}
    (hget : template.resources[place]? = some resource)
    (hkind : (lookup resource.type).isSome) : ∃ identifier construct props,
      code.resources[place]? = some (.resource resource.name identifier construct props) ∧
      props.reads = resource.accesses.filterMap (code.read? place) ∧
      ∀ read ∈ props.reads, ∃ access ∈ resource.accesses, ∃ declared,
        code.Declares declared access.target read.construct ∧
          (read.isLazy = false ↔ declared < place) := by
  rw [← supported?_isSome hnames hget] at hkind
  obtain ⟨⟨kind, identifier⟩, hs⟩ := Option.isSome_iff_exists.1 hkind
  have hreads := (View.mk (Scope.ofTemplate template) resource.name place).properties_reads
    kind.verbatim resource.properties
  rw [read?_eq hcode hnames] at hreads
  refine ⟨identifier, kind.construct, _, ?_, hreads, fun read hread => ?_⟩
  · rw [resources_getElem? hcode, hget, Option.map_some, resourceStatement_of_supported hs]
  · rw [hreads] at hread
    obtain ⟨access, haccess, hread⟩ := List.mem_filterMap.1 hread
    exact ⟨access, haccess, read?_declares hcode hnames hread⟩

/-- Whatever a statement uses at once is declared among the resources, in front of the statement. -/
theorem uses_declares {i : Nat} {statement : Statement} (h : code.written[i]? = some statement)
    {identifier : String} (huse : identifier ∈ statement.uses) :
    ∃ place name, code.Declares place name identifier ∧ code.parameters.length + place < i := by
  have hcount := resources_length hcode
  rcases written_cases h with hmem | ⟨place, rfl, hget⟩ | ⟨hle, hmem | hmem⟩
  · -- a parameter reads lazily only, so it uses nothing at once
    rw [parameters_eq hcode] at hmem
    obtain ⟨parameter, -, rfl⟩ := List.mem_map.1 hmem
    obtain ⟨construct, props, hvalue, -, hlazy⟩ := parameter_reads hcode hnames parameter
    rw [hvalue] at huse
    obtain ⟨read, hread, hdirect, -⟩ := mem_directReads.1 huse
    rw [hlazy read hread] at hdirect
    cases hdirect
  · obtain ⟨resource, hresource, hstatement⟩ :=
      Option.map_eq_some_iff.1 ((resources_getElem? hcode place).symm.trans hget)
    cases hkind : lookup resource.type with
    | none =>
      have hs : supported? (Scope.ofTemplate template) resource = none := by
        simpa [hkind] using supported?_isSome hnames hresource
      rw [← hstatement, resourceStatement_of_unsupported hs] at huse
      cases huse
    | some kind =>
      obtain ⟨identifier', construct, props, hget', -, hreads⟩ :=
        resource_reads hcode hnames hresource (by simp [hkind])
      rw [hget, Option.some.injEq] at hget'
      rw [hget'] at huse
      obtain ⟨read, hread, hdirect, rfl⟩ := mem_directReads.1 huse
      obtain ⟨access, -, declared, hdeclares, hlazy⟩ := hreads read hread
      have hlt := hlazy.1 hdirect
      exact ⟨declared, _, hdeclares, by omega⟩
  · obtain ⟨identifier', other, rfl, ⟨place, name, hplace⟩, place', name', hplace'⟩ :=
      dependency_declares hcode hnames hmem
    have hlt := Declares.lt_length hcode hplace
    have hlt' := Declares.lt_length hcode hplace'
    rcases List.mem_cons.1 huse with rfl | huse
    · exact ⟨place, name, hplace, by omega⟩
    · rw [List.mem_singleton.1 huse]
      exact ⟨place', name', hplace', by omega⟩
  · rw [outputs_eq hcode] at hmem
    obtain ⟨output, -, rfl⟩ := List.mem_map.1 hmem
    obtain ⟨props, hvalue, -, hreads⟩ := output_reads hcode hnames output
    rw [hvalue] at huse
    obtain ⟨read, hread, -, rfl⟩ := mem_directReads.1 huse
    obtain ⟨-, place, name, hdeclares⟩ := hreads read hread
    have hlt := Declares.lt_length hcode hdeclares
    exact ⟨place, name, hdeclares, by omega⟩

/-- **Reads follow declarations.** When the names of the resources differ, a statement reads
directly only constructs that a statement before it declares, and reads the others lazily. -/
theorem reads_follow_declarations : ReadsInOrder template code where
  parameters := by
    rw [parameters_eq hcode, List.forall₂_map_right_iff, List.forall₂_same]
    exact fun parameter _ => parameter_reads hcode hnames parameter
  resources place resource hget hkind := resource_reads hcode hnames hget hkind
  placeholders place resource hget hkind := by
    have hs : supported? (Scope.ofTemplate template) resource = none := by
      simpa [hkind] using supported?_isSome hnames hget
    rw [resources_getElem? hcode, hget, Option.map_some, resourceStatement_of_unsupported hs]
  count := resources_length hcode
  outputs := by
    rw [outputs_eq hcode, List.forall₂_map_right_iff, List.forall₂_same]
    exact fun output _ => output_reads hcode hnames output
  dependencies statement h := dependency_declares hcode hnames h
  written i statement h identifier huse := by
    obtain ⟨place, name, ⟨construct, props, hget⟩, hlt⟩ := uses_declares hcode hnames h huse
    exact ⟨_, hlt, name, construct, props, written_of_resources hget⟩
  steps stack comment := written_steps stack code comment

end Code

/-- An alarm in front of the topic that it notifies, and a policy behind it. -/
def alarmTemplate : Template where
  parameters := [{ Parameter.plain "Stage" "String" with default := some (.ref "Topic") }]
  resources :=
    [⟨"Alarm", "AWS::CloudWatch::Alarm",
        [("AlarmActions", .list [.ref "Topic"]), ("AlarmName", .ref "Stage")], ["Topic"], none⟩,
      ⟨"Topic", "AWS::SNS::Topic", [], [], none⟩,
      ⟨"Policy", "AWS::SNS::TopicPolicy",
        [("Topics", .join "," (.list [.ref "Topic", .sub [.getAtt "Topic" "Arn"] []]))], [], none⟩]
  outputs := [⟨"Name", .getAtt "Topic" "TopicName", none, none, none⟩]
  conditions := []

theorem reads_follow_declarations_alarm :
    (alarmTemplate.resources.map Resource.name).Nodup ∧
      ∃ code, StackCode.ofTemplate alarmTemplate .empty .standard = .ok code ∧
        ReadsInOrder alarmTemplate code ∧
        (code.resources.filterMap Statement.props?).map Expr.reads =
          [[⟨"topic", "ref", true⟩], [],
            [⟨"topic", "ref", false⟩, ⟨"topic", "attrArn", false⟩]] := by
  have hnames : (alarmTemplate.resources.map Resource.name).Nodup := by decide
  have hcheck : alarmTemplate.checkCycles = .ok () := rfl
  have hcode := ofTemplate_of_ok hcheck .empty .standard
  exact ⟨hnames, _, hcode, reads_follow_declarations hcode hnames, by decide +kernel⟩

end CdkStacks.Construct
