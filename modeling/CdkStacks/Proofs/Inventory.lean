import CdkStacks.Proofs.Emissions
import CdkStacks.Proofs.Locals
import CdkStacks.Proofs.Order

/-!
# Everything declared is accounted for

Mapping a template loses, doubles and reorders nothing that the template declares.

* `Loss` says what a warning is about, `about` selects the warnings about one loss;
* `StackCode.dependency` is what a dependency becomes, by the statements of the code alone;
* `identifiers_eq`: the locals of the code are those of the slots, so no two are the same;
* `warnings_eq`, `about_warnings`: the warnings, declaration by declaration;
* `declarations_accounted`: every declaration has its statement, and every loss its warning.
-/

namespace CdkStacks

/-- The dependencies that the resources declare, in source order. -/
def Template.dependencies (template : Template) : List (String × String) :=
  template.resources.flatMap fun resource => resource.dependsOn.map (resource.name, ·)

end CdkStacks

namespace CdkStacks.Construct

open CdkStacks.Template CdkStacks.TypeScript

/-! ## Warnings by loss -/

/-- What mapping a template may lose. -/
inductive Loss where
  | type
  | function
  | condition
  | dependency
  deriving DecidableEq, Repr

/-- What a warning is about. -/
def Warning.loss : Warning → Loss
  | .unsupportedType .. => .type
  | .unsupportedFunction .. => .function
  | .conditionDropped .. => .condition
  | .dependencySkipped .. => .dependency

/-- The warnings about a loss, in order. -/
def about (loss : Loss) (warnings : List Warning) : List Warning :=
  warnings.filter fun warning => warning.loss = loss

theorem about_append (loss : Loss) (first second : List Warning) :
    about loss (first ++ second) = about loss first ++ about loss second :=
  List.filter_append ..

theorem flatMap_nil_fun {α β : Type} (items : List α) :
    (items.flatMap fun _ => ([] : List β)) = [] :=
  List.flatMap_eq_nil_iff.2 fun _ _ => rfl

theorem about_flatMap {α : Type} (loss : Loss) (items : List α) (warningsOf : α → List Warning) :
    about loss (items.flatMap warningsOf) =
      items.flatMap fun item => about loss (warningsOf item) :=
  List.filter_flatMap ..

/-- Resolving values warns of functions only. -/
theorem about_emissions {loss : Loss} (hloss : loss ≠ .function) (owner : String)
    (emissions : List Emission) : about loss (emissions.filterMap (warningOf? owner)) = [] := by
  rw [about, List.filter_eq_nil_iff]
  intro warning hwarning
  obtain ⟨emission, -, hwarning⟩ := List.mem_filterMap.1 hwarning
  cases emission with
  | access | call => cases hwarning
  | passed function =>
    cases hwarning
    simp [Warning.loss, hloss.symm]

/-- The warning of a condition, which is lost. -/
def conditionWarning? (owner : String) (condition? : Option String) : Option Warning :=
  condition?.map (.conditionDropped owner)

theorem warnCondition_warnings (owner : String) (condition? : Option String) :
    (warnCondition owner condition?).warnings = (conditionWarning? owner condition?).toList := by
  cases condition? <;> rfl

theorem about_condition (loss : Loss) (owner : String) (condition? : Option String) :
    about loss (conditionWarning? owner condition?).toList =
      if loss = .condition then (conditionWarning? owner condition?).toList else [] := by
  cases condition? <;> cases loss <;> rfl

/-- The warning of a statement that is only a reminder. -/
def Statement.reminder? : Statement → Option Warning
  | .placeholder name type => some (.unsupportedType name type)
  | .parameter .. | .resource .. | .dependency .. | .output .. => none

/-- A resource warns of its condition, and of its type or the functions that it passes through. -/
theorem resourceStatement_warnings (scope : Scope) (place : Nat) (resource : Resource) :
    (resourceStatement scope place resource).warnings =
      (conditionWarning? resource.name resource.condition).toList ++
        if (supported? scope resource).isSome then
          resource.emissions.filterMap (warningOf? resource.name)
        else [.unsupportedType resource.name resource.type] := by
  rw [← warnCondition_warnings]
  unfold resourceStatement
  cases hs : supported? scope resource with
  | none => rfl
  | some pair =>
    have hproperties := ((View.mk scope resource.name place).properties_emits pair.1.verbatim
      resource).warnings
    change _ ++ (_ ++ []) = _
    rw [List.append_nil, hproperties]
    rfl

/-- The reminders are what the resources warn of by their types. -/
theorem resourceStatement_reminder (scope : Scope) (place : Nat) (resource : Resource) :
    about .type (resourceStatement scope place resource).warnings =
      (resourceStatement scope place resource).value.reminder?.toList := by
  rw [resourceStatement_warnings, about_append, about_condition]
  cases hs : supported? scope resource with
  | none =>
    rw [resourceStatement_of_unsupported hs]
    rfl
  | some pair =>
    have hnone : about .type (resource.emissions.filterMap (warningOf? resource.name)) = [] :=
      about_emissions (by decide) ..
    rw [resourceStatement_of_supported hs]
    simpa [Statement.reminder?] using hnone

/-- Besides its type and functions, a resource warns of its condition only. -/
theorem resourceStatement_about {loss : Loss} (hfunction : loss ≠ .function) (htype : loss ≠ .type)
    (scope : Scope) (place : Nat) (resource : Resource) :
    about loss (resourceStatement scope place resource).warnings =
      if loss = .condition then (conditionWarning? resource.name resource.condition).toList
      else [] := by
  have hnone : about loss [.unsupportedType resource.name resource.type] = [] := by
    simp [about, Warning.loss, htype.symm]
  rw [resourceStatement_warnings, about_append, about_condition, apply_ite (about loss),
    about_emissions hfunction, hnone, ite_self, List.append_nil]

/-- A dependency warns of nothing else. -/
theorem dependencyStatement_about (loss : Loss) (scope : Scope) (resource other : String) :
    about loss (dependencyStatement scope resource other).warnings =
      if loss = .dependency then (dependencyStatement scope resource other).warnings else [] := by
  unfold dependencyStatement
  split <;> cases loss <;> rfl

/-! ## Locals and dependencies -/

/-- The local that a statement declares. -/
def Statement.identifier? : Statement → Option String
  | .resource _ identifier _ _ => some identifier
  | .parameter .. | .placeholder .. | .dependency .. | .output .. => none

/-- What a dependency between two names becomes: a statement about their constructs, or a warning
when one of them has none. -/
def StackCode.dependency (code : StackCode) (entry : String × String) : Statement ⊕ Warning :=
  match code.construct? entry.1, code.construct? entry.2 with
  | some (_, identifier), some (_, other) => .inl (.dependency identifier other)
  | _, _ => .inr (.dependencySkipped entry.1 entry.2)

theorem dependencyStatements_eq (scope : Scope) (template : Template) :
    template.resources.flatMap (dependencyStatements scope) =
      template.dependencies.map fun entry => dependencyStatement scope entry.1 entry.2 := by
  simp only [Template.dependencies, List.map_flatMap, List.map_map]
  rfl

section Code

variable {template : Template} {imports : Imports} {libraries : Libraries} {code : StackCode}
  (hcode : StackCode.ofTemplate template imports libraries = .ok code)

include hcode

/-- The warnings of the code, declaration by declaration. -/
theorem warnings_eq : code.warnings =
    (template.parameters.flatMap fun p => p.emissions.filterMap (warningOf? p.name)) ++
    (template.resources.zipIdx.flatMap fun (r, place) =>
      (resourceStatement (Scope.ofTemplate template) place r).warnings) ++
    (template.dependencies.flatMap fun entry =>
      (dependencyStatement (Scope.ofTemplate template) entry.1 entry.2).warnings) ++
    template.outputs.flatMap fun o =>
      (conditionWarning? o.name o.condition).toList ++
        o.emissions.filterMap (warningOf? o.name) := by
  let scope := Scope.ofTemplate template
  have hparameter := fun p => (parameterStatement_emits scope p).warnings
  have houtput := fun o => (outputStatement_emits scope template.resources.length o).2
  rw [eq_build hcode]
  change (Noted.gather (template.parameters.map (parameterStatement scope))).warnings ++
    (Noted.gather (resourceStatements scope 0 template.resources)).warnings ++
    (Noted.gather (template.resources.flatMap (dependencyStatements scope))).warnings ++
    (Noted.gather (template.outputs.map
      (outputStatement scope template.resources.length))).warnings = _
  simp only [Noted.gather_warnings, resourceStatements_eq, dependencyStatements_eq,
    List.flatMap_map, hparameter, houtput, warnCondition_warnings]
  rfl

variable (hnames : (template.resources.map Resource.name).Nodup)

include hnames

omit hcode in
/-- The statement for a resource declares the local of its slot. -/
theorem resourceStatement_identifier? {place : Nat} {resource : Resource} {slot : Slot}
    (hresource : template.resources[place]? = some resource)
    (hslot : (slots [] 0 template.resources)[place]? = some slot) :
    (resourceStatement (Scope.ofTemplate template) place resource).value.identifier? =
      slot.identifier? := by
  have hsame := slots_getElem? [] 0 template.resources place
  simp only [hresource, hslot, Option.map_some, Option.some.injEq, Prod.mk.injEq] at hsame
  obtain ⟨hname, hkind, -⟩ := hsame
  have hfind : (Scope.ofTemplate template).identifier? resource.name = slot.identifier? := by
    rw [Scope.identifier?, (resource?_eq_some hnames).2 ⟨List.mem_of_getElem? hslot, hname⟩]
    rfl
  cases hs : supported? (Scope.ofTemplate template) resource with
  | none =>
    rw [lookup_eq_none hnames hresource hs] at hkind
    have hnone : slot.identifier? = none := by simpa using hkind
    rw [resourceStatement_of_unsupported hs, hnone]
    rfl
  | some pair =>
    rw [resourceStatement_of_supported hs, ← hfind, (supported?_eq_some.1 hs).2]
    rfl

/-- The locals of the code are those of the slots. -/
theorem identifiers_eq : code.resources.filterMap Statement.identifier? =
    localsOf (slots [] 0 template.resources) := by
  have hmap : code.resources.map Statement.identifier? =
      (slots [] 0 template.resources).map Slot.identifier? := by
    apply List.ext_getElem?
    intro i
    have hsame := slots_getElem? [] 0 template.resources i
    rw [List.getElem?_map, List.getElem?_map, resources_getElem? hcode]
    cases hresource : template.resources[i]? with
    | none =>
      rw [hresource, Option.map_none, Option.map_eq_none_iff] at hsame
      rw [hsame]
      rfl
    | some resource =>
      rw [hresource, Option.map_some] at hsame
      obtain ⟨slot, hslot, -⟩ := Option.map_eq_some_iff.1 hsame
      rw [hslot, Option.map_some, Option.map_some, Option.map_some,
        resourceStatement_identifier? hnames hresource hslot]
  have hlists := congrArg (List.filterMap id) hmap
  rw [List.filterMap_map, List.filterMap_map] at hlists
  exact hlists

/-- The local that a name is looked up with is that of its construct. -/
theorem identifier?_eq (name : String) :
    (Scope.ofTemplate template).identifier? name = (code.construct? name).map Prod.snd := by
  cases hfind : code.construct? name with
  | some found =>
    have hslot := (declares_iff hcode hnames).1 ((construct?_eq_some hcode hnames).1 hfind)
    rw [Scope.identifier?, hslot]
    rfl
  | none =>
    rw [Option.map_none, Option.eq_none_iff_forall_ne_some]
    intro identifier hlocal
    obtain ⟨place, hplace⟩ := declares_of_identifier? hcode hnames hlocal
    rw [(construct?_eq_some hcode hnames).2 hplace] at hfind
    cases hfind

/-- A dependency becomes what the statements say. -/
theorem dependencyStatement_eq (entry : String × String) :
    (dependencyStatement (Scope.ofTemplate template) entry.1 entry.2).value =
        (code.dependency entry).getLeft? ∧
      (dependencyStatement (Scope.ofTemplate template) entry.1 entry.2).warnings =
        (code.dependency entry).getRight?.toList := by
  unfold dependencyStatement StackCode.dependency
  rw [identifier?_eq hcode hnames, identifier?_eq hcode hnames]
  rcases code.construct? entry.1 with _ | ⟨_, identifier⟩ <;>
    rcases code.construct? entry.2 with _ | ⟨_, other⟩ <;> exact ⟨rfl, rfl⟩

/-- A name has a construct exactly when it names a resource whose type has one. -/
theorem construct?_isSome (name : String) : (code.construct? name).isSome ↔
    ∃ resource ∈ template.resources, resource.name = name ∧ (lookup resource.type).isSome := by
  constructor
  · intro h
    obtain ⟨⟨place, identifier⟩, hfind⟩ := Option.isSome_iff_exists.1 h
    obtain ⟨construct, props, hget⟩ := (construct?_eq_some hcode hnames).1 hfind
    obtain ⟨resource, kind, hresource, hname, hkind, -⟩ := resource_of_statement hcode hget
    exact ⟨resource, List.mem_of_getElem? hresource, hname, by rw [hkind]; rfl⟩
  · rintro ⟨resource, hmem, rfl, hkind⟩
    obtain ⟨place, hget⟩ := List.mem_iff_getElem?.1 hmem
    obtain ⟨identifier?, hsome, hslot⟩ := exists_slot hnames hget
    obtain ⟨identifier, rfl⟩ := Option.isSome_iff_exists.1 (hsome.trans hkind)
    rw [(construct?_eq_some hcode hnames).2 ((declares_iff hcode hnames).2 hslot)]
    rfl

end Code

/-! ## The inventory -/

/-- The statement for a resource: a construct of the kind of its type, or a reminder when its type
has no kind. -/
def StatesResource (resource : Resource) (statement : Statement) : Prop :=
  match lookup resource.type with
  | some kind => ∃ identifier props,
    statement = .resource resource.name identifier kind.construct props
  | none => statement = .placeholder resource.name resource.type

/-- What became of the declarations of a template. -/
structure Accounted (template : Template) (code : StackCode) : Prop where
  parameters : List.Forall₂ (fun (parameter : Parameter) statement => ∃ props,
    statement = .parameter parameter.name (parameterClass parameter) props)
    template.parameters code.parameters
  resources : List.Forall₂ StatesResource template.resources code.resources
  outputs : List.Forall₂ (fun (output : Output) statement => ∃ props,
    statement = .output output.name props) template.outputs code.outputs
  /-- No two constructs are held by one local. -/
  identifiers : (code.resources.filterMap Statement.identifier?).Nodup
  /-- The names with a construct are those of the resources whose type has a kind. -/
  constructs : ∀ name, (code.construct? name).isSome ↔
    ∃ resource ∈ template.resources, resource.name = name ∧ (lookup resource.type).isSome
  /-- A dependency between constructs becomes a statement. -/
  dependencies : code.dependencies =
    template.dependencies.filterMap fun entry => (code.dependency entry).getLeft?
  /-- Any other dependency becomes a warning. -/
  skipped : about .dependency code.warnings =
    template.dependencies.filterMap fun entry => (code.dependency entry).getRight?
  /-- Every reminder has its warning. -/
  reminders : about .type code.warnings = code.resources.filterMap Statement.reminder?
  /-- Every condition has its warning: those of the resources, then those of the outputs. -/
  conditions : about .condition code.warnings =
    (template.resources.filterMap fun r => conditionWarning? r.name r.condition) ++
      template.outputs.filterMap fun o => conditionWarning? o.name o.condition

theorem resourceStatement_states {template : Template}
    (hnames : (template.resources.map Resource.name).Nodup) {place : Nat} {resource : Resource}
    (h : template.resources[place]? = some resource) :
    StatesResource resource
      (resourceStatement (Scope.ofTemplate template) place resource).value := by
  unfold StatesResource
  cases hs : supported? (Scope.ofTemplate template) resource with
  | none =>
    rw [lookup_eq_none hnames h hs]
    exact resourceStatement_of_unsupported hs place
  | some pair =>
    rw [(supported?_eq_some.1 hs).1]
    exact ⟨pair.2, _, resourceStatement_of_supported hs place⟩

section Code

variable {template : Template} {imports : Imports} {libraries : Libraries} {code : StackCode}
  (hcode : StackCode.ofTemplate template imports libraries = .ok code)

include hcode

/-- The warnings of the code about a loss other than of functions. -/
theorem about_warnings {loss : Loss} (hloss : loss ≠ .function) : about loss code.warnings =
    (template.resources.zipIdx.flatMap fun (r, place) =>
      about loss (resourceStatement (Scope.ofTemplate template) place r).warnings) ++
    (template.dependencies.flatMap fun entry =>
      about loss (dependencyStatement (Scope.ofTemplate template) entry.1 entry.2).warnings) ++
    template.outputs.flatMap fun o =>
      about loss (conditionWarning? o.name o.condition).toList := by
  rw [warnings_eq hcode]
  simp only [about_append, about_flatMap, about_emissions hloss, List.append_nil, flatMap_nil_fun,
    List.nil_append]

variable (hnames : (template.resources.map Resource.name).Nodup)

include hnames

/-- **Everything declared is accounted for.** When the names of the resources differ, every
declaration becomes one statement at its place, every dependency becomes a statement or a warning,
and everything lost has its warning, all in the order of the template. -/
theorem declarations_accounted : Accounted template code where
  parameters := by
    rw [parameters_eq hcode, List.forall₂_map_right_iff, List.forall₂_same]
    exact fun parameter _ => ⟨_, rfl⟩
  resources := by
    rw [resources_eq hcode, List.forall₂_map_right_iff]
    nth_rewrite 1 [← List.zipIdx_map_fst 0 template.resources]
    rw [List.forall₂_map_left_iff, List.forall₂_same]
    intro (resource, place) hmem
    exact resourceStatement_states hnames (List.mem_zipIdx_iff_getElem?.1 hmem)
  outputs := by
    rw [outputs_eq hcode, List.forall₂_map_right_iff, List.forall₂_same]
    exact fun output _ => ⟨_, rfl⟩
  identifiers := by
    rw [identifiers_eq hcode hnames]
    exact (locals_nodup [] 0 template.resources).1
  constructs := construct?_isSome hcode hnames
  dependencies := by
    have hvalue := fun resource other => (dependencyStatement_eq hcode hnames (resource, other)).1
    rw [dependencies_eq hcode, Template.dependencies, List.filterMap_flatMap]
    simp only [List.filterMap_map, hvalue]
    rfl
  skipped := by
    rw [about_warnings hcode (by decide), List.filterMap_eq_flatMap_toList]
    simp only [resourceStatement_about (by decide : Loss.dependency ≠ .function) (by decide),
      dependencyStatement_about, about_condition, reduceCtorEq, if_false, if_true, flatMap_nil_fun,
      List.nil_append, List.append_nil]
    simp only [dependencyStatement_eq hcode hnames]
  reminders := by
    rw [about_warnings hcode (by decide), resources_eq hcode, List.filterMap_map,
      List.filterMap_eq_flatMap_toList]
    simp only [resourceStatement_reminder, dependencyStatement_about, about_condition,
      reduceCtorEq, if_false, flatMap_nil_fun, List.append_nil]
    rfl
  conditions := by
    rw [about_warnings hcode (by decide), List.filterMap_eq_flatMap_toList,
      List.filterMap_eq_flatMap_toList]
    simp only [resourceStatement_about (by decide : Loss.condition ≠ .function) (by decide),
      dependencyStatement_about, about_condition, reduceCtorEq, if_false, if_true, flatMap_nil_fun,
      List.append_nil]
    nth_rewrite 2 [← List.zipIdx_map_fst 0 template.resources]
    rw [List.flatMap_map]

end Code

/-- Two queues whose names give one local, and a cluster, which has no construct. -/
def clusterTemplate : Template where
  parameters := [Parameter.plain "Stage" "String"]
  resources :=
    [⟨"Queue", "AWS::SQS::Queue", [("Tags", .map [("Fn::If", .string "IsProd")])],
        ["Cluster", "queue"], some "IsProd"⟩,
      ⟨"Cluster", "AWS::ECS::Cluster", [("Name", .ref "Stage")], ["queue"], some "IsProd"⟩,
      ⟨"queue", "AWS::SQS::Queue", [], [], none⟩]
  outputs := [⟨"Name", .getAtt "Queue" "QueueName", none, none, some "IsProd"⟩]
  conditions := []

theorem declarations_accounted_cluster :
    (clusterTemplate.resources.map Resource.name).Nodup ∧
      ∃ code, StackCode.ofTemplate clusterTemplate .empty .standard = .ok code ∧
        Accounted clusterTemplate code ∧
        code.resources.filterMap Statement.identifier? = ["queue", "queue2"] ∧
        code.warnings =
          [.conditionDropped "Queue" "IsProd", .unsupportedFunction "Queue" "Fn::If",
            .conditionDropped "Cluster" "IsProd", .unsupportedType "Cluster" "AWS::ECS::Cluster",
            .dependencySkipped "Queue" "Cluster", .dependencySkipped "Cluster" "queue",
            .conditionDropped "Name" "IsProd"] := by
  have hnames : (clusterTemplate.resources.map Resource.name).Nodup := by decide
  have hcheck : clusterTemplate.checkCycles = .ok () := rfl
  have hcode := ofTemplate_of_ok hcheck .empty .standard
  exact ⟨hnames, _, hcode, declarations_accounted hcode hnames, by decide +kernel,
    by decide +kernel⟩

end CdkStacks.Construct
