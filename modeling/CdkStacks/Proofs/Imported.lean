import CdkStacks.Proofs.Emissions
import CdkStacks.Proofs.Items
import CdkStacks.Proofs.Order

/-!
# Imports of a template

The code of a template imports what it uses and nothing else.

* `Template.emitted` lists what the written declarations emit, each with the place of its owner;
* `Template.calls` and `Template.defers` say whether some of it is a call of a function, or reads a
  construct that is declared later;
* `Template.needed` lists the items that a template needs, without regard to its code;
* `code_parts`: the parts of the code are those of what is emitted;
* `imports_used`: the imports of the code are exactly the needed ones.
-/

namespace CdkStacks.Template

open CdkStacks.Construct

/-! ## What a template needs -/

/-- The place of the resource of a name, when its type has a construct. -/
def construct? (template : Template) (name : String) : Option Nat :=
  template.resources.findIdx? fun r => r.name = name && (lookup r.type).isSome

/-- Whether an access is a reference to a parameter. -/
def Access.isParameter (template : Template) : Access → Bool
  | .reference target => (template.parameter? target).isSome
  | .getAtt _ _ => false

/-- Whether an emission is a call of a function in the code. An access is one when it finds neither
a parameter nor a construct. -/
def Emission.calls (template : Template) : Emission → Bool
  | .access a => !a.isParameter template && (template.construct? a.target).isNone
  | .call _ => true
  | .passed _ => false

/-- Whether an emission in front of a place reads a construct that is not declared before. -/
def Emission.defers (template : Template) (place : Nat) : Emission → Bool
  | .access a => !a.isParameter template && (template.construct? a.target).any (place ≤ ·)
  | .call _ | .passed _ => false

/-- What the declarations emit, each with the place in front of which its owner stands: the
parameters before all resources, the outputs behind them. A resource without construct emits
nothing. -/
def emitted (template : Template) : List (Nat × Emission) :=
  template.parameters.flatMap (fun p => p.emissions.map (0, ·)) ++
    template.resources.zipIdx.flatMap (fun (r, place) =>
      if (lookup r.type).isSome then r.emissions.map (place, ·) else []) ++
    template.outputs.flatMap fun o => o.emissions.map (template.resources.length, ·)

/-- Whether a function is called. -/
def calls (template : Template) : Bool :=
  template.emitted.any fun (_, emission) => emission.calls template

/-- Whether a construct is read that is declared later. -/
def defers (template : Template) : Bool :=
  template.emitted.any fun (place, emission) => emission.defers template place

end CdkStacks.Template

namespace CdkStacks.TypeScript

theorem Read.expr_calls (read : Read) : read.expr.calls = false := by
  unfold Read.expr
  split_ifs <;> rfl

theorem Read.expr_defers (read : Read) : read.expr.defers = read.isLazy := by
  unfold Read.expr
  split_ifs with h
  · exact h.symm
  · exact (Bool.eq_false_iff.2 h).symm

end CdkStacks.TypeScript

namespace CdkStacks.Construct

open CdkStacks.Template CdkStacks.TypeScript

/-- The item that the class of a kind is imported as. -/
def Kind.item (kind : Kind) : Item :=
  match kind.localName? with
  | some localName => .renamed localName kind.className
  | none => .value kind.className

/-- The items that a template needs, with their modules. -/
def needed (template : Template) (libraries : Libraries) : List (String × Item) :=
  template.parameters.map (fun p => (libraries.guardianCore, .value (parameterClass p))) ++
    template.resources.filterMap (fun r => (lookup r.type).map fun kind =>
      (libraries.service kind.service, kind.item)) ++
    (if template.outputs.isEmpty then [] else [(libraries.cdkCore, .value "CfnOutput")]) ++
    (if template.calls then [(libraries.cdkCore, .value "Fn")] else []) ++
    (if template.defers then [(libraries.cdkCore, .value "Lazy")] else [])

/-! ## Parts of the code -/

/-- Whether the expression of a statement calls a function. -/
def Statement.calls (statement : Statement) : Bool :=
  statement.props?.any Expr.calls

/-- Whether the expression of a statement reads a construct that is declared later. -/
def Statement.defers (statement : Statement) : Bool :=
  statement.props?.any Expr.defers

/-- A test of expressions that looks at their parts only looks at the parts of a statement. -/
theorem Statement.props?_any {test : Expr → Bool} {testPart : Part → Bool}
    (h : ∀ e : Expr, test e = e.parts.any testPart) (statement : Statement) :
    statement.props?.any test = statement.parts.any testPart := by
  unfold Statement.parts
  cases statement.props? with
  | none => rfl
  | some props => exact h props

theorem unresolved_calls (access : Access) : (unresolved access).calls = true := by
  cases access <;> rfl

theorem unresolved_defers (access : Access) : (unresolved access).defers = false := by
  cases access <;> rfl

/-- The part that an emission of a template leaves in the code. -/
def partOf? (template : Template) (emission : Nat × Emission) : Option Part :=
  (View.mk (Scope.ofTemplate template) "" emission.1).part? emission.2

/-- The owner is of no account for the parts that emissions leave. -/
theorem parts_eq (template : Template) (owner : String) (place : Nat)
    (emissions : List Emission) :
    emissions.filterMap (View.mk (Scope.ofTemplate template) owner place).part? =
      (emissions.map (place, ·)).filterMap (partOf? template) := by
  rw [List.filterMap_map]
  refine List.filterMap_congr fun emission _ => ?_
  cases emission with
  | access a => cases a <;> rfl
  | call | passed => rfl

section Scope

variable {template : Template} (hnames : (template.resources.map Resource.name).Nodup)

include hnames

/-- A slot with a local is that of a resource with a construct. -/
theorem exists_resource {target name identifier : String} {place : Nat}
    (h : (Scope.ofTemplate template).resource? target = some ⟨name, some identifier, place⟩) :
    ∃ resource ∈ template.resources, resource.name = target ∧ (lookup resource.type).isSome := by
  obtain ⟨hmem, rfl⟩ := (resource?_eq_some hnames).1 h
  obtain ⟨i, hi⟩ := List.mem_iff_getElem?.1 hmem
  have hslot := slots_getElem? [] 0 template.resources i
  rw [show (slots [] 0 template.resources)[i]? = _ from hi, Option.map_some] at hslot
  obtain ⟨resource, hget, heq⟩ := Option.map_eq_some_iff.1 hslot.symm
  simp only [Prod.mk.injEq] at heq
  exact ⟨resource, List.mem_of_getElem? hget, heq.1, heq.2.1⟩

/-- A member is read lazily exactly when its construct is not declared before. -/
theorem memberOf?_isLazy (owner : String) (place : Nat) (target member : String) :
    ((View.mk (Scope.ofTemplate template) owner place).memberOf? target member).map Read.isLazy =
      (template.construct? target).map fun declared => decide (place ≤ declared) := by
  unfold View.memberOf?
  cases hfind : template.construct? target with
  | some declared =>
    obtain ⟨hlt, hresource, -⟩ := List.findIdx?_eq_some_iff_getElem.1 hfind
    simp only [Bool.and_eq_true, decide_eq_true_eq] at hresource
    obtain ⟨identifier?, hsome, hslot⟩ :=
      exists_slot hnames (List.getElem?_eq_getElem hlt)
    obtain ⟨identifier, rfl⟩ := Option.isSome_iff_exists.1 (hsome.trans hresource.2)
    rw [hresource.1] at hslot
    rw [hslot]
    rfl
  | none =>
    have hnone := List.findIdx?_eq_none_iff.1 hfind
    rcases hslot : (Scope.ofTemplate template).resource? target with
      _ | ⟨name, _ | identifier, declared⟩
    · rfl
    · rfl
    · obtain ⟨resource, hmem, hname, hkind⟩ := exists_resource hnames hslot
      have := hnone resource hmem
      simp [hname, hkind] at this

omit hnames in
theorem isParameter_eq (access : Access) : access.isParameter template =
    match access with
    | .reference target => ((Scope.ofTemplate template).parameter? target).isSome
    | .getAtt _ _ => false := by
  cases access with
  | getAtt => rfl
  | reference target =>
    rw [Bool.eq_iff_iff]
    simp [Access.isParameter, Template.parameter?, Scope.parameter?, Scope.ofTemplate]

/-- An access reads lazily exactly when it finds a construct that is not declared before. -/
theorem read?_isLazy (owner : String) (place : Nat) (access : Access) :
    ((View.mk (Scope.ofTemplate template) owner place).read? access).map Read.isLazy =
      if access.isParameter template then none
      else (template.construct? access.target).map fun declared => decide (place ≤ declared) := by
  rw [isParameter_eq]
  cases access with
  | reference target =>
    rw [View.read?, apply_ite (Option.map Read.isLazy), memberOf?_isLazy hnames]
    rfl
  | getAtt target name => exact memberOf?_isLazy hnames owner place target _

/-- **An emission leaves a call, or a lazy read,** exactly when the template says so. -/
theorem partOf?_kind (place : Nat) (emission : Emission) :
    (partOf? template (place, emission)).any Part.calls = emission.calls template ∧
      (partOf? template (place, emission)).any Part.defers = emission.defers template place := by
  cases emission with
  | call | passed => exact ⟨rfl, rfl⟩
  | access a =>
    have hlazy := read?_isLazy hnames "" place a
    simp only [partOf?, View.part?, Option.any_some, Part.calls, Part.defers, Emission.calls,
      Emission.defers]
    rcases View.lookup_cases (View.mk (Scope.ofTemplate template) "" place) a with
      ⟨read, hread, h⟩ | ⟨target, accessor, rfl, hparameter, h⟩ | ⟨hread, hparameter, h⟩
    · rw [hread, Option.map_some] at hlazy
      cases hp : a.isParameter template with
      | true =>
        rw [hp] at hlazy
        cases hlazy
      | false =>
        rw [hp] at hlazy
        obtain ⟨declared, hdeclared, hle⟩ := Option.map_eq_some_iff.1 hlazy.symm
        rw [h, hdeclared, Read.expr_calls, Read.expr_defers, ← hle]
        exact ⟨rfl, rfl⟩
    · have hsome : (Access.reference target).isParameter template = true := by
        rw [isParameter_eq]
        simp [show (Scope.ofTemplate template).parameter? target = some accessor from hparameter]
      rw [h, hsome]
      exact ⟨rfl, rfl⟩
    · have hfalse : a.isParameter template = false := by
        rw [isParameter_eq]
        cases a with
        | getAtt => rfl
        | reference target => simpa using hparameter target rfl
      rw [hread, hfalse] at hlazy
      have hnone : template.construct? a.target = none := by simpa using hlazy.symm
      rw [h, hfalse, hnone, unresolved_calls, unresolved_defers]
      exact ⟨rfl, rfl⟩

/-- A resource imports the class of its kind. -/
theorem resourceUse?_eq (libraries : Libraries) {place : Nat} {resource : Resource}
    (h : template.resources[place]? = some resource) :
    resourceUse? libraries (Scope.ofTemplate template) resource =
      (lookup resource.type).map (Kind.use libraries) := by
  unfold resourceUse?
  cases hs : supported? (Scope.ofTemplate template) resource with
  | none =>
    rw [lookup_eq_none hnames h hs]
    rfl
  | some pair =>
    rw [(supported?_eq_some.1 hs).1]
    rfl

theorem resourceUses_entries (libraries : Libraries) :
    (template.resources.filterMap (resourceUse? libraries (Scope.ofTemplate template))).map
        Use.entry =
      template.resources.filterMap fun r => (lookup r.type).map fun kind =>
        (libraries.service kind.service, kind.item) := by
  rw [List.map_filterMap]
  refine List.filterMap_congr fun r hr => ?_
  obtain ⟨place, hplace⟩ := List.mem_iff_getElem?.1 hr
  rw [resourceUse?_eq hnames libraries hplace, Option.map_map]
  rfl

end Scope

theorem expressionUses_entries (libraries : Libraries) (statement : Statement) :
    (expressionUses libraries statement).map Use.entry =
      (if statement.calls then [(libraries.cdkCore, .value "Fn")] else []) ++
        if statement.defers then [(libraries.cdkCore, .value "Lazy")] else [] := by
  unfold expressionUses Statement.calls Statement.defers
  cases statement.props? with
  | none => rfl
  | some props =>
    change (helperUses libraries props.calls props.defers).map Use.entry = _
    rw [helperUses, List.map_append, apply_ite (List.map Use.entry),
      apply_ite (List.map Use.entry)]
    rfl

/-- The expressions of statements need two items at most. -/
theorem mem_expressionUses (libraries : Libraries) (statements : List Statement)
    (entry : String × Item) :
    entry ∈ (statements.flatMap (expressionUses libraries)).map Use.entry ↔
      entry ∈ (if statements.any Statement.calls then [(libraries.cdkCore, Item.value "Fn")]
        else []) ++
        if statements.any Statement.defers then [(libraries.cdkCore, Item.value "Lazy")]
        else [] := by
  simp only [List.map_flatMap, expressionUses_entries, List.mem_flatMap, List.mem_append,
    List.mem_ite_nil_right, List.any_eq_true, List.mem_singleton]
  constructor
  · rintro ⟨statement, hmem, ⟨hcalls, rfl⟩ | ⟨hdefers, rfl⟩⟩
    · exact Or.inl ⟨⟨statement, hmem, hcalls⟩, rfl⟩
    · exact Or.inr ⟨⟨statement, hmem, hdefers⟩, rfl⟩
  · rintro (⟨⟨statement, hmem, hcalls⟩, rfl⟩ | ⟨⟨statement, hmem, hdefers⟩, rfl⟩)
    · exact ⟨statement, hmem, Or.inl ⟨hcalls, rfl⟩⟩
    · exact ⟨statement, hmem, Or.inr ⟨hdefers, rfl⟩⟩

/-! ## Names of the catalogue -/

/-- A local name of the catalogue belongs to one class. -/
theorem className_of_localName : ∀ kind ∈ catalogue, ∀ other ∈ catalogue,
    kind.localName?.isSome → kind.localName? = other.localName? →
      kind.className = other.className := by
  decide +kernel

/-- The names that all stacks may import from the core are no classes of the catalogue. -/
theorem className_notMem : ∀ kind ∈ catalogue,
    kind.className ∉ ["CfnOutput", "Fn", "Lazy"] := by
  decide +kernel

theorem parameterClass_notMem (parameter : Parameter) :
    parameterClass parameter ∉ ["CfnOutput", "Fn", "Lazy"] := by
  unfold parameterClass
  split_ifs <;> decide

theorem mem_catalogue {type : String} {kind : Kind} (h : lookup type = some kind) :
    kind ∈ catalogue :=
  List.mem_of_find?_eq_some h

theorem Kind.item_eq_renamed {kind : Kind} {localName name : String} :
    kind.item = .renamed localName name ↔
      kind.localName? = some localName ∧ kind.className = name := by
  unfold Kind.item
  cases kind.localName? <;> simp

theorem Kind.className_of_item {kind : Kind} {name : String} (h : kind.item = .value name) :
    kind.className = name := by
  unfold Kind.item at h
  split at h
  · cases h
  · exact Item.value.inj h

section Needed

variable {template : Template} {libraries : Libraries}

theorem needed_of_parameter {parameter : Parameter} (h : parameter ∈ template.parameters) :
    (libraries.guardianCore, Item.value (parameterClass parameter)) ∈
      needed template libraries := by
  simp only [needed, List.append_assoc]
  exact List.mem_append_left _ (List.mem_map_of_mem h)

theorem needed_of_resource {resource : Resource} (h : resource ∈ template.resources) {kind : Kind}
    (hkind : lookup resource.type = some kind) :
    (libraries.service kind.service, kind.item) ∈ needed template libraries := by
  simp only [needed, List.append_assoc]
  refine List.mem_append_right _ (List.mem_append_left _ (List.mem_filterMap.2 ⟨resource, h, ?_⟩))
  rw [hkind]
  rfl

/-- A local name is needed for a class of the catalogue only. -/
theorem needed_renamed {module localName name : String}
    (h : (module, Item.renamed localName name) ∈ needed template libraries) :
    ∃ kind ∈ catalogue, kind.localName? = some localName ∧ kind.className = name := by
  simp only [needed, List.mem_append, List.mem_map, List.mem_filterMap, Option.map_eq_some_iff,
    List.mem_ite_nil_left, List.mem_ite_nil_right, List.mem_singleton, Prod.mk.injEq, reduceCtorEq,
    and_false, exists_false, or_false, false_or] at h
  obtain ⟨resource, -, kind, hkind, -, hitem⟩ := h
  exact ⟨kind, mem_catalogue hkind, Kind.item_eq_renamed.1 hitem⟩

/-- What is needed from the core. -/
theorem needed_core {name : String}
    (hname : name ∈ ["CfnOutput", "Fn", "Lazy"]) :
    (libraries.cdkCore, Item.value name) ∈ needed template libraries ↔
      template.outputs ≠ [] ∧ name = "CfnOutput" ∨ template.calls = true ∧ name = "Fn" ∨
        template.defers = true ∧ name = "Lazy" := by
  have hparameters : (libraries.cdkCore, Item.value name) ∉ template.parameters.map
      fun p => (libraries.guardianCore, Item.value (parameterClass p)) := by
    intro hmem
    obtain ⟨parameter, -, heq⟩ := List.mem_map.1 hmem
    cases (Prod.mk.injEq .. ▸ heq).2
    exact parameterClass_notMem parameter hname
  have hresources : (libraries.cdkCore, Item.value name) ∉ template.resources.filterMap
      fun r => (lookup r.type).map fun kind => (libraries.service kind.service, kind.item) := by
    intro hmem
    obtain ⟨resource, -, hmap⟩ := List.mem_filterMap.1 hmem
    obtain ⟨kind, hkind, heq⟩ := Option.map_eq_some_iff.1 hmap
    have hclass := Kind.className_of_item (Prod.mk.inj heq).2
    exact className_notMem kind (mem_catalogue hkind) (hclass ▸ hname)
  simp [needed, hparameters, hresources]

end Needed

theorem Kind.binds_of_has {imports : Imports} {module : String} {kind : Kind}
    (h : imports.Has module kind.item) : imports.binds module kind.construct = true := by
  rw [Imports.binds_eq, ModuleImports.binds_iff]
  unfold Kind.item at h
  unfold Kind.construct
  cases hlocal : kind.localName? with
  | none =>
    rw [hlocal] at h
    exact Or.inl h
  | some localName =>
    rw [hlocal] at h
    exact Or.inr (Or.inr ⟨_, h⟩)

section Code

variable {template : Template} {imports : Imports} {libraries : Libraries} {code : StackCode}
  (hcode : StackCode.ofTemplate template imports libraries = .ok code)
  (hnames : (template.resources.map Resource.name).Nodup)

include hcode hnames

/-- **The parts of the code** are those of what the template emits, in order. -/
theorem code_parts : (code.parameters ++ code.resources ++ code.outputs).flatMap Statement.parts =
    template.emitted.filterMap (partOf? template) := by
  have hparameter := fun p =>
    (parameterStatement_emits (Scope.ofTemplate template) p).parts.trans (parts_eq ..)
  have houtput := fun o =>
    (outputStatement_emits (Scope.ofTemplate template) template.resources.length o).1.trans
      (parts_eq ..)
  have hresource : ∀ entry ∈ template.resources.zipIdx,
      (resourceStatement (Scope.ofTemplate template) entry.2 entry.1).value.parts =
        (if (lookup entry.1.type).isSome then entry.1.emissions.map (entry.2, ·)
          else []).filterMap (partOf? template) := by
    intro entry hentry
    rw [resourceStatement_parts, supported?_isSome hnames (List.mem_zipIdx_iff_getElem?.1 hentry),
      parts_eq, apply_ite (List.filterMap (partOf? template))]
    rfl
  rw [parameters_eq hcode, resources_eq hcode, outputs_eq hcode, Template.emitted]
  simp only [List.flatMap_append, List.flatMap_map, List.filterMap_append, List.filterMap_flatMap,
    hparameter, houtput]
  rw [List.flatMap_congr hresource]

/-- A test of parts succeeds somewhere in the code exactly when it does on what is emitted. -/
theorem statements_any {test : Expr → Bool} {testPart : Part → Bool}
    (h : ∀ e : Expr, test e = e.parts.any testPart) :
    ((code.parameters ++ code.resources ++ code.outputs).any fun statement =>
        statement.props?.any test) =
      template.emitted.any fun emission => (partOf? template emission).any testPart := by
  simp only [Statement.props?_any h]
  rw [← List.any_flatMap, code_parts hcode hnames, List.any_filterMap]
  refine congrArg template.emitted.any (funext fun emission => ?_)
  cases partOf? template emission <;> rfl

theorem statements_call :
    (code.parameters ++ code.resources ++ code.outputs).any Statement.calls = template.calls :=
  (statements_any hcode hnames Expr.calls_eq).trans <|
    congrArg template.emitted.any <| funext fun (place, emission) =>
      (partOf?_kind hnames place emission).1

theorem statements_defer :
    (code.parameters ++ code.resources ++ code.outputs).any Statement.defers = template.defers :=
  (statements_any hcode hnames Expr.defers_eq).trans <|
    congrArg template.emitted.any <| funext fun (place, emission) =>
      (partOf?_kind hnames place emission).2

/-- Dependencies pass no expression. -/
theorem written_any (test : Expr → Bool) :
    (code.written.any fun statement => statement.props?.any test) =
      (code.parameters ++ code.resources ++ code.outputs).any fun statement =>
        statement.props?.any test := by
  have hnone : (code.dependencies.any fun statement => statement.props?.any test) = false := by
    rw [List.any_eq_false]
    intro statement hmem
    obtain ⟨identifier, other, rfl, -⟩ := dependency_declares hcode hnames hmem
    simp [Statement.props?]
  simp only [StackCode.written, List.any_append, hnone, Bool.or_false]

/-! ## Imports of the code -/

/-- What the code imports is what the template needs. -/
theorem mem_uses (entry : String × Item) :
    entry ∈ (StackCode.uses template libraries (Scope.ofTemplate template)
        (code.parameters ++ code.resources ++ code.outputs)).map Use.entry ↔
      entry ∈ needed template libraries := by
  simp only [StackCode.uses, needed, List.map_append, List.mem_append,
    resourceUses_entries hnames, mem_expressionUses, statements_call hcode hnames,
    statements_defer hcode hnames, or_assoc, List.map_map, apply_ite (List.map Use.entry)]
  rfl

omit hnames in
theorem imports_eq : code.imports = (StackCode.uses template libraries (Scope.ofTemplate template)
    (code.parameters ++ code.resources ++ code.outputs)).foldl Use.addTo imports := by
  rw [eq_build hcode]
  rfl

theorem uses_coherent : Coherent (StackCode.uses template libraries (Scope.ofTemplate template)
    (code.parameters ++ code.resources ++ code.outputs)) := by
  have hneeded : ∀ use ∈ StackCode.uses template libraries (Scope.ofTemplate template)
      (code.parameters ++ code.resources ++ code.outputs),
      (use.module, use.item) ∈ needed template libraries :=
    fun use huse => (mem_uses hcode hnames _).1 (List.mem_map_of_mem huse)
  intro use huse other hother _ hends
  have h := hneeded use huse
  have h' := hneeded other hother
  unfold Item.Ends at hends
  split at hends
  · rename_i localName name localName' name' hitem hitem'
    rw [hitem] at h
    rw [hitem'] at h'
    obtain ⟨kind, hkind, hlocal, rfl⟩ := needed_renamed h
    obtain ⟨kind', hkind', hlocal', rfl⟩ := needed_renamed h'
    obtain ⟨rfl, hne⟩ := hends
    exact hne (className_of_localName kind hkind kind' hkind' (by rw [hlocal]; rfl)
      (hlocal.trans hlocal'.symm))
  · exact hends

end Code

/-- The imports of the code of a template. -/
structure ImportsUsed (template : Template) (libraries : Libraries) (code : StackCode) : Prop where
  /-- The class of every construct is bound by an import from the module of its service. -/
  constructs : ∀ (place : Nat) (name identifier construct : String) (props : Expr),
    code.resources[place]? = some (.resource name identifier construct props) →
      ∃ resource kind, template.resources[place]? = some resource ∧
        lookup resource.type = some kind ∧ construct = kind.construct ∧
        code.imports.binds (libraries.service kind.service) construct = true
  /-- The class of every parameter is imported. -/
  parameters : ∀ statement ∈ code.parameters, ∃ name construct props,
    statement = .parameter name construct props ∧
      code.imports.Has libraries.guardianCore (.value construct)
  /-- The code calls a function exactly when the template says so. -/
  calls : code.written.any Statement.calls = template.calls
  functions : code.imports.Has libraries.cdkCore (.value "Fn") ↔ template.calls = true
  /-- The code reads a construct lazily exactly when the template says so. -/
  defers : code.written.any Statement.defers = template.defers
  lazyValues : code.imports.Has libraries.cdkCore (.value "Lazy") ↔ template.defers = true
  outputs : code.imports.Has libraries.cdkCore (.value "CfnOutput") ↔ template.outputs ≠ []
  /-- Only what the template needs is imported. -/
  items : ∀ module item,
    code.imports.Has module item ↔ (module, item) ∈ needed template libraries
  /-- A module without needed items is not imported at all. -/
  modules : ∀ module, code.imports.modules.contains module = true ↔
    ∃ item, (module, item) ∈ needed template libraries

section Code

variable {template : Template} {libraries : Libraries} {code : StackCode}
  (hcode : StackCode.ofTemplate template .empty libraries = .ok code)
  (hnames : (template.resources.map Resource.name).Nodup)

include hcode hnames

/-- The items that are imported are the needed ones. -/
theorem has_iff (module : String) (item : Item) :
    code.imports.Has module item ↔ (module, item) ∈ needed template libraries := by
  rw [imports_eq hcode, foldl_addTo_has (uses_coherent hcode hnames), mem_uses hcode hnames]

/-- **The imports are what is used.** When the names of the resources differ, the code of a template
that starts without imports gets exactly those that it needs. -/
theorem imports_used : ImportsUsed template libraries code where
  constructs place name identifier construct props hget := by
    obtain ⟨resource, kind, hresource, -, hkind, rfl⟩ := resource_of_statement hcode hget
    refine ⟨resource, kind, hresource, hkind, rfl, Kind.binds_of_has ?_⟩
    exact (has_iff hcode hnames _ _).2 (needed_of_resource (List.mem_of_getElem? hresource) hkind)
  parameters statement hmem := by
    rw [parameters_eq hcode] at hmem
    obtain ⟨parameter, hparameter, rfl⟩ := List.mem_map.1 hmem
    exact ⟨_, _, _, rfl, (has_iff hcode hnames _ _).2 (needed_of_parameter hparameter)⟩
  calls := (written_any hcode hnames Expr.calls).trans (statements_call hcode hnames)
  functions := by
    rw [has_iff hcode hnames, needed_core (by decide)]
    simp
  defers := (written_any hcode hnames Expr.defers).trans (statements_defer hcode hnames)
  lazyValues := by
    rw [has_iff hcode hnames, needed_core (by decide)]
    simp
  outputs := by
    rw [has_iff hcode hnames, needed_core (by decide)]
    simp
  items := has_iff hcode hnames
  modules module := by
    rw [imports_eq hcode, foldl_addTo_contains]
    simp only [← mem_uses hcode hnames, List.mem_map]
    constructor
    · rintro (⟨use, huse, rfl⟩ | hempty)
      · exact ⟨use.item, use, huse, rfl⟩
      · cases hempty
    · rintro ⟨item, use, huse, heq⟩
      exact Or.inl ⟨use, huse, congrArg Prod.fst heq⟩

end Code

/-- A listener in front of its load balancer, and a cluster, which has no construct. -/
def balancerTemplate : Template where
  parameters := [Parameter.plain "Stage" "String"]
  resources :=
    [⟨"Listener", "AWS::ElasticLoadBalancingV2::Listener",
        [("LoadBalancerArn", .ref "Balancer")], [], none⟩,
      ⟨"Balancer", "AWS::ElasticLoadBalancingV2::LoadBalancer", [("Name", .ref "Stage")], [], none⟩,
      ⟨"Cluster", "AWS::ECS::Cluster", [("Name", .join "-" (.list []))], [], none⟩]
  outputs := [⟨"Arn", .getAtt "Cluster" "Arn", none, none, none⟩]
  conditions := []

theorem imports_used_balancer :
    (balancerTemplate.resources.map Resource.name).Nodup ∧
      ∃ code, StackCode.ofTemplate balancerTemplate .empty .standard = .ok code ∧
        ImportsUsed balancerTemplate .standard code ∧
        needed balancerTemplate .standard =
          [("@guardian/cdk/lib/constructs/core", .value "GuStringParameter"),
            ("@aws-cdk/aws-elasticloadbalancingv2", .value "CfnListener"),
            ("@aws-cdk/aws-elasticloadbalancingv2", .renamed "CfnLoadBalancerV2" "CfnLoadBalancer"),
            ("@aws-cdk/core", .value "CfnOutput"), ("@aws-cdk/core", .value "Fn"),
            ("@aws-cdk/core", .value "Lazy")] := by
  have hnames : (balancerTemplate.resources.map Resource.name).Nodup := by decide
  have hcheck : balancerTemplate.checkCycles = .ok () := rfl
  have hcode := ofTemplate_of_ok hcheck .empty .standard
  exact ⟨hnames, _, hcode, imports_used hcode hnames, by decide +kernel⟩

end CdkStacks.Construct
