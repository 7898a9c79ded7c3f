import CdkStacks.Proofs.Allocations
import CdkStacks.Proofs.TopLevel
import CdkStacks.Proofs.UniqueNames

/-!
# Ids of constructs

All constructs of a stack have ids in one scope. A construct has the name of its declaration as its
id, and names are checked against each other within a section and between parameters and resources;
outputs are not compared with either.

* `Statement.id?` is the id that a statement gives its construct, `StackCode.ids` lists those of the
  code; `Statement.steps_id`: the id is the second argument of what is written;
* `ids_eq`: the ids are the names of the parameters, of the resources with a construct and of the
  outputs;
* `ConstructIds` says when ids are given once;
* `ids_given_once`: those of parameters and resources always are, and those of outputs exactly when
  no output shares its name with a parameter or with a resource that has a construct.
-/

namespace CdkStacks.Construct

open CdkStacks.Template CdkStacks.TypeScript

/-! ## Ids in the code -/

/-- The id that a statement gives its construct. -/
def Statement.id? : Statement → Option String
  | .parameter name _ _ | .resource name _ _ _ | .output name _ => some name
  | .placeholder _ _ | .dependency _ _ => none

/-- The ids of the constructs, in the order of the code. -/
def StackCode.ids (code : StackCode) : List String :=
  code.written.filterMap Statement.id?

/-- What is written for a statement with an id: the construction of an object in this stack, with
the id and an expression as its further arguments. -/
def Statement.Constructs (statement : Statement) (id : String) : Prop :=
  ∃ before construct props after, statement.construct? = some construct ∧
    statement.props? = some props ∧ statement.steps =
      props.steps (before ++ "new " ++ construct ++ "(this, " ++ Text.quoted id ++ ", ") after

theorem Statement.steps_id {statement : Statement} {id : String} (h : statement.id? = some id) :
    statement.Constructs id := by
  cases statement with
  | parameter name construct props =>
    cases h
    have hbefore : objectKey id ++ ": " ++ "new " = objectKey id ++ ": new " := String.append_assoc
    exact ⟨objectKey id ++ ": ", construct, props, "),", rfl, rfl, by rw [hbefore]; rfl⟩
  | resource name identifier construct props =>
    cases h
    have hbefore : "const " ++ identifier ++ " = " ++ "new " =
        "const " ++ identifier ++ " = new " := String.append_assoc
    exact ⟨"const " ++ identifier ++ " = ", construct, props, ");", rfl, rfl, by rw [hbefore]; rfl⟩
  | output name props =>
    cases h
    exact ⟨"", "CfnOutput", props, ");", rfl, rfl, rfl⟩
  | placeholder | dependency => cases h

/-! ## Ids of a template -/

theorem resourceStatement_id? (scope : Scope) (place : Nat) (resource : Resource) :
    (resourceStatement scope place resource).value.id? =
      if (supported? scope resource).isSome then some resource.name else none := by
  unfold resourceStatement
  cases supported? scope resource <;> rfl

section Code

variable {template : Template} {imports : Imports} {libraries : Libraries} {code : StackCode}
  (hcode : StackCode.ofTemplate template imports libraries = .ok code)
  (hnames : (template.resources.map Resource.name).Nodup)

include hcode hnames

theorem resource_ids :
    code.resources.filterMap Statement.id? = constructNames template.resources := by
  have hid : ∀ entry ∈ template.resources.zipIdx,
      (resourceStatement (Scope.ofTemplate template) entry.2 entry.1).value.id? =
        if (lookup entry.1.type).isSome then some entry.1.name else none := by
    intro entry hentry
    rw [resourceStatement_id?, supported?_isSome hnames (List.mem_zipIdx_iff_getElem?.1 hentry)]
  have hkept : ∀ resources : List Resource, (resources.filterMap fun resource =>
      if (lookup resource.type).isSome then some resource.name else none) =
        constructNames resources := by
    intro resources
    rw [constructNames, ← List.filterMap_eq_filter, List.map_filterMap]
    refine List.filterMap_congr fun resource _ => ?_
    cases h : (lookup resource.type).isSome <;> simp [h]
  conv_rhs => rw [← hkept, ← List.zipIdx_map_fst 0 template.resources, List.filterMap_map]
  rw [resources_eq hcode, List.filterMap_map]
  exact List.filterMap_congr hid

/-- **The ids of the code** are the names of the declarations that have a construct. -/
theorem ids_eq : code.ids = template.names .parameters ++ constructNames template.resources ++
    template.names .outputs := by
  have hparameters : code.parameters.filterMap Statement.id? = template.names .parameters := by
    rw [parameters_eq hcode, List.filterMap_map, names, ← List.filterMap_eq_map]
    rfl
  have houtputs : code.outputs.filterMap Statement.id? = template.names .outputs := by
    rw [outputs_eq hcode, List.filterMap_map, names, ← List.filterMap_eq_map]
    rfl
  have hdependencies : code.dependencies.filterMap Statement.id? = [] := by
    refine List.filterMap_eq_nil_iff.2 fun statement hstatement => ?_
    obtain ⟨identifier, other, rfl⟩ := eq_dependency hcode hstatement
    rfl
  rw [StackCode.ids, StackCode.written]
  simp only [List.filterMap_append, hparameters, resource_ids hcode hnames, hdependencies, houtputs,
    List.append_nil]

end Code

/-- The ids of the constructs in one stack. -/
structure ConstructIds (template : Template) (code : StackCode) : Prop where
  /-- They are the names of the parameters, of the resources with a construct and of the outputs. -/
  ids : code.ids =
    template.names .parameters ++ constructNames template.resources ++ template.names .outputs
  /-- They are written as the second arguments of constructor calls. -/
  written : ∀ statement ∈ code.written, ∀ id ∈ statement.id?, statement.Constructs id
  /-- No two parameters or resources share an id. -/
  declared : (template.names .parameters ++ constructNames template.resources).Nodup
  /-- Nor do any two constructs, unless an output is called like a parameter or like a resource with
  a construct. -/
  nodup_iff : code.ids.Nodup ↔ ∀ output ∈ template.outputs,
    (∀ parameter ∈ template.parameters, parameter.name ≠ output.name) ∧
      ∀ resource ∈ template.resources, (lookup resource.type).isSome → resource.name ≠ output.name

/-- Parameters and resources have different names, so that their ids differ. -/
theorem declared_nodup {format : Format} {text : String} {template : Template}
    (hread : ofText format text = .ok template) (hnames : ∀ part, (template.names part).Nodup) :
    (template.names .parameters ++ constructNames template.resources).Nodup := by
  obtain ⟨document, -, hdocument⟩ := exists_node_of_ofText hread
  have hapart := ne_of_checkDeclaredOnce (names_of_ofNode hdocument).1
  have hconstructs : (constructNames template.resources).Nodup :=
    (hnames .resources).sublist (List.filter_sublist.map Resource.name)
  refine List.nodup_append.2 ⟨hnames .parameters, hconstructs, ?_⟩
  intro first hfirst second hsecond
  obtain ⟨parameter, hparameter, rfl⟩ := List.mem_map.1 hfirst
  obtain ⟨resource, hresource, -, rfl⟩ := mem_constructNames.1 hsecond
  exact hapart parameter hparameter resource hresource

/-- **Ids are given once,** except to outputs: their names are not compared with those of parameters
and resources. -/
theorem ids_given_once {format : Format} {text : String} {template : Template}
    (hread : ofText format text = .ok template) (hnames : ∀ part, (template.names part).Nodup)
    {imports : Imports} {libraries : Libraries} {code : StackCode}
    (hcode : StackCode.ofTemplate template imports libraries = .ok code) :
    ConstructIds template code where
  ids := ids_eq hcode (hnames .resources)
  written _ _ _ := Statement.steps_id
  declared := declared_nodup hread hnames
  nodup_iff := by
    rw [ids_eq hcode (hnames .resources), List.nodup_append]
    constructor
    · rintro ⟨-, -, hapart⟩ output houtput
      have houtput : output.name ∈ template.names .outputs := List.mem_map_of_mem houtput
      constructor
      · intro parameter hparameter
        have hid : parameter.name ∈ template.names .parameters := List.mem_map_of_mem hparameter
        exact hapart _ (List.mem_append_left _ hid) _ houtput
      · intro resource hresource hkind
        have hid := mem_constructNames.2 ⟨resource, hresource, hkind, rfl⟩
        exact hapart _ (List.mem_append_right _ hid) _ houtput
    · intro h
      refine ⟨declared_nodup hread hnames, hnames .outputs, ?_⟩
      intro id hid name hname
      obtain ⟨output, houtput, rfl⟩ := List.mem_map.1 hname
      rcases List.mem_append.1 hid with hid | hid
      · obtain ⟨parameter, hparameter, rfl⟩ := List.mem_map.1 hid
        exact (h output houtput).1 parameter hparameter
      · obtain ⟨resource, hresource, hkind, rfl⟩ := mem_constructNames.1 hid
        exact (h output houtput).2 resource hresource hkind

/-- A document with an output that is called like a resource without a construct. -/
def clusterOutput : String :=
  "\x7b\"Resources\":\x7b\"T\":\x7b\"Type\":\"AWS::SNS::Topic\"\x7d," ++
    "\"C\":\x7b\"Type\":\"AWS::ECS::Cluster\"\x7d\x7d," ++
    "\"Outputs\":\x7b\"C\":\x7b\"Value\":\"x\"\x7d\x7d\x7d"

set_option maxRecDepth 2000 in
theorem ids_given_once_clusterOutput : ∃ template code,
    ofText .json clusterOutput = .ok template ∧ (∀ part, (template.names part).Nodup) ∧
      StackCode.ofTemplate template .empty .standard = .ok code ∧ ConstructIds template code ∧
        code.ids = ["T", "C"] := by
  let template : Template :=
    { parameters := []
      resources := [⟨"T", "AWS::SNS::Topic", [], [], none⟩,
        ⟨"C", "AWS::ECS::Cluster", [], [], none⟩]
      outputs := [⟨"C", .string "x", none, none, none⟩]
      conditions := [] }
  have hread : ofText .json clusterOutput = .ok template := by with_unfolding_all rfl
  have hnames : ∀ part, (template.names part).Nodup := by
    intro part
    cases part <;> decide
  have hcheck : template.checkCycles = .ok () := rfl
  have hcode := ofTemplate_of_ok hcheck .empty .standard
  have hids := ids_given_once hread hnames hcode
  refine ⟨template, _, hread, hnames, hcode, hids, ?_⟩
  rw [hids.ids]
  decide +kernel

/-- A document with a topic and an output of one name. -/
def topicOutput : String :=
  "\x7b\"Resources\":\x7b\"A\":\x7b\"Type\":\"AWS::SNS::Topic\"\x7d\x7d," ++
    "\"Outputs\":\x7b\"A\":\x7b\"Value\":\"x\"\x7d\x7d\x7d"

set_option maxRecDepth 2000 in
/-- **Two constructs may be given one id:** the document is read, and its topic and its output have
the same one. -/
theorem topicOutput_repeats : ∃ template code,
    ofText .json topicOutput = .ok template ∧ (∀ part, (template.names part).Nodup) ∧
      StackCode.ofTemplate template .empty .standard = .ok code ∧ code.ids = ["A", "A"] := by
  let template : Template :=
    { parameters := []
      resources := [⟨"A", "AWS::SNS::Topic", [], [], none⟩]
      outputs := [⟨"A", .string "x", none, none, none⟩]
      conditions := [] }
  have hread : ofText .json topicOutput = .ok template := by with_unfolding_all rfl
  have hnames : ∀ part, (template.names part).Nodup := by
    intro part
    cases part <;> decide
  have hcheck : template.checkCycles = .ok () := rfl
  have hcode := ofTemplate_of_ok hcheck .empty .standard
  refine ⟨template, _, hread, hnames, hcode, ?_⟩
  rw [ids_eq hcode (hnames .resources)]
  decide +kernel

end CdkStacks.Construct
