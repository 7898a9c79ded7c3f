import CdkStacks.Proofs.Resolved

/-!
# Appending resources

Resources that are appended to a template, under names that it does not mention, add to its code
and change nothing else.

* `Template.appending` is the longer template, `Template.Unmentioned` a name that nothing in a
  template declares or looks up;
* `Points.appending`, `Circular.appending`: the reference graph only grows;
* `slots_append`, `resource?_appending`: the resources keep their locals and places;
* `View.agreeAt_appending`: so a name that is not appended means the same everywhere. Outputs are
  resolved behind all resources, whose number matters to none of them;
* `parameterStatement_appending`, `resourceStatement_appending`, `dependencyStatement_appending`,
  `outputStatement_appending`: every declaration keeps its statement and its warnings;
* `appending_keeps_code`: the code of the template is contained in that of the longer one;
* `appending_captures_variable`: a name that a substitution text takes for a variable, without
  binding it, is a mention too.
-/

namespace CdkStacks.Template

/-- A template with further resources behind its own. -/
def appending (template : Template) (more : List Resource) : Template :=
  { template with resources := template.resources ++ more }

/-- A name that a template does not mention. -/
structure Unmentioned (template : Template) (name : String) : Prop where
  declared : name ∉ template.resources.map Resource.name
  dependsOn : ∀ resource ∈ template.resources, name ∉ resource.dependsOn
  sites : ∀ value ∈ template.values, name ∉ value.sites.map Site.target
  /-- It is no variable of a substitution text that the substitution does not bind. -/
  unbound : ∀ value ∈ template.values, name ∉ value.unbound

/-! ## Circles -/

section Circles

variable {template : Template} (more : List Resource)

theorem resourceIndex?_appending {name : String} {place : Nat}
    (h : template.resourceIndex? name = some place) :
    (template.appending more).resourceIndex? name = some place := by
  unfold resourceIndex? at h ⊢
  rw [appending, List.findIdx?_append, h]
  rfl

theorem Points.appending {place target : Nat} (h : template.Points place target) :
    (template.appending more).Points place target := by
  have hlt := h.lt.1
  obtain ⟨resource, hplace, htarget⟩ := h
  refine ⟨resource, (List.getElem?_append_left hlt).trans hplace, ?_⟩
  rcases htarget with ⟨property, hproperty, site, hsite, hindex⟩ | ⟨name, hname, hindex⟩
  · exact Or.inl ⟨property, hproperty, site, hsite, resourceIndex?_appending more hindex⟩
  · exact Or.inr ⟨name, hname, resourceIndex?_appending more hindex⟩

/-- A circle stays one. -/
theorem Circular.appending (h : template.Circular) : (template.appending more).Circular := by
  obtain ⟨place, hcircle⟩ := h
  exact ⟨place, hcircle.lift id fun _ _ hpoints => hpoints.appending more⟩

theorem checkCycles_of_appending (h : (template.appending more).checkCycles = .ok ()) :
    template.checkCycles = .ok () := by
  rcases template.checkCycles_eq with ⟨hok, -⟩ | ⟨failure, -, hcircular, -⟩
  · exact hok
  · rcases (template.appending more).checkCycles_eq with ⟨-, hnot⟩ | ⟨failure, herror, -⟩
    · exact absurd (hcircular.appending more) hnot
    · rw [h] at herror
      cases herror

end Circles

end CdkStacks.Template

namespace CdkStacks.Construct

open CdkStacks.Template CdkStacks.TypeScript

/-! ## Declarations that resolve alike -/

section Alike

variable {view view' : View}

theorem valueEntry_congr (key : String) {value? : Option Value}
    (h : ∀ value ∈ value?.toList, view.resolve .property value = view'.resolve .property value) :
    valueEntry view key value? = valueEntry view' key value? := by
  cases value? with
  | none => rfl
  | some value => rw [valueEntry, valueEntry, h value (.head _)]

theorem allowedEntry_congr {allowed? : Option (List Value)}
    (h : ∀ value ∈ allowed?.getD [], view.resolve .property value = view'.resolve .property value) :
    allowedEntry view allowed? = allowedEntry view' allowed? := by
  cases allowed? with
  | none => rfl
  | some values =>
    have hitems : values.map (view.resolve .property) = values.map (view'.resolve .property) :=
      List.map_congr_left h
    rw [allowedEntry, allowedEntry, View.resolveItems_eq, View.resolveItems_eq, hitems]

theorem parameterStatement_congr {scope scope' : Scope} {parameter : Parameter}
    (h : ∀ value ∈ parameter.values, (View.mk scope parameter.name 0).resolve .property value =
      (View.mk scope' parameter.name 0).resolve .property value) :
    parameterStatement scope parameter = parameterStatement scope' parameter := by
  obtain ⟨hfront, hconstraints⟩ := List.forall_mem_append.1 h
  obtain ⟨hdefault, hallowed⟩ := List.forall_mem_append.1 hfront
  have hentries : (View.mk scope parameter.name 0).resolveEntries .property parameter.constraints =
      (View.mk scope' parameter.name 0).resolveEntries .property parameter.constraints := by
    rw [View.resolveEntries_eq, View.resolveEntries_eq]
    refine List.map_congr_left fun entry hentry => ?_
    rw [hconstraints entry.2 (List.mem_map_of_mem hentry)]
  simp only [parameterStatement, valueEntry_congr "default" hdefault, allowedEntry_congr hallowed,
    hentries]

theorem outputStatement_congr {scope scope' : Scope} {count count' : Nat} {output : Output}
    (h : ∀ value ∈ output.values, (View.mk scope output.name count).resolve .property value =
      (View.mk scope' output.name count').resolve .property value) :
    outputStatement scope count output = outputStatement scope' count' output := by
  obtain ⟨hvalue, hexport⟩ := List.forall_mem_cons.1 h
  simp only [outputStatement, hvalue, valueEntry_congr "exportName" hexport]

theorem resourceStatement_congr {scope scope' : Scope} {place : Nat} {resource : Resource}
    (hidentifier : scope.identifier? resource.name = scope'.identifier? resource.name)
    (h : ∀ value ∈ resource.values, ∀ verbatim path,
      (View.mk scope resource.name place).property verbatim path value =
        (View.mk scope' resource.name place).property verbatim path value) :
    resourceStatement scope place resource = resourceStatement scope' place resource := by
  have hproperties : ∀ verbatim,
      (View.mk scope resource.name place).properties verbatim resource.properties =
        (View.mk scope' resource.name place).properties verbatim resource.properties := by
    intro verbatim
    rw [View.properties, View.properties, View.propertyEntries_eq, View.propertyEntries_eq]
    refine congrArg (objectOf .property) (List.map_congr_left fun entry hentry => ?_)
    rw [h entry.2 (List.mem_map_of_mem hentry)]
  unfold resourceStatement supported?
  simp only [hidentifier, hproperties]

end Alike

/-! ## Locals and places -/

/-- Slots are given from the front, whatever follows. -/
theorem slots_append (used : List String) (place : Nat) (first second : List Resource) :
    ∃ used', slots used place (first ++ second) =
      slots used place first ++ slots used' (place + first.length) second := by
  -- the locals in use grow along the way, so they are not fixed in the induction
  induction first generalizing used place with
  | nil => exact ⟨used, rfl⟩
  | cons resource rest ih =>
    have hplace : place + (resource :: rest).length = place + 1 + rest.length := by
      rw [List.length_cons]
      omega
    rw [hplace]
    cases hkind : lookup resource.type with
    | none =>
      obtain ⟨used', hslots⟩ := ih used (place + 1)
      exact ⟨used', by simp [slots, hkind, hslots]⟩
    | some kind =>
      obtain ⟨used', hslots⟩ := ih (allocate used resource.name :: used) (place + 1)
      exact ⟨used', by simp [slots, hkind, hslots]⟩

theorem place_lt_of_mem {template : Template} {slot : Slot}
    (h : slot ∈ (Scope.ofTemplate template).resources) :
    slot.place < template.resources.length := by
  obtain ⟨i, hi⟩ := List.mem_iff_getElem?.1 h
  have hslot := slots_getElem? [] 0 template.resources i
  rw [show (slots [] 0 template.resources)[i]? = some slot from hi] at hslot
  obtain ⟨resource, hresource, heq⟩ := Option.map_eq_some_iff.1 hslot.symm
  have hplace : 0 + i = slot.place := congrArg (fun triple => triple.2.2) heq
  have hlt := (List.getElem?_eq_some_iff.1 hresource).1
  omega

section Appending

variable {template : Template} {more : List Resource}

/-- A name that is not appended is looked up among the resources in front. -/
theorem resource?_appending {name : String} (h : ∀ resource ∈ more, resource.name ≠ name) :
    (Scope.ofTemplate (template.appending more)).resource? name =
      (Scope.ofTemplate template).resource? name := by
  obtain ⟨used, hslots⟩ := slots_append [] 0 template.resources more
  have hnone : ((slots used (0 + template.resources.length) more).reverse.find?
      fun slot => slot.name = name) = none := by
    refine List.find?_eq_none.2 fun slot hslot => ?_
    have hmem := List.mem_map_of_mem (f := Slot.name) (List.mem_reverse.1 hslot)
    rw [slots_names] at hmem
    obtain ⟨resource, hresource, heq⟩ := List.mem_map.1 hmem
    simpa [← heq] using h resource hresource
  change (slots [] 0 (template.resources ++ more)).reverse.find? _ = _
  rw [hslots, List.reverse_append, List.find?_append, hnone, Option.none_or]
  rfl

theorem identifier?_appending {name : String} (h : ∀ resource ∈ more, resource.name ≠ name) :
    (Scope.ofTemplate (template.appending more)).identifier? name =
      (Scope.ofTemplate template).identifier? name := by
  rw [Scope.identifier?, resource?_appending h, Scope.identifier?]

/-! ## What names mean -/

/-- Behind all resources the place does not matter. -/
theorem View.agreeAt_of_le {place place' : Nat} (h : template.resources.length ≤ place)
    (h' : template.resources.length ≤ place') (owner name : String) :
    (View.mk (.ofTemplate template) owner place).AgreeAt
      (View.mk (.ofTemplate template) owner place') name := by
  have hmember : ∀ slot, (Scope.ofTemplate template).resource? name = some slot →
      ∀ identifier member,
        (View.mk (.ofTemplate template) owner place).member slot.place identifier member =
          (View.mk (.ofTemplate template) owner place').member slot.place identifier member := by
    intro slot hslot identifier member
    -- the slot stands in front of both places, so neither view puts the read off
    have hlt := place_lt_of_mem (List.mem_reverse.1 (List.mem_of_find?_eq_some hslot))
    rw [View.member, View.member, if_pos (hlt.trans_le h), if_pos (hlt.trans_le h')]
  constructor
  · simp only [View.reference]
    cases (Scope.ofTemplate template).parameter? name with
    | some accessor => rfl
    | none =>
      rcases hslot : (Scope.ofTemplate template).resource? name with
        _ | ⟨_, _ | identifier, slotPlace⟩
      · rfl
      · rfl
      · exact hmember _ hslot identifier "ref"
  · intro member
    simp only [View.getAtt]
    rcases hslot : (Scope.ofTemplate template).resource? name with
      _ | ⟨_, _ | identifier, slotPlace⟩
    · rfl
    · rfl
    · exact hmember _ hslot identifier (attributeMember member)

theorem View.agreeAt_appending {name : String} (h : ∀ resource ∈ more, resource.name ≠ name)
    (owner : String) (place : Nat) :
    (View.mk (.ofTemplate (template.appending more)) owner place).AgreeAt
      (View.mk (.ofTemplate template) owner place) name := by
  have hscope : (Scope.ofTemplate (template.appending more)).AgreeAt (.ofTemplate template) name :=
    ⟨rfl, resource?_appending h⟩
  exact agreeAt_of_scope hscope owner place

theorem View.AgreeAt.trans {first second third : View} {name : String}
    (h : first.AgreeAt second name) (h' : second.AgreeAt third name) :
    first.AgreeAt third name :=
  ⟨h.1.trans h'.1, fun member => (h.2 member).trans (h'.2 member)⟩

/-- Outputs stand behind all resources, in both templates. -/
theorem View.agreeAt_outputs {name : String} (h : ∀ resource ∈ more, resource.name ≠ name)
    (owner : String) :
    (View.mk (.ofTemplate (template.appending more)) owner
        (template.appending more).resources.length).AgreeAt
      (View.mk (.ofTemplate template) owner template.resources.length) name := by
  have hlength : template.resources.length ≤ (template.appending more).resources.length := by
    rw [appending, List.length_append]
    omega
  exact AgreeAt.trans (agreeAt_appending h owner _) (agreeAt_of_le hlength le_rfl owner name)

variable (hmore : ∀ resource ∈ more, template.Unmentioned resource.name)

include hmore

/-- A view of the longer template is like one of the template itself, when each name that is not
appended means the same. -/
theorem alike_of_mem_values {view view' : View} {value : Value} (howner : view.owner = view'.owner)
    (hagree : ∀ name, (∀ resource ∈ more, resource.name ≠ name) → view.AgreeAt view' name)
    (hvalue : value ∈ template.values) :
    view.Alike view' value.sites value.unbound := by
  refine ⟨howner, fun site hsite => hagree site.target ?_, fun name hname => hagree name ?_⟩
  · rintro resource hresource heq
    exact (hmore resource hresource).sites value hvalue
      (heq ▸ List.mem_map_of_mem hsite)
  · rintro resource hresource rfl
    exact (hmore resource hresource).unbound value hvalue hname

theorem ne_name_of_mem {resource : Resource} (h : resource ∈ template.resources) :
    ∀ other ∈ more, other.name ≠ resource.name := by
  intro other hother heq
  exact (hmore other hother).declared (heq ▸ List.mem_map_of_mem h)

/-! ## Statements -/

theorem parameterStatement_appending {parameter : Parameter} (h : parameter ∈ template.parameters) :
    parameterStatement (.ofTemplate (template.appending more)) parameter =
      parameterStatement (.ofTemplate template) parameter := by
  refine parameterStatement_congr fun value hvalue => View.resolve_congr .property value ?_
  refine alike_of_mem_values hmore rfl (fun name hname => View.agreeAt_appending hname _ 0) ?_
  exact List.mem_append_left _ (List.mem_append_left _ (List.mem_flatMap.2 ⟨parameter, h, hvalue⟩))

theorem resourceStatement_appending {resource : Resource} (h : resource ∈ template.resources)
    (place : Nat) : resourceStatement (.ofTemplate (template.appending more)) place resource =
      resourceStatement (.ofTemplate template) place resource := by
  refine resourceStatement_congr (identifier?_appending (ne_name_of_mem hmore h))
    fun value hvalue verbatim path => View.property_congr verbatim path value ?_
  refine alike_of_mem_values hmore rfl (fun name hname => View.agreeAt_appending hname _ _) ?_
  exact List.mem_append_left _ (List.mem_append_right _ (List.mem_flatMap.2 ⟨resource, h, hvalue⟩))

theorem dependencyStatement_appending {resource : Resource} (h : resource ∈ template.resources)
    {dependency : String} (hdependency : dependency ∈ resource.dependsOn) :
    dependencyStatement (.ofTemplate (template.appending more)) resource.name dependency =
      dependencyStatement (.ofTemplate template) resource.name dependency := by
  have hdependency' : ∀ other ∈ more, other.name ≠ dependency := by
    rintro other hother rfl
    exact (hmore other hother).dependsOn resource h hdependency
  rw [dependencyStatement, dependencyStatement, identifier?_appending (ne_name_of_mem hmore h),
    identifier?_appending hdependency']

theorem outputStatement_appending {output : Output} (h : output ∈ template.outputs) :
    outputStatement (.ofTemplate (template.appending more))
        (template.appending more).resources.length output =
      outputStatement (.ofTemplate template) template.resources.length output := by
  refine outputStatement_congr fun value hvalue => View.resolve_congr .property value ?_
  refine alike_of_mem_values hmore rfl (fun name hname => View.agreeAt_outputs hname _) ?_
  exact List.mem_append_right _ (List.mem_flatMap.2 ⟨output, h, hvalue⟩)

/-! ## Code -/

/-- The code of a stack is contained in another one. -/
structure StackCode.ContainedIn (code longer : StackCode) : Prop where
  parameters : code.parameters = longer.parameters
  resources : code.resources <+: longer.resources
  dependencies : code.dependencies <+: longer.dependencies
  outputs : code.outputs = longer.outputs
  warnings : code.warnings.Sublist longer.warnings

theorem resourceStatements_appending :
    resourceStatements (.ofTemplate (template.appending more)) 0
        (template.appending more).resources =
      resourceStatements (.ofTemplate template) 0 template.resources ++
        resourceStatements (.ofTemplate (template.appending more)) template.resources.length
          more := by
  rw [resourceStatements_eq, resourceStatements_eq, resourceStatements_eq, appending,
    List.zipIdx_append, List.map_append, Nat.zero_add]
  congr 1
  refine List.map_congr_left fun entry hentry => ?_
  exact resourceStatement_appending hmore (List.fst_mem_of_mem_zipIdx hentry) entry.2

theorem dependencyStatements_appending :
    (template.appending more).resources.flatMap
        (dependencyStatements (.ofTemplate (template.appending more))) =
      template.resources.flatMap (dependencyStatements (.ofTemplate template)) ++
        more.flatMap (dependencyStatements (.ofTemplate (template.appending more))) := by
  have hfront : ∀ resource ∈ template.resources,
      dependencyStatements (.ofTemplate (template.appending more)) resource =
        dependencyStatements (.ofTemplate template) resource := by
    intro resource hresource
    exact List.map_congr_left fun dependency hdependency =>
      dependencyStatement_appending hmore hresource hdependency
  rw [← List.flatMap_congr hfront, ← List.flatMap_append]
  rfl

theorem build_containedIn (imports : Imports) (libraries : Libraries) :
    (StackCode.build template imports libraries).ContainedIn
      (.build (template.appending more) imports libraries) := by
  have hparameters : template.parameters.map (parameterStatement (.ofTemplate template)) =
      (template.appending more).parameters.map
        (parameterStatement (.ofTemplate (template.appending more))) :=
    List.map_congr_left fun parameter h => (parameterStatement_appending hmore h).symm
  have houtputs :
      template.outputs.map (outputStatement (.ofTemplate template) template.resources.length) =
        (template.appending more).outputs.map
          (outputStatement (.ofTemplate (template.appending more))
            (template.appending more).resources.length) :=
    List.map_congr_left fun output h => (outputStatement_appending hmore h).symm
  simp only [StackCode.build]
  rw [resourceStatements_appending hmore, dependencyStatements_appending hmore, ← hparameters,
    ← houtputs]
  constructor
  · rfl
  · simp [Noted.gather_value]
  · simp [Noted.gather_value]
  · rfl
  · simp only [Noted.gather_warnings, List.flatMap_append]
    refine List.Sublist.append (List.Sublist.append (List.Sublist.append ?_ ?_) ?_) ?_
    · exact List.Sublist.refl _
    · exact List.sublist_append_left ..
    · exact List.sublist_append_left ..
    · exact List.Sublist.refl _

end Appending

/-- **Appending resources keeps the code of a template.** If the longer template can be mapped, the
template can, parameters and outputs become the same statements, the statements of the resources and
dependencies come first, and no warning gets lost. -/
theorem appending_keeps_code {template : Template} {more : List Resource}
    (hmore : ∀ resource ∈ more, template.Unmentioned resource.name) {imports : Imports}
    {libraries : Libraries} {longer : StackCode}
    (hlonger : StackCode.ofTemplate (template.appending more) imports libraries = .ok longer) :
    ∃ code, StackCode.ofTemplate template imports libraries = .ok code ∧
      code.ContainedIn longer := by
  have hcheck := checkCycles_of_appending more (checkCycles_eq_ok hlonger)
  refine ⟨_, ofTemplate_of_ok hcheck imports libraries, ?_⟩
  rw [eq_build hlonger]
  exact build_containedIn hmore imports libraries

/-- A queue that reads a topic declared behind it. -/
def queueTemplate : Template where
  parameters := [Parameter.plain "Stage" "String"]
  resources :=
    [⟨"Queue", "AWS::SQS::Queue",
        [("QueueName", .sub [.bound "Topic", .text "-", .name "Stage"]
          [("Topic", .getAtt "Topic" "TopicName")])], ["Topic"], none⟩,
      ⟨"Topic", "AWS::SNS::Topic", [], [], none⟩]
  outputs := [⟨"Url", .ref "Queue", none, some (.ref "Topic"), none⟩]
  conditions := []

/-- Two resources of other names, the first of which would have the local of the queue by itself. -/
def furtherResources : List Resource :=
  [⟨"queue", "AWS::SNS::Topic", [("TopicName", .ref "Queue")], ["Mesh"], none⟩,
    ⟨"Mesh", "AWS::AppMesh::Mesh", [("Spec", .ref "Topic")], ["Queue"], some "Prod"⟩]

theorem appending_keeps_code_queue :
    (∀ resource ∈ furtherResources, queueTemplate.Unmentioned resource.name) ∧
      ∃ code longer, StackCode.ofTemplate queueTemplate .empty .standard = .ok code ∧
        StackCode.ofTemplate (queueTemplate.appending furtherResources) .empty .standard =
          .ok longer ∧ code.ContainedIn longer := by
  have hmore : ∀ resource ∈ furtherResources, queueTemplate.Unmentioned resource.name := by
    have hdeclared : ∀ resource ∈ furtherResources,
        resource.name ∉ queueTemplate.resources.map Resource.name := by decide
    have hdependsOn : ∀ resource ∈ furtherResources, ∀ other ∈ queueTemplate.resources,
        resource.name ∉ other.dependsOn := by decide
    have hsites : ∀ resource ∈ furtherResources, ∀ value ∈ queueTemplate.values,
        resource.name ∉ value.sites.map Site.target := by decide
    have hunbound : ∀ resource ∈ furtherResources, ∀ value ∈ queueTemplate.values,
        resource.name ∉ value.unbound := by decide
    exact fun resource h =>
      ⟨hdeclared resource h, hdependsOn resource h, hsites resource h, hunbound resource h⟩
  have hcheck : (queueTemplate.appending furtherResources).checkCycles = .ok () := rfl
  have hlonger := ofTemplate_of_ok hcheck .empty .standard
  obtain ⟨code, hcode, hcontained⟩ := appending_keeps_code hmore hlonger
  exact ⟨hmore, code, _, hcode, hlonger, hcontained⟩

/-- An output with a variable that nothing binds. -/
def unboundOutput : Template :=
  { Template.ofParameters [] with outputs := [⟨"Out", .sub [.bound "X"] [], none, none, none⟩] }

/-- A resource with the name of the variable. -/
def capturingTopic : Resource :=
  ⟨"X", "AWS::SNS::Topic", [], [], none⟩

/-- **Unbound variables are mentions.** The resource has a name of its own, which is no site and no
dependency of the template. Yet the output reads it as soon as it is appended. -/
theorem appending_captures_variable :
    ((unboundOutput.appending [capturingTopic]).resources.map Resource.name).Nodup ∧
      (∀ value ∈ unboundOutput.values, "X" ∉ value.sites.map Site.target) ∧
      unboundOutput.parameters = [] ∧ unboundOutput.resources = [] ∧
      ∃ code longer, StackCode.ofTemplate unboundOutput .empty .standard = .ok code ∧
        StackCode.ofTemplate (unboundOutput.appending [capturingTopic]) .empty .standard =
          .ok longer ∧
        code.outputs = [.output "Out" (.object
          [("value", .template [.hole (.call "ref" [.string "X"])])])] ∧
        longer.outputs = [.output "Out" (.object
          [("value", .template [.hole (.read "x" "ref")])])] ∧
        code.outputs ≠ longer.outputs := by
  refine ⟨by decide, by decide, rfl, rfl, _, _, rfl, rfl, rfl, rfl, ?_⟩
  intro heq
  cases heq

end CdkStacks.Construct
