import CdkStacks.Proofs.Allocations
import CdkStacks.Proofs.Inventory
import CdkStacks.Proofs.NumberText
import CdkStacks.Proofs.Resolved
import CdkStacks.Proofs.TopLevel

/-!
# Captured names

The locals of a constructor hide what is called like them. Nothing that is imported is, since locals
start in lower case. Of the other names that a constructor uses, `undefined` may be hidden.

* `Expr.freeNames`, `Statement.freeNames`, `StackCode.freeNames` are the names that code uses, other
  than the locals of its constructs;
* `constructorNames` are those that are not imported; `mem_of_mem_freeNames`: there are no others in
  the code of a document;
* `LocalsApart` says which of these names the locals are;
* `locals_apart`: no local is called like an imported name, and exactly those resources hide another
  one whose name is spelled `undefined`.
-/

namespace CdkStacks.TypeScript

/-! ## Names in expressions -/

/-- The name that source text starts with; the words for truth values are no names. -/
def sourceName? (source : String) : Option String :=
  let name := String.ofList (source.toList.takeWhile continuesIdentifier)
  if isIdentifier name ∧ name ∉ ["true", "false"] then some name else none

mutual

/-- The names that an expression uses, other than the locals of constructs. -/
def Expr.freeNames : Expr → List String
  | .raw source => (sourceName? source).toList
  | .string _ | .read _ _ => []
  | .array items => itemFreeNames items
  | .object entries => entryFreeNames entries
  | .parameter _ _ => ["parameters"]
  | .deferred _ _ => ["Lazy"]
  | .call _ arguments => "Fn" :: itemFreeNames arguments
  | .asText value => value.freeNames
  | .template chunks => chunkFreeNames chunks

/-- The names in the items of an array, or in the arguments of a call. -/
def itemFreeNames : List Expr → List String
  | [] => []
  | item :: rest => item.freeNames ++ itemFreeNames rest

/-- The names in the values of entries. -/
def entryFreeNames : List (String × Expr) → List String
  | [] => []
  | (_, value) :: rest => value.freeNames ++ entryFreeNames rest

/-- The names in the pieces of a template literal. -/
def chunkFreeNames : List Chunk → List String
  | [] => []
  | .text _ :: rest => chunkFreeNames rest
  | .hole value :: rest => value.freeNames ++ chunkFreeNames rest

end

/-- The names that an expression uses outside the expressions inside it. -/
def Expr.ownNames : Expr → List String
  | .raw source => (sourceName? source).toList
  | .parameter _ _ => ["parameters"]
  | .deferred _ _ => ["Lazy"]
  | .call _ _ => ["Fn"]
  | .string _ | .array _ | .object _ | .read _ _ | .asText _ | .template _ => []

theorem itemFreeNames_eq (items : List Expr) :
    itemFreeNames items = items.flatMap Expr.freeNames := by
  induction items with
  | nil => rfl
  | cons item rest ih => rw [itemFreeNames, ih, List.flatMap_cons]

theorem entryFreeNames_eq (entries : List (String × Expr)) :
    entryFreeNames entries = (entries.map Prod.snd).flatMap Expr.freeNames := by
  induction entries with
  | nil => rfl
  | cons entry rest ih => rw [entryFreeNames, ih, List.map_cons, List.flatMap_cons]

theorem chunkFreeNames_eq (chunks : List Chunk) :
    chunkFreeNames chunks = (chunks.filterMap Chunk.hole?).flatMap Expr.freeNames := by
  induction chunks with
  | nil => rfl
  | cons chunk rest ih =>
    cases chunk with
    | text text => exact ih
    | hole value => exact congrArg (value.freeNames ++ ·) ih

/-- The names in an expression are its own and those in the expressions inside it. -/
theorem Expr.freeNames_eq (e : Expr) : e.freeNames = e.ownNames ++ e.inner.flatMap freeNames := by
  cases e with
  | array items => exact itemFreeNames_eq items
  | object entries => exact entryFreeNames_eq entries
  | call function arguments => exact congrArg ("Fn" :: ·) (itemFreeNames_eq arguments)
  | asText value => simp [freeNames, ownNames, inner]
  | template chunks => exact chunkFreeNames_eq chunks
  | raw | string | parameter | read | deferred => simp [freeNames, ownNames, inner]

theorem chunks_any (chunks : List Chunk) :
    chunksCall chunks = (chunks.filterMap Chunk.hole?).any Expr.calls ∧
      chunksDefer chunks = (chunks.filterMap Chunk.hole?).any Expr.defers := by
  induction chunks with
  | nil => exact ⟨rfl, rfl⟩
  | cons chunk rest ih =>
    cases chunk with
    | text text => exact ih
    | hole value => exact ⟨congrArg (value.calls || ·) ih.1, congrArg (value.defers || ·) ih.2⟩

/-- An expression calls or defers what an expression inside it does. -/
theorem Expr.any_inner (e : Expr) :
    (e.inner.any calls → e.calls) ∧ (e.inner.any defers → e.defers) := by
  cases e with
  | array items => exact ⟨(items_any items).1.trans, (items_any items).2.trans⟩
  | object entries => exact ⟨(entries_any entries).1.trans, (entries_any entries).2.trans⟩
  | call function arguments => exact ⟨fun _ => rfl, (items_any arguments).2.trans⟩
  | asText value => simp [inner, calls, defers]
  | template chunks => exact ⟨(chunks_any chunks).1.trans, (chunks_any chunks).2.trans⟩
  | raw | string | parameter | read | deferred => simp [inner]

/-- The names that an expression uses are names of the constructor, or imported for it. -/
def Expr.Covered (e : Expr) : Prop :=
  ∀ name ∈ e.freeNames, name ∈ ["this", "undefined", "parameters"] ∨
    e.calls ∧ name = "Fn" ∨ e.defers ∧ name = "Lazy"

/-- One step for all expressions: their own names have to be covered. -/
theorem Expr.Covered.of_inner {e : Expr} (h : ∀ x ∈ e.inner, x.Covered)
    (hown : ∀ name ∈ e.ownNames, name ∈ ["this", "undefined", "parameters"] ∨
      e.calls ∧ name = "Fn" ∨ e.defers ∧ name = "Lazy") : e.Covered := by
  intro name hname
  rw [freeNames_eq, List.mem_append, List.mem_flatMap] at hname
  rcases hname with hname | ⟨x, hx, hname⟩
  · exact hown name hname
  · obtain ⟨hcalls, hdefers⟩ := e.any_inner
    rcases h x hx name hname with hnamed | ⟨hcall, rfl⟩ | ⟨hdefer, rfl⟩
    · exact Or.inl hnamed
    · exact Or.inr (Or.inl ⟨hcalls (List.any_eq_true.2 ⟨x, hx, hcall⟩), rfl⟩)
    · exact Or.inr (Or.inr ⟨hdefers (List.any_eq_true.2 ⟨x, hx, hdefer⟩), rfl⟩)

/-- Source text that starts like no identifier uses no name. -/
theorem sourceName?_eq_none {source : String} {c : Char} (hhead : source.toList.head? = some c)
    (hc : startsIdentifier c = false) : sourceName? source = none := by
  have hname : isIdentifier (String.ofList (source.toList.takeWhile continuesIdentifier)) =
      false := by
    obtain ⟨rest, hsource⟩ := List.head?_eq_some_iff.1 hhead
    rw [hsource, List.takeWhile_cons, isIdentifier, String.toList_ofList]
    split_ifs
    · simp [hc]
    · rfl
  simp [sourceName?, hname]

end CdkStacks.TypeScript

namespace CdkStacks.Construct

open CdkStacks.Template CdkStacks.TypeScript
open CdkStacks.Document (Number)

/-- The words that resolving writes use names of the constructor only. -/
theorem words_covered : ∀ source ∈ ["undefined", "true", "false"], (Expr.raw source).Covered := by
  refine List.forall_mem_cons.2 ⟨?_, List.forall_mem_cons.2 ⟨?_, List.forall_mem_singleton.2 ?_⟩⟩
  all_goals exact .of_inner (List.forall_mem_nil _) (by decide)

theorem pseudoExpr_covered (parameter : Pseudo) : (pseudoExpr parameter).Covered := by
  cases parameter <;> exact .of_inner (List.forall_mem_nil _) (by decide)

theorem member_covered (view : View) (place : Nat) (identifier member : String) :
    (view.member place identifier member).Covered := by
  unfold View.member
  split_ifs
  · exact .of_inner (List.forall_mem_nil _) (List.forall_mem_nil _)
  · exact .of_inner (List.forall_mem_nil _) (List.forall_mem_singleton.2 (by simp [Expr.defers]))

theorem string_covered (text : String) : (Expr.string text).Covered :=
  .of_inner (List.forall_mem_nil _) (List.forall_mem_nil _)

theorem call_covered (function : String) {arguments : List Expr}
    (h : ∀ argument ∈ arguments, argument.Covered) : (Expr.call function arguments).Covered :=
  .of_inner h (List.forall_mem_singleton.2 (Or.inr (Or.inl ⟨rfl, rfl⟩)))

theorem reference_covered (view : View) (target : String) : (view.reference target).Covered := by
  unfold View.reference
  split
  · exact .of_inner (List.forall_mem_nil _) (List.forall_mem_singleton.2 (by simp))
  · split
    · exact member_covered view _ _ _
    · exact call_covered _ (List.forall_mem_singleton.2 (string_covered target))

theorem getAtt_covered (view : View) (target name : String) :
    (view.getAtt target name).Covered := by
  unfold View.getAtt
  split
  · exact member_covered view _ _ _
  · refine .of_inner (List.forall_mem_singleton.2 (call_covered _ ?_)) (List.forall_mem_nil _)
    simpa using ⟨string_covered target, string_covered name⟩

theorem number_covered {number : Number} (h : number.isFinite) :
    (Expr.raw number.text).Covered := by
  obtain ⟨c, hhead, hc⟩ := number.head_text h
  have hstart : startsIdentifier c = false := by
    rcases hc with rfl | hdigit
    · rfl
    · exact startsIdentifier_of_isDigit hdigit
  refine .of_inner (List.forall_mem_nil _) ?_
  rw [Expr.ownNames, sourceName?_eq_none hhead hstart]
  exact List.forall_mem_nil _

/-- **Expressions use names of the constructor,** and those that are imported for them. -/
theorem closed_covered (view : View) : view.Closed Expr.Covered where
  pseudo := pseudoExpr_covered
  reference := reference_covered view
  getAtt := getAtt_covered view
  word := words_covered
  number _ := number_covered
  string := string_covered
  array _ h := .of_inner h (List.forall_mem_nil _)
  object _ h := .of_inner (List.forall_mem_map.2 h) (List.forall_mem_nil _)
  call function _ _ := call_covered function
  template _ _ _ h := by
    refine .of_inner (fun value hvalue => ?_) (List.forall_mem_nil _)
    obtain ⟨chunk, hchunk, hhole⟩ := List.mem_filterMap.1 hvalue
    cases chunk with
    | text text => cases hhole
    | hole other =>
      cases hhole
      exact h _ hchunk

/-! ## Names in a constructor -/

/-- The names that a statement uses, other than the locals of constructs. -/
def Statement.freeNames : Statement → List String
  | .parameter _ construct props | .resource _ _ construct props =>
    construct :: "this" :: props.freeNames
  | .output _ props => "CfnOutput" :: "this" :: props.freeNames
  | .placeholder _ _ | .dependency _ _ => []

/-- The names in the head of a constructor and in its first line. -/
def headNames : List String :=
  ["scope", "App", "id", "props", "GuStackProps", "super"]

/-- The names that the constructor of a stack uses, other than the locals of constructs. -/
def StackCode.freeNames (code : StackCode) : List String :=
  headNames ++ code.written.flatMap Statement.freeNames

/-- The names that a constructor uses without importing them, other than its locals. -/
def constructorNames : List String :=
  ["this", "super", "undefined", "parameters", "scope", "id", "props"]

theorem freeNames_imported {statement : Statement}
    (h : ∀ props ∈ statement.props?, props.Covered) :
    ∀ name ∈ statement.freeNames, name ∈ statement.imported ∨ name ∈ constructorNames := by
  have hprops : ∀ props ∈ statement.props?, ∀ name ∈ props.freeNames,
      name ∈ statement.imported ∨ name ∈ constructorNames := by
    intro props hprops name hname
    have hmem : statement.props? = some props := hprops
    rcases h props hprops name hname with hname | ⟨hcalls, rfl⟩ | ⟨hdefers, rfl⟩
    · right
      simp only [List.mem_cons, List.not_mem_nil, or_false] at hname
      rcases hname with rfl | rfl | rfl <;> decide
    · simp [Statement.imported, Statement.calls, hmem, hcalls]
    · simp [Statement.imported, Statement.defers, hmem, hdefers]
  -- besides its expression, a statement names its class and the stack
  have hnew : ∀ construct ∈ statement.construct?, ∀ props ∈ statement.props?,
      ∀ name ∈ construct :: "this" :: props.freeNames,
        name ∈ statement.imported ∨ name ∈ constructorNames := by
    intro construct hconstruct props hmem
    have himported : construct ∈ statement.imported :=
      List.mem_append_left _ (List.mem_append_left _ (Option.mem_toList.2 hconstruct))
    exact List.forall_mem_cons.2 ⟨Or.inl himported,
      List.forall_mem_cons.2 ⟨Or.inr (by decide), hprops props hmem⟩⟩
  cases statement with
  | parameter name construct props => exact hnew construct rfl props rfl
  | resource name identifier construct props => exact hnew construct rfl props rfl
  | output name props => exact hnew "CfnOutput" rfl props rfl
  | placeholder | dependency => exact List.forall_mem_nil _

section Code

variable {template : Template} {libraries : Libraries} {code : StackCode}
  (hcode : StackCode.ofTemplate template (Scaffold.stackImports libraries) libraries = .ok code)

include hcode

/-- **The constructor for a document uses no other names** than those that are imported and those
that are listed. -/
theorem mem_of_mem_freeNames {format : Format} {text : String}
    (hread : ofText format text = .ok template) : ∀ name ∈ code.freeNames,
      name ∈ code.imports.localNames ∨ name ∈ constructorNames := by
  have hprops := props_of_closed hcode (decoded_of_ofText hread) fun view _ => closed_covered view
  have hhead : ∀ name ∈ headNames,
      name ∈ ["App", "GuStackProps", "GuStack"] ∨ name ∈ constructorNames := by
    decide
  intro name hname
  rw [mem_code_localNames hcode]
  rcases List.mem_append.1 hname with hname | hname
  · exact (hhead name hname).imp_left Or.inl
  · obtain ⟨statement, hstatement, hname⟩ := List.mem_flatMap.1 hname
    have hcases : statement ∈ code.parameters ++ code.resources ++ code.outputs ∨
        statement ∈ code.dependencies := by
      simp only [StackCode.written, List.mem_append] at hstatement ⊢
      tauto
    rcases hcases with hmem | hmem
    · rcases freeNames_imported (hprops statement hmem) name hname with himported | hnamed
      · exact Or.inl (Or.inr (List.mem_flatMap.2 ⟨statement, hmem, himported⟩))
      · exact Or.inr hnamed
    · obtain ⟨identifier, other, rfl⟩ := eq_dependency hcode hmem
      cases hname

end Code

/-! ## Captures -/

/-- The locals that code declares. -/
def StackCode.locals (code : StackCode) : List String :=
  code.resources.filterMap Statement.identifier?

/-- What the locals of a constructor are called like. -/
structure LocalsApart (template : Template) (code : StackCode) : Prop where
  /-- A local is not called like anything that is imported. -/
  imports : ∀ identifier ∈ code.locals, identifier ∉ code.imports.localNames
  /-- A local is called like another name that the constructor uses exactly when a resource with a
  construct has a name that is spelled `undefined`. -/
  apart_iff : (∀ identifier ∈ code.locals, identifier ∉ constructorNames) ↔
    ∀ resource ∈ template.resources, (lookup resource.type).isSome →
      propertyName resource.name ≠ "undefined"
  /-- It is `undefined` then. -/
  captured : ∀ identifier ∈ code.locals, identifier ∈ constructorNames → identifier = "undefined"
  /-- The code of a document uses no other names. -/
  complete : ∀ (format : Format) (text : String), ofText format text = .ok template →
    ∀ name ∈ code.freeNames, name ∈ code.imports.localNames ∨ name ∈ constructorNames

theorem constructorNames_unmarked : ∀ name ∈ constructorNames, isUnmarked name := by
  decide +kernel

theorem constructorNames_guarded : ∀ name ∈ constructorNames,
    guarded name = false ↔ name = "undefined" := by
  decide +kernel

/-- Nothing that a stack may import starts with a letter in lower case. -/
theorem offeredNames_head : ∀ name? ∈ offeredNames, ∀ name ∈ name?,
    ¬ name.toList.head?.any Char.isLower := by
  decide +kernel

section Locals

variable {template : Template} {libraries : Libraries} {code : StackCode}
  (hcode : StackCode.ofTemplate template (Scaffold.stackImports libraries) libraries = .ok code)
  (hnames : (template.resources.map Resource.name).Nodup)

include hcode hnames

theorem locals_eq : code.locals = allocations [] (constructNames template.resources) := by
  rw [StackCode.locals, identifiers_eq hcode hnames, localsOf_slots]

theorem notMem_localNames {identifier : String} (h : identifier ∈ code.locals) :
    identifier ∉ code.imports.localNames := by
  intro himported
  obtain ⟨module, item, hhas, hname⟩ := Imports.mem_localNames.1 himported
  have hoffered : item.localName? ∈ offeredNames := by
    rw [← offered_localName? libraries]
    exact List.mem_map_of_mem (f := fun entry : String × Item => entry.2.localName?)
      (code_has_offered hcode hhas)
  rw [locals_eq hcode hnames] at h
  obtain ⟨c, hhead, hlower⟩ := allocations_head h
  refine offeredNames_head _ hoffered identifier hname ?_
  rw [hhead]
  exact hlower

/-- A name of the constructor is a local exactly when it is `undefined` and a resource has a name
that is spelled like it. -/
theorem mem_locals_iff {name : String} (h : name ∈ constructorNames) : name ∈ code.locals ↔
    name = "undefined" ∧ ∃ resource ∈ template.resources, (lookup resource.type).isSome ∧
      propertyName resource.name = name := by
  rw [locals_eq hcode hnames, mem_allocations_iff (constructorNames_unmarked name h),
    constructorNames_guarded name h]
  simp [constructNames, and_assoc]

/-- **Locals capture no names,** except that a resource whose name is spelled `undefined` is held by
a local of that name, which the constructor uses for what is missing. -/
theorem locals_apart : LocalsApart template code where
  imports _ := notMem_localNames hcode hnames
  apart_iff := by
    constructor
    · intro h resource hresource hkind hspelled
      exact h "undefined" ((mem_locals_iff hcode hnames (by decide)).2
        ⟨rfl, resource, hresource, hkind, hspelled⟩) (by decide)
    · intro h identifier hlocal hname
      obtain ⟨rfl, resource, hresource, hkind, hspelled⟩ :=
        (mem_locals_iff hcode hnames hname).1 hlocal
      exact h resource hresource hkind hspelled
  captured _ hlocal hname := ((mem_locals_iff hcode hnames hname).1 hlocal).1
  complete _ _ := mem_of_mem_freeNames hcode

end Locals

/-- A document whose resources are called like names that its code uses. -/
def trickyNames : String :=
  "\x7b\"Resources\":\x7b\"This\":\x7b\"Type\":\"AWS::SNS::Topic\"\x7d," ++
    "\"Fn\":\x7b\"Type\":\"AWS::SNS::Topic\",\"Properties\":\x7b" ++
    "\"TopicName\":null\x7d\x7d\x7d\x7d"

set_option maxRecDepth 2000 in
theorem locals_apart_trickyNames : ∃ template code,
    ofText .json trickyNames = .ok template ∧
      StackCode.ofTemplate template (Scaffold.stackImports .standard) .standard = .ok code ∧
        (template.resources.map Resource.name).Nodup ∧ LocalsApart template code ∧
          code.locals = ["thisResource", "fn"] ∧
            ∀ identifier ∈ code.locals, identifier ∉ code.freeNames := by
  let template : Template :=
    { parameters := []
      resources := [⟨"This", "AWS::SNS::Topic", [], [], none⟩,
        ⟨"Fn", "AWS::SNS::Topic", [("TopicName", .null)], [], none⟩]
      outputs := []
      conditions := [] }
  have hread : ofText .json trickyNames = .ok template := by with_unfolding_all rfl
  have hcheck : template.checkCycles = .ok () := rfl
  have hcode := ofTemplate_of_ok hcheck (Scaffold.stackImports .standard) .standard
  have hnames : (template.resources.map Resource.name).Nodup := by decide
  have hapart := locals_apart hcode hnames
  have hspelled : ∀ resource ∈ template.resources, (lookup resource.type).isSome →
      propertyName resource.name ≠ "undefined" := by
    simp only [template, List.forall_mem_cons]
    decide +kernel
  refine ⟨template, _, hread, hcode, hnames, hapart, ?_, fun identifier hlocal hname => ?_⟩
  · rw [locals_eq hcode hnames]
    decide +kernel
  · rcases hapart.complete _ _ hread identifier hname with himported | hnamed
    · exact hapart.imports identifier hlocal himported
    · exact hapart.apart_iff.2 hspelled identifier hlocal hnamed

/-- A document with a topic called `Undefined`, and a topic that leaves its name open. -/
def undefinedTopic : String :=
  "\x7b\"Resources\":\x7b\"Undefined\":\x7b\"Type\":\"AWS::SNS::Topic\"\x7d," ++
    "\"T\":\x7b\"Type\":\"AWS::SNS::Topic\",\"Properties\":\x7b" ++
    "\"TopicName\":null\x7d\x7d\x7d\x7d"

set_option maxRecDepth 2000 in
/-- **A local may capture `undefined`:** the name of the second topic is then the first topic. -/
theorem undefinedTopic_captures : ∃ template code,
    ofText .json undefinedTopic = .ok template ∧
      StackCode.ofTemplate template (Scaffold.stackImports .standard) .standard = .ok code ∧
        (template.resources.map Resource.name).Nodup ∧ code.locals = ["undefined", "t"] ∧
          "undefined" ∈ code.freeNames := by
  let template : Template :=
    { parameters := []
      resources := [⟨"Undefined", "AWS::SNS::Topic", [], [], none⟩,
        ⟨"T", "AWS::SNS::Topic", [("TopicName", .null)], [], none⟩]
      outputs := []
      conditions := [] }
  have hread : ofText .json undefinedTopic = .ok template := by with_unfolding_all rfl
  have hcheck : template.checkCycles = .ok () := rfl
  have hcode := ofTemplate_of_ok hcheck (Scaffold.stackImports .standard) .standard
  have hnames : (template.resources.map Resource.name).Nodup := by decide
  refine ⟨template, _, hread, hcode, hnames, ?_, ?_⟩
  · rw [locals_eq hcode hnames]
    decide +kernel
  · decide +kernel

end CdkStacks.Construct
