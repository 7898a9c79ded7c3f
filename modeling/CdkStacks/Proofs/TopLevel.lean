import CdkStacks.Proofs.Bound
import CdkStacks.Proofs.Imported
import CdkStacks.Proofs.Layout
import CdkStacks.Proofs.Spelling

/-!
# Names at the top level of generated files

What the generated files bind at their top level, and when a name is bound twice. The imports of a
stack never clash with each other. The class of the stack does when it is called like something that
the files import.

* `offered` are all items that a stack may import; their local names differ;
* `code_has`: a stack imports the items that every stack imports, and those that its code uses;
* `Statement.imported` are the imported names in a statement;
* `Shows` says with what a file starts;
* `names_bound_once`: which names the three files bind, and exactly when they bind none twice.
-/

namespace CdkStacks.Construct

open CdkStacks.Template CdkStacks.TypeScript

/-! ## Items that a stack may import -/

/-- The items that every stack imports. -/
def ownItems (libraries : Libraries) : List (String × Item) :=
  [(libraries.cdkCore, .type "App"), (libraries.guardianCore, .type "GuStackProps"),
    (libraries.guardianCore, .value "GuStack")]

/-- The items that code may use. -/
def codeItems (libraries : Libraries) : List (String × Item) :=
  [(libraries.guardianCore, .value "GuStringParameter"),
    (libraries.guardianCore, .value "GuParameter"), (libraries.cdkCore, .value "CfnOutput"),
    (libraries.cdkCore, .value "Fn"), (libraries.cdkCore, .value "Lazy")] ++
    catalogue.map fun kind => (libraries.service kind.service, kind.item)

/-- All items that a stack may import. -/
def offered (libraries : Libraries) : List (String × Item) :=
  ownItems libraries ++ codeItems libraries

/-- The local names of all items that a stack may import, which no choice of modules changes. -/
def offeredNames : List (Option String) :=
  (offered .standard).map fun entry => entry.2.localName?

theorem offeredNames_nodup : offeredNames.Nodup := by
  decide +kernel

theorem offered_localName? (libraries : Libraries) :
    ((offered libraries).map fun entry => entry.2.localName?) = offeredNames := by
  simp [offeredNames, offered, ownItems, codeItems]

/-- A local name tells the item and its module. -/
theorem offered_apart {libraries : Libraries} {first second : String × Item}
    (hfirst : first ∈ offered libraries) (hsecond : second ∈ offered libraries)
    (h : first.2.localName? = second.2.localName?) : first = second :=
  List.inj_on_of_nodup_map ((offered_localName? libraries).symm ▸ offeredNames_nodup) hfirst
    hsecond h

/-- The names that code needs are among those that it may use. -/
theorem uses_offered {template : Template} {libraries : Libraries} {scope : Scope}
    {statements : List Statement} {entry : String × Item}
    (h : entry ∈ (StackCode.uses template libraries scope statements).map Use.entry) :
    entry ∈ codeItems libraries := by
  have hfixed : ∀ {entry : String × Item}, entry ∈ (codeItems libraries).take 5 →
      entry ∈ codeItems libraries := fun hentry => List.mem_of_mem_take hentry
  rw [StackCode.uses, List.map_append, List.map_append, List.map_append, List.mem_append,
    List.mem_append, List.mem_append, mem_expressionUses, or_assoc, or_assoc] at h
  rcases h with h | h | h | h
  · obtain ⟨use, huse, rfl⟩ := List.mem_map.1 h
    obtain ⟨parameter, -, rfl⟩ := List.mem_map.1 huse
    refine hfixed ?_
    change (libraries.guardianCore, Item.value (parameterClass parameter)) ∈ _
    unfold parameterClass
    split_ifs <;> simp [codeItems]
  · obtain ⟨use, huse, rfl⟩ := List.mem_map.1 h
    obtain ⟨resource, -, huse⟩ := List.mem_filterMap.1 huse
    obtain ⟨⟨kind, identifier⟩, hkind, rfl⟩ := Option.map_eq_some_iff.1 huse
    have hlookup : lookup resource.type = some kind := by
      unfold supported? at hkind
      split at hkind
      · rename_i hlookup _
        cases hkind
        exact hlookup
      · cases hkind
    exact List.mem_append_right _ (List.mem_map.2 ⟨kind, mem_catalogue hlookup, rfl⟩)
  · obtain ⟨use, huse, rfl⟩ := List.mem_map.1 h
    split_ifs at huse
    · cases huse
    · rw [List.mem_singleton.1 huse]
      exact hfixed (by simp [codeItems, Use.entry, Use.item, outputUse])
  · refine hfixed ?_
    rcases List.mem_append.1 h with h | h <;> split_ifs at h <;> simp_all [codeItems]

theorem coherent_uses (template : Template) (libraries : Libraries) (scope : Scope)
    (statements : List Statement) :
    Coherent (StackCode.uses template libraries scope statements) := by
  intro use huse other hother _ hends
  have h := List.mem_append_right (ownItems libraries) (uses_offered (List.mem_map_of_mem huse))
  have h' := List.mem_append_right (ownItems libraries) (uses_offered (List.mem_map_of_mem hother))
  unfold Item.Ends at hends
  split at hends
  · rename_i localName name localName' name' hitem hitem'
    obtain ⟨rfl, hne⟩ := hends
    have heq := congrArg Prod.snd (offered_apart h h' (by simp [Use.entry, hitem, hitem',
      Item.localName?]))
    change use.item = other.item at heq
    rw [hitem, hitem'] at heq
    exact hne (Item.renamed.inj heq).2
  · exact hends

/-! ## What a stack imports -/

theorem stackImports_has (libraries : Libraries) (module : String) (item : Item) :
    (Scaffold.stackImports libraries).Has module item ↔ (module, item) ∈ ownItems libraries := by
  simp only [Scaffold.stackImports, Imports.has_add, Imports.has_addTypes,
    Imports.not_has_empty, ownItems, List.mem_cons, List.not_mem_nil, or_false]
  tauto

section Code

variable {template : Template} {libraries : Libraries} {code : StackCode}
  (hcode : StackCode.ofTemplate template (Scaffold.stackImports libraries) libraries = .ok code)

include hcode

/-- **What a stack imports** is what every stack imports, and what its code uses. -/
theorem code_has (module : String) (item : Item) : code.imports.Has module item ↔
    (module, item) ∈ (StackCode.uses template libraries (Scope.ofTemplate template)
        (code.parameters ++ code.resources ++ code.outputs)).map Use.entry ∨
      (module, item) ∈ ownItems libraries := by
  rw [imports_eq hcode, foldl_addTo_has_from (coherent_uses _ _ _ _), stackImports_has]
  intro use _ other hother hends
  -- what every stack imports has no local name of its own, so nothing ends it
  rw [stackImports_has] at hother
  simp only [ownItems, List.mem_cons, Prod.mk.injEq, List.not_mem_nil, or_false] at hother
  rcases hother with ⟨-, rfl⟩ | ⟨-, rfl⟩ | ⟨-, rfl⟩ <;> cases hitem : use.item <;>
    simp [hitem, Item.Ends] at hends

theorem code_has_offered {module : String} {item : Item} (h : code.imports.Has module item) :
    (module, item) ∈ offered libraries := by
  rcases (code_has hcode module item).1 h with h | h
  · exact List.mem_append_right _ (uses_offered h)
  · exact List.mem_append_left _ h

/-- **The imports of a stack bind no name twice.** -/
theorem code_localNames_nodup : code.imports.localNames.Nodup := by
  rw [Imports.localNames_nodup_iff]
  intro module item other item' hhas hhas' _ heq
  exact offered_apart (code_has_offered hcode hhas) (code_has_offered hcode hhas') heq

end Code

/-! ## Names in statements -/

/-- The class that a statement makes an object of. -/
def Statement.construct? : Statement → Option String
  | .parameter _ construct _ | .resource _ _ construct _ => some construct
  | .output _ _ => some "CfnOutput"
  | .placeholder _ _ | .dependency _ _ => none

/-- The name by which code calls what it imports. -/
def Use.localName (use : Use) : String :=
  use.localName?.getD use.name

theorem Use.item_localName? (use : Use) : use.item.localName? = some use.localName := by
  unfold Use.item Use.localName
  cases use.localName? <;> rfl

/-- The imported names in a statement. -/
def Statement.imported (statement : Statement) : List String :=
  statement.construct?.toList ++ (if statement.calls then ["Fn"] else []) ++
    if statement.defers then ["Lazy"] else []

theorem mem_imported {statements : List Statement} {name : String} :
    name ∈ statements.flatMap Statement.imported ↔
      name ∈ statements.filterMap Statement.construct? ∨
        statements.any Statement.calls ∧ name = "Fn" ∨
        statements.any Statement.defers ∧ name = "Lazy" := by
  simp only [Statement.imported, List.mem_flatMap, List.mem_append, List.mem_filterMap,
    Option.mem_toList, List.mem_ite_nil_right, List.mem_singleton, List.any_eq_true]
  constructor
  · rintro ⟨statement, hmem, (h | ⟨h, rfl⟩) | ⟨h, rfl⟩⟩
    · exact Or.inl ⟨statement, hmem, h⟩
    · exact Or.inr (Or.inl ⟨⟨statement, hmem, h⟩, rfl⟩)
    · exact Or.inr (Or.inr ⟨⟨statement, hmem, h⟩, rfl⟩)
  · rintro (⟨statement, hmem, h⟩ | ⟨⟨statement, hmem, h⟩, rfl⟩ | ⟨⟨statement, hmem, h⟩, rfl⟩)
    · exact ⟨statement, hmem, Or.inl (Or.inl h)⟩
    · exact ⟨statement, hmem, Or.inl (Or.inr ⟨h, rfl⟩)⟩
    · exact ⟨statement, hmem, Or.inr ⟨h, rfl⟩⟩

theorem mem_expressionNames (libraries : Libraries) {statements : List Statement} {name : String} :
    name ∈ (statements.flatMap (expressionUses libraries)).map Use.localName ↔
      statements.any Statement.calls ∧ name = "Fn" ∨
        statements.any Statement.defers ∧ name = "Lazy" := by
  have hentry : name ∈ (statements.flatMap (expressionUses libraries)).map Use.localName ↔
      ∃ entry ∈ (statements.flatMap (expressionUses libraries)).map Use.entry,
        entry.2.localName? = some name := by
    simp [Use.entry, Use.item_localName?]
  rw [hentry]
  simp only [mem_expressionUses, List.mem_append, List.mem_ite_nil_right, List.mem_singleton]
  constructor
  · rintro ⟨_, ⟨h, rfl⟩ | ⟨h, rfl⟩, hname⟩
    · exact Or.inl ⟨h, (Option.some.inj hname).symm⟩
    · exact Or.inr ⟨h, (Option.some.inj hname).symm⟩
  · rintro (⟨h, rfl⟩ | ⟨h, rfl⟩)
    · exact ⟨_, Or.inl ⟨h, rfl⟩, rfl⟩
    · exact ⟨_, Or.inr ⟨h, rfl⟩, rfl⟩

theorem resourceStatement_construct? (scope : Scope) (place : Nat) (resource : Resource) :
    (resourceStatement scope place resource).value.construct? =
      (supported? scope resource).map fun found => found.1.construct := by
  unfold resourceStatement
  cases supported? scope resource <;> rfl

section Code

variable {template : Template} {imports : Imports} {libraries : Libraries} {code : StackCode}
  (hcode : StackCode.ofTemplate template imports libraries = .ok code)

include hcode

/-- The classes that the code makes objects of. -/
theorem code_constructs :
    (code.parameters ++ code.resources ++ code.outputs).filterMap Statement.construct? =
      template.parameters.map parameterClass ++
        template.resources.filterMap (fun resource =>
          (supported? (Scope.ofTemplate template) resource).map fun found => found.1.construct) ++
        template.outputs.map fun _ => "CfnOutput" := by
  have hparameters : code.parameters.filterMap Statement.construct? =
      template.parameters.map parameterClass := by
    rw [parameters_eq hcode, List.filterMap_map, ← List.filterMap_eq_map]
    rfl
  have houtputs : code.outputs.filterMap Statement.construct? =
      template.outputs.map fun _ => "CfnOutput" := by
    rw [outputs_eq hcode, List.filterMap_map, ← List.filterMap_eq_map]
    rfl
  have hresources : code.resources.filterMap Statement.construct? =
      template.resources.filterMap fun resource =>
        (supported? (Scope.ofTemplate template) resource).map fun found => found.1.construct := by
    conv_rhs => rw [← List.zipIdx_map_fst 0 template.resources, List.filterMap_map]
    rw [resources_eq hcode, List.filterMap_map]
    exact List.filterMap_congr fun entry _ => resourceStatement_construct? _ entry.2 entry.1
  rw [List.filterMap_append, List.filterMap_append, hparameters, hresources, houtputs]

/-- **The names that code uses** are the local names of what it imports. -/
theorem mem_uses_localName (name : String) :
    name ∈ (StackCode.uses template libraries (Scope.ofTemplate template)
        (code.parameters ++ code.resources ++ code.outputs)).map Use.localName ↔
      name ∈ (code.parameters ++ code.resources ++ code.outputs).flatMap Statement.imported := by
  have hresources : (template.resources.filterMap
      (resourceUse? libraries (Scope.ofTemplate template))).map Use.localName =
      template.resources.filterMap fun resource =>
        (supported? (Scope.ofTemplate template) resource).map fun found => found.1.construct := by
    rw [List.map_filterMap]
    refine List.filterMap_congr fun resource _ => ?_
    rw [resourceUse?, Option.map_map]
    rfl
  have houtputs : name ∈ (if template.outputs.isEmpty then []
      else [outputUse libraries]).map Use.localName ↔
      name ∈ template.outputs.map fun _ => "CfnOutput" := by
    cases template.outputs <;> simp [Use.localName, outputUse]
  rw [mem_imported, code_constructs hcode, StackCode.uses]
  simp only [List.map_append, List.mem_append, hresources, houtputs, mem_expressionNames,
    List.map_map]
  rfl

end Code

/-- What a stack binds by its imports. -/
theorem mem_code_localNames {template : Template} {libraries : Libraries} {code : StackCode}
    (hcode : StackCode.ofTemplate template (Scaffold.stackImports libraries) libraries = .ok code)
    (name : String) : name ∈ code.imports.localNames ↔ name ∈ ["App", "GuStackProps", "GuStack"] ∨
      name ∈ (code.parameters ++ code.resources ++ code.outputs).flatMap Statement.imported := by
  rw [Imports.mem_localNames, ← mem_uses_localName hcode, List.mem_map]
  simp only [code_has hcode]
  constructor
  · rintro ⟨module, item, h | h, hname⟩
    · obtain ⟨use, huse, hentry⟩ := List.mem_map.1 h
      cases hentry
      rw [use.item_localName?] at hname
      exact Or.inr ⟨use, huse, Option.some.inj hname⟩
    · left
      simp only [ownItems, List.mem_cons, Prod.mk.injEq, List.not_mem_nil, or_false] at h
      rcases h with ⟨-, rfl⟩ | ⟨-, rfl⟩ | ⟨-, rfl⟩ <;> cases hname <;> simp
  · rintro (h | ⟨use, huse, rfl⟩)
    · simp only [List.mem_cons, List.not_mem_nil, or_false] at h
      rcases h with rfl | rfl | rfl
      · exact ⟨libraries.cdkCore, .type "App", Or.inr (by simp [ownItems]), rfl⟩
      · exact ⟨libraries.guardianCore, .type "GuStackProps", Or.inr (by simp [ownItems]), rfl⟩
      · exact ⟨libraries.guardianCore, .value "GuStack", Or.inr (by simp [ownItems]), rfl⟩
    · exact ⟨use.module, use.item, Or.inl (List.mem_map.2 ⟨use, huse, rfl⟩), use.item_localName?⟩

end CdkStacks.Construct

namespace CdkStacks.Scaffold

open CdkStacks.Construct CdkStacks.TypeScript

/-! ## Imports of the app and the test -/

theorem appImports_has (libraries : Libraries) (stack path module : String) (item : Item) :
    (appImports libraries stack path).Has module item ↔
      (module, item) = (path, .value stack) ∨ (module, item) = (libraries.cdkCore, .value "App") ∨
        (module, item) = ("source-map-support/register", .effect) := by
  simp only [appImports, Imports.has_add, Imports.has_addEffect, Imports.not_has_empty, or_false]

theorem testImports_has (libraries : Libraries) (stack path module : String) (item : Item) :
    (testImports libraries stack path).Has module item ↔
      (module, item) = (path, .value stack) ∨ (module, item) = (libraries.cdkCore, .value "App") ∨
        (module, item) = (libraries.cdkAssert, .value "SynthUtils") ∨
        (module, item) = (libraries.cdkAssert ++ "/jest", .effect) := by
  simp only [testImports, Imports.has_add, Imports.has_addEffect, Imports.not_has_empty, or_false]

/-- The app binds no name twice unless it imports two classes of the name `App`. -/
theorem appImports_nodup_iff (libraries : Libraries) (stack path : String) :
    (appImports libraries stack path).localNames.Nodup ↔
      (stack = "App" → path = libraries.cdkCore) := by
  rw [Imports.localNames_nodup_iff]
  simp only [appImports_has]
  constructor
  · rintro h rfl
    exact congrArg Prod.fst (h path (.value "App") libraries.cdkCore (.value "App") (Or.inl rfl)
      (Or.inr (Or.inl rfl)) rfl rfl)
  · rintro h module item other item' (⟨⟩ | ⟨⟩ | ⟨⟩) (⟨⟩ | ⟨⟩ | ⟨⟩) hname heq <;>
      simp_all [Item.localName?]

/-- The test binds no name twice unless the class of the stack is called like one that it imports
from another module. -/
theorem testImports_nodup_iff (libraries : Libraries) (stack path : String) :
    (testImports libraries stack path).localNames.Nodup ↔
      (stack = "App" → path = libraries.cdkCore) ∧
        (stack = "SynthUtils" → path = libraries.cdkAssert) := by
  rw [Imports.localNames_nodup_iff]
  simp only [testImports_has]
  constructor
  · intro h
    constructor
    · rintro rfl
      exact congrArg Prod.fst (h path (.value "App") libraries.cdkCore (.value "App") (Or.inl rfl)
        (Or.inr (Or.inl rfl)) rfl rfl)
    · rintro rfl
      exact congrArg Prod.fst (h path (.value "SynthUtils") libraries.cdkAssert
        (.value "SynthUtils") (Or.inl rfl) (Or.inr (Or.inr (Or.inl rfl))) rfl rfl)
  · rintro h module item other item' (⟨⟩ | ⟨⟩ | ⟨⟩ | ⟨⟩) (⟨⟩ | ⟨⟩ | ⟨⟩ | ⟨⟩) hname heq <;>
      simp_all [Item.localName?]

/-- No class of a stack is called like the constant of the app. -/
theorem ne_app_of_classNameOf {name stack : String} (h : classNameOf name = .ok stack) :
    stack ≠ "app" := by
  unfold classNameOf at h
  dsimp only at h
  split_ifs at h
  cases h
  intro happ
  have hhead : (Text.upperCamel name).toList.head? = some 'a' := by
    rw [show Text.upperCamel name = "app" from happ]
    rfl
  exact absurd (Text.head_upperCamel hhead) (by decide)

/-! ## Files -/

/-- A file starts with a comment, an empty line, imports and a line that declares something. -/
def Shows (file : File) (comment : List String) (imports : Imports) (declaration : String) : Prop :=
  ∃ body, file.lines = comment ++ "" :: (imports.lines ++ declaration :: body)

theorem written_head {comment : List String} (hcomment : comment ≠ []) (imports : Imports)
    (width : Nat) (rest : List Step) :
    written width 0 (headerSteps comment ++ imports.steps ++ rest) =
      comment ++ "" :: (imports.lines ++ written width 0 rest) := by
  have hhead : headerSteps comment ++ imports.steps =
      (comment ++ "" :: imports.lines).map .line := by
    simp [headerSteps, hcomment, Imports.steps, Step.blank]
  rw [hhead, (Balanced.lines _ : Balanced 0 _).written_append, written_lines]
  simp

theorem comment_ne_nil (provenance : Provenance) : provenance.comment ≠ [] := by
  cases provenance <;> simp [Provenance.comment]

theorem appComment_ne_nil (provenance : Provenance) (paths : Paths) :
    provenance.appComment paths ≠ [] := by
  cases provenance <;> simp [Provenance.appComment, Provenance.comment]

theorem shows_line {comment : List String} (hcomment : comment ≠ []) (imports : Imports)
    (width : Nat) (path : Files.FilePath) (declaration : String) (rest : List Step) :
    Shows ⟨path, written width 0 (headerSteps comment ++ imports.steps ++
      .line declaration :: rest)⟩ comment imports declaration := by
  refine ⟨written width 0 rest, ?_⟩
  rw [written_head hcomment, written_line, indented_zero]

theorem shows_block {comment : List String} (hcomment : comment ≠ []) (imports : Imports)
    (width : Nat) (path : Files.FilePath) {header : String} (hheader : header ≠ "")
    (rest : List Step) :
    Shows ⟨path, written width 0 (headerSteps comment ++ imports.steps ++
      .openBlock header :: rest)⟩ comment imports (header ++ " \x7b") := by
  refine ⟨written width 1 rest, ?_⟩
  rw [written_head hcomment, Step.openBlock, if_neg hheader, written_indent, indented_zero]

theorem append_ne_empty {word : String} (hword : word ≠ "") (rest : String) :
    word ++ rest ≠ "" := fun h => hword (String.append_eq_empty_iff.1 h).1

/-- The three files show their imports. Then the app declares its constant, the stack its class, and
the test starts its description. -/
def ShowsFiles (scaffold : Scaffold) (libraries : Libraries) (code : StackCode)
    (generated : Generated) : Prop :=
  ∃ app stack test, generated.files = [app, stack, test] ∧
    Shows app (scaffold.provenance.appComment scaffold.paths) (scaffold.importsOfApp libraries)
      "const app = new App();" ∧
    Shows stack scaffold.provenance.comment code.imports
      ("export class " ++ scaffold.stackName ++ " extends GuStack" ++ " \x7b") ∧
    Shows test scaffold.provenance.comment (scaffold.importsOfTest libraries)
      ("describe(\"The " ++ scaffold.stackName ++ " stack\", () =>" ++ " \x7b")

/-- What the three files of a scaffold bind at their top level, and when a name is bound twice. -/
structure TopLevel (scaffold : Scaffold) (libraries : Libraries) (code : StackCode)
    (generated : Generated) : Prop where
  /-- The files show the imports below. -/
  files : ShowsFiles scaffold libraries code generated
  /-- The app binds a name twice when two classes are called `App`. -/
  app : ((scaffold.importsOfApp libraries).localNames ++ ["app"]).Nodup ↔
    (scaffold.stackName = "App" →
      stackModule scaffold.appName scaffold.stackName scaffold.multiApp = libraries.cdkCore)
  /-- The imports of the stack do not clash. -/
  imports : code.imports.localNames.Nodup
  /-- The class of the stack clashes with them when it is called like what every stack imports, or
  like something that the code uses. -/
  stack : (code.imports.localNames ++ [scaffold.stackName]).Nodup ↔
    scaffold.stackName ∉ ["App", "GuStackProps", "GuStack"] ∧
      scaffold.stackName ∉
        (code.parameters ++ code.resources ++ code.outputs).flatMap Statement.imported
  /-- The test binds a name twice when two of its classes have one name. -/
  test : (scaffold.importsOfTest libraries).localNames.Nodup ↔
    (scaffold.stackName = "App" → testModule scaffold.stackName = libraries.cdkCore) ∧
      (scaffold.stackName = "SynthUtils" → testModule scaffold.stackName = libraries.cdkAssert)

theorem generate_shows {scaffold : Scaffold} {settings : Settings} {generated : Generated}
    {code : StackCode}
    (hcode : StackCode.ofTemplate scaffold.template (stackImports settings.libraries)
      settings.libraries = .ok code)
    (h : scaffold.generate settings = .ok generated) :
    ShowsFiles scaffold settings.libraries code generated := by
  have hfiles : generated.files = scaffold.laidOut settings code := by
    rw [generate_eq hcode] at h
    split_ifs at h
    exact congrArg Generated.files (Except.ok.inj h).symm
  have happ : ∀ imports comment, appSteps scaffold.appName [scaffold.stackName] imports comment =
      headerSteps comment ++ imports.steps ++ .line "const app = new App();" :: _ :=
    fun _ _ => List.append_assoc ..
  have hstack : ∀ comment, stackSteps scaffold.stackName code comment =
      headerSteps comment ++ code.imports.steps ++
        .openBlock ("export class " ++ scaffold.stackName ++ " extends GuStack") ::
        ([.openBlock "constructor(scope: App, id: string, props: GuStackProps)",
            .line "super(scope, id, props);"] ++ parameterSteps code.parameters ++
          groupSteps code.resources ++ groupSteps code.dependencies ++ groupSteps code.outputs ++
          [.closeBlock, .closeBlock]) := by
    intro comment
    simp [stackSteps]
  refine ⟨_, _, _, by rw [hfiles, laidOut, bodies]; rfl, ?_, ?_, ?_⟩
  · rw [happ]
    exact shows_line (appComment_ne_nil _ _) ..
  · rw [hstack]
    exact shows_block (comment_ne_nil _) _ _ _ (append_ne_empty (append_ne_empty (by decide) _) _) _
  · exact shows_block (comment_ne_nil _) _ _ _ (append_ne_empty (append_ne_empty (by decide) _) _) _

theorem nodup_concat_iff {names : List String} {name : String} :
    (names ++ [name]).Nodup ↔ names.Nodup ∧ name ∉ names := by
  rw [List.nodup_append_comm, List.singleton_append, List.nodup_cons, and_comm]

/-- **Names at the top level are bound once,** unless the class of the stack is called like
something that a file imports. -/
theorem names_bound_once {name : String} {scaffold : Scaffold} {settings : Settings}
    {generated : Generated} (hname : classNameOf name = .ok scaffold.stackName)
    (h : scaffold.generate settings = .ok generated) : ∃ code,
      StackCode.ofTemplate scaffold.template (stackImports settings.libraries)
        settings.libraries = .ok code ∧ TopLevel scaffold settings.libraries code generated := by
  obtain ⟨code, hcode, -⟩ := exists_of_bind_eq_ok h
  refine ⟨code, hcode, generate_shows hcode h, ?_, code_localNames_nodup hcode, ?_,
    testImports_nodup_iff ..⟩
  · have happ : "app" ∉ (scaffold.importsOfApp settings.libraries).localNames := by
      rw [Imports.mem_localNames]
      rintro ⟨module, item, hhas, hlocal⟩
      simp only [importsOfApp, appImports_has, Prod.mk.injEq] at hhas
      rcases hhas with ⟨-, rfl⟩ | ⟨-, rfl⟩ | ⟨-, rfl⟩
      · exact ne_app_of_classNameOf hname (Option.some.inj hlocal)
      · exact absurd (Option.some.inj hlocal) (by decide)
      · cases hlocal
    rw [nodup_concat_iff, and_iff_left happ]
    exact appImports_nodup_iff ..
  · rw [nodup_concat_iff, and_iff_right (code_localNames_nodup hcode),
      mem_code_localNames hcode, not_or]

/-- A template without a circle of references is generated when its code is not too deep. -/
theorem exists_generate {scaffold : Scaffold} (h : scaffold.template.checkCycles = .ok ())
    (settings : Settings)
    (hroom : ((StackCode.build scaffold.template (stackImports settings.libraries)
      settings.libraries).height + 3) * settings.indent ≤ maxBytes) :
    ∃ generated, scaffold.generate settings = .ok generated := by
  have hcode := ofTemplate_of_ok h (stackImports settings.libraries) settings.libraries
  rw [generate_eq hcode, if_pos (linesFit_steps scaffold settings.libraries _ hroom)]
  exact ⟨_, rfl⟩

/-- A stack whose code calls functions, reads constructs lazily and imports a class under another
name. -/
def balancerScaffold : Scaffold where
  stackName := "MyBalancer"
  appName := "balancer"
  template := balancerTemplate
  provenance := .migrated "balancer.yaml"
  multiApp := true

theorem names_bound_once_balancer : classNameOf "my-balancer" = .ok balancerScaffold.stackName ∧
    ∃ generated, balancerScaffold.generate .standard = .ok generated ∧
      ∃ code, StackCode.ofTemplate balancerScaffold.template
          (stackImports Settings.standard.libraries) Settings.standard.libraries = .ok code ∧
        TopLevel balancerScaffold Settings.standard.libraries code generated := by
  have hname : classNameOf "my-balancer" = .ok balancerScaffold.stackName := rfl
  have hcheck : balancerScaffold.template.checkCycles = .ok () := rfl
  obtain ⟨generated, hgenerated⟩ := exists_generate hcheck .standard (by decide +kernel)
  exact ⟨hname, generated, hgenerated, names_bound_once hname hgenerated⟩

/-- A stack called like the class of its app. -/
def appScaffold : Scaffold where
  stackName := "App"
  appName := "app"
  template := .ofParameters []
  provenance := .new
  multiApp := false

/-- **A stack may be called `app`:** then its app, its own file and its test bind `App` twice. -/
theorem appScaffold_binds_twice : classNameOf "app" = .ok appScaffold.stackName ∧
    (∃ generated, appScaffold.generate .standard = .ok generated) ∧
    ¬ (appScaffold.importsOfApp .standard).localNames.Nodup ∧
    ¬ (appScaffold.importsOfTest .standard).localNames.Nodup ∧
    ∃ code, StackCode.ofTemplate appScaffold.template (stackImports .standard) .standard =
      .ok code ∧ appScaffold.stackName ∈ code.imports.localNames :=
  ⟨rfl, exists_generate rfl .standard (by decide +kernel), by decide +kernel, by decide +kernel, _,
    ofTemplate_of_ok rfl _ _, by decide +kernel⟩

end CdkStacks.Scaffold
