import CdkStacks.Proofs.Merging

/-!
# Imports as sets of facts

What a file imports depends on what was put into it, and neither on the order nor on how often it
was done.

* `Fact` is a fact about imports, `Imports.Holds` says whether it holds; `Imports.ext_holds`:
  imports of which the same facts hold are equal;
* `Addition` is a step that adds to imports, `Addition.addTo` does it, and `addAll` does many. A
  step may merge imports that were built by such steps;
* `Addition.facts` and `factsOf` are the facts that steps put into imports;
* `holds_update`, `holds_merge`: one step adds its facts; `addTo_holds`, `addAll_holds`: so do many,
  as long as no local name stands for two names (`Unambiguous`);
* `imports_depend_on_facts`: steps with the same facts build the same imports.
-/

namespace CdkStacks.TypeScript

/-! ## Facts -/

/-- A fact about imports: a module is imported at all, or one of its items is. -/
inductive Fact where
  | module (name : String)
  | item (module : String) (item : Item)
  deriving DecidableEq, Repr

/-- Whether a fact holds of imports. -/
def Imports.Holds (imports : Imports) : Fact → Prop
  | .module name => imports.modules.contains name = true
  | .item module item => imports.Has module item

/-- No module gives one local name to two names. -/
def Unambiguous (Known : Fact → Prop) : Prop :=
  ∀ module localName name other, Known (.item module (.renamed localName name)) →
    Known (.item module (.renamed localName other)) → name = other

theorem Unambiguous.imp {Known Known' : Fact → Prop} (h : Unambiguous Known)
    (himp : ∀ fact, Known' fact → Known fact) : Unambiguous Known' :=
  fun module localName name other hname hother =>
    h module localName name other (himp _ hname) (himp _ hother)

theorem Names.ext_contains {first second : Names}
    (h : ∀ name, first.contains name = true ↔ second.contains name = true) : first = second := by
  refine Table.ext_get? fun name => ?_
  have hname := h name
  rw [Table.contains_eq, Table.contains_eq] at hname
  cases hfirst : first.get? name <;> cases hsecond : second.get? name <;>
    simp [hfirst, hsecond] at hname ⊢

theorem ModuleImports.ext_has {first second : ModuleImports}
    (h : ∀ item, first.Has item ↔ second.Has item) : first = second := by
  have heffect : first.effect = second.effect := Bool.eq_iff_iff.2 (h .effect)
  have htypes : first.types = second.types := Names.ext_contains fun name => h (.type name)
  have hvalues : first.values = second.values := Names.ext_contains fun name => h (.value name)
  have haliases : first.aliases = second.aliases :=
    Table.ext_get? fun localName => Option.ext fun name => h (.renamed localName name)
  cases first
  cases second
  simp_all

/-- **Imports of which the same facts hold** are equal. -/
theorem Imports.ext_holds {first second : Imports}
    (h : ∀ fact, first.Holds fact ↔ second.Holds fact) : first = second := by
  refine congrArg Imports.mk (Table.ext_get? fun module => ?_)
  have hmodule := h (.module module)
  have hitems : first.ofModule module = second.ofModule module :=
    ModuleImports.ext_has fun item => h (.item module item)
  simp only [Holds, Table.contains_eq] at hmodule
  unfold ofModule at hitems
  cases hfirst : first.modules.get? module <;> cases hsecond : second.modules.get? module <;>
    simp_all

/-! ## Single changes -/

/-- The facts of a change to the imports of one module. -/
def itemFacts (module : String) (items : List Item) : List Fact :=
  .module module :: items.map (.item module)

/-- A change to the imports of a module adds facts when it adds items. -/
theorem holds_update {imports : Imports} {module : String} {items : List Item}
    {change : ModuleImports → ModuleImports}
    (hchange : ∀ item, (change (imports.ofModule module)).Has item ↔
      (imports.ofModule module).Has item ∨ item ∈ items) (fact : Fact) :
    (imports.update module change).Holds fact ↔
      imports.Holds fact ∨ fact ∈ itemFacts module items := by
  cases fact with
  | module name =>
    simp [Imports.Holds, Imports.update, Table.contains_alter, itemFacts, or_comm]
  | item other item =>
    simp only [Imports.Holds, Imports.Has, Imports.ofModule_update]
    split_ifs with hother
    · subst hother
      simp [hchange, itemFacts]
    · simp [itemFacts, Ne.symm hother]

theorem ModuleImports.none_union (imports : ModuleImports) : none.union imports = imports := by
  have hempty : ∀ {α : Type} (combine : α → α → α) (table : Table α),
      Table.empty.merge combine table = table := by
    intro α combine table
    refine Table.ext_get? fun key => ?_
    rw [Table.get?_merge]
    cases table.get? key <;> rfl
  simp [union, none, hempty]

theorem ModuleImports.union_none (imports : ModuleImports) : imports.union none = imports := by
  simp [union, none]

theorem Imports.ofModule_merge (first second : Imports) (module : String) :
    (first.merge second).ofModule module =
      (first.ofModule module).union (second.ofModule module) := by
  unfold ofModule merge
  rw [Table.get?_merge]
  cases first.modules.get? module with
  | none => cases second.modules.get? module <;> simp [ModuleImports.none_union]
  | some old => cases second.modules.get? module <;> simp [ModuleImports.union_none]

theorem Table.contains_merge {α : Type} (combine : α → α → α) (first second : Table α)
    (key : String) : (first.merge combine second).contains key = true ↔
      first.contains key = true ∨ second.contains key = true := by
  rw [Table.contains_eq, Table.contains_eq, Table.contains_eq, Table.get?_merge]
  cases first.get? key <;> cases second.get? key <;> simp

/-- Joined imports have the items of both, when none of them is ended. -/
theorem ModuleImports.has_union {first second : ModuleImports}
    (h : ∀ localName name other, first.Has (.renamed localName name) →
      second.Has (.renamed localName other) → name = other) (item : Item) :
    (first.union second).Has item ↔ first.Has item ∨ second.Has item := by
  cases item with
  | effect => simp [Has, union]
  | type | value => exact Table.contains_merge (fun _ _ => ()) ..
  | renamed localName name =>
    have hsame := fun old new => h localName old new
    simp only [Has, union, Table.get?_merge] at hsame ⊢
    cases hfirst : first.aliases.get? localName <;>
      cases hsecond : second.aliases.get? localName <;> simp_all

/-- Merging imports adds the facts of the second ones. -/
theorem holds_merge {first second : Imports}
    (h : Unambiguous fun fact => first.Holds fact ∨ second.Holds fact) (fact : Fact) :
    (first.merge second).Holds fact ↔ first.Holds fact ∨ second.Holds fact := by
  cases fact with
  | module name => exact Table.contains_merge ..
  | item module item =>
    rw [Imports.Holds, Imports.Has, Imports.ofModule_merge]
    refine ModuleImports.has_union (fun localName name other hfirst hsecond => ?_) item
    exact h module localName name other (Or.inl hfirst) (Or.inr hsecond)

/-! ## Steps -/

/-- A step that adds to imports. -/
inductive Addition where
  | values (module : String) (names : List String)
  | types (module : String) (names : List String)
  /-- A value under a local name. -/
  | renamed (module name localName : String)
  | effect (module : String)
  /-- Merge imports that are built by steps of their own. -/
  | merge (additions : List Addition)

mutual

/-- Do a step. -/
def Addition.addTo (imports : Imports) : Addition → Imports
  | .values module names => imports.add module names
  | .types module names => imports.addTypes module names
  | .renamed module name localName => imports.addAlias module name localName
  | .effect module => imports.addEffect module
  | .merge additions => imports.merge (addAll .empty additions)

/-- Do steps one after the other. -/
def addAll (imports : Imports) : List Addition → Imports
  | [] => imports
  | addition :: rest => addAll (addition.addTo imports) rest

end

mutual

/-- The facts that a step puts into imports. -/
def Addition.facts : Addition → List Fact
  | .values module names => itemFacts module (names.map .value)
  | .types module names => itemFacts module (names.map .type)
  | .renamed module name localName => itemFacts module [.renamed localName name]
  | .effect module => itemFacts module [.effect]
  | .merge additions => factsOf additions

/-- The facts that steps put into imports. -/
def factsOf : List Addition → List Fact
  | [] => []
  | addition :: rest => addition.facts ++ factsOf rest

end

theorem not_holds_empty (fact : Fact) : ¬ Imports.empty.Holds fact := by
  cases fact with
  | module name => simp [Imports.Holds, Imports.empty, Table.contains, Table.keys, Table.empty,
      keysOf]
  | item module item => exact Imports.not_has_empty module item

mutual

/-- **A step adds its facts,** unless it gives a local name to another name. -/
theorem Addition.addTo_holds : ∀ (addition : Addition) (imports : Imports),
    (Unambiguous fun fact => imports.Holds fact ∨ fact ∈ addition.facts) → ∀ fact,
      (addition.addTo imports).Holds fact ↔ imports.Holds fact ∨ fact ∈ addition.facts
  | .values module names, imports, _, fact => by
    refine holds_update (fun item => ?_) fact
    cases item <;> simp [ModuleImports.Has, Names.contains_add, or_comm]
  | .types module names, imports, _, fact => by
    refine holds_update (fun item => ?_) fact
    cases item <;> simp [ModuleImports.Has, Names.contains_add, or_comm]
  | .renamed module name localName, imports, h, fact => by
    have hkept : ∀ item, (imports.ofModule module).Has item →
        ¬ (Item.renamed localName name).Ends item := by
      intro item hhas hends
      cases item with
      | effect | type | value => exact hends
      | renamed other exported =>
        obtain ⟨rfl, hne⟩ := hends
        have hnew : Fact.item module (.renamed localName name) ∈
            (Addition.renamed module name localName).facts := by
          simp [Addition.facts, itemFacts]
        exact hne (h module localName name exported (Or.inr hnew) (Or.inl hhas))
    refine holds_update (fun item => ?_) fact
    rw [ModuleImports.has_aliases_insert, List.mem_singleton]
    constructor
    · rintro (hnew | ⟨hhas, -⟩)
      · exact Or.inr hnew
      · exact Or.inl hhas
    · rintro (hhas | hnew)
      · exact Or.inr ⟨hhas, hkept item hhas⟩
      · exact Or.inl hnew
  | .effect module, imports, _, fact => by
    refine holds_update (fun item => ?_) fact
    cases item <;> simp [ModuleImports.Has]
  | .merge additions, imports, h, fact => by
    have hadditions := addAll_holds additions .empty (h.imp fun fact hfact =>
      Or.inr (hfact.resolve_left (not_holds_empty fact)))
    simp only [not_holds_empty, false_or] at hadditions
    rw [Addition.addTo, holds_merge, hadditions, Addition.facts]
    exact h.imp fun fact hfact => hfact.imp_right (hadditions fact).1

/-- Steps add their facts, unless they give a local name to another name. -/
theorem addAll_holds : ∀ (additions : List Addition) (imports : Imports),
    (Unambiguous fun fact => imports.Holds fact ∨ fact ∈ factsOf additions) → ∀ fact,
      (addAll imports additions).Holds fact ↔ imports.Holds fact ∨ fact ∈ factsOf additions
  | [], imports, _, fact => by simp [addAll, factsOf]
  | addition :: rest, imports, h, fact => by
    have hfirst := addition.addTo_holds imports (h.imp fun fact hfact =>
      hfact.imp_right (List.mem_append_left _))
    have hrest := addAll_holds rest (addition.addTo imports) (h.imp fun fact hfact => by
      rw [hfirst, or_assoc] at hfact
      rwa [factsOf, List.mem_append])
    rw [addAll, hrest, hfirst, factsOf, List.mem_append, or_assoc]

end

/-- **Imports depend on the facts alone.** Steps that put the same facts into imports build the same
imports, whatever their order, how often a fact is put in, and how they are grouped into merges, as
long as no module gives one local name to two names. -/
theorem imports_depend_on_facts {first second : List Addition}
    (hfacts : ∀ fact, fact ∈ factsOf first ↔ fact ∈ factsOf second)
    (h : Unambiguous (· ∈ factsOf first)) :
    addAll .empty first = addAll .empty second ∧
      (addAll .empty first).lines = (addAll .empty second).lines := by
  have hfirst : ∀ fact, (addAll .empty first).Holds fact ↔ fact ∈ factsOf first := by
    intro fact
    rw [addAll_holds first .empty (by simpa [not_holds_empty] using h)]
    simp [not_holds_empty]
  have hsecond : ∀ fact, (addAll .empty second).Holds fact ↔ fact ∈ factsOf second := by
    intro fact
    rw [addAll_holds second .empty (by simpa [not_holds_empty, ← hfacts] using h)]
    simp [not_holds_empty]
  have heq : addAll .empty first = addAll .empty second :=
    Imports.ext_holds fun fact => by rw [hfirst, hsecond, hfacts]
  exact ⟨heq, congrArg Imports.lines heq⟩

/-- Steps with a merge inside a merge. -/
def nestedAdditions : List Addition :=
  [.values "b" ["Y", "X"], .renamed "b" "Table" "Rows",
    .merge [.types "a" ["T"], .merge [.values "c" [], .effect "a"]]]

/-- The same facts in another order, some of them more than once. -/
def repeatedAdditions : List Addition :=
  [.merge [.effect "a", .renamed "b" "Table" "Rows"], .types "a" ["T", "T"], .values "c" [],
    .values "b" ["X"], .renamed "b" "Table" "Rows", .merge [.values "b" ["X", "Y"]]]

theorem imports_depend_on_facts_nested :
    (∀ fact, fact ∈ factsOf nestedAdditions ↔ fact ∈ factsOf repeatedAdditions) ∧
      Unambiguous (· ∈ factsOf nestedAdditions) ∧
      addAll .empty nestedAdditions = addAll .empty repeatedAdditions ∧
      (addAll .empty repeatedAdditions).lines =
        ["import \"a\";", "import type { T } from \"a\";",
          "import { Table as Rows, X, Y } from \"b\";", ""] := by
  have hforward : ∀ fact ∈ factsOf nestedAdditions, fact ∈ factsOf repeatedAdditions := by decide
  have hbackward : ∀ fact ∈ factsOf repeatedAdditions, fact ∈ factsOf nestedAdditions := by decide
  have hfacts : ∀ fact, fact ∈ factsOf nestedAdditions ↔ fact ∈ factsOf repeatedAdditions :=
    fun fact => ⟨hforward fact, hbackward fact⟩
  have hunambiguous : Unambiguous (· ∈ factsOf nestedAdditions) := by
    intro module localName name other hname hother
    simp_all [nestedAdditions, factsOf, Addition.facts, itemFacts]
  exact ⟨hfacts, hunambiguous, (imports_depend_on_facts hfacts hunambiguous).1,
    by decide +kernel⟩

end CdkStacks.TypeScript
