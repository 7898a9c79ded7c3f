import CdkStacks.Construct.Use
import Mathlib.Data.List.Induction

/-!
# Imported items

What a file imports, item by item.

* `get?_alter`, `contains_alter`: what a table holds after a change;
* `Item` is one thing that is imported from a module, `Imports.Has` says whether it is;
* `ofModule_update`: a change to one module leaves the others as they are;
* `addTo_has`, `foldl_addTo_has`: what is imported after one name, and after many, were added.
-/

namespace CdkStacks.TypeScript

/-! ## Tables -/

section Table

variable {α : Type}

/-- The value of a name among entries. -/
def valueOf? (entries : List (String × α)) (key : String) : Option α :=
  (entries.find? fun e => e.1 = key).map Prod.snd

theorem valueOf?_cons_self (key : String) (value : α) (entries : List (String × α)) :
    valueOf? ((key, value) :: entries) key = some value := by
  simp [valueOf?]

theorem valueOf?_cons_of_ne {key k : String} (h : key ≠ k) (value : α)
    (entries : List (String × α)) :
    valueOf? ((k, value) :: entries) key = valueOf? entries key := by
  simp [valueOf?, h.symm]

theorem valueOf?_of_lt {entries : List (String × α)} {key : String}
    (h : ∀ k ∈ keysOf entries, key < k) : valueOf? entries key = none := by
  rw [valueOf?, Option.map_eq_none_iff, List.find?_eq_none]
  intro entry hentry heq
  have hlt := h entry.1 (List.mem_map_of_mem hentry)
  rw [show entry.1 = key by simpa using heq] at hlt
  exact String.lt_irrefl key hlt

/-- A changed entry has the changed value. -/
theorem valueOf?_alterEntries_self (key : String) (change : Option α → α) :
    ∀ {entries : List (String × α)}, (keysOf entries).Pairwise (· < ·) →
      valueOf? (alterEntries key change entries) key = some (change (valueOf? entries key))
  | [], _ => valueOf?_cons_self ..
  | (k, value) :: rest, h => by
    obtain ⟨hhead, htail⟩ := List.pairwise_cons.1 h
    unfold alterEntries
    split_ifs with heq hlt
    · subst heq
      rw [valueOf?_cons_self, valueOf?_cons_self]
    · -- the name is less than all others, so it had no entry
      have hnone : valueOf? ((k, value) :: rest) key = none := by
        apply valueOf?_of_lt
        intro k' hk'
        rcases List.mem_cons.1 hk' with rfl | hk'
        · exact hlt
        · exact String.lt_trans hlt (hhead k' hk')
      rw [valueOf?_cons_self, hnone]
    · rw [valueOf?_cons_of_ne heq, valueOf?_cons_of_ne heq,
        valueOf?_alterEntries_self key change htail]

/-- The other entries keep their values. -/
theorem valueOf?_alterEntries_of_ne {key other : String} (h : other ≠ key)
    (change : Option α → α) (entries : List (String × α)) :
    valueOf? (alterEntries key change entries) other = valueOf? entries other := by
  induction entries with
  | nil => exact valueOf?_cons_of_ne h ..
  | cons entry rest ih =>
    obtain ⟨k, value⟩ := entry
    unfold alterEntries
    split_ifs with heq hlt
    · subst heq
      rw [valueOf?_cons_of_ne h, valueOf?_cons_of_ne h]
    · rw [valueOf?_cons_of_ne h]
    · by_cases hk : other = k
      · subst hk
        rw [valueOf?_cons_self, valueOf?_cons_self]
      · rw [valueOf?_cons_of_ne hk, valueOf?_cons_of_ne hk, ih]

namespace Table

theorem get?_alter (table : Table α) (key : String) (change : Option α → α) (k : String) :
    (table.alter key change).get? k =
      if k = key then some (change (table.get? key)) else table.get? k := by
  split_ifs with h
  · subst h
    exact valueOf?_alterEntries_self k change table.sorted
  · exact valueOf?_alterEntries_of_ne h change table.entries

theorem get?_insert (table : Table α) (key : String) (value : α) (k : String) :
    (table.insert key value).get? k = if k = key then some value else table.get? k :=
  table.get?_alter key (fun _ => value) k

theorem contains_alter (table : Table α) (key : String) (change : Option α → α) (k : String) :
    (table.alter key change).contains k = true ↔ k = key ∨ table.contains k = true := by
  simp only [contains, keys, alter, List.contains_iff_mem, mem_keysOf_alterEntries]

theorem contains_eq (table : Table α) (key : String) :
    table.contains key = (table.get? key).isSome := by
  rw [Bool.eq_iff_iff]
  simp [contains, keys, keysOf, get?]

end Table

theorem Names.contains_add (set : Names) (names : List String) (name : String) :
    (set.add names).contains name = true ↔ name ∈ names ∨ set.contains name = true := by
  induction names generalizing set with
  | nil => simp [Names.add]
  | cons head rest ih =>
    change (Names.add (set.insert head ()) rest).contains name = true ↔ _
    rw [ih, Table.insert, Table.contains_alter, List.mem_cons]
    tauto

end Table

/-! ## Imported items -/

/-- An item of the imports of a module. -/
inductive Item where
  | effect
  | type (name : String)
  | value (name : String)
  /-- A value under a local name. -/
  | renamed (localName name : String)
  deriving DecidableEq, Repr

/-- An item takes the local name of another one, which stands for something else. -/
def Item.Ends : Item → Item → Prop
  | renamed localName name, renamed other exported => localName = other ∧ name ≠ exported
  | _, _ => False

namespace ModuleImports

/-- Whether an item is imported. -/
def Has (imports : ModuleImports) : Item → Prop
  | .effect => imports.effect = true
  | .type name => imports.types.contains name = true
  | .value name => imports.values.contains name = true
  | .renamed localName name => imports.aliases.get? localName = some name

theorem has_values_add (imports : ModuleImports) (name : String) (item : Item) :
    Has { imports with values := imports.values.add [name] } item ↔
      item = .value name ∨ imports.Has item := by
  cases item <;> simp [Has, Names.contains_add]

theorem has_aliases_insert (imports : ModuleImports) (localName name : String) (item : Item) :
    Has { imports with aliases := imports.aliases.insert localName name } item ↔
      item = .renamed localName name ∨
        imports.Has item ∧ ¬ (Item.renamed localName name).Ends item := by
  cases item with
  | effect | type | value => simp [Has, Item.Ends]
  | renamed other exported =>
    simp only [Has, Item.Ends, Table.get?_insert]
    split_ifs with h <;> grind

theorem binds_iff (imports : ModuleImports) (name : String) : imports.binds name = true ↔
    imports.Has (.value name) ∨ imports.Has (.type name) ∨
      ∃ exported, imports.Has (.renamed name exported) := by
  rw [binds, Bool.or_eq_true, Bool.or_eq_true, imports.aliases.contains_eq,
    Option.isSome_iff_exists, or_assoc]
  rfl

end ModuleImports

namespace Imports

/-- What is imported from a module. -/
def ofModule (imports : Imports) (module : String) : ModuleImports :=
  (imports.modules.get? module).getD .none

/-- Whether an item is imported from a module. -/
def Has (imports : Imports) (module : String) (item : Item) : Prop :=
  (imports.ofModule module).Has item

theorem not_has_empty (module : String) (item : Item) : ¬ empty.Has module item := by
  cases item <;> nofun

theorem ofModule_update (imports : Imports) (module : String)
    (change : ModuleImports → ModuleImports) (other : String) :
    (imports.update module change).ofModule other =
      if other = module then change (imports.ofModule module) else imports.ofModule other := by
  unfold ofModule update
  rw [Table.get?_alter]
  split_ifs <;> rfl

theorem binds_eq (imports : Imports) (module name : String) :
    imports.binds module name = (imports.ofModule module).binds name := by
  unfold binds ofModule
  cases imports.modules.get? module <;> rfl

end Imports

end CdkStacks.TypeScript

namespace CdkStacks.Construct

open CdkStacks.TypeScript

/-! ## Importing names -/

/-- The item that a name is imported as. -/
def Use.item (use : Use) : Item :=
  match use.localName? with
  | some localName => .renamed localName use.name
  | none => .value use.name

/-- The item that a name is imported as, with its module. -/
def Use.entry (use : Use) : String × Item :=
  (use.module, use.item)

theorem addTo_contains (imports : Imports) (use : Use) (module : String) :
    (use.addTo imports).modules.contains module = true ↔
      module = use.module ∨ imports.modules.contains module = true := by
  unfold Use.addTo
  cases use.localName? <;> exact Table.contains_alter ..

/-- **Importing a name** adds its item, and ends what had its local name. -/
theorem addTo_has (imports : Imports) (use : Use) (module : String) (item : Item) :
    (use.addTo imports).Has module item ↔
      (module, item) = use.entry ∨
        imports.Has module item ∧ ¬ (module = use.module ∧ use.item.Ends item) := by
  rw [Use.entry, Prod.mk.injEq]
  unfold Use.addTo Use.item
  by_cases h : module = use.module
  · subst h
    cases use.localName? with
    | none =>
      simp [Imports.Has, Imports.add, Imports.ofModule_update, ModuleImports.has_values_add,
        Item.Ends]
    | some localName =>
      simp [Imports.Has, Imports.addAlias, Imports.ofModule_update,
        ModuleImports.has_aliases_insert]
  · cases use.localName? <;>
      simp [Imports.Has, Imports.add, Imports.addAlias, Imports.ofModule_update, h]

/-- No two names are imported from one module under one local name. -/
def Coherent (uses : List Use) : Prop :=
  ∀ use ∈ uses, ∀ other ∈ uses, use.module = other.module → ¬ use.item.Ends other.item

/-- **Importing names** that do not take each other's local names, nor those imported before, adds
their items. -/
theorem foldl_addTo_has_from {uses : List Use} (h : Coherent uses) {imports : Imports}
    (hkept : ∀ use ∈ uses, ∀ item, imports.Has use.module item → ¬ use.item.Ends item)
    (module : String) (item : Item) : (uses.foldl Use.addTo imports).Has module item ↔
      (module, item) ∈ uses.map Use.entry ∨ imports.Has module item := by
  rw [List.mem_map]
  induction uses using List.reverseRecOn with
  | nil => simp
  | append_singleton rest use ih =>
    have hrest : Coherent rest := fun first hfirst second hsecond =>
      h first (List.mem_append_left _ hfirst) second (List.mem_append_left _ hsecond)
    rw [List.foldl_append, List.foldl_cons, List.foldl_nil, addTo_has,
      ih hrest fun other hother => hkept other (List.mem_append_left _ hother)]
    constructor
    · rintro (hentry | ⟨⟨other, hother, hentry⟩ | hhas, -⟩)
      · exact Or.inl ⟨use, by simp, hentry.symm⟩
      · exact Or.inl ⟨other, List.mem_append_left _ hother, hentry⟩
      · exact Or.inr hhas
    · rintro (⟨other, hother, ⟨⟩⟩ | hhas)
      · rcases List.mem_append.1 hother with hmem | hmem
        · -- an earlier name is still there, since the last one does not take its local name
          refine Or.inr ⟨Or.inl ⟨other, hmem, rfl⟩, fun hends => ?_⟩
          exact h use (by simp) other hother hends.1.symm hends.2
        · rw [List.mem_singleton.1 hmem]
          exact Or.inl rfl
      · refine Or.inr ⟨Or.inr hhas, fun hends => ?_⟩
        exact hkept use (by simp) item (hends.1 ▸ hhas) hends.2

theorem foldl_addTo_has {uses : List Use} (h : Coherent uses) (module : String) (item : Item) :
    (uses.foldl Use.addTo .empty).Has module item ↔ (module, item) ∈ uses.map Use.entry := by
  rw [foldl_addTo_has_from h fun use _ other hother =>
    absurd hother (Imports.not_has_empty use.module other)]
  simp [Imports.not_has_empty]

theorem foldl_addTo_contains (uses : List Use) (imports : Imports) (module : String) :
    (uses.foldl Use.addTo imports).modules.contains module = true ↔
      module ∈ uses.map Use.module ∨ imports.modules.contains module = true := by
  induction uses generalizing imports with
  | nil => simp
  | cons use rest ih =>
    rw [List.foldl_cons, ih, addTo_contains, List.map_cons, List.mem_cons]
    tauto

end CdkStacks.Construct
