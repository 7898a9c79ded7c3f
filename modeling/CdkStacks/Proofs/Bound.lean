import CdkStacks.Proofs.Items
import Mathlib.Data.List.Nodup

/-!
# Names that imports bind

* `Imports.localNames` are the names that the imports of a file bind, module by module: types,
  values and the local names of aliases;
* `Imports.items` are the imported items that bind a name, each once;
* `mem_localNames`: what is bound is the local name of an item that is imported;
* `localNames_nodup_iff`: no name is bound twice exactly when the local name of an item tells the
  item and its module.
-/

namespace CdkStacks.TypeScript

/-! ## Entries of a table -/

namespace Table

variable {α : Type}

theorem keys_nodup (table : Table α) : table.keys.Nodup := by
  refine List.Pairwise.imp ?_ table.sorted
  rintro first _ hlt rfl
  exact String.lt_irrefl first hlt

theorem get?_eq_some_iff {table : Table α} {key : String} {value : α} :
    table.get? key = some value ↔ (key, value) ∈ table.entries := by
  unfold get?
  rw [Option.map_eq_some_iff]
  constructor
  · rintro ⟨entry, hfind, rfl⟩
    have hkey : entry.1 = key := by simpa using List.find?_some hfind
    exact hkey ▸ List.mem_of_find?_eq_some hfind
  · intro hmem
    have hsome : (table.entries.find? fun e => e.1 = key).isSome :=
      List.find?_isSome.2 ⟨(key, value), hmem, by simp⟩
    obtain ⟨entry, hfind⟩ := Option.isSome_iff_exists.1 hsome
    have hkey : entry.1 = key := by simpa using List.find?_some hfind
    have hentry : entry = (key, value) :=
      List.inj_on_of_nodup_map table.keys_nodup (List.mem_of_find?_eq_some hfind) hmem hkey
    exact ⟨entry, hfind, congrArg Prod.snd hentry⟩

theorem entries_nodup (table : Table α) : table.entries.Nodup :=
  List.Nodup.of_map Prod.fst table.keys_nodup

theorem mem_keys {table : Table α} {key : String} :
    key ∈ table.keys ↔ table.contains key = true := by
  simp [contains]

end Table

/-! ## Local names -/

/-- The name that an item binds. -/
def Item.localName? : Item → Option String
  | effect => none
  | type name | value name => some name
  | renamed localName _ => some localName

namespace ModuleImports

/-- The names that are bound. -/
def localNames (imports : ModuleImports) : List String :=
  imports.types.keys ++ imports.values.keys ++ imports.aliases.keys

/-- The items that bind a name. -/
def items (imports : ModuleImports) : List Item :=
  imports.types.keys.map .type ++ imports.values.keys.map .value ++
    imports.aliases.entries.map fun entry => .renamed entry.1 entry.2

theorem items_localName? (imports : ModuleImports) :
    imports.items.map Item.localName? = imports.localNames.map some := by
  simp [items, localNames, Table.keys, keysOf, Function.comp_def, Item.localName?]

theorem mem_items {imports : ModuleImports} {item : Item} :
    item ∈ imports.items ↔ imports.Has item ∧ item.localName?.isSome := by
  cases item with
  | effect => simp [items, Item.localName?]
  | type name => simp [items, Has, Item.localName?, Table.mem_keys]
  | value name => simp [items, Has, Item.localName?, Table.mem_keys]
  | renamed localName name => simp [items, Has, Item.localName?, Table.get?_eq_some_iff]

theorem items_nodup (imports : ModuleImports) : imports.items.Nodup := by
  have htypes := imports.types.keys_nodup.map (f := Item.type) fun _ _ => Item.type.inj
  have hvalues := imports.values.keys_nodup.map (f := Item.value) fun _ _ => Item.value.inj
  have haliases := imports.aliases.entries_nodup.map
    (f := fun entry => Item.renamed entry.1 entry.2) fun _ _ h =>
      Prod.ext (Item.renamed.inj h).1 (Item.renamed.inj h).2
  refine (htypes.append hvalues ?_).append haliases ?_ <;> intro item <;> aesop

end ModuleImports

namespace Imports

/-- The names that imports bind, module by module. -/
def localNames (imports : Imports) : List String :=
  imports.modules.entries.flatMap fun entry => entry.2.localNames

/-- The items that bind a name, with their modules. -/
def items (imports : Imports) : List (String × Item) :=
  imports.modules.entries.flatMap fun entry => entry.2.items.map (entry.1, ·)

theorem items_localName? (imports : Imports) :
    (imports.items.map fun entry => entry.2.localName?) = imports.localNames.map some := by
  simp only [items, localNames, List.map_flatMap, List.map_map]
  exact List.flatMap_congr fun entry _ => entry.2.items_localName?

theorem mem_items {imports : Imports} {module : String} {item : Item} :
    (module, item) ∈ imports.items ↔ imports.Has module item ∧ item.localName?.isSome := by
  unfold items Has ofModule
  simp only [List.mem_flatMap, List.mem_map, Prod.mk.injEq, Prod.exists]
  constructor
  · rintro ⟨_, found, hentry, _, hitem, rfl, rfl⟩
    rw [Table.get?_eq_some_iff.2 hentry]
    exact ModuleImports.mem_items.1 hitem
  · intro h
    cases hget : imports.modules.get? module with
    | none =>
      rw [hget] at h
      exact absurd h.1 (not_has_empty module item)
    | some found =>
      rw [hget] at h
      exact ⟨module, found, Table.get?_eq_some_iff.1 hget, item,
        ModuleImports.mem_items.2 h, rfl, rfl⟩

theorem items_nodup (imports : Imports) : imports.items.Nodup := by
  refine List.nodup_flatMap.2 ⟨fun entry _ => ?_, ?_⟩
  · exact entry.2.items_nodup.map fun _ _ => congrArg Prod.snd
  · -- items of two modules differ in the module
    refine (List.pairwise_map.1 imports.modules.keys_nodup).imp ?_
    intro first second hne
    refine List.disjoint_left.2 fun entry hentry hentry' => ?_
    obtain ⟨_, -, rfl⟩ := List.mem_map.1 hentry
    obtain ⟨_, -, heq⟩ := List.mem_map.1 hentry'
    exact hne (congrArg Prod.fst heq).symm

/-- What is bound is the local name of an imported item. -/
theorem mem_localNames {imports : Imports} {name : String} : name ∈ imports.localNames ↔
    ∃ module item, imports.Has module item ∧ item.localName? = some name := by
  have hmap : some name ∈ imports.localNames.map some ↔ name ∈ imports.localNames := by simp
  rw [← hmap, ← items_localName?, List.mem_map]
  constructor
  · rintro ⟨⟨module, item⟩, hmem, hname⟩
    exact ⟨module, item, (mem_items.1 hmem).1, hname⟩
  · rintro ⟨module, item, hhas, hname⟩
    exact ⟨(module, item), mem_items.2 ⟨hhas, by rw [hname]; rfl⟩, hname⟩

/-- **No name is bound twice** exactly when a bound name tells the item and its module. -/
theorem localNames_nodup_iff {imports : Imports} : imports.localNames.Nodup ↔
    ∀ module item other item', imports.Has module item → imports.Has other item' →
      item.localName?.isSome → item.localName? = item'.localName? →
        (module, item) = (other, item') := by
  have hsome : imports.localNames.Nodup ↔ (imports.localNames.map some).Nodup :=
    (List.nodup_map_iff fun _ _ => Option.some.inj).symm
  rw [hsome, ← items_localName?, List.nodup_map_iff_inj_on imports.items_nodup]
  constructor
  · intro h module item other item' hhas hhas' hname heq
    exact h _ (mem_items.2 ⟨hhas, hname⟩) _ (mem_items.2 ⟨hhas', heq ▸ hname⟩) heq
  · rintro h ⟨module, item⟩ hmem ⟨other, item'⟩ hmem' heq
    obtain ⟨hhas, hname⟩ := mem_items.1 hmem
    exact h module item other item' hhas (mem_items.1 hmem').1 hname heq

/-! ## Imports one by one -/

theorem has_add (imports : Imports) (module name other : String) (item : Item) :
    (imports.add module [name]).Has other item ↔
      (other, item) = (module, .value name) ∨ imports.Has other item := by
  unfold Has add
  rw [ofModule_update]
  split_ifs with h
  · subst h
    rw [ModuleImports.has_values_add]
    simp
  · simp [h]

theorem has_addTypes (imports : Imports) (module name other : String) (item : Item) :
    (imports.addTypes module [name]).Has other item ↔
      (other, item) = (module, .type name) ∨ imports.Has other item := by
  unfold Has addTypes
  rw [ofModule_update]
  split_ifs with h
  · subst h
    cases item <;> simp [ModuleImports.Has, Names.contains_add]
  · simp [h]

theorem has_addEffect (imports : Imports) (module other : String) (item : Item) :
    (imports.addEffect module).Has other item ↔
      (other, item) = (module, .effect) ∨ imports.Has other item := by
  unfold Has addEffect
  rw [ofModule_update]
  split_ifs with h
  · subst h
    cases item <;> simp [ModuleImports.Has]
  · simp [h]

end Imports

end CdkStacks.TypeScript
