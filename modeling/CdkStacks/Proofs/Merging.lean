import CdkStacks.Proofs.Bound

/-!
# Merging imports

Imports can be merged, and importing something is merging it.

* `Table.ext_get?`: tables with the same look-ups are equal. `Table.get?_merge` looks a name up in
  two merged tables, and merging is associative as its `combine` is;
* `ModuleImports.union_assoc`, `Imports.merge_assoc`, `Imports.merge_empty`: imports form a monoid,
  in which the later of two names for one alias wins;
* `Imports.update_eq_merge`, `addTo_eq_merge`: importing a name is merging;
* `foldl_addTo_eq_merge`: so is importing many.
-/

namespace CdkStacks.TypeScript

/-! ## Tables -/

namespace Table

variable {α : Type}

/-- **Tables with the same look-ups are equal.** -/
theorem ext_get? {first second : Table α} (h : ∀ key, first.get? key = second.get? key) :
    first = second := by
  have hmem : ∀ entry, entry ∈ first.entries ↔ entry ∈ second.entries := by
    rintro ⟨key, value⟩
    rw [← get?_eq_some_iff, ← get?_eq_some_iff, h]
  have hperm : first.entries.Perm second.entries :=
    (List.perm_ext_iff_of_nodup first.entries_nodup second.entries_nodup).2 hmem
  -- both lists are sorted, so there is one order only
  have hentries : first.entries = second.entries := by
    refine hperm.eq_of_pairwise ?_ (List.pairwise_map.1 first.sorted)
      (List.pairwise_map.1 second.sorted)
    intro entry other _ _ hlt hgt
    exact absurd (String.lt_trans hlt hgt) (String.lt_irrefl _)
  cases first
  cases second
  congr

theorem get?_foldl_alter (combine : α → α → α) (key : String) :
    ∀ (entries : List (String × α)) (table : Table α), (keysOf entries).Pairwise (· < ·) →
      (entries.foldl (fun acc entry => acc.alter entry.1 fun old =>
        (old.map (combine · entry.2)).getD entry.2) table).get? key =
        (table.get? key).merge combine (valueOf? entries key) := by
  intro entries
  induction entries with
  | nil =>
    intro table _
    cases h : table.get? key <;> exact h
  | cons entry rest ih =>
    obtain ⟨k, value⟩ := entry
    intro table hsorted
    obtain ⟨hhead, htail⟩ := List.pairwise_cons.1 hsorted
    rw [List.foldl_cons, ih _ htail, get?_alter]
    split_ifs with hkey
    · -- the name has no entry in the rest
      subst hkey
      rw [valueOf?_of_lt hhead, valueOf?_cons_self]
      cases table.get? key <;> rfl
    · rw [valueOf?_cons_of_ne hkey]

/-- A look-up in merged tables. -/
theorem get?_merge (combine : α → α → α) (table other : Table α) (key : String) :
    (table.merge combine other).get? key =
      (table.get? key).merge combine (other.get? key) :=
  get?_foldl_alter combine key other.entries table other.sorted

theorem merge_assoc (combine : α → α → α) [Std.Associative combine] (a b c : Table α) :
    (a.merge combine b).merge combine c = a.merge combine (b.merge combine c) := by
  refine ext_get? fun key => ?_
  simp only [get?_merge]
  exact Std.Associative.assoc ..

@[simp]
theorem merge_empty (combine : α → α → α) (table : Table α) : table.merge combine empty = table :=
  rfl

/-- Setting an entry is merging with a table of one entry, when the later value wins. -/
theorem insert_eq_merge (table : Table α) (key : String) (value : α) :
    table.insert key value = table.merge (fun _ new => new) (empty.insert key value) := by
  refine ext_get? fun k => ?_
  rw [get?_merge, get?_insert, get?_insert]
  split_ifs
  · cases table.get? k <;> rfl
  · cases h : table.get? k <;> rfl

end Table

/-! ## Imports -/

instance associative_later : Std.Associative fun _ new : String => new := ⟨fun _ _ _ => rfl⟩

instance associative_unit : Std.Associative fun _ _ : Unit => () := ⟨fun _ _ _ => rfl⟩

theorem ModuleImports.union_assoc (a b c : ModuleImports) :
    (a.union b).union c = a.union (b.union c) := by
  simp only [union, Table.merge_assoc, Bool.or_assoc]

instance ModuleImports.associative_union : Std.Associative ModuleImports.union :=
  ⟨ModuleImports.union_assoc⟩

namespace Imports

theorem merge_assoc (a b c : Imports) : (a.merge b).merge c = a.merge (b.merge c) :=
  congrArg Imports.mk (Table.merge_assoc ..)

@[simp]
theorem merge_empty (imports : Imports) : imports.merge empty = imports :=
  rfl

/-- A change that joins something to the imports of a module is a merge. -/
theorem update_eq_merge {change : ModuleImports → ModuleImports}
    (hchange : ∀ old, change old = old.union (change .none)) (imports : Imports)
    (module : String) :
    imports.update module change = imports.merge (empty.update module change) := by
  refine congrArg Imports.mk (Table.ext_get? fun key => ?_)
  simp only [Table.get?_merge, Table.get?_alter, update]
  split_ifs with hkey
  · subst hkey
    cases imports.modules.get? key with
    | none => rfl
    | some old => exact congrArg some (hchange old)
  · cases imports.modules.get? key <;> rfl

end Imports

end CdkStacks.TypeScript

namespace CdkStacks.Construct

open CdkStacks.Template CdkStacks.TypeScript

/-! ## Importing names -/

theorem addTo_eq_merge (imports : Imports) (use : Use) :
    use.addTo imports = imports.merge (use.addTo .empty) := by
  unfold Use.addTo
  cases use.localName? with
  | none =>
    refine Imports.update_eq_merge (fun old => ?_) imports use.module
    simp [ModuleImports.union, ModuleImports.none, Names.add, Table.insert_eq_merge old.values]
  | some localName =>
    refine Imports.update_eq_merge (fun old => ?_) imports use.module
    simp [ModuleImports.union, ModuleImports.none, Table.insert_eq_merge old.aliases]

/-- **Importing names is merging** what they import by themselves. -/
theorem foldl_addTo_eq_merge (uses : List Use) (imports : Imports) :
    uses.foldl Use.addTo imports = imports.merge (uses.foldl Use.addTo .empty) := by
  induction uses using List.reverseRecOn with
  | nil => exact (imports.merge_empty).symm
  | append_singleton before use ih =>
    simp only [List.foldl_append, List.foldl_cons, List.foldl_nil]
    calc use.addTo (before.foldl Use.addTo imports)
        = (before.foldl Use.addTo imports).merge (use.addTo .empty) := addTo_eq_merge ..
      _ = (imports.merge (before.foldl Use.addTo .empty)).merge (use.addTo .empty) := by rw [ih]
      _ = imports.merge ((before.foldl Use.addTo .empty).merge (use.addTo .empty)) :=
          Imports.merge_assoc ..
      _ = imports.merge (use.addTo (before.foldl Use.addTo .empty)) := by rw [← addTo_eq_merge]

end CdkStacks.Construct
