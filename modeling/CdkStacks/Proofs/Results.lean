import Mathlib.Data.List.Forall2

/-!
# Results of readers

What is known of the parts of a reading by its result.

* `exists_of_bind_eq_ok`: both steps have succeeded;
* `forall₂_of_mapM`: all items have been read, each to the result at its place;
* `exists_of_mapM_eq_error`: a list that cannot be read has an item that cannot.
-/

namespace CdkStacks

variable {ε α β : Type}

theorem exists_of_bind_eq_ok {read : Except ε α} {next : α → Except ε β} {b : β}
    (h : (read >>= next) = .ok b) : ∃ a, read = .ok a ∧ next a = .ok b := by
  cases read with
  | error cause => cases h
  | ok a => exact ⟨a, rfl, h⟩

/-- Every item of a list has been read to the result at its place. -/
theorem forall₂_of_mapM {read : α → Except ε β} : ∀ {items : List α} {results : List β},
    items.mapM read = .ok results →
      List.Forall₂ (fun item result => read item = .ok result) items results
  | [], _, h => by
    cases h
    exact .nil
  | item :: rest, _, h => by
    rw [List.mapM_cons] at h
    obtain ⟨first, hfirst, h⟩ := exists_of_bind_eq_ok h
    obtain ⟨others, hothers, h⟩ := exists_of_bind_eq_ok h
    cases h
    exact .cons hfirst (forall₂_of_mapM hothers)

theorem exists_of_mapM_eq_ok {read : α → Except ε β} {items : List α} {results : List β}
    (h : items.mapM read = .ok results) : ∀ item ∈ items, ∃ result, read item = .ok result := by
  intro item hitem
  obtain ⟨i, hi, rfl⟩ := List.getElem_of_mem hitem
  have hall := forall₂_of_mapM h
  exact ⟨_, hall.get hi (hall.length_eq ▸ hi)⟩

/-- Every result of reading a list is the result of reading one of its items. -/
theorem exists_of_mem_mapM {read : α → Except ε β} {items : List α} {results : List β}
    (h : items.mapM read = .ok results) : ∀ result ∈ results, ∃ item ∈ items,
      read item = .ok result := by
  intro result hresult
  obtain ⟨i, hi, rfl⟩ := List.getElem_of_mem hresult
  have hall := forall₂_of_mapM h
  have hi' : i < items.length := hall.length_eq ▸ hi
  exact ⟨items[i], List.getElem_mem hi', hall.get hi' hi⟩

/-- Reading a list fails as reading one of its items does. -/
theorem exists_of_mapM_eq_error {read : α → Except ε β} {items : List α} {cause : ε}
    (h : items.mapM read = .error cause) : ∃ item ∈ items, read item = .error cause := by
  induction items with
  | nil => cases h
  | cons item rest ih =>
    rw [List.mapM_cons] at h
    cases hitem : read item with
    | error other =>
      rw [hitem] at h
      cases h
      exact ⟨item, List.mem_cons_self, hitem⟩
    | ok result =>
      cases hrest : rest.mapM read with
      | error other =>
        rw [hitem, hrest] at h
        cases h
        obtain ⟨failed, hfailed, hcause⟩ := ih hrest
        exact ⟨failed, List.mem_cons_of_mem item hfailed, hcause⟩
      | ok results =>
        rw [hitem, hrest] at h
        cases h

end CdkStacks
