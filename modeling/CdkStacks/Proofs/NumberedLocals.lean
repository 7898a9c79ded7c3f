import CdkStacks.Proofs.Allocations

/-!
# Numbered locals

Locals are handed out one after the other. When a local is already used, numbers are tried until one
makes it unused.

* `Search` are the rounds of trying numbers; `Numbered.search_iff`: they end, with the least number
  that makes the name unused;
* `allocations_concat`: one more name gets one more local, and those before it stay;
* `guarded_of_mem_allocations`: no local is a word that locals must not be;
* `allocations_usable`: whatever the names are, their locals are different identifiers that may be
  declared, and the next one is found by a search that ends.
-/

namespace CdkStacks.Construct

open CdkStacks.TypeScript

/-! ## Searching for an unused name -/

/-- The rounds of a search, from a candidate and the number to try next: an unused candidate is the
result, and otherwise the next candidate is the name with that number. -/
inductive Search (used : List String) (name : String) : String → Nat → String → Prop
  | found {candidate : String} {number : Nat} : candidate ∉ used →
      Search used name candidate number candidate
  | next {candidate result : String} {number : Nat} : candidate ∈ used →
      Search used name (name ++ Text.decimal number) (number + 1) result →
      Search used name candidate number result

section Search

variable {used : List String} {name : String}

theorem Search.unique {candidate first second : String} {number : Nat}
    (h₁ : Search used name candidate number first) (h₂ : Search used name candidate number second) :
    first = second := by
  induction h₁ with
  | found hunused =>
    cases h₂ with
    | found _ => rfl
    | next hused _ => exact absurd hused hunused
  | next hused _ ih =>
    cases h₂ with
    | found hunused => exact absurd hused hunused
    | next _ hrest => exact ih hrest

/-- A search goes through the numbers that are used and ends at the first one that is not. -/
theorem Search.of_used {candidate : String} {number count : Nat} (hcandidate : candidate ∈ used)
    (hused : ∀ i < count, name ++ Text.decimal (number + i) ∈ used)
    (hunused : name ++ Text.decimal (number + count) ∉ used) :
    Search used name candidate number (name ++ Text.decimal (number + count)) := by
  induction count generalizing candidate number with
  | zero => exact .next hcandidate (.found hunused)
  | succ count ih =>
    have hshift : ∀ i, number + (i + 1) = number + 1 + i := by omega
    rw [hshift] at hunused ⊢
    refine .next hcandidate (ih (hused 0 (by omega)) (fun i hi => ?_) hunused)
    rw [← hshift]
    exact hused (i + 1) (by omega)

/-- **The search for an unused name ends** with the name itself or its least number. -/
theorem Numbered.search_iff {identifier : String} (h : Numbered used name identifier)
    (result : String) : Search used name name 2 result ↔ result = identifier := by
  have hsearch : Search used name name 2 identifier := by
    cases h with
    | plain hunused => exact .found hunused
    | @number n hused hleast =>
      obtain ⟨⟨htwo, hunused⟩, hbound⟩ := hleast
      obtain ⟨count, rfl⟩ : ∃ count, n = 2 + count := ⟨n - 2, by omega⟩
      refine .of_used hused (fun i hi => ?_) hunused
      by_contra hfree
      have hle : 2 + count ≤ 2 + i := hbound ⟨by omega, hfree⟩
      omega
  constructor
  · intro hresult
    exact hresult.unique hsearch
  · rintro rfl
    exact hsearch

end Search

/-! ## One name after the other -/

/-- **One more name gets one more local,** and those before it stay. -/
theorem allocations_concat (used names : List String) (next : String) :
    allocations used (names ++ [next]) = allocations used names ++
      [allocate ((allocations used names).reverse ++ used) next] := by
  induction names generalizing used with
  | nil => rfl
  | cons name rest ih =>
    simp only [List.cons_append, allocations, ih, List.reverse_cons, List.append_assoc,
      List.nil_append]

/-- The number of a name depends on which locals are used, but not on their order. -/
theorem Numbered.of_mem_iff {used others : List String} {name identifier : String}
    (h : Numbered used name identifier) (hmem : ∀ other, other ∈ used ↔ other ∈ others) :
    Numbered others name identifier := by
  cases h with
  | plain hunused => exact .plain (by rwa [← hmem])
  | number hused hleast =>
    simp only [hmem] at hused hleast
    exact .number hused hleast

/-! ## Words that no local is -/

theorem guarded_unmarked : ∀ word ∈ reservedWords ++ constructorLocals, isUnmarked word := by
  decide +kernel

/-- A local is not guarded: it would have a word behind it. -/
theorem guarded_of_mem_allocations {used names : List String} {identifier : String}
    (h : identifier ∈ allocations used names) : guarded identifier = false := by
  by_contra hguarded
  rw [Bool.not_eq_false] at hguarded
  have hword : identifier ∈ reservedWords ++ constructorLocals := by
    simpa [guarded, isReserved] using hguarded
  have hfree := ((mem_allocations_iff (guarded_unmarked identifier hword) used names).1 h).2.1
  rw [hguarded] at hfree
  cases hfree

/-- **Locals can be declared, whatever the names are.** The locals of a sequence of names are
different identifiers, none of them reserved or a local that the constructor has anyway. One more
name gets one more local: its base, with the least number that makes it unused when it is used. It
is what the search for an unused name ends with. -/
theorem allocations_usable (names : List String) (next : String) :
    let given := allocations [] names
    given.Nodup ∧
      (∀ identifier ∈ given, isIdentifier identifier ∧ ¬ isReserved identifier ∧
        identifier ∉ constructorLocals) ∧
      ∃ identifier, allocations [] (names ++ [next]) = given ++ [identifier] ∧
        Numbered given (baseName next) identifier ∧
        ∀ result, Search given (baseName next) (baseName next) 2 result ↔ result = identifier := by
  intro given
  refine ⟨(allocations_nodup [] names).1, fun identifier hidentifier => ?_, ?_⟩
  · have hfree := guarded_of_mem_allocations hidentifier
    simp only [guarded, Bool.or_eq_false_iff, List.contains_eq_mem, decide_eq_false_iff_not]
      at hfree
    obtain ⟨others, name, -, rfl⟩ := exists_of_mem_allocations hidentifier
    exact ⟨allocate_isIdentifier others name, by simp [hfree.1], hfree.2⟩
  · have hnumbered : Numbered given (baseName next) (allocate (given.reverse ++ []) next) :=
      (fresh_numbered _ _).of_mem_iff (by simp)
    exact ⟨_, allocations_concat [] names next, hnumbered, hnumbered.search_iff⟩

end CdkStacks.Construct
