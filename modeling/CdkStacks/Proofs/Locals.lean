import CdkStacks.Construct.Scope
import Mathlib.Data.List.Nodup
import Mathlib.Data.List.Perm.Subperm
import Mathlib.Order.Bounds.Defs

/-!
# Fresh locals

No two constructs are held by one local.

* `Numbered` says which number a name gets; `fresh_numbered`: a fresh name has it, since more
  numbers are tried than names are used;
* `fresh_notMem`, `fresh_cases`: so it is unused, and the name itself or the name with a number;
* `allocations` are the locals of a sequence of names; `allocations_nodup`: they differ from each
  other and from those used before;
* `localsOf_slots`: the locals of the slots are those of the `constructNames`, so that these differ
  as well (`locals_nodup`).
-/

namespace CdkStacks.Construct

open CdkStacks.Template CdkStacks.TypeScript

/-! ## Numbered names -/

theorem decimal_injective : Function.Injective Text.decimal := by
  intro m n h
  have hdigits : Nat.toDigits 10 m = Nat.toDigits 10 n := String.ofList_injective h
  have hvalue := congrArg (fun digits => Nat.ofDigitChars 10 digits 0) hdigits
  simpa using hvalue

theorem numbered_injective (name : String) :
    Function.Injective fun i : Nat => name ++ Text.decimal (i + 2) := by
  intro i j h
  have hlists : name.toList ++ (Text.decimal (i + 2)).toList =
      name.toList ++ (Text.decimal (j + 2)).toList := by
    simpa using congrArg String.toList h
  have hdecimal := decimal_injective (String.toList_injective (List.append_cancel_left hlists))
  omega

/-- Among one more numbered names than there are used names, one is unused. -/
theorem exists_unused (used : List String) (name : String) :
    ∃ candidate ∈ (List.range (used.length + 1)).map fun i => name ++ Text.decimal (i + 2),
      candidate ∉ used := by
  by_contra hall
  push Not at hall
  have hnodup : ((List.range (used.length + 1)).map fun i =>
      name ++ Text.decimal (i + 2)).Nodup :=
    List.nodup_range.map (numbered_injective name)
  have hle := (List.subperm_of_subset hnodup hall).length_le
  rw [List.length_map, List.length_range] at hle
  omega

/-- The name itself when it is unused, and else the name with the least number from two on that
makes it unused. -/
inductive Numbered (used : List String) (name : String) : String → Prop
  | plain : name ∉ used → Numbered used name name
  | number {n : Nat} : name ∈ used → IsLeast {n | 2 ≤ n ∧ name ++ Text.decimal n ∉ used} n →
      Numbered used name (name ++ Text.decimal n)

/-- **A fresh name has the least number** that makes it unused, if it has to have one. -/
theorem fresh_numbered (used : List String) (name : String) :
    Numbered used name (fresh used name) := by
  unfold fresh
  split_ifs with hused
  · rw [List.find?_map]
    cases hfind : (List.range (used.length + 1)).find?
        ((fun candidate => !used.contains candidate) ∘ fun i => name ++ Text.decimal (i + 2)) with
    | none =>
      -- the search tries enough numbers
      obtain ⟨candidate, hcandidate, hunused⟩ := exists_unused used name
      obtain ⟨i, hi, rfl⟩ := List.mem_map.1 hcandidate
      simpa [hunused] using List.find?_eq_none.1 hfind i hi
    | some i =>
      obtain ⟨hunused, -, hbefore⟩ := List.find?_range_eq_some.1 hfind
      refine .number (by simpa using hused) ⟨⟨by omega, by simpa using hunused⟩, ?_⟩
      rintro m ⟨hm, hfree⟩
      by_contra hlt
      have husedm := hbefore (m - 2) (by omega)
      rw [Function.comp_apply, Nat.sub_add_cancel hm] at husedm
      simp [hfree] at husedm
  · exact .plain (by simpa using hused)

theorem Numbered.notMem {used : List String} {name identifier : String}
    (h : Numbered used name identifier) : identifier ∉ used := by
  cases h with
  | plain hunused => exact hunused
  | number _ hleast => exact hleast.1.2

theorem Numbered.eq_or {used : List String} {name identifier : String}
    (h : Numbered used name identifier) :
    identifier = name ∨ ∃ n, identifier = name ++ Text.decimal n := by
  cases h with
  | plain _ => exact Or.inl rfl
  | number _ _ => exact Or.inr ⟨_, rfl⟩

/-- **A fresh name is unused.** -/
theorem fresh_notMem (used : List String) (name : String) : fresh used name ∉ used :=
  (fresh_numbered used name).notMem

/-- A fresh name is the name itself or the name with a number. -/
theorem fresh_cases (used : List String) (name : String) :
    fresh used name = name ∨ ∃ n, fresh used name = name ++ Text.decimal n :=
  (fresh_numbered used name).eq_or

/-! ## Sequences of names -/

/-- The locals of a sequence of names, when the locals `used` are taken. -/
def allocations (used : List String) : List String → List String
  | [] => []
  | name :: rest => allocate used name :: allocations (allocate used name :: used) rest

/-- **The locals of a sequence of names differ,** also from those that were used before. -/
theorem allocations_nodup (used names : List String) : (allocations used names).Nodup ∧
    ∀ identifier ∈ allocations used names, identifier ∉ used := by
  induction names generalizing used with
  | nil => exact ⟨.nil, List.forall_mem_nil _⟩
  | cons name rest ih =>
    obtain ⟨hnodup, hunused⟩ := ih (allocate used name :: used)
    refine ⟨List.nodup_cons.2 ⟨fun hmem => ?_, hnodup⟩, List.forall_mem_cons.2 ⟨?_, ?_⟩⟩
    · exact hunused _ hmem List.mem_cons_self
    · exact fresh_notMem used (baseName name)
    · exact fun identifier hidentifier hmem =>
        hunused identifier hidentifier (List.mem_cons_of_mem _ hmem)

theorem exists_of_mem_allocations {used names : List String} {identifier : String}
    (h : identifier ∈ allocations used names) :
    ∃ others, ∃ name ∈ names, identifier = allocate others name := by
  induction names generalizing used with
  | nil => cases h
  | cons name rest ih =>
    rcases List.mem_cons.1 h with rfl | h
    · exact ⟨used, name, List.mem_cons_self, rfl⟩
    · obtain ⟨others, other, hother, hidentifier⟩ := ih h
      exact ⟨others, other, List.mem_cons_of_mem _ hother, hidentifier⟩

/-! ## Locals of slots -/

/-- The locals of slots. -/
def localsOf (slots : List Slot) : List String :=
  slots.filterMap Slot.identifier?

/-- The names of the resources whose type has a construct. -/
def constructNames (resources : List Resource) : List String :=
  (resources.filter fun resource => (lookup resource.type).isSome).map Resource.name

/-- The locals of slots are those of the resources with a construct. -/
theorem localsOf_slots (used : List String) (place : Nat) (resources : List Resource) :
    localsOf (slots used place resources) = allocations used (constructNames resources) := by
  induction resources generalizing used place with
  | nil => rfl
  | cons resource rest ih =>
    cases hkind : lookup resource.type with
    | none => simpa [slots, hkind, localsOf, constructNames] using ih used (place + 1)
    | some kind =>
      have hrest := ih (allocate used resource.name :: used) (place + 1)
      simpa [slots, hkind, localsOf, constructNames, allocations] using hrest

/-- **The locals of slots differ,** also from those that were used before. -/
theorem locals_nodup (used : List String) (place : Nat) (resources : List Resource) :
    (localsOf (slots used place resources)).Nodup ∧
      ∀ identifier ∈ localsOf (slots used place resources), identifier ∉ used := by
  rw [localsOf_slots]
  exact allocations_nodup used (constructNames resources)

end CdkStacks.Construct
