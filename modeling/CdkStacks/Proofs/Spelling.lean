import CdkStacks.Proofs.Locals
import Mathlib.Tactic.SplitIfs

/-!
# Spelling of names

The spellings of a name consist of ASCII letters and digits, and the local of a resource is an
identifier, whatever the name of the resource is.

* `flatten_splitPiece`, `words_isAlphanum`: the words of a name are made of its letters and digits;
* `upperCamel_isAlphanum`, `lowerCamel_isAlphanum`: so are the names of classes and properties;
* `allocate_isIdentifier`: the local of a resource is an identifier.
-/

namespace CdkStacks.Text

/-! ## Words -/

theorem toNat_lt_of_isAlphanum {c : Char} (h : c.isAlphanum) : c.toNat < 128 := by
  change (decide (c.val ≥ 65 ∧ c.val ≤ 90) || (c.val ≥ 97 && c.val ≤ 122) ||
    (c.val ≥ 48 && c.val ≤ 57)) = true at h
  simp only [Bool.or_eq_true, Bool.and_eq_true, decide_eq_true_eq, UInt32.le_iff_toNat_le,
    ge_iff_le] at h
  change ((65 ≤ c.toNat ∧ c.toNat ≤ 90) ∨ (97 ≤ c.toNat ∧ c.toNat ≤ 122)) ∨
    (48 ≤ c.toNat ∧ c.toNat ≤ 57) at h
  omega

/-- What holds of all ASCII characters holds of letters and digits. -/
theorem of_ascii {P : Char → Prop} (h : ∀ n < 128, P (Char.ofNat n)) {c : Char}
    (hc : c.isAlphanum) : P c := by
  have hchar := h c.toNat (toNat_lt_of_isAlphanum hc)
  rwa [Char.ofNat_toNat] at hchar

/-- A letter or digit stays one in either case. -/
theorem isAlphanum_case {c : Char} (h : c.isAlphanum) :
    c.toLower.isAlphanum ∧ c.toUpper.isAlphanum := by
  have hcase : c.isAlphanum → c.toLower.isAlphanum ∧ c.toUpper.isAlphanum :=
    of_ascii (P := fun c => c.isAlphanum → c.toLower.isAlphanum ∧ c.toUpper.isAlphanum)
      (by decide) h
  exact hcase h

/-- The words of a piece are the piece. -/
theorem flatten_splitPiece (state : WordCase) (word piece : List Char) :
    (splitPiece state word piece).flatten = word.reverse ++ piece := by
  fun_induction splitPiece state word piece with
  | case1 state word hempty => simp_all
  | case2 state word hword => simp
  | case3 state word c => simp
  | case4 state word c next n rest hlower ih => simp [ih]
  | case5 state word c next n rest hlower hupper ih => simp [ih]
  | case6 state word c next n rest hlower hupper ih => simp [ih]

theorem pieces_isAlphanum (cs : List Char) : ∀ piece ∈ pieces cs, ∀ c ∈ piece, c.isAlphanum := by
  fun_induction pieces cs with
  | case1 => simp
  | case2 c rest hc hnil ih => simpa using hc
  | case3 c rest hc first more hpieces ih =>
    rw [hpieces] at ih
    intro piece hpiece
    rcases List.mem_cons.1 hpiece with rfl | hpiece
    · exact List.forall_mem_cons.2 ⟨hc, ih first List.mem_cons_self⟩
    · exact ih piece (List.mem_cons_of_mem first hpiece)
  | case4 c rest hc ih =>
    intro piece hpiece
    rcases List.mem_cons.1 hpiece with rfl | hpiece
    · simp
    · exact ih piece hpiece

theorem words_isAlphanum {name : String} {word : List Char} (hword : word ∈ words name) :
    ∀ c ∈ word, c.isAlphanum := by
  intro c hc
  obtain ⟨piece, hpiece, hmem⟩ := List.mem_flatMap.1 hword
  have hflatten := List.mem_flatten_of_mem hmem hc
  rw [flatten_splitPiece] at hflatten
  exact pieces_isAlphanum name.toList piece hpiece c (by simpa using hflatten)

/-! ## Spellings -/

theorem lowerWord_isAlphanum {word : List Char} (h : ∀ c ∈ word, c.isAlphanum) :
    ∀ c ∈ lowerWord word, c.isAlphanum := by
  intro c hc
  obtain ⟨d, hd, rfl⟩ := List.mem_map.1 hc
  exact (isAlphanum_case (h d hd)).1

theorem capitalWord_isAlphanum {word : List Char} (h : ∀ c ∈ word, c.isAlphanum) :
    ∀ c ∈ capitalWord word, c.isAlphanum := by
  cases word with
  | nil => simp [capitalWord]
  | cons first rest =>
    obtain ⟨hfirst, hrest⟩ := List.forall_mem_cons.1 h
    exact List.forall_mem_cons.2 ⟨(isAlphanum_case hfirst).2, lowerWord_isAlphanum hrest⟩

theorem capitals_isAlphanum {words : List (List Char)}
    (h : ∀ word ∈ words, ∀ c ∈ word, c.isAlphanum) :
    ∀ c ∈ words.flatMap capitalWord, c.isAlphanum := by
  intro c hc
  obtain ⟨word, hword, hc⟩ := List.mem_flatMap.1 hc
  exact capitalWord_isAlphanum (h word hword) c hc

theorem upperCamel_isAlphanum (name : String) : ∀ c ∈ (upperCamel name).toList, c.isAlphanum := by
  rw [upperCamel, String.toList_ofList]
  exact capitals_isAlphanum fun word hword => words_isAlphanum hword

theorem toUpper_toUpper {c : Char} (h : c.isAlphanum) : c.toUpper.toUpper = c.toUpper :=
  of_ascii (P := fun c => c.toUpper.toUpper = c.toUpper) (by decide) h

/-- A spelling with capitals does not start with a letter in lower case. -/
theorem head_upperCamel {name : String} {c : Char} (h : (upperCamel name).toList.head? = some c) :
    c.toUpper = c := by
  have hwords : ∀ word ∈ words name, ∀ c ∈ word, c.isAlphanum := fun _ => words_isAlphanum
  rw [upperCamel, String.toList_ofList] at h
  generalize words name = parts at h hwords
  induction parts with
  | nil => cases h
  | cons word rest ih =>
    obtain ⟨hword, hrest⟩ := List.forall_mem_cons.1 hwords
    cases word with
    | nil => exact ih h hrest
    | cons first others =>
      cases h
      exact toUpper_toUpper (hword first List.mem_cons_self)

theorem lowerCamel_isAlphanum (name : String) : ∀ c ∈ (lowerCamel name).toList, c.isAlphanum := by
  unfold lowerCamel
  split
  · simp
  · rename_i first more hwords
    have hwords' : ∀ word ∈ first :: more, ∀ c ∈ word, c.isAlphanum := by
      rw [← hwords]
      exact fun word hword => words_isAlphanum hword
    obtain ⟨hfirst, hmore⟩ := List.forall_mem_cons.1 hwords'
    rw [String.toList_ofList]
    exact List.forall_mem_append.2 ⟨lowerWord_isAlphanum hfirst, capitals_isAlphanum hmore⟩

theorem decimal_isAlphanum (n : Nat) : ∀ c ∈ (decimal n).toList, c.isAlphanum := by
  intro c hc
  rw [decimal, String.toList_ofList] at hc
  have hdigit := Nat.isDigit_of_mem_toDigits (by decide) (by decide) hc
  simp [Char.isAlphanum, hdigit]

end CdkStacks.Text

namespace CdkStacks.TypeScript

/-! ## Identifiers -/

theorem continuesIdentifier_of_isAlphanum {c : Char} (h : c.isAlphanum) :
    continuesIdentifier c := by
  simp [continuesIdentifier, h]

/-- An identifier does not start with a digit. -/
theorem startsIdentifier_of_isDigit {c : Char} (h : c.isDigit) : startsIdentifier c = false := by
  have halphanum : c.isAlphanum := by simp [Char.isAlphanum, h]
  exact Text.of_ascii (P := fun c => c.isDigit → startsIdentifier c = false) (by decide)
    halphanum h

theorem continuesIdentifier_of_starts {c : Char} (h : startsIdentifier c) :
    continuesIdentifier c := by
  simp only [startsIdentifier, Bool.or_eq_true] at h
  simp only [continuesIdentifier, Char.isAlphanum, Bool.or_eq_true]
  exact h.imp_left (Or.imp_left Or.inl)

/-- The characters of an identifier continue one. -/
theorem continues_of_isIdentifier {name : String} (h : isIdentifier name) :
    ∀ c ∈ name.toList, continuesIdentifier c := by
  unfold isIdentifier at h
  split at h
  · cases h
  · rename_i first rest hname
    rw [Bool.and_eq_true] at h
    rw [hname]
    exact List.forall_mem_cons.2 ⟨continuesIdentifier_of_starts h.1, List.all_eq_true.1 h.2⟩

/-- An identifier may be continued. -/
theorem isIdentifier_append {name more : String} (hname : isIdentifier name)
    (hmore : ∀ c ∈ more.toList, continuesIdentifier c) : isIdentifier (name ++ more) := by
  unfold isIdentifier at hname ⊢
  rw [String.toList_append]
  split at hname
  · cases hname
  · rename_i first rest hfirst
    rw [Bool.and_eq_true] at hname
    rw [hfirst]
    simp only [List.cons_append, List.all_append, Bool.and_eq_true]
    exact ⟨hname.1, hname.2, List.all_eq_true.2 hmore⟩

end CdkStacks.TypeScript

namespace CdkStacks.Construct

open CdkStacks.Template CdkStacks.TypeScript

theorem asIdentifier_isIdentifier {name : String} (h : ∀ c ∈ name.toList, continuesIdentifier c) :
    isIdentifier (asIdentifier name) := by
  unfold asIdentifier
  split_ifs with hname
  · exact hname
  · exact isIdentifier_append (by decide) h

theorem baseName_isIdentifier (resource : String) : isIdentifier (baseName resource) := by
  have hname : isIdentifier (asIdentifier (propertyName resource)) :=
    asIdentifier_isIdentifier fun c hc =>
      continuesIdentifier_of_isAlphanum (Text.lowerCamel_isAlphanum resource c hc)
  unfold baseName
  dsimp only
  split_ifs with hreserved
  · exact isIdentifier_append hname (List.all_eq_true.1 (by decide))
  · exact hname

theorem fresh_isIdentifier {name : String} (used : List String) (h : isIdentifier name) :
    isIdentifier (fresh used name) := by
  rcases fresh_cases used name with hsame | ⟨n, hnumber⟩
  · rwa [hsame]
  · rw [hnumber]
    exact isIdentifier_append h fun c hc =>
      continuesIdentifier_of_isAlphanum (Text.decimal_isAlphanum n c hc)

/-- **The local of a resource is an identifier.** -/
theorem allocate_isIdentifier (used : List String) (resource : String) :
    isIdentifier (allocate used resource) :=
  fresh_isIdentifier used (baseName_isIdentifier resource)

theorem slots_isIdentifier {identifier : String} : ∀ (used : List String) (place : Nat)
    (resources : List Resource), ∀ slot ∈ slots used place resources,
      slot.identifier? = some identifier → isIdentifier identifier
  | _, _, [], _, hslot, _ => by cases hslot
  | used, place, resource :: rest, slot, hslot, hidentifier => by
    unfold slots at hslot
    split at hslot
    · rcases List.mem_cons.1 hslot with rfl | hslot
      · cases hidentifier
      · exact slots_isIdentifier used (place + 1) rest slot hslot hidentifier
    · rcases List.mem_cons.1 hslot with rfl | hslot
      · cases hidentifier
        exact allocate_isIdentifier used resource.name
      · exact slots_isIdentifier _ (place + 1) rest slot hslot hidentifier

/-- A resource is held by an identifier. -/
theorem resource?_isIdentifier {template : Template} {name identifier : String} {slot : Slot}
    (h : (Scope.ofTemplate template).resource? name = some slot)
    (hidentifier : slot.identifier? = some identifier) : isIdentifier identifier := by
  have hmem := List.mem_reverse.1 (List.mem_of_find?_eq_some h)
  exact slots_isIdentifier [] 0 template.resources slot hmem hidentifier

end CdkStacks.Construct
