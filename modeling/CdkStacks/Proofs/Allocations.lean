import CdkStacks.Proofs.Locals
import CdkStacks.Proofs.Spelling

/-!
# Locals and reserved words

Which words the locals of a constructor may be. A local is spelled like the name of its resource,
with a word in front of it, a word behind it or a number behind it where it has to be.

* `allocate_head`: a local starts with a letter in lower case;
* `isUnmarked` holds of words that no added word or number gives; `mem_allocations_iff`: such a word
  is a local exactly when a name is spelled like it and it is not `guarded`;
* `moduleWords` are the reserved words of module code; `locals_avoid_reserved`: of these only two
  are locals, and exactly for names that are spelled like them.
-/

namespace CdkStacks.Text

/-! ## First letters -/

/-- Words are not empty: where a word ends before a letter, an upper-case letter is in it. -/
theorem splitPiece_ne_nil (state : WordCase) (word piece : List Char)
    (h : state = .upper → word ≠ []) : [] ∉ splitPiece state word piece := by
  fun_induction splitPiece state word piece with
  | case1 state word hempty => simp
  | case2 state word hword => simpa using hword
  | case3 state word c => simp
  | case4 state word c next n rest hlower ih =>
    have hrest := ih (by simp)
    simpa using hrest
  | case5 state word c next n rest hlower hupper ih =>
    have hrest := ih (by simp)
    have hword : word ≠ [] := h (by simp_all)
    simpa [hword] using hrest
  | case6 state word c next n rest hlower hupper ih => exact ih (by simp)

theorem words_ne_nil {name : String} : [] ∉ words name := by
  intro h
  obtain ⟨piece, -, hmem⟩ := List.mem_flatMap.1 h
  exact splitPiece_ne_nil .none [] piece (by simp) hmem

/-- A letter in lower case is one; a digit has no case. -/
theorem isLower_toLower {c : Char} (h : c.isAlphanum) (halpha : c.toLower.isAlpha) :
    c.toLower.isLower :=
  of_ascii (P := fun c => c.toLower.isAlpha → c.toLower.isLower) (by decide) h halpha

/-- A spelling that starts in lower case starts with a digit or a letter in lower case. -/
theorem head_lowerCamel {name : String} {c : Char} (h : (lowerCamel name).toList.head? = some c)
    (halpha : c.isAlpha) : c.isLower := by
  unfold lowerCamel at h
  split at h
  · cases h
  · rename_i word more hwords
    have hmem : word ∈ words name := by rw [hwords]; exact List.mem_cons_self
    cases word with
    | nil => exact absurd hmem words_ne_nil
    | cons first rest =>
      rw [String.toList_ofList] at h
      cases h
      exact isLower_toLower (words_isAlphanum hmem first List.mem_cons_self) halpha

/-- A number ends with a digit. -/
theorem decimal_last (n : Nat) : ∃ c, (decimal n).toList.getLast? = some c ∧ c.isDigit := by
  rw [decimal, String.toList_ofList]
  refine ⟨_, List.getLast?_eq_some_getLast Nat.toDigits_ne_nil, ?_⟩
  exact Nat.isDigit_of_mem_toDigits (by decide) (by decide) (List.getLast_mem _)

end CdkStacks.Text

namespace CdkStacks.Construct

open CdkStacks.Template CdkStacks.TypeScript

theorem baseName_head (resource : String) :
    ∃ c, (baseName resource).toList.head? = some c ∧ c.isLower := by
  have hname : ∃ c, (asIdentifier (propertyName resource)).toList.head? = some c ∧ c.isLower := by
    unfold asIdentifier
    split_ifs with hidentifier
    · unfold isIdentifier at hidentifier
      split at hidentifier
      · cases hidentifier
      · rename_i first rest hlist
        have hhead : (propertyName resource).toList.head? = some first := by rw [hlist]; rfl
        refine ⟨first, hhead, Text.head_lowerCamel hhead ?_⟩
        -- a spelling has no `_` and no `$`
        have halphanum := Text.lowerCamel_isAlphanum resource first (List.mem_of_head? hhead)
        simp only [startsIdentifier, Bool.and_eq_true, Bool.or_eq_true, decide_eq_true_eq]
          at hidentifier
        rcases hidentifier.1 with (h | rfl) | rfl
        · exact h
        · cases halphanum
        · cases halphanum
    · exact ⟨'r', by simp, by decide⟩
  obtain ⟨c, hc, hlower⟩ := hname
  refine ⟨c, ?_, hlower⟩
  unfold baseName
  dsimp only
  split_ifs
  · rw [String.toList_append, List.head?_append, hc]
    rfl
  · exact hc

/-- **A local starts with a letter in lower case.** -/
theorem allocate_head (used : List String) (resource : String) :
    ∃ c, (allocate used resource).toList.head? = some c ∧ c.isLower := by
  obtain ⟨c, hc, hlower⟩ := baseName_head resource
  refine ⟨c, ?_, hlower⟩
  unfold allocate
  rcases fresh_cases used (baseName resource) with h | ⟨n, h⟩
  · rw [h, hc]
  · rw [h, String.toList_append, List.head?_append, hc]
    rfl

/-! ## Sequences of names -/

theorem mem_constructNames {resources : List Resource} {name : String} :
    name ∈ constructNames resources ↔
      ∃ resource ∈ resources, (lookup resource.type).isSome ∧ resource.name = name := by
  simp [constructNames, and_assoc]

theorem allocations_head {used names : List String} {identifier : String}
    (h : identifier ∈ allocations used names) :
    ∃ c, identifier.toList.head? = some c ∧ c.isLower := by
  obtain ⟨others, name, -, rfl⟩ := exists_of_mem_allocations h
  exact allocate_head others name

/-! ## Words without marks -/

/-- Whether a name gets a word behind it when it is to be a local. -/
def guarded (name : String) : Bool :=
  isReserved name || constructorLocals.contains name

/-- Whether a word is an identifier without the marks that a local may get: the word in front of it,
the word behind it, or a number. -/
def isUnmarked (word : String) : Bool :=
  isIdentifier word && !"resource".toList.isPrefixOf word.toList &&
    !"Resource".toList.isSuffixOf word.toList && !word.toList.getLast?.any Char.isDigit

section Unmarked

variable {word : String} (hword : isUnmarked word)

include hword

theorem asIdentifier_eq_iff (name : String) : asIdentifier name = word ↔ name = word := by
  simp only [isUnmarked, Bool.and_eq_true, Bool.not_eq_true'] at hword
  obtain ⟨⟨⟨hidentifier, hfront⟩, -⟩, -⟩ := hword
  unfold asIdentifier
  split_ifs with hname
  · rfl
  · constructor
    · rintro rfl
      simp at hfront
    · rintro rfl
      exact absurd hidentifier hname

/-- A word without marks is the base of a local when the name is spelled like it. -/
theorem baseName_eq_iff (resource : String) :
    baseName resource = word ↔ propertyName resource = word ∧ guarded word = false := by
  have hname := asIdentifier_eq_iff hword (propertyName resource)
  unfold baseName
  dsimp only
  change (if guarded _ then _ else _) = word ↔ _
  split_ifs with hguarded
  · simp only [isUnmarked, Bool.and_eq_true, Bool.not_eq_true'] at hword
    obtain ⟨⟨-, hback⟩, -⟩ := hword
    constructor
    · rintro rfl
      rw [String.toList_append, List.isSuffixOf_iff_suffix.2 (List.suffix_append ..)] at hback
      cases hback
    · rintro ⟨hspelled, hfree⟩
      rw [hname.2 hspelled, hfree] at hguarded
      cases hguarded
  · rw [hname]
    constructor
    · intro hspelled
      rw [hname.2 hspelled, Bool.not_eq_true] at hguarded
      exact ⟨hspelled, hguarded⟩
    · exact And.left

/-- A word without marks is a fresh name only when it was not used. -/
theorem fresh_eq_iff (used : List String) (name : String) :
    fresh used name = word ↔ name = word ∧ word ∉ used := by
  simp only [isUnmarked, Bool.and_eq_true, Bool.not_eq_true'] at hword
  obtain ⟨-, hdigit⟩ := hword
  constructor
  · intro h
    have hunused : word ∉ used := h ▸ fresh_notMem used name
    rcases fresh_cases used name with hsame | ⟨n, hnumber⟩
    · exact ⟨hsame.symm.trans h, hunused⟩
    · obtain ⟨c, hlast, hc⟩ := Text.decimal_last n
      rw [← h, hnumber, String.toList_append, List.getLast?_append, hlast] at hdigit
      simp [hc] at hdigit
  · rintro ⟨rfl, hunused⟩
    simp [fresh, hunused]

/-- **A word without marks is a local** exactly when a name is spelled like it and it is not
guarded. -/
theorem mem_allocations_iff (used names : List String) : word ∈ allocations used names ↔
    word ∉ used ∧ guarded word = false ∧ ∃ name ∈ names, propertyName name = word := by
  induction names generalizing used with
  | nil => simp [allocations]
  | cons name rest ih =>
    have hfirst : allocate used name = word ↔
        (propertyName name = word ∧ guarded word = false) ∧ word ∉ used := by
      rw [allocate, fresh_eq_iff hword, baseName_eq_iff hword]
    rw [allocations, List.mem_cons, ih, eq_comm, hfirst, List.exists_mem_cons_iff]
    constructor
    · rintro (⟨⟨hspelled, hfree⟩, hunused⟩ | ⟨hunused, hfree, hrest⟩)
      · exact ⟨hunused, hfree, Or.inl hspelled⟩
      · exact ⟨fun h => hunused (List.mem_cons_of_mem _ h), hfree, Or.inr hrest⟩
    · rintro ⟨hunused, hfree, hspelled | hrest⟩
      · exact Or.inl ⟨⟨hspelled, hfree⟩, hunused⟩
      · -- when the first name has taken the word, the rest cannot
        by_cases h : allocate used name = word
        · exact Or.inl (hfirst.1 h)
        · exact Or.inr ⟨by simp [Ne.symm h, hunused], hfree, hrest⟩

end Unmarked

/-! ## Reserved words -/

/-- The words that nothing in module code may be called. -/
def moduleWords : List String :=
  ["await", "break", "case", "catch", "class", "const", "continue", "debugger", "default", "delete",
    "do", "else", "enum", "export", "extends", "false", "finally", "for", "function", "if",
    "implements", "import", "in", "instanceof", "interface", "let", "new", "null", "package",
    "private", "protected", "public", "return", "static", "super", "switch", "this", "throw",
    "true", "try", "typeof", "var", "void", "while", "with", "yield", "eval", "arguments"]

theorem moduleWords_unmarked : ∀ word ∈ moduleWords, isUnmarked word := by
  decide +kernel

/-- Two of these words are not guarded. -/
theorem moduleWords_guarded : ∀ word ∈ moduleWords,
    guarded word = false ↔ word = "while" ∨ word = "with" := by
  decide +kernel

/-- **Locals are no reserved words,** unless the name of a resource is spelled `while` or `with`. In
any case they are no others. -/
theorem locals_avoid_reserved (names : List String) :
    ((∀ identifier ∈ allocations [] names, identifier ∉ moduleWords) ↔
        ∀ name ∈ names, propertyName name ≠ "while" ∧ propertyName name ≠ "with") ∧
      ∀ identifier ∈ allocations [] names, identifier ∈ moduleWords →
        identifier = "while" ∨ identifier = "with" := by
  have hlocal : ∀ word ∈ moduleWords, word ∈ allocations [] names ↔
      (word = "while" ∨ word = "with") ∧ ∃ name ∈ names, propertyName name = word := by
    intro word hword
    rw [mem_allocations_iff (moduleWords_unmarked word hword), moduleWords_guarded word hword]
    simp
  refine ⟨⟨fun h name hname => ?_, fun h identifier hidentifier hword => ?_⟩,
    fun identifier hidentifier hword => ((hlocal identifier hword).1 hidentifier).1⟩
  · refine ⟨fun hspelled => ?_, fun hspelled => ?_⟩
    · exact h "while" ((hlocal _ (by decide)).2 ⟨Or.inl rfl, name, hname, hspelled⟩) (by decide)
    · exact h "with" ((hlocal _ (by decide)).2 ⟨Or.inr rfl, name, hname, hspelled⟩) (by decide)
  · obtain ⟨rfl | rfl, name, hname, hspelled⟩ := (hlocal identifier hword).1 hidentifier
    · exact (h name hname).1 hspelled
    · exact (h name hname).2 hspelled

/-- **A local may be a reserved word:** a resource `While` is held by `while`. -/
theorem while_allocated :
    allocations [] ["While", "Class", "while"] = ["while", "classResource", "while2"] ∧
      "while" ∈ moduleWords := by
  decide +kernel

end CdkStacks.Construct
