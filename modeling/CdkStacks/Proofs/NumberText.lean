import CdkStacks.Proofs.DecimalText

/-!
# The text of a number

A plain scalar with the text of a number stands for that number.

* `float?_of_decimal?` reads the text of a double; such a text is no integer, since it has a point
  or an exponent;
* `anyInteger?_integerText` reads the text of an integer;
* `Number.Valid` holds of the integers of 64 bits and of the doubles;
* `Number.plainNode?_text`: so no two numbers have the same text;
* `Number.head_text`: the text of a finite number starts with a sign or a digit.
-/

namespace CdkStacks.Document.Yaml

open CdkStacks.Decimal CdkStacks.Text

/-! ## Plain scalars -/

/-- A decimal does not start with a sign. -/
theorem decimal?_sign {c : Char} (hc : isDigit 10 c = false) (hpoint : c ≠ '.') (cs : List Char) :
    decimal? (c :: cs) = none := by
  have hspan : spanDigits 10 (c :: cs) = ([], c :: cs) :=
    spanDigits_append (List.forall_mem_nil _) (c :: cs) (by rintro d ⟨⟩; exact hc)
  have hfraction : fractionOf (c :: cs) = ([], c :: cs) := by
    unfold fractionOf
    split
    · rename_i heq
      exact absurd (List.cons.inj heq).1 hpoint
    · rfl
  rw [decimal?_eq, hspan, hfraction]
  rfl

/-- The words for the doubles that are not finite. -/
def namedFloats : List String :=
  [".inf", ".Inf", ".INF", "+.inf", "+.Inf", "+.INF"] ++ ["-.inf", "-.Inf", "-.INF"] ++
    [".nan", ".NaN", ".NAN"]

theorem decimal?_namedFloats : ∀ word ∈ namedFloats,
    decimal? word.toList = none ∧ decimal? word.toList.tail = none := by
  decide

/-- A decimal, also one with a sign, is read as the nearest double. -/
theorem float?_of_decimal? {s : String} {negative : Bool} {cs : List Char} {n : Nat} {e : Int}
    {x : Magnitude} (hs : s.toList = signOf negative ++ cs) (hread : decimal? cs = some (n, e))
    (hx : Magnitude.ofDecimal n e = some x) : float? s = some (.finite negative x) := by
  have hname : s ∉ namedFloats := by
    intro hmem
    obtain ⟨hall, htail⟩ := decimal?_namedFloats s hmem
    rw [hs] at hall htail
    cases negative with
    | true => cases htail.symm.trans hread
    | false => cases hall.symm.trans hread
  simp only [namedFloats, List.mem_append, not_or] at hname
  obtain ⟨⟨hplus, hminus⟩, hnan⟩ := hname
  rw [← List.contains_iff_mem] at hplus hminus hnan
  unfold float?
  rw [if_neg hplus, if_neg hminus, if_neg hnan, hs]
  cases negative with
  | true => simp [signOf, hread, hx]
  | false =>
    have hsign : signOf false ++ cs = cs := rfl
    rw [hsign]
    split
    · cases (decimal?_sign (by decide) (by decide) _).symm.trans hread
    · cases (decimal?_sign (by decide) (by decide) _).symm.trans hread
    · simp [hread, hx]

/-- A text does not start with a sign. -/
def UnsignedStart (cs : List Char) : Prop :=
  ∀ rest, cs ≠ '-' :: rest ∧ cs ≠ '+' :: rest

theorem unsignedStart_of_decimal? {cs : List Char} (hread : decimal? cs ≠ none) :
    UnsignedStart cs := by
  intro rest
  constructor
  · rintro rfl
    exact hread (decimal?_sign (by decide) (by decide) _)
  · rintro rfl
    exact hread (decimal?_sign (by decide) (by decide) _)

theorem unsignedStart_of_digits {cs : List Char} (hdigits : ∀ c ∈ cs, c.isDigit = true) :
    UnsignedStart cs := by
  intro rest
  constructor
  · rintro rfl
    exact absurd (hdigits '-' List.mem_cons_self) (by decide)
  · rintro rfl
    exact absurd (hdigits '+' List.mem_cons_self) (by decide)

theorem unsigned_sign {cs : List Char} (h : UnsignedStart cs) (negative : Bool) :
    unsigned (signOf negative ++ cs) = cs := by
  cases negative with
  | true => rfl
  | false =>
    have hsign : signOf false ++ cs = cs := rfl
    rw [hsign]
    unfold unsigned
    split
    · exact absurd rfl (h _).2
    · exact absurd rfl (h _).1
    · rfl

theorem anyInteger?_sign {cs : List Char} (h : UnsignedStart cs) (negative : Bool)
    (hpadded : isZeroPadded (signOf negative ++ cs) = false) :
    anyInteger? (signOf negative ++ cs) =
      (magnitude? cs).map fun n : Nat => if negative then -(n : Int) else n := by
  unfold anyInteger?
  rw [hpadded, if_neg (by decide)]
  cases negative with
  | true => cases hmagnitude : magnitude? cs <;> simp [signOf, hmagnitude]
  | false =>
    have hsign : signOf false ++ cs = cs := rfl
    rw [hsign]
    split
    · exact absurd rfl (h _).1
    · exact absurd rfl (h _).2
    · cases hmagnitude : magnitude? cs <;> simp

/-- A decimal with a point or an exponent is no integer. -/
theorem magnitude?_of_decimal? {cs : List Char} (hread : decimal? cs ≠ none)
    (hmark : ∃ c ∈ cs, digit? 10 c = none) : magnitude? cs = none := by
  obtain ⟨c, hc, hdigit⟩ := hmark
  unfold magnitude?
  split
  · exact absurd rfl hread
  · exact absurd rfl hread
  · exact absurd rfl hread
  · exact readNat?_of_not_digit hc hdigit

theorem isZeroPadded_of_decimal? {cs : List Char} (hread : decimal? cs ≠ none)
    (hmark : ∃ c ∈ cs, digit? 10 c = none) (negative : Bool) :
    isZeroPadded (signOf negative ++ cs) = false := by
  obtain ⟨c, hc, hdigit⟩ := hmark
  unfold isZeroPadded
  rw [unsigned_sign (unsignedStart_of_decimal? hread)]
  split
  · rename_i d rest
    have hmem : c ∈ d :: rest := (List.mem_cons.1 hc).resolve_left (by rintro rfl; cases hdigit)
    rw [List.all_eq_false]
    exact ⟨c, hmem, by rw [isDigit, hdigit]; decide⟩
  · rfl

/-- The words for null and for the truth values, and the empty text. -/
def namedScalars : List String :=
  "" :: ["null", "Null", "NULL", "~"] ++ ["true", "True", "TRUE"] ++ ["false", "False", "FALSE"]

theorem not_number_of_namedScalars : ∀ word ∈ namedScalars,
    anyInteger? word.toList = none ∧ float? word = none := by
  decide

theorem not_named {s : String} (h : s ∉ namedScalars) :
    (s.isEmpty || isNull s) = false ∧ bool? s = none := by
  simp only [namedScalars, List.mem_append, List.mem_cons (a := s) (b := ""), not_or] at h
  obtain ⟨⟨⟨hempty, hnull⟩, htrue⟩, hfalse⟩ := h
  rw [← List.contains_iff_mem, Bool.not_eq_true] at hnull htrue hfalse
  constructor
  · rw [isNull, hnull, Bool.or_false]
    simpa using hempty
  · simp only [bool?, htrue, hfalse, Bool.false_eq_true, if_false]

theorem plainNode?_integer {s : String} {i : Int} (hread : anyInteger? s.toList = some i)
    (hsize : integerSize i = .word) : plainNode? s = some (.number (.integer i)) := by
  obtain ⟨hnull, hbool⟩ := not_named fun h => by
    cases (not_number_of_namedScalars s h).1.symm.trans hread
  unfold plainNode?
  rw [hnull, if_neg (by decide), hbool]
  simp only [hread, hsize]

theorem plainNode?_float {s : String} {x : Binary64} (hinteger : anyInteger? s.toList = none)
    (hpadded : isZeroPadded s.toList = false) (hread : float? s = some x) :
    plainNode? s = some (.number (.float x)) := by
  obtain ⟨hnull, hbool⟩ := not_named fun h => by
    cases (not_number_of_namedScalars s h).2.symm.trans hread
  unfold plainNode?
  rw [hnull, if_neg (by decide), hbool]
  simp only [hinteger, hpadded, hread, Bool.false_eq_true, if_false]

/-! ## Numbers -/

theorem toList_negative (negative : Bool) (text : String) :
    (if negative then "-" ++ text else text).toList = signOf negative ++ text.toList := by
  cases negative <;> simp [signOf]

/-- The text of a double that is finite stands for the double. -/
theorem plainNode?_finite {x : Magnitude} (hx : x.Canonical) (negative : Bool) :
    plainNode? (Binary64.finite negative x).text =
      some (.number (.float (.finite negative x))) := by
  obtain ⟨n, e, hread, hdecimal⟩ := Magnitude.decimal?_text hx
  have hsome : decimal? x.text.toList ≠ none := by rw [hread]; exact Option.some_ne_none _
  have htext : (Binary64.finite negative x).text.toList = signOf negative ++ x.text.toList :=
    toList_negative negative x.text
  have hpadded := isZeroPadded_of_decimal? hsome x.text_marked negative
  refine plainNode?_float ?_ (htext ▸ hpadded) (float?_of_decimal? htext hread hdecimal)
  rw [htext, anyInteger?_sign (unsignedStart_of_decimal? hsome) _ hpadded,
    magnitude?_of_decimal? hsome x.text_marked]
  rfl

/-- A positive number does not start with a zero. -/
theorem head_toDigits_ne {n : Nat} (hn : n ≠ 0) : (Nat.toDigits 10 n).head? ≠ some '0' := by
  induction n using Nat.strongRecOn with
  | ind n ih =>
    rw [Nat.toDigits_eq_if (by decide)]
    split_ifs with hlt
    · have hdigits : ∀ k < 10, k ≠ 0 → [Nat.digitChar k].head? ≠ some '0' := by decide
      exact hdigits n hlt hn
    · have hdiv : n / 10 ≠ 0 := by omega
      have hhead := ih (n / 10) (by omega) hdiv
      rwa [List.head?_append_of_ne_nil _ Nat.toDigits_ne_nil]

theorem magnitude?_toDigits (n : Nat) : magnitude? (Nat.toDigits 10 n) = some n := by
  have hdigits : ∀ c ∈ Nat.toDigits 10 n, c.isDigit = true :=
    fun c => Nat.isDigit_of_mem_toDigits (by decide) (by decide)
  have hread := readNat?_digits Nat.toDigits_ne_nil hdigits
  rw [Nat.ofDigitChars_ten_toDigits] at hread
  generalize Nat.toDigits 10 n = ds at *
  unfold magnitude?
  split
  · exact absurd (hdigits 'x' (by simp)) (by decide)
  · exact absurd (hdigits 'o' (by simp)) (by decide)
  · exact absurd (hdigits 'b' (by simp)) (by decide)
  · exact hread

theorem isZeroPadded_toDigits (negative : Bool) (n : Nat) :
    isZeroPadded (signOf negative ++ Nat.toDigits 10 n) = false := by
  have hdigits : ∀ c ∈ Nat.toDigits 10 n, c.isDigit = true :=
    fun c => Nat.isDigit_of_mem_toDigits (by decide) (by decide)
  unfold isZeroPadded
  rw [unsigned_sign (unsignedStart_of_digits hdigits)]
  split
  · rename_i d rest hpadded
    by_cases hn : n = 0
    · rw [hn, Nat.toDigits_zero] at hpadded
      cases hpadded
    · exact absurd (congrArg List.head? hpadded) (head_toDigits_ne hn)
  · rfl

theorem toList_integerText (i : Int) :
    (integerText i).toList = signOf (i < 0) ++ Nat.toDigits 10 i.natAbs := by
  by_cases h : i < 0 <;> simp [integerText, signOf, h]

theorem anyInteger?_integerText (i : Int) : anyInteger? (integerText i).toList = some i := by
  have hdigits : ∀ c ∈ Nat.toDigits 10 i.natAbs, c.isDigit = true :=
    fun c => Nat.isDigit_of_mem_toDigits (by decide) (by decide)
  rw [toList_integerText, anyInteger?_sign (unsignedStart_of_digits hdigits) _
    (isZeroPadded_toDigits _ _), magnitude?_toDigits, Option.map_some]
  by_cases h : i < 0
  · rw [if_pos (decide_eq_true h)]
    congr 1
    omega
  · rw [if_neg (by simpa using h)]
    congr 1
    omega

/-- A number starts with its sign or with a digit. -/
theorem head_sign {cs : List Char} (h : ∃ c, cs.head? = some c ∧ c.isDigit = true)
    (negative : Bool) :
    ∃ c, (signOf negative ++ cs).head? = some c ∧ (c = '-' ∨ c.isDigit = true) := by
  cases negative with
  | true => exact ⟨'-', rfl, Or.inl rfl⟩
  | false =>
    obtain ⟨c, hc, hdigit⟩ := h
    exact ⟨c, hc, Or.inr hdigit⟩

end CdkStacks.Document.Yaml

namespace CdkStacks.Document

open CdkStacks.Decimal

/-- The numbers that a document may hold: integers of 64 bits, signed or unsigned, and doubles. -/
def Number.Valid : Number → Prop
  | .integer i => Yaml.integerSize i = .word
  | .float (.finite _ x) => x.Canonical
  | .float _ => True

/-- **The text of a number stands for the number.** -/
theorem Number.plainNode?_text {n : Number} (h : n.Valid) :
    Yaml.plainNode? n.text = some (.number n) := by
  match n, h with
  | .integer i, h => exact Yaml.plainNode?_integer (Yaml.anyInteger?_integerText i) h
  | .float (.finite negative x), h => exact Yaml.plainNode?_finite h negative
  | .float (.infinite true), _ => rfl
  | .float (.infinite false), _ => rfl
  | .float .nan, _ => rfl

/-- The text of a finite number starts with a minus sign or a digit. -/
theorem Number.head_text {n : Number} (h : n.isFinite) :
    ∃ c, n.text.toList.head? = some c ∧ (c = '-' ∨ c.isDigit = true) := by
  match n, h with
  | .integer i, _ =>
    have hhead : ∃ c, (Nat.toDigits 10 i.natAbs).head? = some c ∧ c.isDigit = true := by
      refine ⟨_, List.head?_eq_some_head Nat.toDigits_ne_nil, ?_⟩
      exact Nat.isDigit_of_mem_toDigits (by decide) (by decide) (List.head_mem _)
    rw [Number.text, Yaml.toList_integerText]
    exact Yaml.head_sign hhead _
  | .float (.finite negative x), _ =>
    have htext : (Binary64.finite negative x).text.toList =
        Yaml.signOf negative ++ x.text.toList := Yaml.toList_negative negative x.text
    rw [Number.text, htext]
    exact Yaml.head_sign x.head_text negative

end CdkStacks.Document
