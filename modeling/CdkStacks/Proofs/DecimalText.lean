import CdkStacks.Document.Yaml.Plain
import CdkStacks.Proofs.ShortestDigits
import Mathlib.Data.List.TakeWhile

/-!
# The decimal of a double

The text of a double is a decimal, and the double is the nearest one to it.

* `readNat?_digits`, `spanDigits_append`: how runs of digits are read;
* `decimal?_point`, `decimal?_exponent`: how the parts of a decimal are read;
* `spells_layOut`: digits that are laid out at a place spell their value, with a point among them,
  after zeros or with an exponent;
* `decimal?_text`: the text of a double is read as the double;
* `head_text`: it starts with a digit.
-/

namespace CdkStacks.Text

/-! ## Digits -/

theorem digit?_of_isDigit {c : Char} (h : c.isDigit = true) :
    digit? 10 c = some (c.toNat - '0'.toNat) := by
  simp only [Char.isDigit, Bool.and_eq_true, decide_eq_true_iff] at h
  have hrange : ('0' ≤ c && c ≤ '9') = true := by
    simp only [Bool.and_eq_true, decide_eq_true_iff]
    exact h
  have hlt : c.toNat - '0'.toNat < 10 := by
    have hle : c.toNat ≤ 57 := h.2
    have hzero : '0'.toNat = 48 := rfl
    omega
  rw [digit?, hexValue?, if_pos hrange, Option.filter_some, decide_eq_true hlt, if_pos rfl]

theorem continueNat?_digits {cs : List Char} (h : ∀ c ∈ cs, c.isDigit = true) (start : Nat) :
    continueNat? 10 start cs = some (Nat.ofDigitChars 10 cs start) := by
  induction cs generalizing start with
  | nil => rfl
  | cons c cs ih =>
    rw [List.forall_mem_cons] at h
    rw [continueNat?, digit?_of_isDigit h.1, Option.bind_some, ih h.2, Nat.ofDigitChars_cons,
      mul_comm]

theorem readNat?_digits {cs : List Char} (hne : cs ≠ []) (h : ∀ c ∈ cs, c.isDigit = true) :
    readNat? 10 cs = some (Nat.ofDigitChars 10 cs 0) := by
  rw [readNat?, if_neg (by simpa using hne), continueNat?_digits h]

theorem readNat?_of_not_digit {c : Char} {cs : List Char} (hc : c ∈ cs) (h : digit? 10 c = none) :
    readNat? 10 cs = none := by
  have hcontinue : ∀ start, continueNat? 10 start cs = none := by
    induction cs with
    | nil => cases hc
    | cons d cs ih =>
      intro start
      rw [continueNat?]
      rcases List.mem_cons.1 hc with rfl | hmem
      · rw [h, Option.bind_none]
      · cases digit? 10 d with
        | none => rfl
        | some value => exact ih hmem _
  rw [readNat?, hcontinue, ite_self]

/-- A run of digits ends where a character that is no digit stands. -/
theorem spanDigits_append {ds : List Char} (hds : ∀ c ∈ ds, c.isDigit = true) (rest : List Char)
    (hrest : ∀ c, rest.head? = some c → isDigit 10 c = false) :
    spanDigits 10 (ds ++ rest) = (ds, rest) := by
  have hdigits : ∀ c ∈ ds, isDigit 10 c = true := fun c hc => by
    rw [isDigit, digit?_of_isDigit (hds c hc), Option.isSome_some]
  rw [spanDigits, List.span_eq_takeWhile_dropWhile, List.takeWhile_append_of_pos hdigits,
    List.dropWhile_append_of_pos hdigits]
  cases rest with
  | nil => simp
  | cons c rest =>
    have hc := hrest c rfl
    simp [hc]

end CdkStacks.Text

namespace CdkStacks.Document.Yaml

open CdkStacks.Decimal CdkStacks.Text

/-! ## Decimals -/

section

variable {whole fraction ds : List Char}

/-- The digits after a decimal point, if there is one. -/
def fractionOf (cs : List Char) : List Char × List Char :=
  match cs with
  | '.' :: rest => spanDigits 10 rest
  | _ => ([], cs)

/-- The direction of an exponent, and the characters after its sign. -/
def directionOf (cs : List Char) : Bool × List Char :=
  match cs with
  | '-' :: rest => (true, rest)
  | '+' :: rest => (false, rest)
  | _ => (false, cs)

/-- What follows the digits of a decimal: nothing, or an exponent. -/
def withExponent? (digits : Nat) (shift : Int) : List Char → Option (Nat × Int)
  | [] => some (digits, shift)
  | e :: rest =>
    if e ≠ 'e' && e ≠ 'E' then none
    else
      (readNat? 10 (directionOf rest).2).bind fun n =>
        some (digits, if (directionOf rest).1 then shift - n else shift + n)

theorem decimal?_eq (cs : List Char) :
    decimal? cs =
      (readNat? 10 ((spanDigits 10 cs).1 ++ (fractionOf (spanDigits 10 cs).2).1)).bind fun digits =>
        withExponent? digits (-((fractionOf (spanDigits 10 cs).2).1.length : Int))
          (fractionOf (spanDigits 10 cs).2).2 := rfl

/-- The sign of an exponent. -/
def signOf (down : Bool) : List Char :=
  if down then ['-'] else []

/-- The exponent that a sign and digits spell. -/
def exponentOf (down : Bool) (ds : List Char) : Int :=
  if down then -(Nat.ofDigitChars 10 ds 0 : Int) else Nat.ofDigitChars 10 ds 0

theorem directionOf_sign (down : Bool) (hds : ∀ c ∈ ds, c.isDigit = true) :
    directionOf (signOf down ++ ds) = (down, ds) := by
  cases down with
  | true => rfl
  | false =>
    have hsign : signOf false ++ ds = ds := rfl
    rw [hsign]
    unfold directionOf
    split
    · exact absurd (hds '-' List.mem_cons_self) (by decide)
    · exact absurd (hds '+' List.mem_cons_self) (by decide)
    · rfl

theorem withExponent?_e (digits : Nat) (shift : Int) (down : Bool)
    (hds : ∀ c ∈ ds, c.isDigit = true) (hne : ds ≠ []) :
    withExponent? digits shift ('e' :: (signOf down ++ ds)) =
      some (digits, shift + exponentOf down ds) := by
  have hread := readNat?_digits hne hds
  cases down <;>
    simp [withExponent?, directionOf_sign _ hds, hread, exponentOf, sub_eq_add_neg]

/-- A decimal with a point. -/
theorem decimal?_point (hwhole : ∀ c ∈ whole, c.isDigit = true)
    (hfraction : ∀ c ∈ fraction, c.isDigit = true) (hne : whole ++ fraction ≠ []) (rest : List Char)
    (hrest : ∀ c, rest.head? = some c → isDigit 10 c = false) :
    decimal? (whole ++ '.' :: (fraction ++ rest)) =
      withExponent? (Nat.ofDigitChars 10 (whole ++ fraction) 0) (-(fraction.length : Int))
        rest := by
  have hspan := spanDigits_append hwhole ('.' :: (fraction ++ rest)) (by rintro c ⟨⟩; decide)
  have hpoint : fractionOf ('.' :: (fraction ++ rest)) = (fraction, rest) :=
    spanDigits_append hfraction rest hrest
  have hread := readNat?_digits hne fun c hc => (List.mem_append.1 hc).elim (hwhole c) (hfraction c)
  rw [decimal?_eq, hspan, hpoint, hread, Option.bind_some]

/-- A decimal without a point, but with an exponent. -/
theorem decimal?_exponent (hwhole : ∀ c ∈ whole, c.isDigit = true) (hne : whole ≠ [])
    (rest : List Char) :
    decimal? (whole ++ 'e' :: rest) =
      withExponent? (Nat.ofDigitChars 10 whole 0) 0 ('e' :: rest) := by
  have hspan := spanDigits_append hwhole ('e' :: rest) (by rintro c ⟨⟩; decide)
  have hpoint : fractionOf ('e' :: rest) = ([], 'e' :: rest) := rfl
  rw [decimal?_eq, hspan, hpoint, List.append_nil, readNat?_digits hne hwhole, Option.bind_some]
  rfl

end

end CdkStacks.Document.Yaml

/-! ## Doubles -/

namespace CdkStacks.Decimal.Magnitude

open CdkStacks.Document.Yaml (decimal? decimal?_point decimal?_exponent withExponent?_e signOf
  exponentOf)
open CdkStacks.Text (digit?)

/-- The digits of a number without the zeros at their end. -/
def significant (n : Nat) : List Char :=
  ((Nat.toDigits 10 n).reverse.dropWhile (· = '0')).reverse

/-- Digits, with the first one at a place. -/
def layOut (digits : List Char) (place : Int) : List Char :=
  if 0 ≤ place && place ≤ 15 then
    (digits ++ List.replicate 16 '0').take (place.toNat + 1) ++
      '.' :: (if (digits.drop (place.toNat + 1)).isEmpty then ['0']
        else digits.drop (place.toNat + 1))
  else if -5 ≤ place && place < 0 then
    '0' :: '.' :: (List.replicate ((-place).toNat - 1) '0' ++ digits)
  else
    digits.take 1 ++ (if (digits.drop 1).isEmpty then [] else '.' :: digits.drop 1) ++
      'e' :: (if place < 0 then ['-'] else []) ++ Nat.toDigits 10 place.natAbs

theorem text_eq {x : Magnitude} (hx : x.mantissa ≠ 0) :
    x.text = String.ofList (layOut (significant x.shortest.digits)
      (x.shortest.scale + (Nat.toDigits 10 x.shortest.digits).length - 1)) := by
  unfold text layOut significant
  rw [if_neg hx]
  dsimp only
  split_ifs <;> rfl

/-- The zeros at the end of a number are a power of ten. -/
theorem toDigits_eq_significant (n : Nat) :
    ∃ zeros, Nat.toDigits 10 n = significant n ++ List.replicate zeros '0' := by
  refine ⟨((Nat.toDigits 10 n).reverse.takeWhile (· = '0')).length, ?_⟩
  have hzeros : (Nat.toDigits 10 n).reverse.takeWhile (· = '0') =
      List.replicate ((Nat.toDigits 10 n).reverse.takeWhile (· = '0')).length '0' := by
    refine List.eq_replicate_iff.2 ⟨rfl, fun c hc => ?_⟩
    simpa using List.mem_takeWhile_imp hc
  have hsplit := List.takeWhile_append_dropWhile (p := (· = '0')) (l := (Nat.toDigits 10 n).reverse)
  have hreverse := congrArg List.reverse hsplit
  rw [List.reverse_append, List.reverse_reverse, hzeros, List.reverse_replicate] at hreverse
  exact hreverse.symm

theorem isDigit_of_mem_significant {n : Nat} {c : Char} (h : c ∈ significant n) :
    c.isDigit = true := by
  obtain ⟨zeros, hzeros⟩ := toDigits_eq_significant n
  exact Nat.isDigit_of_mem_toDigits (by decide) (by decide) (hzeros ▸ List.mem_append_left _ h)

theorem significant_ne_nil {n : Nat} (hn : n ≠ 0) : significant n ≠ [] := by
  intro hnil
  obtain ⟨zeros, hzeros⟩ := toDigits_eq_significant n
  have hvalue := Nat.ofDigitChars_ten_toDigits (n := n)
  rw [hzeros, hnil, List.nil_append, Nat.ofDigitChars_replicate_zero, mul_zero] at hvalue
  exact hn hvalue.symm

/-- A number is its digits without the zeros, at the place of the first one. -/
theorem significant_value (n : Nat) (scale : Int) :
    (n * 10 ^ scale : ℚ) = Nat.ofDigitChars 10 (significant n) 0 *
      10 ^ (scale + (Nat.toDigits 10 n).length - 1 + 1 - (significant n).length) := by
  obtain ⟨zeros, hzeros⟩ := toDigits_eq_significant n
  have hvalue := Nat.ofDigitChars_ten_toDigits (n := n)
  rw [hzeros, Nat.ofDigitChars_append, Nat.ofDigitChars_replicate_zero] at hvalue
  have hexponent : scale + ((Nat.toDigits 10 n).length : Int) - 1 + 1 - (significant n).length =
      zeros + scale := by
    rw [hzeros, List.length_append, List.length_replicate]
    push_cast
    ring
  rw [hexponent, zpow_add₀ (by norm_num), zpow_natCast]
  nth_rewrite 1 [← hvalue]
  push_cast
  ring

section

variable {digits : List Char}

theorem isDigit_of_mem_replicate {n : Nat} {c : Char} (h : c ∈ List.replicate n '0') :
    c.isDigit = true := by
  rw [List.eq_of_mem_replicate h]
  rfl

theorem isDigit_of_mem_append {cs ds : List Char} (hcs : ∀ c ∈ cs, c.isDigit = true)
    (hds : ∀ c ∈ ds, c.isDigit = true) : ∀ c ∈ cs ++ ds, c.isDigit = true :=
  fun c hc => (List.mem_append.1 hc).elim (hcs c) (hds c)

/-- A decimal spells a value. -/
def Spells (cs : List Char) (value : ℚ) : Prop :=
  ∃ n e, decimal? cs = some (n, e) ∧ (n * 10 ^ e : ℚ) = value

theorem spells_point {whole fraction : List Char} {value : ℚ}
    (hwhole : ∀ c ∈ whole, c.isDigit = true) (hfraction : ∀ c ∈ fraction, c.isDigit = true)
    (hne : whole ++ fraction ≠ [])
    (hvalue : Nat.ofDigitChars 10 (whole ++ fraction) 0 * 10 ^ (-(fraction.length : Int)) = value) :
    Spells (whole ++ '.' :: fraction) value := by
  have hread := decimal?_point hwhole hfraction hne [] (fun c hc => by cases hc)
  rw [List.append_nil] at hread
  exact ⟨_, _, hread, hvalue⟩

/-- Zeros after digits are a power of ten. -/
theorem ofDigitChars_zeros (digits : List Char) (zeros : Nat) (e : Int) :
    (Nat.ofDigitChars 10 (digits ++ List.replicate zeros '0') 0 * 10 ^ (e - zeros) : ℚ) =
      Nat.ofDigitChars 10 digits 0 * 10 ^ e := by
  rw [Nat.ofDigitChars_append, Nat.ofDigitChars_replicate_zero, Nat.cast_mul, Nat.cast_pow,
    Nat.cast_ofNat, zpow_sub₀ (by norm_num), zpow_natCast]
  field_simp

/-- Digits with a point among them or after them. -/
theorem spells_positional (hdigits : ∀ c ∈ digits, c.isDigit = true) (hne : digits ≠ []) {k : Nat}
    (hk : k < 16) :
    Spells ((digits ++ List.replicate 16 '0').take (k + 1) ++
      '.' :: (if (digits.drop (k + 1)).isEmpty then ['0'] else digits.drop (k + 1)))
      (Nat.ofDigitChars 10 digits 0 * 10 ^ ((k : Int) + 1 - digits.length)) := by
  have hwhole : ∀ c ∈ (digits ++ List.replicate 16 '0').take (k + 1), c.isDigit = true :=
    fun c hc => isDigit_of_mem_append hdigits (fun _ => isDigit_of_mem_replicate) c
      (List.mem_of_mem_take hc)
  by_cases hlength : digits.length ≤ k + 1
  · rw [List.drop_eq_nil_of_le hlength, List.isEmpty_nil, if_pos rfl]
    refine spells_point hwhole (List.forall_mem_singleton.2 (by decide)) (by simp) ?_
    have hzeros : (digits ++ List.replicate 16 '0').take (k + 1) ++ ['0'] =
        digits ++ List.replicate (k + 1 - digits.length + 1) '0' := by
      rw [List.take_append, List.take_of_length_le hlength, List.take_replicate,
        min_eq_left (by omega), List.append_assoc, ← List.replicate_succ']
    rw [hzeros, ← ofDigitChars_zeros digits (k + 1 - digits.length + 1)]
    congr 2
    simp only [List.length_singleton]
    omega
  · have hdrop : ¬ (digits.drop (k + 1)).isEmpty = true := by
      rw [List.isEmpty_iff, List.drop_eq_nil_iff]
      exact hlength
    have htake : (digits ++ List.replicate 16 '0').take (k + 1) = digits.take (k + 1) :=
      List.take_append_of_le_length (by omega)
    rw [if_neg hdrop]
    rw [htake] at hwhole ⊢
    have hall : digits.take (k + 1) ++ digits.drop (k + 1) = digits := List.take_append_drop _ _
    refine spells_point hwhole (fun c hc => hdigits c (List.mem_of_mem_drop hc)) ?_ ?_
    · rwa [hall]
    rw [hall, List.length_drop]
    congr 2
    omega

/-- Digits after a point and zeros. -/
theorem spells_fraction (hdigits : ∀ c ∈ digits, c.isDigit = true) (zeros : Nat) :
    Spells ('0' :: '.' :: (List.replicate zeros '0' ++ digits))
      (Nat.ofDigitChars 10 digits 0 * 10 ^ (-(zeros : Int) - digits.length)) := by
  have hfraction : ∀ c ∈ List.replicate zeros '0' ++ digits, c.isDigit = true :=
    isDigit_of_mem_append (fun _ => isDigit_of_mem_replicate) hdigits
  change Spells (['0'] ++ '.' :: (List.replicate zeros '0' ++ digits)) _
  refine spells_point (List.forall_mem_singleton.2 (by decide)) hfraction (by simp) ?_
  have hvalue : Nat.ofDigitChars 10 (['0'] ++ (List.replicate zeros '0' ++ digits)) 0 =
      Nat.ofDigitChars 10 digits 0 := by
    rw [Nat.ofDigitChars_append, Nat.ofDigitChars_append, Nat.ofDigitChars_replicate_zero]
    rfl
  rw [hvalue, List.length_append, List.length_replicate]
  congr 2
  push_cast
  ring

theorem signOf_eq (place : Int) : (if place < 0 then ['-'] else []) = signOf (place < 0) := by
  by_cases h : place < 0 <;> simp [signOf, h]

theorem exponentOf_toDigits (place : Int) :
    exponentOf (place < 0) (Nat.toDigits 10 place.natAbs) = place := by
  unfold exponentOf
  rw [Nat.ofDigitChars_ten_toDigits]
  split_ifs with h <;> simp only [decide_eq_true_iff] at h <;> omega

/-- Digits with an exponent. -/
theorem spells_scientific (hdigits : ∀ c ∈ digits, c.isDigit = true) (hne : digits ≠ [])
    (place : Int) :
    Spells (digits.take 1 ++ (if (digits.drop 1).isEmpty then [] else '.' :: digits.drop 1) ++
      'e' :: (if place < 0 then ['-'] else []) ++ Nat.toDigits 10 place.natAbs)
      (Nat.ofDigitChars 10 digits 0 * 10 ^ (place + 1 - digits.length)) := by
  have hds : ∀ c ∈ Nat.toDigits 10 place.natAbs, c.isDigit = true :=
    fun c => Nat.isDigit_of_mem_toDigits (by decide) (by decide)
  have hexponent (n : Nat) (shift : Int) :=
    withExponent?_e n shift (place < 0) hds Nat.toDigits_ne_nil
  simp only [exponentOf_toDigits] at hexponent
  rw [signOf_eq]
  obtain ⟨c, rest, rfl⟩ := List.exists_cons_of_ne_nil hne
  have hhead : ∀ d ∈ [c], d.isDigit = true := by
    simpa using hdigits c List.mem_cons_self
  have htail : ∀ d ∈ rest, d.isDigit = true := fun d hd => hdigits d (List.mem_cons_of_mem c hd)
  cases rest with
  | nil =>
    refine ⟨_, _, (decimal?_exponent hhead (by simp) _).trans (hexponent _ _), ?_⟩
    congr 2
    simp
  | cons d rest =>
    refine ⟨Nat.ofDigitChars 10 (c :: d :: rest) 0, -((d :: rest).length : Int) + place, ?_, ?_⟩
    · have hread := decimal?_point hhead htail (by simp)
        ('e' :: (signOf (place < 0) ++ Nat.toDigits 10 place.natAbs)) (by rintro c ⟨⟩; decide)
      rw [hexponent] at hread
      refine Eq.trans (congrArg decimal? ?_) hread
      simp
    · congr 2
      simp only [List.length_cons]
      push_cast
      ring

/-- The text of a double spells its digits at their place. -/
theorem spells_layOut (hdigits : ∀ c ∈ digits, c.isDigit = true) (hne : digits ≠ []) (place : Int) :
    Spells (layOut digits place)
      (Nat.ofDigitChars 10 digits 0 * 10 ^ (place + 1 - digits.length)) := by
  unfold layOut
  by_cases hpositional : 0 ≤ place ∧ place ≤ 15
  · rw [if_pos (by simpa using hpositional)]
    have hplace : ((place.toNat : Nat) : Int) = place := by omega
    have hspells := spells_positional hdigits hne (k := place.toNat) (by omega)
    rwa [hplace] at hspells
  rw [if_neg (by simpa using hpositional)]
  by_cases hfraction : -5 ≤ place ∧ place < 0
  · rw [if_pos (by simpa using hfraction)]
    have hspells := spells_fraction hdigits ((-place).toNat - 1)
    have hplace : -(((-place).toNat - 1 : Nat) : Int) = place + 1 := by omega
    rwa [hplace] at hspells
  · rw [if_neg (by simpa using hfraction)]
    exact spells_scientific hdigits hne place

end

/-- The text of a double that is not zero spells its shortest digits. -/
theorem spells_text {x : Magnitude} (hpos : 0 < x.mantissa) :
    Spells x.text.toList (x.shortest.digits * 10 ^ x.shortest.scale) := by
  have hdigits := significant_ne_nil (shortest_ne_zero hpos)
  rw [text_eq hpos.ne', String.toList_ofList, significant_value]
  exact spells_layOut (fun c => isDigit_of_mem_significant) hdigits _

/-- **The text of a double is a decimal that is read as the double.** -/
theorem decimal?_text {x : Magnitude} (hx : x.Canonical) :
    ∃ n e, decimal? x.text.toList = some (n, e) ∧ ofDecimal n e = some x := by
  rcases Nat.eq_zero_or_pos x.mantissa with hzero | hpos
  · have hexponent : x.exponent = leastExponent := by
      refine le_antisymm (not_lt.1 fun hlt => ?_) hx.least_le
      exact absurd (hx.normal hlt) (by rw [hzero]; decide)
    obtain rfl : x = zero := by
      cases x
      cases hzero
      cases hexponent
      rfl
    exact ⟨0, -1, rfl, rfl⟩
  · obtain ⟨n, e, hread, hvalue⟩ := spells_text hpos
    exact ⟨n, e, hread, ofDecimal_of_roundsTo hx hpos (hvalue ▸ shortest_roundsTo hx hpos)⟩

/-- The text of a double has a point or an exponent. -/
theorem text_marked (x : Magnitude) : ∃ c ∈ x.text.toList, digit? 10 c = none := by
  have hmark (digits : List Char) (place : Int) :
      '.' ∈ layOut digits place ∨ 'e' ∈ layOut digits place := by
    unfold layOut
    split_ifs <;> simp
  by_cases hx : x.mantissa = 0
  · exact ⟨'.', by rw [text, if_pos hx]; decide, rfl⟩
  · rw [text_eq hx, String.toList_ofList]
    rcases hmark _ _ with hpoint | hexponent
    · exact ⟨'.', hpoint, rfl⟩
    · exact ⟨'e', hexponent, rfl⟩

/-- Digits that are laid out start with a digit. -/
theorem head_layOut {digits : List Char} (hdigits : ∀ c ∈ digits, c.isDigit = true)
    (hne : digits ≠ []) (place : Int) :
    ∃ c, (layOut digits place).head? = some c ∧ c.isDigit = true := by
  obtain ⟨c, rest, rfl⟩ := List.exists_cons_of_ne_nil hne
  have hc := hdigits c List.mem_cons_self
  unfold layOut
  split
  · exact ⟨c, rfl, hc⟩
  · split
    · exact ⟨'0', rfl, rfl⟩
    · exact ⟨c, rfl, hc⟩

/-- **The text of a double starts with a digit.** -/
theorem head_text (x : Magnitude) : ∃ c, x.text.toList.head? = some c ∧ c.isDigit = true := by
  by_cases hx : x.mantissa = 0
  · exact ⟨'0', by rw [text, if_pos hx]; rfl, rfl⟩
  · have hdigits := significant_ne_nil (shortest_ne_zero (Nat.pos_of_ne_zero hx))
    rw [text_eq hx, String.toList_ofList]
    exact head_layOut (fun c => isDigit_of_mem_significant) hdigits _

end CdkStacks.Decimal.Magnitude
