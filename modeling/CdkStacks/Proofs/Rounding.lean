import CdkStacks.Decimal.Binary64
import Mathlib.Algebra.Order.Field.Power
import Mathlib.Data.Nat.Cast.Order.Field
import Mathlib.Data.Rat.Cast.Order
import Mathlib.Tactic.FieldSimp
import Mathlib.Tactic.Linarith
import Mathlib.Tactic.NormNum
import Mathlib.Tactic.Positivity
import Mathlib.Tactic.Ring

/-!
# Rounding to doubles

Which ratio is rounded to which double, in rational arithmetic.

* `Magnitude.Canonical` holds of the magnitudes that are doubles, one for each value;
* `Magnitude.RoundsTo` holds of a number and the double that is nearest to it, a half going to the
  even mantissa;
* `nearest_of_roundsTo`: `nearest` finds that double;
* `canonical_of_nearest`: what it finds is a double;
* `ofDecimal_of_roundsTo`: so a decimal that is rounded to a double is read as that double.
-/

namespace CdkStacks.Decimal.Magnitude

/-! ## Powers -/

theorem pow_toNat {base : ℚ} (hbase : base ≠ 0) (e : Int) :
    base ^ e.toNat = base ^ e * base ^ (-e).toNat := by
  rw [← zpow_natCast, ← zpow_natCast, ← zpow_add₀ hbase]
  congr 1
  omega

theorem cast_natPow (base n : Nat) : ((Nat.pow base n : Nat) : ℚ) = (base : ℚ) ^ n :=
  Nat.cast_pow base n

theorem cast_scaleUp (n base : Nat) (e : Int) :
    (scaleUp n base e : ℚ) = n * (base : ℚ) ^ e.toNat := by
  rw [scaleUp, Nat.cast_mul, cast_natPow]

theorem scaleUp_pos {n base : Nat} (hn : 0 < n) (hbase : 0 < base) (e : Int) :
    0 < scaleUp n base e :=
  Nat.mul_pos hn (Nat.pow_pos hbase)

/-- Scaling both sides of a ratio multiplies it by a power. -/
theorem ratio_scaleUp {base : Nat} (hbase : 0 < base) (num den : Nat) (e : Int) :
    (scaleUp num base e : ℚ) / scaleUp den base (-e) = num / den * (base : ℚ) ^ e := by
  have hne : (base : ℚ) ≠ 0 := Nat.cast_ne_zero.2 hbase.ne'
  have hpow : (base : ℚ) ^ (-e).toNat ≠ 0 := pow_ne_zero _ hne
  rw [cast_scaleUp, cast_scaleUp, pow_toNat hne e, ← mul_assoc, mul_div_mul_right _ _ hpow,
    mul_div_right_comm]

theorem powerLe_iff {num den : Nat} (hden : 0 < den) (e : Int) :
    powerLe e num den = true ↔ (2 : ℚ) ^ e ≤ num / den := by
  have hpow : (0 : ℚ) < 2 ^ (-e).toNat := by positivity
  rw [powerLe, decide_eq_true_iff, ← Nat.cast_le (α := ℚ), cast_scaleUp, cast_scaleUp,
    Nat.cast_ofNat, pow_toNat two_ne_zero e, ← mul_assoc, mul_le_mul_iff_left₀ hpow,
    le_div_iff₀ (by exact_mod_cast hden), mul_comm]

theorem lt_of_two_zpow_lt {a b : Int} (h : (2 : ℚ) ^ a < 2 ^ b) : a < b :=
  (zpow_lt_zpow_iff_right₀ one_lt_two).1 h

/-! ## Division -/

theorem le_roundDiv {num den k : Nat} (h : k * den ≤ num) (hden : 0 < den) :
    k ≤ roundDiv num den := by
  have hq : k ≤ num / den := (Nat.le_div_iff_mul_le hden).2 h
  simp only [roundDiv]
  split_ifs <;> omega

theorem roundDiv_le {num den k : Nat} (h : num ≤ k * den) (hden : 0 < den) :
    roundDiv num den ≤ k := by
  have hq : num / den ≤ k := Nat.div_le_of_le_mul (by rwa [mul_comm])
  rcases hq.lt_or_eq with hlt | heq
  · simp only [roundDiv]
    split_ifs <;> omega
  · have hmod : num % den = 0 := by
      have hdiv := Nat.div_add_mod num den
      rw [heq, mul_comm] at hdiv
      omega
    simp only [roundDiv, hmod, mul_zero, if_pos hden]
    exact hq

/-- The rounded quotient is the integer within a half, the even one of two. -/
theorem roundDiv_eq {num den m : Nat} (hden : 0 < den) (hlow : 2 * m * den ≤ 2 * num + den)
    (hhigh : 2 * num ≤ (2 * m + 1) * den)
    (heven : 2 * m * den = 2 * num + den ∨ 2 * num = (2 * m + 1) * den → m % 2 = 0) :
    roundDiv num den = m := by
  have hdiv := Nat.div_add_mod num den
  have hmod := Nat.mod_lt num hden
  generalize hq : num / den = q at *
  generalize hr : num % den = r at *
  have hle : q ≤ m := by
    by_contra hlt
    have hmul : (m + 1) * den ≤ q * den := Nat.mul_le_mul_right _ (by omega)
    linarith
  have hge : m ≤ q + 1 := by
    by_contra hlt
    have hmul : (q + 2) * den ≤ m * den := Nat.mul_le_mul_right _ (by omega)
    linarith
  rcases (show m = q ∨ m = q + 1 by omega) with rfl | rfl
  · have hhalf : 2 * r ≤ den := by linarith
    have htie : 2 * r = den → m % 2 = 0 := fun h => heven (Or.inr (by linarith))
    simp only [roundDiv, hq, hr]
    split_ifs <;> omega
  · have hhalf : den ≤ 2 * r := by linarith
    have htie : 2 * r = den → (q + 1) % 2 = 0 := fun h => heven (Or.inl (by linarith))
    simp only [roundDiv, hq, hr]
    split_ifs <;> omega

theorem roundDiv_of_ratio {num den m : Nat} {u : ℚ} (hden : 0 < den) (hu : (num : ℚ) / den = u)
    (hlow : m - 1 / 2 ≤ u) (hhigh : u ≤ m + 1 / 2)
    (heven : u = m - 1 / 2 ∨ u = m + 1 / 2 → m % 2 = 0) : roundDiv num den = m := by
  have hpos : (0 : ℚ) < den := by exact_mod_cast hden
  have hnum : (num : ℚ) = u * den := by rw [← hu, div_mul_cancel₀ _ hpos.ne']
  have hcancel {a b : ℚ} (h : a * den = b * den) : a = b := mul_right_cancel₀ hpos.ne' h
  refine roundDiv_eq hden ?_ ?_ ?_
  · have hmul := mul_le_mul_of_nonneg_right hlow hpos.le
    have : (2 * m * den : ℚ) ≤ 2 * num + den := by rw [hnum]; linarith
    exact_mod_cast this
  · have hmul := mul_le_mul_of_nonneg_right hhigh hpos.le
    have : (2 * num : ℚ) ≤ (2 * m + 1) * den := by rw [hnum]; linarith
    exact_mod_cast this
  · rintro (h | h)
    · have hcast : (2 * m * den : ℚ) = 2 * num + den := by exact_mod_cast h
      exact heven (Or.inl (hcancel (by rw [hnum] at hcast; linarith)))
    · have hcast : (2 * num : ℚ) = (2 * m + 1) * den := by exact_mod_cast h
      exact heven (Or.inr (hcancel (by rw [hnum] at hcast; linarith)))

/-! ## The nearest double -/

/-- The greatest power of two that is at most `num / den`. -/
def topPower (num den : Nat) : Int :=
  let estimate : Int := (Nat.log2 num : Int) - (Nat.log2 den : Int)
  if powerLe estimate num den then estimate else estimate - 1

theorem topPower_spec {num den : Nat} (hnum : num ≠ 0) (hden : 0 < den) :
    (2 : ℚ) ^ topPower num den ≤ num / den ∧ (num / den : ℚ) < 2 ^ (topPower num den + 1) := by
  have hpos : (0 : ℚ) < den := by exact_mod_cast hden
  have hnumLow : (2 : ℚ) ^ num.log2 ≤ num := by exact_mod_cast Nat.log2_self_le hnum
  have hnumHigh : (num : ℚ) < 2 ^ (num.log2 + 1) := by exact_mod_cast Nat.lt_log2_self
  have hdenLow : (2 : ℚ) ^ den.log2 ≤ den := by exact_mod_cast Nat.log2_self_le hden.ne'
  have hdenHigh : (den : ℚ) < 2 ^ (den.log2 + 1) := by exact_mod_cast Nat.lt_log2_self
  unfold topPower
  dsimp only
  generalize hestimate : (num.log2 : Int) - den.log2 = estimate
  have hnumLog : (2 : ℚ) ^ num.log2 = 2 ^ estimate * 2 ^ den.log2 := by
    rw [← zpow_natCast, ← zpow_natCast, ← zpow_add₀ two_ne_zero, ← hestimate, sub_add_cancel]
  have hpower : (0 : ℚ) < 2 ^ estimate := by positivity
  have hup : (2 : ℚ) ^ (estimate + 1) = 2 ^ estimate * 2 := zpow_add_one₀ two_ne_zero _
  have hdown : (2 : ℚ) ^ estimate = 2 ^ (estimate - 1) * 2 := by
    rw [← zpow_add_one₀ two_ne_zero, sub_add_cancel]
  split_ifs with hle
  · refine ⟨(powerLe_iff hden _).1 hle, ?_⟩
    rw [div_lt_iff₀ hpos, hup]
    rw [pow_succ, hnumLog] at hnumHigh
    linarith [mul_le_mul_of_nonneg_left hdenLow hpower.le]
  · refine ⟨?_, ?_⟩
    · rw [le_div_iff₀ hpos]
      rw [hnumLog, hdown] at hnumLow
      rw [pow_succ] at hdenHigh
      have hbelow : (0 : ℚ) < 2 ^ (estimate - 1) := by positivity
      linarith [mul_lt_mul_of_pos_left hdenHigh hbelow]
    · rw [sub_add_cancel]
      exact not_le.1 fun h => hle ((powerLe_iff hden _).2 h)

/-- The exponent at which a mantissa is rounded. -/
def roundingExponent (num den : Nat) : Int :=
  max (topPower num den - 52) leastExponent

/-- The magnitude of a rounded mantissa, which may have one bit too many. -/
def carry (mantissa : Nat) (exponent : Int) : Magnitude :=
  if mantissa = 2 * leastNormal then ⟨leastNormal, exponent + 1⟩ else ⟨mantissa, exponent⟩

/-- The mantissa of a ratio, rounded. -/
def roundedMantissa (num den : Nat) (e : Int) : Nat :=
  roundDiv (scaleUp num 2 (-e)) (scaleUp den 2 e)

theorem nearest_eq {num den : Nat} (hnum : num ≠ 0) :
    nearest num den =
      let x := carry (roundedMantissa num den (roundingExponent num den)) (roundingExponent num den)
      if greatestExponent < x.exponent then none else some x := by
  unfold nearest
  rw [if_neg hnum]
  dsimp only [carry, roundedMantissa, roundingExponent, topPower]
  split_ifs <;> rfl

theorem ratio_at (num den : Nat) (e : Int) :
    (scaleUp num 2 (-e) : ℚ) / scaleUp den 2 e = num / den * 2 ^ (-e) := by
  simpa using ratio_scaleUp two_pos num den (-e)

/-- The doubles that are not negative: the mantissa has at most 53 bits, and fewer only at the least
exponent. -/
structure Canonical (x : Magnitude) : Prop where
  mantissa_lt : x.mantissa < 2 * leastNormal
  least_le : leastExponent ≤ x.exponent
  le_greatest : x.exponent ≤ greatestExponent
  normal : leastExponent < x.exponent → leastNormal ≤ x.mantissa

theorem canonical_zero : zero.Canonical :=
  ⟨by decide, by decide, by decide, by decide⟩

/-- The mantissa that a ratio is rounded to fits a double, up to a carry. -/
theorem roundedMantissa_bounds {num den : Nat} (hnum : num ≠ 0) (hden : 0 < den) :
    roundedMantissa num den (roundingExponent num den) ≤ 2 * leastNormal ∧
      (leastExponent < roundingExponent num den →
        leastNormal ≤ roundedMantissa num den (roundingExponent num den)) := by
  obtain ⟨hlow, hhigh⟩ := topPower_spec hnum hden
  generalize he : roundingExponent num den = e
  have hscale : (0 : ℚ) < 2 ^ (-e) := by positivity
  have hscaled : 0 < scaleUp den 2 e := scaleUp_pos hden two_pos _
  have hcast : (0 : ℚ) < scaleUp den 2 e := by exact_mod_cast hscaled
  constructor
  · refine roundDiv_le ?_ hscaled
    have hpower : (2 : ℚ) ^ (topPower num den + 1) * 2 ^ (-e) ≤ (2 * leastNormal : Nat) := by
      rw [← zpow_add₀ two_ne_zero]
      calc (2 : ℚ) ^ (topPower num den + 1 + -e) ≤ 2 ^ (53 : Int) :=
            zpow_le_zpow_right₀ one_le_two (by rw [← he, roundingExponent]; omega)
        _ = (2 * leastNormal : Nat) := by norm_num [leastNormal]
    have hratio : (scaleUp num 2 (-e) : ℚ) / scaleUp den 2 e ≤ (2 * leastNormal : Nat) := by
      rw [ratio_at]
      exact (mul_le_mul_of_nonneg_right hhigh.le hscale.le).trans hpower
    exact_mod_cast (div_le_iff₀ hcast).1 hratio
  · intro hleast
    have hexponent : e = topPower num den - 52 := by
      rw [← he, roundingExponent] at hleast ⊢
      omega
    refine le_roundDiv ?_ hscaled
    have hpower : (leastNormal : ℚ) = 2 ^ topPower num den * 2 ^ (-e) := by
      rw [← zpow_add₀ two_ne_zero, hexponent]
      norm_num [leastNormal]
    have hratio : (leastNormal : ℚ) ≤ (scaleUp num 2 (-e) : ℚ) / scaleUp den 2 e := by
      rw [ratio_at, hpower]
      exact mul_le_mul_of_nonneg_right hlow hscale.le
    exact_mod_cast (le_div_iff₀ hcast).1 hratio

/-- **Rounding gives a double.** -/
theorem canonical_of_nearest {num den : Nat} {x : Magnitude} (hden : 0 < den)
    (h : nearest num den = some x) : x.Canonical := by
  by_cases hnum : num = 0
  · rw [nearest, if_pos hnum] at h
    cases h
    exact canonical_zero
  obtain ⟨hle, hnormal⟩ := roundedMantissa_bounds hnum hden
  have hleast : leastExponent ≤ roundingExponent num den := le_max_right _ _
  rw [nearest_eq hnum] at h
  dsimp only at h
  split_ifs at h with hgreatest
  cases h
  unfold carry at hgreatest ⊢
  split_ifs at hgreatest ⊢ with hcarry
  · have hlt : leastNormal < 2 * leastNormal := by decide
    exact ⟨hlt, hleast.trans (lt_add_one _).le, not_lt.1 hgreatest, fun _ => le_rfl⟩
  · exact ⟨lt_of_le_of_ne hle hcarry, hleast, not_lt.1 hgreatest, hnormal⟩

/-! ## Correct rounding -/

/-- How far below a double, in units of its last place, the numbers that are rounded to it start:
half a unit, and a quarter below a power of two, where the doubles lie twice as close. -/
def reachBelow (x : Magnitude) : ℚ :=
  if x.mantissa = leastNormal ∧ leastExponent < x.exponent then 1 / 4 else 1 / 2

/-- A number is rounded to a double: it lies within half a unit in the last place, and at most
there when the mantissa is even. -/
structure RoundsTo (v : ℚ) (x : Magnitude) : Prop where
  low : x.mantissa - x.reachBelow ≤ v * 2 ^ (-x.exponent)
  high : v * 2 ^ (-x.exponent) ≤ x.mantissa + 1 / 2
  even : v * 2 ^ (-x.exponent) = x.mantissa - x.reachBelow ∨
    v * 2 ^ (-x.exponent) = x.mantissa + 1 / 2 → x.mantissa % 2 = 0

theorem reachBelow_le (x : Magnitude) : x.reachBelow ≤ 1 / 2 := by
  unfold reachBelow
  split_ifs <;> norm_num

theorem cast_leastNormal : (leastNormal : ℚ) = 2 ^ (52 : Int) := by norm_num [leastNormal]

theorem two_zpow_53 : (2 : ℚ) ^ (53 : Int) = 2 * 2 ^ (52 : Int) := by norm_num

variable {num den : Nat} {x : Magnitude} {v : ℚ}

/-- Below the power of two that its exponent starts at, only that power of two is rounded to. -/
theorem RoundsTo.mantissa_eq (h : RoundsTo v x) (hx : x.Canonical)
    (hexponent : leastExponent < x.exponent) (hbelow : v * 2 ^ (-x.exponent) < leastNormal) :
    x.mantissa = leastNormal := by
  by_contra hne
  have hreach := x.reachBelow_le
  have hnormal := hx.normal hexponent
  have hgt : (leastNormal + 1 : ℚ) ≤ x.mantissa := by exact_mod_cast (show _ + 1 ≤ _ by omega)
  have hlow := h.low
  linarith

theorem RoundsTo.lt_twice (h : RoundsTo v x) (hx : x.Canonical) :
    v * 2 ^ (-x.exponent) < 2 ^ (53 : Int) := by
  have hlt : (x.mantissa + 1 : ℚ) ≤ (2 * leastNormal : Nat) := by exact_mod_cast hx.mantissa_lt
  have hhigh := h.high
  rw [Nat.cast_mul, Nat.cast_ofNat, cast_leastNormal, ← two_zpow_53] at hlt
  linarith

/-- A number times a power of two, and the powers of two that it lies between. -/
theorem lt_two_zpow_iff {e k : Int} : v * 2 ^ (-e) < 2 ^ k ↔ v < (2 : ℚ) ^ (k + e) := by
  have hpos : (0 : ℚ) < 2 ^ e := by positivity
  rw [zpow_neg, ← div_eq_mul_inv, div_lt_iff₀ hpos, ← zpow_add₀ two_ne_zero]

theorem roundedMantissa_eq {m : Nat} {e : Int} (hden : 0 < den) {u : ℚ}
    (hu : (num / den : ℚ) * 2 ^ (-e) = u) (hlow : m - 1 / 2 ≤ u) (hhigh : u ≤ m + 1 / 2)
    (heven : u = m - 1 / 2 ∨ u = m + 1 / 2 → m % 2 = 0) : roundedMantissa num den e = m :=
  roundDiv_of_ratio (scaleUp_pos hden two_pos _) ((ratio_at ..).trans hu) hlow hhigh heven

/-- The exponent at which a number is rounded, from the powers of two around the number. -/
theorem roundingExponent_eq {e : Int} (hnum : num ≠ 0) (hden : 0 < den)
    (hleast : leastExponent ≤ e) (hhigh : (num / den : ℚ) * 2 ^ (-e) < 2 ^ (53 : Int))
    (hlow : (2 : ℚ) ^ (52 : Int) ≤ num / den * 2 ^ (-e) ∨ e = leastExponent) :
    roundingExponent num den = e := by
  obtain ⟨htop, hnext⟩ := topPower_spec hnum hden
  have hle : topPower num den < 53 + e :=
    lt_of_two_zpow_lt (htop.trans_lt (lt_two_zpow_iff.1 hhigh))
  unfold roundingExponent
  rcases hlow with hlow | rfl
  · have hge : (52 : Int) + e < topPower num den + 1 := by
      refine lt_of_two_zpow_lt (lt_of_le_of_lt ?_ hnext)
      exact not_lt.1 fun h => not_lt.2 hlow (lt_two_zpow_iff.2 h)
    omega
  · omega

/-- **The nearest double is found:** a ratio that is rounded to a double gives that double. -/
theorem nearest_of_roundsTo (hx : x.Canonical) (hnum : num ≠ 0) (hden : 0 < den)
    (h : RoundsTo (num / den) x) : nearest num den = some x := by
  have hlow := h.low
  have hgreatest := hx.le_greatest
  rw [nearest_eq hnum]
  dsimp only
  by_cases hcase : (2 : ℚ) ^ (52 : Int) ≤ num / den * 2 ^ (-x.exponent) ∨ x.exponent = leastExponent
  · have hexponent := roundingExponent_eq hnum hden hx.least_le (h.lt_twice hx) hcase
    have hmantissa : roundedMantissa num den x.exponent = x.mantissa := by
      refine roundedMantissa_eq hden rfl ?_ h.high ?_
      · linarith [x.reachBelow_le]
      · rintro (htie | htie)
        · exact h.even (Or.inl (le_antisymm (by linarith [x.reachBelow_le]) hlow))
        · exact h.even (Or.inr htie)
    rw [hexponent, hmantissa, carry, if_neg hx.mantissa_lt.ne, if_neg (not_lt.2 hgreatest)]
  · -- Here the number is a little below a power of two, and the mantissa carries.
    rw [not_or, not_le, ← cast_leastNormal] at hcase
    obtain ⟨hbelow, hne⟩ := hcase
    have hleast : leastExponent < x.exponent := lt_of_le_of_ne hx.least_le (Ne.symm hne)
    have hmantissa := h.mantissa_eq hx hleast hbelow
    rw [reachBelow, if_pos ⟨hmantissa, hleast⟩, hmantissa] at hlow
    have htwice : (num / den : ℚ) * 2 ^ (-(x.exponent - 1)) =
        2 * (num / den * 2 ^ (-x.exponent)) := by
      rw [neg_sub, sub_eq_add_neg, zpow_add₀ two_ne_zero, zpow_one]
      ring
    rw [cast_leastNormal] at hlow hbelow
    have hexponent : roundingExponent num den = x.exponent - 1 := by
      refine roundingExponent_eq hnum hden (by omega) ?_ (Or.inl ?_)
      · rw [htwice, two_zpow_53]
        linarith
      · have hone : (1 : ℚ) ≤ 2 ^ (52 : Int) := one_le_zpow₀ one_le_two (by decide)
        rw [htwice]
        linarith
    have hcarry : roundedMantissa num den (x.exponent - 1) = 2 * leastNormal := by
      refine roundedMantissa_eq hden htwice ?_ ?_ fun _ => by decide
      · rw [Nat.cast_mul, Nat.cast_ofNat, cast_leastNormal]
        linarith
      · rw [Nat.cast_mul, Nat.cast_ofNat, cast_leastNormal]
        linarith
    rw [hexponent, hcarry, carry, if_pos rfl, sub_add_cancel, if_neg (not_lt.2 hgreatest),
      ← hmantissa]

/-! ## Decimals -/

theorem canonical_of_ofDecimal {digits : Nat} {exponent : Int}
    (h : ofDecimal digits exponent = some x) : x.Canonical := by
  unfold ofDecimal at h
  dsimp only at h
  split_ifs at h
  · cases h
    exact canonical_zero
  · exact canonical_of_nearest (scaleUp_pos one_pos (by decide) _) h

/-- A number that is rounded to a double that is not zero is in the range of the doubles. -/
theorem RoundsTo.bounds (h : RoundsTo v x) (hx : x.Canonical) (hpos : 0 < x.mantissa) :
    (2 : ℚ) ^ (-1075 : Int) ≤ v ∧ v < 2 ^ (1024 : Int) := by
  constructor
  · refine not_lt.1 fun hlt => ?_
    have hunit : v * 2 ^ (-x.exponent) < 2 ^ (-1 : Int) := by
      refine lt_two_zpow_iff.2 (hlt.trans_le (zpow_le_zpow_right₀ one_le_two ?_))
      have := hx.least_le
      unfold leastExponent at this
      omega
    have hone : (1 : ℚ) ≤ x.mantissa := by exact_mod_cast hpos
    have hlow := h.low
    have hreach := x.reachBelow_le
    norm_num1 at hunit
    linarith
  · refine (lt_two_zpow_iff.1 (h.lt_twice hx)).trans_le (zpow_le_zpow_right₀ one_le_two ?_)
    have := hx.le_greatest
    unfold greatestExponent at this
    omega

/-- The powers of ten around a number, from the digits that spell it. -/
theorem toDigits_bounds {n : Nat} (hn : n ≠ 0) :
    (10 : ℚ) ^ (((Nat.toDigits 10 n).length : Int) - 1) ≤ n ∧
      (n : ℚ) < 10 ^ ((Nat.toDigits 10 n).length : Int) := by
  have hpos : 0 < (Nat.toDigits 10 n).length := Nat.length_toDigits_pos
  constructor
  · generalize hlength : (Nat.toDigits 10 n).length = length at hpos
    obtain ⟨k, rfl⟩ := Nat.exists_eq_succ_of_ne_zero hpos.ne'
    have hge : 10 ^ k ≤ n := by
      rcases Nat.eq_zero_or_pos k with rfl | hk
      · exact Nat.pos_of_ne_zero hn
      · refine not_lt.1 fun hlt => ?_
        have := (Nat.length_toDigits_le_iff (by decide) hk).2 hlt
        omega
    rw [Nat.cast_succ, add_sub_cancel_right, zpow_natCast]
    exact_mod_cast hge
  · have hlt := (Nat.length_toDigits_le_iff (by decide) hpos).1 (le_refl (Nat.toDigits 10 n).length)
    rw [zpow_natCast]
    exact_mod_cast hlt

theorem lt_of_ten_zpow_lt {a b : Int} (h : (10 : ℚ) ^ a < 10 ^ b) : a < b :=
  (zpow_lt_zpow_iff_right₀ (by norm_num)).1 h

theorem two_zpow_le_ten_zpow {a b : Int} (k : Nat) (ha : a = 16 * k) (hb : b = 5 * k) :
    (2 : ℚ) ^ a ≤ 10 ^ b := by
  rw [ha, hb, zpow_mul, zpow_mul, zpow_natCast, zpow_natCast]
  exact pow_le_pow_left₀ (by norm_num) (by norm_num) k

/-- **A decimal that is rounded to a double is read as that double.** -/
theorem ofDecimal_of_roundsTo {digits : Nat} {exponent : Int} (hx : x.Canonical)
    (hpos : 0 < x.mantissa) (h : RoundsTo (digits * 10 ^ exponent) x) :
    ofDecimal digits exponent = some x := by
  obtain ⟨hlow, hhigh⟩ := h.bounds hx hpos
  have hscale : (0 : ℚ) < 10 ^ exponent := by positivity
  have hdigits : digits ≠ 0 := by
    rintro rfl
    rw [Nat.cast_zero, zero_mul] at hlow
    exact absurd hlow (not_le.2 (by positivity))
  obtain ⟨hfirst, hnext⟩ := toDigits_bounds hdigits
  have hsmall : -340 < (Nat.toDigits 10 digits).length + exponent := by
    refine lt_of_ten_zpow_lt ?_
    calc (10 : ℚ) ^ (-340 : Int) ≤ 2 ^ (-1088 : Int) := by
          rw [zpow_neg, zpow_neg]
          exact inv_anti₀ (by positivity) (two_zpow_le_ten_zpow 68 rfl rfl)
      _ ≤ 2 ^ (-1075 : Int) := zpow_le_zpow_right₀ one_le_two (by decide)
      _ ≤ digits * 10 ^ exponent := hlow
      _ < 10 ^ ((Nat.toDigits 10 digits).length : Int) * 10 ^ exponent :=
        mul_lt_mul_of_pos_right hnext hscale
      _ = _ := (zpow_add₀ (by norm_num) _ _).symm
  have hlarge : (Nat.toDigits 10 digits).length - 1 + exponent < 320 := by
    refine lt_of_ten_zpow_lt ?_
    calc (10 : ℚ) ^ ((Nat.toDigits 10 digits).length - 1 + exponent)
        = 10 ^ (((Nat.toDigits 10 digits).length : Int) - 1) * 10 ^ exponent :=
          zpow_add₀ (by norm_num) _ _
      _ ≤ digits * 10 ^ exponent := mul_le_mul_of_nonneg_right hfirst hscale.le
      _ < 2 ^ (1024 : Int) := hhigh
      _ ≤ 10 ^ (320 : Int) := two_zpow_le_ten_zpow 64 rfl rfl
  unfold ofDecimal
  dsimp only
  rw [if_neg (by simp only [Bool.or_eq_true, decide_eq_true_iff]; omega), if_neg (by omega)]
  refine nearest_of_roundsTo hx (scaleUp_pos (Nat.pos_of_ne_zero hdigits) (by decide) _).ne'
    (scaleUp_pos one_pos (by decide) _) ?_
  rw [ratio_scaleUp (by decide), Nat.cast_one, div_one]
  exact h

end CdkStacks.Decimal.Magnitude
