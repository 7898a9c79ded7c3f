import CdkStacks.Decimal.Shortest
import CdkStacks.Proofs.Rounding

/-!
# Shortest digits read back

The decimal digits of a double are rounded to the double.

* `grid_left`: a grid counts decimal steps in quarters of the unit in the last place, so that
  `readsBack` is `RoundsTo` (`readsBack_iff`);
* `firstPlace_le`: the place of the first digit is not too high;
* `onGrid?_seventeen`: seventeen digits suffice, since `2 ^ 53 < 10 ^ 16`;
* `shortest_roundsTo`: the digits that are found are rounded to the double;
* `shortest_ne_zero`: they are not zero.
-/

namespace CdkStacks.Decimal.Magnitude

variable {x : Magnitude}

/-! ## Grids -/

/-- A number strictly within the reach of a double is rounded to it. -/
theorem RoundsTo.of_lt {v : ℚ} (hlow : x.mantissa - x.reachBelow < v * 2 ^ (-x.exponent))
    (hhigh : v * 2 ^ (-x.exponent) < x.mantissa + 1 / 2) : RoundsTo v x where
  low := hlow.le
  high := hhigh.le
  even := by
    rintro (h | h)
    · exact absurd h hlow.ne'
    · exact absurd h hhigh.ne

theorem grid_right_pos (x : Magnitude) (scale : Int) : 0 < (x.grid scale).right :=
  scaleUp_pos (scaleUp_pos one_pos two_pos _) (by decide) _

/-- A step of a grid, in quarters of the unit in the last place. -/
theorem grid_left (x : Magnitude) (scale : Int) :
    ((x.grid scale).left : ℚ) = 4 * (10 ^ scale * 2 ^ (-x.exponent)) * (x.grid scale).right := by
  have hten := pow_toNat (show (10 : ℚ) ≠ 0 by norm_num) scale
  have htwo := pow_toNat (show (2 : ℚ) ≠ 0 by norm_num) (2 - x.exponent)
  have hquarter : (2 : ℚ) ^ (2 - x.exponent) = 4 * 2 ^ (-x.exponent) := by
    rw [sub_eq_add_neg, zpow_add₀ two_ne_zero]
    norm_num
  rw [neg_sub, hquarter] at htwo
  simp only [grid, cast_scaleUp, Nat.cast_one, Nat.cast_ofNat, one_mul]
  rw [hten, htwo]
  ring

/-- The least and the greatest number that are rounded to a double, in quarters. -/
theorem cast_low (hpos : 0 < x.mantissa) :
    ((4 * x.mantissa -
      (if x.mantissa = leastNormal && leastExponent < x.exponent then 1 else 2) : Nat) : ℚ) =
      4 * (x.mantissa - x.reachBelow) := by
  unfold reachBelow
  simp only [Bool.and_eq_true, decide_eq_true_iff]
  split_ifs
  · rw [Nat.cast_sub (by omega)]
    push_cast
    ring
  · rw [Nat.cast_sub (by omega)]
    push_cast
    ring

/-- A grid point and a number of quarters compare as what they stand for. -/
theorem le_point_iff {a c : Nat} {b : ℚ} {scale : Int} (ha : (a : ℚ) = 4 * b) :
    a * (x.grid scale).right ≤ c * (x.grid scale).left ↔
      b ≤ c * 10 ^ scale * 2 ^ (-x.exponent) := by
  have hright : (0 : ℚ) < (x.grid scale).right := by exact_mod_cast x.grid_right_pos scale
  rw [← Nat.cast_le (α := ℚ), Nat.cast_mul, Nat.cast_mul, grid_left, ha, ← mul_assoc,
    mul_le_mul_iff_left₀ hright]
  constructor <;> intro h <;> linarith

theorem point_le_iff {a c : Nat} {b : ℚ} {scale : Int} (ha : (a : ℚ) = 4 * b) :
    c * (x.grid scale).left ≤ a * (x.grid scale).right ↔
      c * 10 ^ scale * 2 ^ (-x.exponent) ≤ b := by
  have hright : (0 : ℚ) < (x.grid scale).right := by exact_mod_cast x.grid_right_pos scale
  rw [← Nat.cast_le (α := ℚ), Nat.cast_mul, Nat.cast_mul, grid_left, ha, ← mul_assoc,
    mul_le_mul_iff_left₀ hright]
  constructor <;> intro h <;> linarith

theorem readsBack_iff (hpos : 0 < x.mantissa) (scale : Int) (c : Nat) :
    readsBack x (x.grid scale) c = true ↔ RoundsTo (c * 10 ^ scale) x := by
  have hlow := cast_low hpos
  have hhigh : ((4 * x.mantissa + 2 : Nat) : ℚ) = 4 * (x.mantissa + 1 / 2) := by
    push_cast
    ring
  unfold readsBack
  dsimp only
  by_cases heven : x.mantissa % 2 = 0
  · rw [if_pos heven, Bool.and_eq_true, decide_eq_true_iff, decide_eq_true_iff, le_point_iff hlow,
      point_le_iff hhigh]
    exact ⟨fun h => ⟨h.1, h.2, fun _ => heven⟩, fun h => ⟨h.low, h.high⟩⟩
  · rw [if_neg heven, Bool.and_eq_true, decide_eq_true_iff, decide_eq_true_iff,
      lt_iff_lt_of_le_iff_le (point_le_iff hlow), lt_iff_lt_of_le_iff_le (le_point_iff hhigh)]
    refine ⟨fun h => .of_lt h.1 h.2, fun h => ⟨lt_of_le_of_ne h.low ?_, lt_of_le_of_ne h.high ?_⟩⟩
    · exact fun htie => heven (h.even (Or.inl htie.symm))
    · exact fun htie => heven (h.even (Or.inr htie))

theorem readsBack_of_onGrid? {g : Grid} {c : Nat} (h : onGrid? x g = some c) :
    readsBack x g c = true := by
  unfold onGrid? at h
  dsimp only at h
  split at h
  · cases h
  · cases h
    assumption
  · cases h
    assumption
  · split_ifs at h <;> cases h <;> assumption

theorem onGrid?_isSome {g : Grid}
    (h : readsBack x g (4 * x.mantissa * g.right / g.left) = true ∨
      readsBack x g (4 * x.mantissa * g.right / g.left + 1) = true) : (onGrid? x g).isSome := by
  unfold onGrid?
  dsimp only
  split
  · simp_all
  · rfl
  · rfl
  · split_ifs <;> rfl

/-! ## Seventeen digits -/

/-- The first digit of a double stands for at most the double. -/
theorem firstPlace_le (hx : x.Canonical) (hpos : 0 < x.mantissa) :
    (10 : ℚ) ^ x.firstPlace ≤ x.mantissa * 2 ^ x.exponent := by
  have hten : ((Nat.pow 10 400 : Nat) : ℚ) = 10 ^ (400 : Int) := by
    simp only [cast_natPow, zpow_ofNat, Nat.cast_ofNat]
  have hratio := ratio_scaleUp two_pos (x.mantissa * Nat.pow 10 400) 1 x.exponent
  rw [Nat.cast_one, div_one, Nat.cast_mul, hten, Nat.cast_ofNat] at hratio
  have hone : (1 : ℚ) ≤ x.mantissa * 10 ^ (400 : Int) * 2 ^ x.exponent := by
    have hmantissa : (1 : ℚ) ≤ x.mantissa := by exact_mod_cast hpos
    have hexponent : -1280 ≤ x.exponent := le_trans (by decide) hx.least_le
    calc (1 : ℚ) = 2 ^ (1280 : Int) * 2 ^ (-1280 : Int) := by
          rw [← zpow_add₀ two_ne_zero, add_neg_cancel, zpow_zero]
      _ ≤ 10 ^ (400 : Int) * 2 ^ x.exponent :=
        mul_le_mul (two_zpow_le_ten_zpow 80 rfl rfl) (zpow_le_zpow_right₀ one_le_two hexponent)
          (by positivity) (by positivity)
      _ ≤ x.mantissa * (10 ^ (400 : Int) * 2 ^ x.exponent) :=
        le_mul_of_one_le_left (by positivity) hmantissa
      _ = _ := (mul_assoc ..).symm
  unfold firstPlace
  dsimp only
  generalize hnum : scaleUp (x.mantissa * Nat.pow 10 400) 2 x.exponent = num at hratio ⊢
  generalize hden : scaleUp 1 2 (-x.exponent) = den at hratio ⊢
  have hdenPos : 0 < den := hden ▸ scaleUp_pos one_pos two_pos _
  have hne : num / den ≠ 0 := by
    have hle : (den : ℚ) ≤ num := by
      rw [← hratio, one_le_div (by exact_mod_cast hdenPos)] at hone
      exact hone
    exact (Nat.div_pos (by exact_mod_cast hle) hdenPos).ne'
  have hfirst := (toDigits_bounds hne).1
  have hfloor : ((num / den : Nat) : ℚ) ≤ x.mantissa * 10 ^ (400 : Int) * 2 ^ x.exponent :=
    hratio ▸ Nat.cast_div_le
  generalize ((Nat.toDigits 10 (num / den)).length : Int) = length at hfirst ⊢
  have hshift : (10 : ℚ) ^ (length - 1) = 10 ^ (length - 401) * 10 ^ (400 : Int) := by
    rw [← zpow_add₀ (by norm_num)]
    congr 1
    omega
  have hscale : (0 : ℚ) < 10 ^ (400 : Int) := by positivity
  refine le_of_mul_le_mul_right ?_ hscale
  calc (10 : ℚ) ^ (length - 401) * 10 ^ (400 : Int) ≤ (num / den : Nat) := hshift ▸ hfirst
    _ ≤ x.mantissa * 10 ^ (400 : Int) * 2 ^ x.exponent := hfloor
    _ = x.mantissa * 2 ^ x.exponent * 10 ^ (400 : Int) := by ring

theorem reachBelow_pos (x : Magnitude) : 0 < x.reachBelow := by
  unfold reachBelow
  split_ifs <;> norm_num

/-- The step of the grid of seventeen digits is less than a unit in the last place, and less than
half a unit at a power of two. -/
theorem seventeenth_step (hx : x.Canonical) (hpos : 0 < x.mantissa) :
    (10 : ℚ) ^ (x.firstPlace - 16) * 2 ^ (-x.exponent) < 1 ∧
      (x.mantissa = leastNormal → (10 : ℚ) ^ (x.firstPlace - 16) * 2 ^ (-x.exponent) < 1 / 2) := by
  have hplace := firstPlace_le hx hpos
  have hscale : (0 : ℚ) < 2 ^ (-x.exponent) := by positivity
  have hcancel : (2 : ℚ) ^ x.exponent * 2 ^ (-x.exponent) = 1 := by
    rw [← zpow_add₀ two_ne_zero, add_neg_cancel, zpow_zero]
  have hstep : (10 : ℚ) ^ (x.firstPlace - 16) = 10 ^ x.firstPlace / 10 ^ 16 := by
    rw [zpow_sub₀ (by norm_num)]
    norm_num
  have hle : (10 : ℚ) ^ (x.firstPlace - 16) * 2 ^ (-x.exponent) ≤ x.mantissa / 10 ^ 16 := by
    calc (10 : ℚ) ^ (x.firstPlace - 16) * 2 ^ (-x.exponent)
        = 10 ^ x.firstPlace * 2 ^ (-x.exponent) / 10 ^ 16 := by rw [hstep]; ring
      _ ≤ x.mantissa * 2 ^ x.exponent * 2 ^ (-x.exponent) / 10 ^ 16 := by gcongr
      _ = x.mantissa / 10 ^ 16 := by rw [mul_assoc, hcancel, mul_one]
  constructor
  · have hlt : (x.mantissa : ℚ) < (2 * leastNormal : Nat) := by exact_mod_cast hx.mantissa_lt
    refine hle.trans_lt ?_
    rw [div_lt_one (by positivity)]
    refine hlt.trans ?_
    norm_num [leastNormal]
  · intro hleast
    refine hle.trans_lt ?_
    rw [hleast]
    norm_num [leastNormal]

/-- The grid points around a double. -/
theorem floor_bounds (x : Magnitude) (scale : Int) :
    let n := 4 * x.mantissa * (x.grid scale).right / (x.grid scale).left
    (n : ℚ) * 10 ^ scale * 2 ^ (-x.exponent) ≤ x.mantissa ∧
      (x.mantissa : ℚ) < (n + 1 : Nat) * 10 ^ scale * 2 ^ (-x.exponent) := by
  have hquarters : ((4 * x.mantissa : Nat) : ℚ) = 4 * x.mantissa := by push_cast; rfl
  have hleft : 0 < (x.grid scale).left :=
    scaleUp_pos (scaleUp_pos one_pos (by decide) _) two_pos _
  constructor
  · exact (point_le_iff hquarters).1 (Nat.div_mul_le_self _ _)
  · rw [← not_le, ← point_le_iff hquarters, not_le, add_mul, one_mul]
    exact Nat.lt_div_mul_add hleft

/-- **Seventeen digits suffice.** -/
theorem onGrid?_seventeen (hx : x.Canonical) (hpos : 0 < x.mantissa) :
    (onGrid? x (x.grid (x.firstPlace - 16))).isSome := by
  obtain ⟨hunit, hhalf⟩ := seventeenth_step hx hpos
  generalize x.firstPlace - 16 = scale at *
  refine onGrid?_isSome ?_
  rw [readsBack_iff hpos, readsBack_iff hpos]
  obtain ⟨hbelow, habove⟩ := x.floor_bounds scale
  generalize 4 * x.mantissa * (x.grid scale).right / (x.grid scale).left = n at *
  have hreach := x.reachBelow_pos
  have hnext : ((n + 1 : Nat) : ℚ) * 10 ^ scale * 2 ^ (-x.exponent) =
      n * 10 ^ scale * 2 ^ (-x.exponent) + 10 ^ scale * 2 ^ (-x.exponent) := by
    push_cast
    ring
  by_cases hup : ((n + 1 : Nat) : ℚ) * 10 ^ scale * 2 ^ (-x.exponent) < x.mantissa + 1 / 2
  · exact Or.inr (.of_lt (by linarith) hup)
  · -- The grid is coarse here, so the double is no power of two.
    have hne : ¬ (x.mantissa = leastNormal ∧ leastExponent < x.exponent) := by
      rintro ⟨hleast, -⟩
      linarith [hhalf hleast]
    refine Or.inl (.of_lt ?_ ?_)
    · rw [reachBelow, if_neg hne]
      linarith
    · linarith

/-! ## The shortest digits -/

/-- Every search that may go on to seventeen digits finds digits that are rounded to the double. -/
theorem search_roundsTo (hx : x.Canonical) (hpos : 0 < x.mantissa) (fuel count : Nat)
    (hsum : fuel + count = 17) :
    RoundsTo ((search x x.firstPlace (fuel + 1) count).digits *
      10 ^ (search x x.firstPlace (fuel + 1) count).scale) x := by
  induction fuel generalizing count with
  | zero =>
    obtain ⟨c, hc⟩ := Option.isSome_iff_exists.1 (onGrid?_seventeen hx hpos)
    have hscale : x.firstPlace - count + 1 = x.firstPlace - 16 := by omega
    simp only [search, hscale, hc]
    exact (readsBack_iff hpos _ _).1 (readsBack_of_onGrid? hc)
  | succ fuel ih =>
    rw [search]
    split
    · rename_i c hc
      exact (readsBack_iff hpos _ _).1 (readsBack_of_onGrid? hc)
    · exact ih (count + 1) (by omega)

/-- **The digits of a double are rounded to the double.** -/
theorem shortest_roundsTo (hx : x.Canonical) (hpos : 0 < x.mantissa) :
    RoundsTo (x.shortest.digits * 10 ^ x.shortest.scale) x :=
  search_roundsTo hx hpos 16 1 rfl

/-- Zero reads back as no other double. -/
theorem readsBack_zero (hpos : 0 < x.mantissa) (scale : Int) :
    readsBack x (x.grid scale) 0 = false := by
  have hright := x.grid_right_pos scale
  unfold readsBack
  dsimp only
  rw [Nat.zero_mul]
  generalize hlow : 4 * x.mantissa -
    (if x.mantissa = leastNormal && leastExponent < x.exponent then 1 else 2) = low
  have hlowPos : 0 < low * (x.grid scale).right := by
    refine Nat.mul_pos ?_ hright
    split_ifs at hlow <;> omega
  split_ifs
  · rw [decide_eq_false (by omega), Bool.false_and]
  · rw [decide_eq_false (by omega), Bool.false_and]

theorem search_ne_zero (hpos : 0 < x.mantissa) (place : Int) (fuel count : Nat) :
    (search x place fuel count).digits ≠ 0 := by
  induction fuel generalizing count with
  | zero => exact hpos.ne'
  | succ fuel ih =>
    rw [search]
    split
    · rename_i c hc
      rintro rfl
      exact Bool.false_ne_true ((readsBack_zero hpos _).symm.trans (readsBack_of_onGrid? hc))
    · exact ih (count + 1)

/-- **The digits of a double that is not zero are not zero.** -/
theorem shortest_ne_zero (hpos : 0 < x.mantissa) : x.shortest.digits ≠ 0 :=
  search_ne_zero hpos _ 17 1

end CdkStacks.Decimal.Magnitude
