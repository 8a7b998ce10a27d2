import Mathlib.Order.Interval.Set.UnorderedInterval
import Mathlib.Tactic.Linarith
import Mathlib.Tactic.NormNum
import Cutscene.Proofs.Motion.Landing

/-!
# Curves that rise

A curve with a name is made of powers, and it turns back nowhere, not at the joint of its halves either. A
position is cut toward zero, so it is rounded down on one side of zero and up on the other; each of the
stages from a progress to a position keeps the order all the same, and so a position only ever comes closer
to where it is to go.

Results:
* `Ease.apply_le_apply`, `Ease.apply_zero`: a curve with a name rises from zero.
* `truncateRat_le_truncateRat`, `toInt_lerp_le_toInt_lerp`: the stages of a position.
* `lerp_mem_uIcc`: a position is between any former one and the target.
-/

namespace Cutscene

namespace Ease

theorem clampUnit_eq (t : Rat) : Scalar.clampUnit t = max (0 : Rat) (min t 1) := by
  unfold Scalar.clampUnit
  split_ifs with hneg hbig
  · exact (max_eq_left ((min_le_left t 1).trans (le_of_lt hneg))).symm
  · exact ((congrArg _ (min_eq_right (le_of_lt hbig))).trans (max_eq_right zero_le_one)).symm
  · exact ((congrArg _ (min_eq_left (not_lt.mp hbig))).trans (max_eq_right (not_lt.mp hneg))).symm

theorem clampUnit_le_clampUnit {s t : Rat} (h : s ≤ t) :
    (Scalar.clampUnit s : Rat) ≤ Scalar.clampUnit t := by
  rw [clampUnit_eq, clampUnit_eq]
  exact max_le_max le_rfl (min_le_min h le_rfl)

theorem clampUnit_mem (t : Rat) : (0 : Rat) ≤ Scalar.clampUnit t ∧ Scalar.clampUnit t ≤ (1 : Rat) := by
  rw [clampUnit_eq]
  exact ⟨le_max_left _ _, max_le zero_le_one (min_le_right _ _)⟩

theorem square_le_square {s t : Rat} (hs : 0 ≤ s) (h : s ≤ t) : square s ≤ square t :=
  mul_le_mul h h hs (hs.trans h)

theorem cube_le_cube {s t : Rat} (hs : 0 ≤ s) (h : s ≤ t) : cube s ≤ cube t :=
  mul_le_mul (square_le_square hs h) h hs (mul_self_nonneg t)

theorem half_le {u : Rat} (h : ¬u < (OfScientific.ofScientific 5 true 1 : Rat)) : 1 / 2 ≤ u := by
  norm_num at h ⊢
  exact h

/-- A curve with a name rises. -/
theorem apply_le_apply {e : Ease Rat} (h : e.name?.isSome) {s t : Rat} (hst : s ≤ t) :
    e.apply s ≤ e.apply t := by
  have huv := clampUnit_le_clampUnit hst
  have hu := (clampUnit_mem s).1
  have hv := (clampUnit_mem t).2
  unfold apply
  simp only
  generalize (Scalar.clampUnit s : Rat) = u at huv hu ⊢
  generalize (Scalar.clampUnit t : Rat) = v at huv hv ⊢
  have hsquares : u * u ≤ v * v := square_le_square hu huv
  have hcubes : u * u * u ≤ v * v * v := cube_le_cube hu huv
  have hgap : 0 ≤ 1 - v := sub_nonneg.mpr hv
  have hgaps : 1 - v ≤ 1 - u := sub_le_sub_left huv 1
  have hgapSquares : (1 - v) * (1 - v) ≤ (1 - u) * (1 - u) := square_le_square hgap hgaps
  have hgapCubes : (1 - v) * (1 - v) * (1 - v) ≤ (1 - u) * (1 - u) * (1 - u) := cube_le_cube hgap hgaps
  cases e with
  | linear => exact huv
  | inQuad => exact hsquares
  | outQuad => exact sub_le_sub_left hgapSquares 1
  | inOutQuad =>
    simp only
    split_ifs with hleft hright hright
    · change 2 * u * u ≤ 2 * v * v
      linarith only [hsquares]
    · have hend : u * u ≤ 1 / 2 * (1 / 2) := square_le_square hu (lt_half hleft).le
      have hgapEnd : (1 - v) * (1 - v) ≤ 1 / 2 * (1 / 2) :=
        square_le_square hgap (by linarith only [half_le hright])
      change 2 * u * u ≤ 1 - (-2 * v + 2) * (-2 * v + 2) / 2
      linarith only [hend, hgapEnd]
    · exact absurd (lt_of_le_of_lt huv hright) hleft
    · change 1 - (-2 * u + 2) * (-2 * u + 2) / 2 ≤ 1 - (-2 * v + 2) * (-2 * v + 2) / 2
      linarith only [hgapSquares]
  | inCubic => exact hcubes
  | outCubic => exact sub_le_sub_left hgapCubes 1
  | inOutCubic =>
    simp only
    split_ifs with hleft hright hright
    · change 4 * u * u * u ≤ 4 * v * v * v
      linarith only [hcubes]
    · have hend : u * u * u ≤ 1 / 2 * (1 / 2) * (1 / 2) := cube_le_cube hu (lt_half hleft).le
      have hgapEnd : (1 - v) * (1 - v) * (1 - v) ≤ 1 / 2 * (1 / 2) * (1 / 2) :=
        cube_le_cube hgap (by linarith only [half_le hright])
      change 4 * u * u * u ≤ 1 - (-2 * v + 2) * (-2 * v + 2) * (-2 * v + 2) / 2
      linarith only [hend, hgapEnd]
    · exact absurd (lt_of_le_of_lt huv hright) hleft
    · change 1 - (-2 * u + 2) * (-2 * u + 2) * (-2 * u + 2) / 2 ≤
        1 - (-2 * v + 2) * (-2 * v + 2) * (-2 * v + 2) / 2
      linarith only [hgapCubes]
  | custom curve => exact absurd h Bool.false_ne_true

theorem apply_zero {e : Ease Rat} (h : e.name?.isSome) : e.apply 0 = 0 := by
  cases e with
  | custom curve => exact absurd h Bool.false_ne_true
  | _ => decide +kernel

end Ease

/-! ## Positions -/

theorem truncateRat_le_truncateRat {x y : Rat} (h : x ≤ y) : Scalar.truncateRat x ≤ Scalar.truncateRat y := by
  have hx : (0 : Int) < x.den := Int.natCast_pos.mpr x.den_pos
  have hy : (0 : Int) < y.den := Int.natCast_pos.mpr y.den_pos
  unfold Scalar.truncateRat
  rw [← Int.mul_tdiv_mul_of_pos_left x.num x.den hy, ← Int.mul_tdiv_mul_of_pos_left y.num y.den hx,
    Int.mul_comm (y.den : Int)]
  exact Int.tdiv_le_tdiv (Int.mul_pos hx hy) ((Rat.le_iff x y).mp h)

/-- The point of a line at a progress. -/
def along (a b : Int32) (t : Rat) : Rat := a.toInt + (b.toInt - a.toInt) * t

theorem toInt_lerp (a b : Int32) (t : Rat) :
    (lerp a b t).toInt = max (-0x80000000) (min 0x7FFFFFFF (Scalar.truncateRat (along a b t))) := by
  have heq : lerp a b t =
      Int32.ofInt (max (-0x80000000) (min 0x7FFFFFFF (Scalar.truncateRat (along a b t)))) := rfl
  rw [heq, Int32.toInt_ofInt_of_le (by omega) (by omega)]

theorem toInt_lerp_le_toInt_lerp {a b : Int32} {s t : Rat} (h : along a b s ≤ along a b t) :
    (lerp a b s).toInt ≤ (lerp a b t).toInt := by
  rw [toInt_lerp, toInt_lerp]
  exact max_le_max le_rfl (min_le_min le_rfl (truncateRat_le_truncateRat h))

theorem along_le_along {a b : Int32} (hab : a.toInt ≤ b.toInt) {s t : Rat} (h : s ≤ t) :
    along a b s ≤ along a b t := by
  have hdistance : (0 : Rat) ≤ b.toInt - a.toInt := sub_nonneg.mpr (Int.cast_le.mpr hab)
  have hway := mul_le_mul_of_nonneg_left h hdistance
  unfold along
  linarith only [hway]

theorem along_le_along_of_ge {a b : Int32} (hba : b.toInt ≤ a.toInt) {s t : Rat} (h : s ≤ t) :
    along a b t ≤ along a b s := by
  have hdistance : (b.toInt - a.toInt : Rat) ≤ 0 := sub_nonpos.mpr (Int.cast_le.mpr hba)
  have hway := mul_le_mul_of_nonpos_left h hdistance
  unfold along
  linarith only [hway]

/-- A position is between any former one and the target. -/
theorem lerp_mem_uIcc (a b : Int32) {s t : Rat} (hst : s ≤ t) (ht : t ≤ 1) :
    (lerp a b t).toInt ∈ Set.uIcc (lerp a b s).toInt b.toInt := by
  have hend : b.toInt = (lerp a b (1 : Rat)).toInt := congrArg _ (Ease.lerp_one a b).symm
  rw [hend, Set.mem_uIcc]
  rcases le_total a.toInt b.toInt with hab | hba
  · exact .inl ⟨toInt_lerp_le_toInt_lerp (along_le_along hab hst),
      toInt_lerp_le_toInt_lerp (along_le_along hab ht)⟩
  · exact .inr ⟨toInt_lerp_le_toInt_lerp (along_le_along_of_ge hba ht),
      toInt_lerp_le_toInt_lerp (along_le_along_of_ge hba hst)⟩

theorem lerp_zero (a b : Int32) : lerp a b (0 : Rat) = a := by
  have hback : along a b 0 = along b a 1 := by
    unfold along
    ring
  exact (congrArg Scalar.toInt32 hback).trans (Ease.lerp_one b a)

/-- A place is on the way from one place to another: either coordinate is between theirs. -/
def Point.Between (p q r : Point) : Prop :=
  q.x.toInt ∈ Set.uIcc p.x.toInt r.x.toInt ∧ q.y.toInt ∈ Set.uIcc p.y.toInt r.y.toInt

end Cutscene
