import Mathlib.Algebra.Order.Field.Rat
import Mathlib.Tactic.Linarith
import Mathlib.Tactic.NormNum
import Mathlib.Tactic.Ring
import Cutscene.Scene.Node

/-!
# Where motions land

A motion is done when its curve has arrived, which is when the curve is at one or above. It lands if it is
where it is to go by then.

Results:
* `Tween.position_of_arrived`: a glide lands in any case.
* `Ease.lands_of_le_one`: with exact numbers, any motion lands along a curve that does not overshoot.
* `Ease.apply_le_one`, `Ease.one_le_apply_iff`: the curves with a name do not overshoot, and arrive when
  their time is over and not before.
-/

namespace Cutscene

/-- A glide that has arrived is where it is to go. -/
theorem Tween.position_of_arrived {R : Type} [Scalar R] {g : Tween R} (h : g.position.2) :
    g.position.1 = g.target := by
  unfold position at h ⊢
  simp only at h ⊢
  split_ifs at h ⊢
  rfl

namespace Ease

/-- Motions along a curve land where they are to go. -/
def Lands {R : Type} [Scalar R] (e : Ease R) : Prop :=
  ∀ (a b : Int32) (t : R), 1 ≤ e.apply t → lerp a b (e.apply t) = b

theorem lerp_one (a b : Int32) : lerp a b (1 : Rat) = b := by
  have hsum : (Scalar.ofInt a.toInt : Rat) + (Scalar.ofInt b.toInt - Scalar.ofInt a.toInt) * 1 =
      (b.toInt : Rat) := by
    change (a.toInt : Rat) + ((b.toInt : Rat) - (a.toInt : Rat)) * 1 = _
    ring
  unfold lerp
  rw [hsum]
  change Int32.ofInt (max (-0x80000000) (min 0x7FFFFFFF (Scalar.truncateRat (b.toInt : Rat)))) = b
  have htrunc : Scalar.truncateRat (b.toInt : Rat) = b.toInt := by
    unfold Scalar.truncateRat
    simp
  have hlt := b.toInt_lt
  have hge := b.le_toInt
  rw [htrunc, min_eq_right (by omega), max_eq_right (by omega), Int32.ofInt_toInt]

/-- A curve that is nowhere above one lands. -/
theorem lands_of_le_one {e : Ease Rat} (h : ∀ t, e.apply t ≤ 1) : e.Lands := by
  intro a b t harrived
  have hone : e.apply t = 1 := le_antisymm (h t) harrived
  rw [hone]
  exact lerp_one a b

/-! ## The curves with a name -/

theorem clampUnit_of_lt {t : Rat} (h : t < 1) :
    (0 : Rat) ≤ Scalar.clampUnit t ∧ Scalar.clampUnit t < (1 : Rat) := by
  unfold Scalar.clampUnit
  split_ifs with hneg hbig
  · exact ⟨le_refl (0 : Rat), one_pos⟩
  · exact absurd hbig (not_lt.mpr (le_of_lt h))
  · exact ⟨not_lt.mp hneg, h⟩

theorem clampUnit_of_le {t : Rat} (h : 1 ≤ t) : Scalar.clampUnit t = (1 : Rat) := by
  unfold Scalar.clampUnit
  split_ifs with hneg hbig
  · exact absurd hneg (not_lt.mpr (le_trans zero_le_one h))
  · rfl
  · exact le_antisymm (not_lt.mp hbig) h

/-- When the time is over, a motion is where it is at the end. -/
theorem apply_of_le (e : Ease Rat) {t : Rat} (h : 1 ≤ t) : e.apply t = e.apply 1 := by
  unfold apply
  rw [clampUnit_of_le h, clampUnit_of_le (le_refl 1)]

theorem lt_half {u : Rat} (h : u < (OfScientific.ofScientific 5 true 1 : Rat)) : u < 1 / 2 := by
  norm_num at h ⊢
  exact h

/-- Before its time is over, a motion along a curve with a name has not arrived. -/
theorem apply_lt_one {e : Ease Rat} (h : e.name?.isSome) {t : Rat} (ht : t < 1) :
    e.apply t < 1 := by
  obtain ⟨hnonneg, hlt⟩ := clampUnit_of_lt ht
  unfold apply
  simp only
  generalize (Scalar.clampUnit t : Rat) = u at hnonneg hlt ⊢
  have hgap : 0 < 1 - u := sub_pos.mpr hlt
  have hsquare : 0 < (1 - u) * (1 - u) := mul_pos hgap hgap
  have hcube : 0 < (1 - u) * (1 - u) * (1 - u) := mul_pos hsquare hgap
  cases e with
  | linear => exact hlt
  | inQuad =>
    change u * u < (1 : Rat)
    nlinarith only [hnonneg, hlt]
  | outQuad =>
    change 1 - (1 - u) * (1 - u) < (1 : Rat)
    linarith only [hsquare]
  | inOutQuad =>
    simp only
    split_ifs with hhalf
    · have hsmall := lt_half hhalf
      change 2 * u * u < (1 : Rat)
      nlinarith only [hnonneg, hsmall]
    · change 1 - (-2 * u + 2) * (-2 * u + 2) / 2 < (1 : Rat)
      linarith only [hsquare]
  | inCubic =>
    change u * u * u < (1 : Rat)
    nlinarith only [hnonneg, hlt, mul_nonneg hnonneg hnonneg]
  | outCubic =>
    change 1 - (1 - u) * (1 - u) * (1 - u) < (1 : Rat)
    linarith only [hcube]
  | inOutCubic =>
    simp only
    split_ifs with hhalf
    · have hsmall := lt_half hhalf
      change 4 * u * u * u < (1 : Rat)
      nlinarith only [hnonneg, hsmall, mul_nonneg hnonneg hnonneg]
    · change 1 - (-2 * u + 2) * (-2 * u + 2) * (-2 * u + 2) / 2 < (1 : Rat)
      linarith only [hcube]
  | custom curve => exact absurd h Bool.false_ne_true

/-- Once its time is over, a motion along a curve with a name is at one. -/
theorem apply_of_one_le {e : Ease Rat} (h : e.name?.isSome) {t : Rat} (ht : 1 ≤ t) :
    e.apply t = 1 := by
  unfold apply
  rw [clampUnit_of_le ht]
  cases e with
  | custom curve => exact absurd h Bool.false_ne_true
  | _ => decide +kernel

theorem apply_le_one {e : Ease Rat} (h : e.name?.isSome) (t : Rat) : e.apply t ≤ 1 := by
  rcases lt_or_ge t 1 with ht | ht
  · exact le_of_lt (apply_lt_one h ht)
  · exact le_of_eq (apply_of_one_le h ht)

/-- A curve with a name arrives when the time is over. -/
theorem one_le_apply_iff {e : Ease Rat} (h : e.name?.isSome) {t : Rat} :
    1 ≤ e.apply t ↔ 1 ≤ t := by
  refine ⟨fun harrived => ?_, fun ht => le_of_eq (apply_of_one_le h ht).symm⟩
  by_contra hearly
  exact absurd harrived (not_le.mpr (apply_lt_one h (not_le.mp hearly)))

theorem lands_inOutCubic : (inOutCubic : Ease Rat).Lands := lands_of_le_one (apply_le_one rfl)

end Ease

end Cutscene
