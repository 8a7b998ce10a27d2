import Mathlib.Data.List.Basic
import Cutscene.Proofs.Movie.RawVideo

/-!
# Straight colors and back

A premultiplied color is divided by its alpha before it is written, and scaled by it again when it is read.
Both times the result is rounded. The quotient times the alpha misses what was divided by half of 255 at most,
so that the second rounding gives the byte again.

Results:
* `toNat_unscaleByte`: a byte up to its alpha is divided without a clamp.
* `scaleByte_unscaleByte`: such a byte comes back.
* `Color.premultiplied_straightColor_iff`: just the valid colors come back.
* `Color.IsValid.returns`: on their way no number takes more than 16 bits, and none is clamped.
* `Frame.premultiplyBytes_straight_iff`: a premultiplied frame comes back just if its colors are valid.
-/

namespace Cutscene

/-! ## Bytes -/

section Bytes

variable {c a : UInt8}

/-- A byte up to its alpha gives a quotient that is a byte. -/
theorem quotient_le (h : c ≤ a) : (c.toNat * 255 + a.toNat / 2) / a.toNat ≤ 255 := by
  have hle := UInt8.le_iff_toNat_le.mp h
  obtain hzero | hpos := Nat.eq_zero_or_pos a.toNat
  · rw [hzero, Nat.div_zero]
    exact Nat.zero_le _
  · refine Nat.le_of_lt_succ ((Nat.div_lt_iff_lt_mul hpos).mpr ?_)
    omega

/-- Such a quotient is not clamped. -/
theorem toNat_unscaleByte (h : c ≤ a) :
    (Frame.unscaleByte c a).toNat = (c.toNat * 255 + a.toNat / 2) / a.toNat := by
  have hquotient := quotient_le h
  unfold Frame.unscaleByte
  rw [Nat.min_eq_left hquotient, Nat.toUInt8_eq, UInt8.toNat_ofNat']
  exact Nat.mod_eq_of_lt (Nat.lt_succ_of_le hquotient)

/-- A byte up to its alpha comes back. What the quotient misses is made up for by rounding once more. -/
theorem scaleByte_unscaleByte (h : c ≤ a) (ha : a ≠ 0) : scaleByte (Frame.unscaleByte c a) a = c := by
  have hpos : 0 < a.toNat := Nat.pos_of_ne_zero fun hzero => ha (UInt8.toNat_inj.mp hzero)
  have hbyte := a.toNat_lt
  refine UInt8.toNat_inj.mp ?_
  rw [toNat_scaleByte, toNat_unscaleByte h]
  generalize hq : (c.toNat * 255 + a.toNat / 2) / a.toNat = q
  have hle : q * a.toNat ≤ c.toNat * 255 + a.toNat / 2 := hq ▸ Nat.div_mul_le_self _ _
  have hlt : c.toNat * 255 + a.toNat / 2 < q * a.toNat + a.toNat := hq ▸ Nat.lt_div_mul_add hpos
  -- Half an alpha is at most 127, and the other half at most 128.
  have hlow : c.toNat * 255 ≤ q * a.toNat + 127 := by omega
  have hhigh : q * a.toNat + 127 < (c.toNat + 1) * 255 := by omega
  exact Nat.div_eq_of_lt_le hlow hhigh

end Bytes

/-! ## Colors -/

open Cutscene.Frame (straightColor unscaleByte)

namespace Color

theorem isValid_premultiplied (c : Color) : c.premultiplied.IsValid where
  r := UInt8.le_iff_toNat_le.mpr (scaleByte_le c.r c.a)
  g := UInt8.le_iff_toNat_le.mpr (scaleByte_le c.g c.a)
  b := UInt8.le_iff_toNat_le.mpr (scaleByte_le c.b c.a)

theorem isValid_of_full {c : Color} (h : c.a = 255) : c.IsValid := by
  have hle : ∀ x : UInt8, x ≤ c.a := by
    intro x
    rw [h]
    exact UInt8.le_iff_toNat_le.mpr (Nat.le_of_lt_succ x.toNat_lt)
  exact ⟨hle _, hle _, hle _⟩

theorem IsValid.byte_le {c : Color} (h : c.IsValid) (j : Nat) : c.byte j ≤ c.a := by
  unfold byte
  split_ifs
  · exact h.r
  · exact h.g
  · exact h.b
  · exact UInt8.le_refl _

/-- A valid color without alpha is all zero. -/
theorem IsValid.eq_clear {c : Color} (h : c.IsValid) (ha : c.a = 0) : c = .clear := by
  have hzero : ∀ x : UInt8, x ≤ c.a → x = 0 := by
    intro x hx
    rw [ha] at hx
    exact UInt8.toNat_inj.mp (Nat.le_zero.mp (UInt8.le_iff_toNat_le.mp hx))
  obtain ⟨r, g, b, a⟩ := c
  obtain rfl : r = 0 := hzero r h.r
  obtain rfl : g = 0 := hzero g h.g
  obtain rfl : b = 0 := hzero b h.b
  obtain rfl : a = 0 := ha
  rfl

/-- A valid color comes back, whichever way it took. -/
theorem IsValid.premultiplied_straightColor {c : Color} (h : c.IsValid) :
    (straightColor c).premultiplied = c := by
  by_cases hnone : c.a = 0
  · rw [h.eq_clear hnone]
    rfl
  by_cases hfull : c.a = 255
  · rw [straightColor, if_pos (.inr hfull), premultiplied_of_full hfull]
  · rw [straightColor, if_neg (not_or.mpr ⟨hnone, hfull⟩), premultiplied,
      scaleByte_unscaleByte h.r hnone, scaleByte_unscaleByte h.g hnone, scaleByte_unscaleByte h.b hnone]

/-- Just the valid colors come back, since nothing else is ever scaled to. -/
theorem premultiplied_straightColor_iff {c : Color} : (straightColor c).premultiplied = c ↔ c.IsValid :=
  ⟨fun h => h ▸ isValid_premultiplied _, IsValid.premultiplied_straightColor⟩

/-- How a color is made straight and comes back. Its bytes are told by their places, the alpha being the last. -/
structure Returns (c : Color) : Prop where
  /-- What is divided fits in 16 bits. -/
  dividend : ∀ j < 3, (c.byte j).toNat * 255 + c.a.toNat / 2 < UInt16.size
  /-- What the division gives is a byte as it is, without a clamp. -/
  quotient : c.a ≠ 0 → c.a ≠ 255 → ∀ j < 3,
    ((straightColor c).byte j).toNat = ((c.byte j).toNat * 255 + c.a.toNat / 2) / c.a.toNat
  /-- What is scaled again fits in 16 bits. -/
  product : ∀ j < 3, ((straightColor c).byte j).toNat * c.a.toNat + 127 < UInt16.size
  back : (straightColor c).premultiplied = c

theorem byte_straightColor {c : Color} (hnone : c.a ≠ 0) (hfull : c.a ≠ 255) {j : Nat} (hj : j < 3) :
    (straightColor c).byte j = unscaleByte (c.byte j) c.a := by
  rw [straightColor, if_neg (not_or.mpr ⟨hnone, hfull⟩)]
  unfold byte
  split_ifs
  · rfl
  · rfl
  · rfl
  · omega

/-- A product of two bytes leaves room for the half of a byte in 16 bits. -/
theorem mul_add_lt_word (x y : UInt8) {n : Nat} (hn : n ≤ 127) : x.toNat * y.toNat + n < UInt16.size := by
  have hx := mul_le_of_byte x y.toNat
  have hy := y.toNat_lt
  have hword : UInt16.size = 65536 := rfl
  omega

theorem IsValid.returns {c : Color} (h : c.IsValid) : c.Returns where
  dividend j _ := mul_add_lt_word (c.byte j) 255 (by have := c.a.toNat_lt; omega)
  quotient hnone hfull j hj := by
    rw [byte_straightColor hnone hfull hj]
    exact toNat_unscaleByte (h.byte_le j)
  product j _ := mul_add_lt_word _ c.a (Nat.le_refl _)
  back := h.premultiplied_straightColor

end Color

/-! ## Frames -/

namespace Frame

/-- The colors of all whole pixels are premultiplied ones. -/
def IsValid (f : Frame) : Prop := ∀ k, 4 * k + 4 ≤ f.data.size → (colorAt f.data (4 * k)).IsValid

/-- A premultiplied frame comes back just if its colors are valid. -/
theorem premultiplyBytes_straight_iff {f : Frame} (h : f.premultiplied = true) :
    premultiplyBytes f.straight = f.data ↔ f.IsValid := by
  have hthere : premultiplyBytes f.straight = mapPixels (fun c => (straightColor c).premultiplied) f.data := by
    rw [straight, if_pos h]
    exact mapPixels_mapPixels straightColor Color.premultiplied f.data
  rw [hthere, mapPixels_eq_self_iff]
  exact forall_congr' fun k => imp_congr_right fun _ => Color.premultiplied_straightColor_iff

/-- How a premultiplied frame is made straight and comes back. -/
structure Returns (f : Frame) : Prop where
  straight : ∀ k, 4 * k + 4 ≤ f.data.size →
    colorAt f.straight (4 * k) = straightColor (colorAt f.data (4 * k))
  colors : ∀ k, 4 * k + 4 ≤ f.data.size → (colorAt f.data (4 * k)).Returns
  /-- All bytes come back, those at the end as well that are too few for a pixel. -/
  back : premultiplyBytes f.straight = f.data

theorem IsValid.returns {f : Frame} (h : f.IsValid) (hpremultiplied : f.premultiplied = true) : f.Returns where
  straight k hk := by
    rw [Frame.straight, if_pos hpremultiplied]
    exact colorAt_mapPixels hk
  colors k hk := (h k hk).returns
  back := (premultiplyBytes_straight_iff hpremultiplied).mpr h

end Frame

end Cutscene
