import Cutscene.Proofs.Json.Numeral

/-!
# Layouts write numerals

Whatever the layout, a finite number is written as a numeral of JSON: the digits of a number that is not
zero do not start with a zero, wherever the point goes.

Results:
* `Binary.shortest_digits_ne_zero`: the shortest decimal of a number that is not zero.
* `Layout.isMagnitude_positional`, `Layout.isMagnitude_scientific`: both notations.
* `Layout.isNumeral_text`, `Layout.isNumeral_text32`: numbers of either size.
-/

namespace Cutscene

namespace Binary

theorem onGrid_digits_ne_zero {tie : Tie} {x : Binary} {e : Int} {d : Digits} (h : x.onGrid tie e = some d) :
    d.digits ≠ 0 := by
  unfold onGrid at h
  simp only at h
  generalize x.mantissa * Nat.pow 2 x.exponent.toNat * Nat.pow 10 (-e).toNat = num at h
  generalize Nat.pow 2 (-x.exponent).toNat * Nat.pow 10 e.toNat = den at h
  have hfloor : (x.covers ⟨num / den, e⟩ && num / den != 0) = true → num / den ≠ 0 := by
    intro hfloor
    simpa using (Bool.and_eq_true_iff.mp hfloor).2
  have hceiling : num / den + 1 ≠ 0 := Nat.succ_ne_zero _
  split at h
  · rename_i hboth _
    split at h
    · cases h
      exact hfloor hboth
    · cases h
      exact hceiling
    · cases h
      exact hceiling
    · split_ifs at h
      · cases h
        exact hfloor hboth
      · cases h
        exact hceiling
  · rename_i hone _
    cases h
    exact hfloor hone
  · cases h
    exact hceiling
  · cases h

theorem strip_digits_ne_zero {fuel : Nat} {d : Digits} (h : d.digits ≠ 0) : (strip fuel d).digits ≠ 0 := by
  induction fuel generalizing d with
  | zero => exact h
  | succ fuel ih =>
    unfold strip
    split_ifs with hzero
    · exact ih (fun hdiv => by simp only at hdiv; omega)
    · exact h

/-- The shortest decimal of a number that is not zero is not zero. -/
theorem shortest_digits_ne_zero {x : Binary} (h : x.mantissa ≠ 0) (tie : Tie) :
    (x.shortest tie).digits ≠ 0 := by
  unfold shortest
  refine strip_digits_ne_zero ?_
  cases hfound : (List.range 17).findSome? fun n : Nat => x.onGrid tie (x.scale - (n + 1)) with
  | none =>
    refine Nat.mul_ne_zero (Nat.mul_ne_zero h ?_) ?_
    · exact Nat.pos_iff_ne_zero.mp (Nat.pow_pos (by decide))
    · exact Nat.pos_iff_ne_zero.mp (Nat.pow_pos (by decide))
  | some d =>
    obtain ⟨n, -, hn⟩ := List.exists_of_findSome?_eq_some hfound
    exact onGrid_digits_ne_zero hn

end Binary

namespace Layout

variable {l : Layout} {d : Digits}

open Json

theorem toList_zeros (n : Nat) : (zeros n).toList = List.replicate n '0' := by
  rw [zeros, String.toList_ofList]

theorem isDigits_append {cs ds : List Char} (h : IsDigits cs) (hds : ∀ c ∈ ds, c.isDigit = true) :
    IsDigits (cs ++ ds) :=
  ⟨List.append_ne_nil_of_left_ne_nil h.1 ds, fun c hc => (List.mem_append.mp hc).elim (h.2 c) (hds c)⟩

theorem isDigit_of_mem_replicate {n : Nat} {c : Char} (h : c ∈ List.replicate n '0') : c.isDigit = true := by
  rw [(List.mem_replicate.mp h).2]
  rfl

/-- A piece off the front of the digits of a number that is not zero. -/
theorem isWhole_take {n k : Nat} (hn : n ≠ 0) (hk : 0 < k) : IsWhole ((Nat.toDigits 10 n).take k) := by
  have hdigits := isDigits_toDigits n
  have hhead := head?_toDigits hn
  cases h : Nat.toDigits 10 n with
  | nil => exact absurd h Nat.toDigits_ne_nil
  | cons c r =>
    rw [h] at hdigits hhead
    obtain ⟨k, rfl⟩ := Nat.exists_eq_succ_of_ne_zero (Nat.ne_of_gt hk)
    rw [List.take_succ_cons]
    refine ⟨⟨List.cons_ne_nil _ _, fun d hd => ?_⟩, fun hzero => absurd hzero hhead⟩
    rcases List.mem_cons.mp hd with rfl | hd
    · exact hdigits.2 d List.mem_cons_self
    · exact hdigits.2 d (List.mem_cons_of_mem _ (List.mem_of_mem_take hd))

theorem isDigits_drop {n k : Nat} (hk : k < (Nat.toDigits 10 n).length) :
    IsDigits ((Nat.toDigits 10 n).drop k) :=
  ⟨fun hnil => Nat.not_le_of_lt hk (List.drop_eq_nil_iff.mp hnil),
    fun c hc => (isDigits_toDigits n).2 c (List.mem_of_mem_drop hc)⟩

/-- Zeros behind the digits of a number that is not zero. -/
theorem isWhole_append_zeros {n : Nat} (hn : n ≠ 0) (k : Nat) :
    IsWhole (Nat.toDigits 10 n ++ List.replicate k '0') := by
  refine ⟨isDigits_append (isDigits_toDigits n) fun c hc => isDigit_of_mem_replicate hc, fun hzero => ?_⟩
  rw [List.head?_append] at hzero
  have hhead := head?_toDigits hn
  cases h : Nat.toDigits 10 n with
  | nil => exact absurd h Nat.toDigits_ne_nil
  | cons c r =>
    rw [h] at hzero hhead
    exact absurd hzero hhead

theorem length_repr (n : Nat) : (Nat.repr n).length = (Nat.toDigits 10 n).length := by
  rw [← String.length_toList, toList_repr]

/-- A decimal that is not zero is written as a number without a sign in positional notation. -/
theorem isMagnitude_positional (h : d.digits ≠ 0) : IsMagnitude (l.positional d).toList := by
  have hpos : 0 < (Nat.toDigits 10 d.digits).length := List.length_pos_iff.mpr (isDigits_toDigits _).1
  unfold positional
  simp only [length_repr]
  split_ifs with hexp hpoint hlead
  · have hparts := IsMagnitude.parts (isWhole_append_zeros h d.exponent.toNat)
      (.some ⟨List.cons_ne_nil '0' [], by simp⟩) .none
    simpa [toList_repr, toList_zeros] using hparts
  · have hparts := (isWhole_append_zeros h d.exponent.toNat).magnitude
    simpa [toList_repr, toList_zeros] using hparts
  · let place := ((Nat.toDigits 10 d.digits).length + d.exponent).toNat
    have hbefore : 0 < place := by omega
    have hbehind : place < (Nat.toDigits 10 d.digits).length := by omega
    have hparts := IsMagnitude.parts (isWhole_take h hbefore) (.some (isDigits_drop hbehind)) .none
    simpa [toList_repr] using hparts
  · have hzeros : IsDigits (List.replicate (-((Nat.toDigits 10 d.digits).length + d.exponent)).toNat '0' ++
        Nat.toDigits 10 d.digits) := by
      refine ⟨List.append_ne_nil_of_right_ne_nil _ Nat.toDigits_ne_nil, fun c hc => ?_⟩
      exact (List.mem_append.mp hc).elim isDigit_of_mem_replicate ((isDigits_toDigits _).2 c)
    have hparts := IsMagnitude.parts (isWhole_toDigits 0) (.some hzeros) .none
    simpa [toList_repr, toList_zeros] using hparts

/-- So it is in scientific notation. -/
theorem isMagnitude_scientific (h : d.digits ≠ 0) : IsMagnitude (l.scientific d).toList := by
  have hlead := isWhole_take (k := 1) h Nat.one_pos
  have hfraction : IsFraction ((if String.ofList ((Nat.repr d.digits).toList.drop 1) = "" then "" else
      "." ++ String.ofList ((Nat.repr d.digits).toList.drop 1)).toList) := by
    rw [toList_repr]
    split_ifs with hnone
    · exact .none
    · have htext : ∀ ds, ("." ++ String.ofList ds).toList = '.' :: ds := by simp
      rw [htext]
      refine .some ⟨fun hnil => hnone (by rw [hnil]), fun c hc => ?_⟩
      exact (isDigits_toDigits _).2 c (List.mem_of_mem_drop hc)
  have hexponent : ∀ n : Int, IsExponent (("e" ++
      (if n < 0 then "-" else if l.exponentPlus then "+" else "") ++ Nat.repr n.natAbs).toList) := by
    intro n
    split_ifs
    · simpa [toList_repr] using IsExponent.minus (isDigits_toDigits n.natAbs)
    · simpa [toList_repr] using IsExponent.plus (isDigits_toDigits n.natAbs)
    · simpa [toList_repr] using IsExponent.plain (isDigits_toDigits n.natAbs)
  have hparts := IsMagnitude.parts hlead hfraction
    (hexponent ((Nat.toDigits 10 d.digits).length - 1 + d.exponent))
  unfold scientific
  simp only [length_repr, String.toList_append, String.toList_ofList, toList_repr, List.append_assoc]
    at hparts ⊢
  exact hparts

theorem isMagnitude_digits (h : d.digits ≠ 0) : IsMagnitude (l.digits d).toList := by
  unfold digits
  simp only
  split_ifs
  · exact isMagnitude_positional h
  · exact isMagnitude_scientific h

theorem isNumeral_signed (l : Layout) (negative : Bool) (x : Binary) :
    IsNumeral (l.signed negative x).toList := by
  have hmagnitude : IsMagnitude (if x.mantissa = 0 then l.zero else l.digits (x.shortest l.tie)).toList := by
    split_ifs with hzero
    · unfold zero
      split_ifs
      · exact .parts (isWhole_toDigits 0) (.some (isDigits_toDigits 0)) .none
      · exact (isWhole_toDigits 0).magnitude
    · exact isMagnitude_digits (Binary.shortest_digits_ne_zero hzero _)
  unfold signed
  rw [String.toList_append]
  cases negative with
  | false => exact .positive hmagnitude
  | true => exact .negative hmagnitude

theorem isNumber_of_isFinite {u : Float.Model.UnpackedFloat} (h : u.isFinite) :
    u.isNaN = false ∧ u.isInf = false := by
  cases u with
  | notANumber => cases h
  | infinity => cases h
  | _ => exact ⟨rfl, rfl⟩

/-- A double that is a number is written as one. -/
theorem isNumeral_text (l : Layout) {x : Float} (h : x.isFinite) : IsNumeral (l.text x).toList := by
  have hnumber : x.isNaN = false ∧ x.isInf = false := isNumber_of_isFinite h
  unfold text
  rw [hnumber.1, hnumber.2]
  exact l.isNumeral_signed _ _

/-- So is a 32-bit float. -/
theorem isNumeral_text32 (l : Layout) {x : Float32} (h : x.isFinite) : IsNumeral (l.text32 x).toList := by
  have hnumber : x.isNaN = false ∧ x.isInf = false := isNumber_of_isFinite h
  unfold text32
  rw [hnumber.1, hnumber.2]
  exact l.isNumeral_signed _ _

end Layout

end Cutscene
