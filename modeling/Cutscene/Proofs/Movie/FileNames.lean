import Mathlib.Algebra.Order.Ring.Nat
import Mathlib.Tactic.Ring
import Cutscene.Movie.PngSequence
import Cutscene.Proofs.Json.Numeral

/-!
# The order of file names

A directory is listed by the bytes of its names. The name of a frame spells its index in six digits, and in
more if it takes more; so names are compared digit by digit, and what is spelled in more digits is compared
by the leading ones.

On `PngSequenceSink.file_name` (SPEC_FULL.md, §6 and §B.12).

Results:
* `bytes_fileName`: the bytes of a name.
* `spelled_lt_iff`: two runs of digits with a point behind them are compared as fractions are.
* `listedBefore_iff`: which of two names is listed first.
* `names_listed`: where the names are listed as their frames are, and where they are not.
-/

namespace Cutscene

open Json

/-! ## Digits -/

theorem toNat_of_isDigit {c : Char} (h : c.isDigit = true) : 48 ≤ c.toNat ∧ c.toNat < 58 := by
  simp only [Char.isDigit, Bool.and_eq_true, decide_eq_true_eq] at h
  exact ⟨UInt32.le_iff_toNat_le.mp h.1, Nat.lt_succ_of_le (UInt32.le_iff_toNat_le.mp h.2)⟩

theorem Decimal.value_cons (c : Char) (r : List Char) :
    Decimal.value (c :: r) = 10 ^ r.length * (c.toNat - 48) + Decimal.value r := by
  simp only [Decimal.value, ← Nat.ofDigitChars_eq_foldl]
  rw [Nat.ofDigitChars_cons, Nat.ofDigitChars_eq_ofDigitChars_zero, Nat.mul_zero, Nat.zero_add]
  rfl

theorem Decimal.value_lt {ds : List Char} (h : ∀ c ∈ ds, c.isDigit = true) :
    Decimal.value ds < 10 ^ ds.length := by
  induction ds with
  | nil => exact Nat.one_pos
  | cons c r ih =>
    have hr := ih fun d hd => h d (List.mem_cons_of_mem c hd)
    have hc := toNat_of_isDigit (h c List.mem_cons_self)
    have hdigit : 10 ^ r.length * (c.toNat - 48) ≤ 10 ^ r.length * 9 := Nat.mul_le_mul_left _ (by omega)
    rw [Decimal.value_cons, List.length_cons, Nat.pow_succ]
    omega

/-- Numbers are compared by their quotients, and by what is left over where these are equal. -/
theorem mul_add_lt_iff {p m n x y : Nat} (hx : x < p) (hy : y < p) :
    p * m + x < p * n + y ↔ m < n ∨ m = n ∧ x < y := by
  have hstep : ∀ {m n}, m < n → p * m + p ≤ p * n := fun h => Nat.mul_le_mul_left p (Nat.succ_le_of_lt h)
  rcases Nat.lt_trichotomy m n with h | rfl | h
  · have := hstep h
    omega
  · simp
  · have := hstep h
    omega

theorem mul_add_eq_iff {p m n x y : Nat} (hx : x < p) (hy : y < p) :
    p * m + x = p * n + y ↔ m = n ∧ x = y := by
  have hlt := mul_add_lt_iff (m := m) (n := n) hx hy
  have hgt := mul_add_lt_iff (m := n) (n := m) hy hx
  omega

namespace PngSink

/-! ## Bytes -/

/-- The bytes of a text. -/
def bytes (s : String) : List UInt8 := s.toUTF8.data.toList

/-- The first name comes before the second one where names are listed by their bytes. -/
def ListedBefore (a b : String) : Prop := bytes a < bytes b

theorem bytes_append (a b : String) : bytes (a ++ b) = bytes a ++ bytes b := by
  unfold bytes
  rw [String.toUTF8_eq_toByteArray, String.toByteArray_append]
  exact ByteArray.toList_data_append

theorem bytes_digits {ds : List Char} (h : ∀ c ∈ ds, c.isDigit = true) :
    bytes (String.ofList ds) = ds.map Char.toUInt8 := by
  unfold bytes
  rw [String.toUTF8_eq_toByteArray, String.toByteArray_ofList]
  induction ds with
  | nil => rfl
  | cons c r ih =>
    have hc := toNat_of_isDigit (h c List.mem_cons_self)
    have hsize : c.utf8Size = 1 :=
      Char.utf8Size_eq_one_iff.mpr (UInt32.le_iff_toNat_le.mpr (Nat.le_of_lt (Nat.lt_trans hc.2 (by decide))))
    rw [List.utf8Encode_cons, ByteArray.toList_data_append, ih fun d hd => h d (List.mem_cons_of_mem c hd),
      List.utf8Encode_singleton, List.toList_data_toByteArray, String.utf8EncodeChar_eq_singleton hsize]
    rfl

theorem toNat_toUInt8 {c : Char} (h : c.isDigit = true) :
    c.toUInt8.toNat = c.toNat ∧ 48 ≤ c.toNat ∧ c.toNat < 58 :=
  have hc := toNat_of_isDigit h
  ⟨Nat.mod_eq_of_lt (Nat.lt_trans hc.2 (by decide)), hc⟩

/-- Two digits of fractions that go on are compared before what they go on with. -/
theorem fraction_lt_iff {m n x y a b : Nat} (hx : x < 10 ^ a) (hy : y < 10 ^ b) :
    (10 ^ a * m + x) * 10 ^ (b + 1) < (10 ^ b * n + y) * 10 ^ (a + 1) ∨
        (10 ^ a * m + x) * 10 ^ (b + 1) = (10 ^ b * n + y) * 10 ^ (a + 1) ∧ a + 1 < b + 1 ↔
      m < n ∨ m = n ∧ (x * 10 ^ b < y * 10 ^ a ∨ x * 10 ^ b = y * 10 ^ a ∧ a < b) := by
  have hx' : x * 10 ^ b < 10 ^ a * 10 ^ b := Nat.mul_lt_mul_of_pos_right hx (Nat.pow_pos (by decide))
  have hy' : y * 10 ^ a < 10 ^ a * 10 ^ b := by
    rw [Nat.mul_comm (10 ^ a)]
    exact Nat.mul_lt_mul_of_pos_right hy (Nat.pow_pos (by decide))
  have hleft : (10 ^ a * m + x) * 10 ^ (b + 1) = (10 ^ a * 10 ^ b * m + x * 10 ^ b) * 10 := by ring
  have hright : (10 ^ b * n + y) * 10 ^ (a + 1) = (10 ^ a * 10 ^ b * n + y * 10 ^ a) * 10 := by ring
  rw [hleft, hright, Nat.mul_lt_mul_right (by decide), Nat.mul_left_inj (by decide),
    mul_add_lt_iff hx' hy', mul_add_eq_iff hx' hy']
  omega

/-- Digits with a point behind them are compared as fractions are. The point comes before every digit, so
of two equal fractions the one in fewer digits is the lesser. -/
theorem spelled_lt_iff {ds es : List Char} (hds : ∀ c ∈ ds, c.isDigit = true)
    (hes : ∀ c ∈ es, c.isDigit = true) (t : List UInt8) :
    ds.map Char.toUInt8 ++ 46 :: t < es.map Char.toUInt8 ++ 46 :: t ↔
      Decimal.value ds * 10 ^ es.length < Decimal.value es * 10 ^ ds.length ∨
        Decimal.value ds * 10 ^ es.length = Decimal.value es * 10 ^ ds.length ∧ ds.length < es.length := by
  induction ds generalizing es with
  | nil =>
    cases es with
    | nil => simp
    | cons d r =>
      have hd := toNat_toUInt8 (hes d List.mem_cons_self)
      have hpoint : (46 : UInt8) < d.toUInt8 := by
        rw [UInt8.lt_iff_toNat_lt, hd.1]
        exact Nat.lt_of_lt_of_le (by decide) hd.2.1
      have hvalue : Decimal.value [] = 0 := rfl
      refine iff_of_true (List.cons_lt_cons_iff.mpr (.inl hpoint)) ?_
      simp only [hvalue, Nat.zero_mul, List.length_nil, List.length_cons, Nat.pow_zero, Nat.mul_one]
      omega
  | cons c q ih =>
    have hc := toNat_toUInt8 (hds c List.mem_cons_self)
    have hq : ∀ c ∈ q, c.isDigit = true := fun d hd => hds d (List.mem_cons_of_mem c hd)
    cases es with
    | nil =>
      have hpoint : (46 : UInt8) < c.toUInt8 := by
        rw [UInt8.lt_iff_toNat_lt, hc.1]
        exact Nat.lt_of_lt_of_le (by decide) hc.2.1
      have hvalue : Decimal.value [] = 0 := rfl
      refine iff_of_false (fun hlt => ?_) (by simp [hvalue])
      rcases List.cons_lt_cons_iff.mp hlt with hless | ⟨hsame, -⟩
      · exact absurd (UInt8.lt_trans hpoint hless) (UInt8.lt_irrefl _)
      · exact absurd (hsame ▸ hpoint) (UInt8.lt_irrefl _)
    | cons d r =>
      have hd := toNat_toUInt8 (hes d List.mem_cons_self)
      have hr : ∀ c ∈ r, c.isDigit = true := fun e he => hes e (List.mem_cons_of_mem d he)
      rw [List.map_cons, List.map_cons, List.cons_append, List.cons_append, List.cons_lt_cons_iff, ih hq hr,
        Decimal.value_cons, Decimal.value_cons, List.length_cons, List.length_cons,
        fraction_lt_iff (Decimal.value_lt hq) (Decimal.value_lt hr), UInt8.lt_iff_toNat_lt, ← UInt8.toNat_inj,
        hc.1, hd.1]
      omega

/-! ## Names -/

/-- The digits in the name of a frame. -/
def nameDigits (i : FrameIndex) : List Char := (padded 6 i.toNat).toList

theorem nameDigits_eq (i : FrameIndex) : nameDigits i =
    List.replicate (6 - (Nat.toDigits 10 i.toNat).length) '0' ++ Nat.toDigits 10 i.toNat := by
  have hlength : (Nat.repr i.toNat).length = (Nat.toDigits 10 i.toNat).length := by
    rw [← String.length_toList, toList_repr]
  unfold nameDigits padded
  rw [String.toList_append, String.toList_ofList, toList_repr, hlength]

theorem isDigit_of_mem_nameDigits (i : FrameIndex) : ∀ c ∈ nameDigits i, c.isDigit = true := by
  intro c hc
  rw [nameDigits_eq] at hc
  rcases List.mem_append.mp hc with hzero | hdigit
  · rw [(List.mem_replicate.mp hzero).2]
    rfl
  · exact (isDigits_toDigits i.toNat).2 c hdigit

/-- The zeros in front do not count. -/
theorem value_nameDigits (i : FrameIndex) : Decimal.value (nameDigits i) = i.toNat := by
  rw [nameDigits_eq, Decimal.value, ← Nat.ofDigitChars_eq_foldl, Nat.ofDigitChars_append,
    Nat.ofDigitChars_replicate_zero, Nat.mul_zero, Nat.ofDigitChars_ten_toDigits]

theorem bytes_fileName (i : FrameIndex) :
    bytes (fileName i) = bytes "frame_" ++ ((nameDigits i).map Char.toUInt8 ++ bytes ".png") := by
  have hdigits := bytes_digits (isDigit_of_mem_nameDigits i)
  rw [nameDigits, String.ofList_toList] at hdigits
  rw [fileName, bytes_append, bytes_append, hdigits, List.append_assoc]
  rfl

theorem append_lt_append_iff (l : List UInt8) {as bs : List UInt8} : l ++ as < l ++ bs ↔ as < bs := by
  induction l with
  | nil => exact Iff.rfl
  | cons b r ih => rw [List.cons_append, List.cons_append, List.cons_lt_cons_self, ih]

/-- Names are listed by the fractions that their digits spell, and by their length where these are equal. -/
theorem listedBefore_iff (i j : FrameIndex) : ListedBefore (fileName i) (fileName j) ↔
    i.toNat * 10 ^ (nameDigits j).length < j.toNat * 10 ^ (nameDigits i).length ∨
      i.toNat * 10 ^ (nameDigits j).length = j.toNat * 10 ^ (nameDigits i).length ∧
        (nameDigits i).length < (nameDigits j).length := by
  have hpoint : bytes ".png" = 46 :: bytes "png" := by decide
  unfold ListedBefore
  rw [bytes_fileName, bytes_fileName, append_lt_append_iff, hpoint,
    spelled_lt_iff (isDigit_of_mem_nameDigits i) (isDigit_of_mem_nameDigits j), value_nameDigits,
    value_nameDigits]

/-- A shorter name is compared with the leading digits of a longer one. -/
theorem listedBefore_of_lt {i j : FrameIndex} {k : Nat} (hk : 0 < k)
    (h : (nameDigits j).length = (nameDigits i).length + k) :
    (ListedBefore (fileName i) (fileName j) ↔ i.toNat ≤ j.toNat / 10 ^ k) ∧
      (ListedBefore (fileName j) (fileName i) ↔ j.toNat / 10 ^ k < i.toNat) := by
  have hpos : 0 < 10 ^ (nameDigits i).length := Nat.pow_pos (by decide)
  have hscale : i.toNat * 10 ^ (nameDigits j).length = i.toNat * 10 ^ k * 10 ^ (nameDigits i).length := by
    rw [h, Nat.pow_add]
    ring
  constructor
  · rw [listedBefore_iff, hscale, Nat.mul_lt_mul_right hpos, Nat.mul_left_inj (Nat.ne_of_gt hpos),
      Nat.le_div_iff_mul_le (Nat.pow_pos (by decide))]
    omega
  · rw [listedBefore_iff, hscale, Nat.mul_lt_mul_right hpos, Nat.div_lt_iff_lt_mul (Nat.pow_pos (by decide))]
    omega

theorem not_listedBefore_million : ¬ListedBefore (fileName 999999) (fileName 1000000) := by
  have hdigit : (nameDigits 1000000).length = (nameDigits 999999).length + 1 := by decide
  rw [(listedBefore_of_lt Nat.one_pos hdigit).1]
  decide

theorem length_nameDigits (i : FrameIndex) :
    (nameDigits i).length = max 6 (Nat.toDigits 10 i.toNat).length := by
  rw [nameDigits_eq, List.length_append, List.length_replicate]
  omega

theorem six_le_length_nameDigits (i : FrameIndex) : 6 ≤ (nameDigits i).length := by
  rw [length_nameDigits]
  exact le_max_left _ _

/-- A name has as many digits as its frame takes, but no less than six. -/
theorem length_nameDigits_le_iff {i : FrameIndex} {k : Nat} (hk : 6 ≤ k) :
    (nameDigits i).length ≤ k ↔ i.toNat < 10 ^ k := by
  rw [length_nameDigits, max_le_iff, and_iff_right hk, Nat.length_toDigits_le_iff (by decide) (by omega)]

theorem length_nameDigits_eq_iff (i : FrameIndex) : (nameDigits i).length = 6 ↔ i.toNat < 1000000 :=
  (Nat.le_antisymm_iff.trans (and_iff_left (six_le_length_nameDigits i))).trans
    (length_nameDigits_le_iff (Nat.le_refl 6))

/-- Frames with longer names come later. -/
theorem lt_of_length_lt {i j : FrameIndex} (h : (nameDigits i).length < (nameDigits j).length) : i < j := by
  have hsix := six_le_length_nameDigits i
  have hi := (length_nameDigits_le_iff (i := i) hsix).mp (Nat.le_refl _)
  have hj : ¬j.toNat < 10 ^ (nameDigits i).length :=
    fun hj => Nat.not_lt.mpr ((length_nameDigits_le_iff hsix).mpr hj) h
  exact UInt64.lt_iff_toNat_lt.mpr (Nat.lt_of_lt_of_le hi (Nat.not_lt.mp hj))

/-- Names of the same length are listed as their frames are. -/
theorem listedBefore_iff_of_length_eq {i j : FrameIndex} (h : (nameDigits i).length = (nameDigits j).length) :
    ListedBefore (fileName i) (fileName j) ↔ i < j := by
  have hpos : 0 < 10 ^ (nameDigits j).length := Nat.pow_pos (by decide)
  rw [listedBefore_iff, h, Nat.mul_lt_mul_right hpos, UInt64.lt_iff_toNat_lt]
  simp

/-- The frames of a movie are listed in order just if there are no more than a million. -/
theorem pairwise_listedBefore_iff {n : Nat} (hn : n ≤ UInt64.size) :
    ((List.range n).map fun k => fileName k.toUInt64).Pairwise ListedBefore ↔ n ≤ 1000000 := by
  constructor
  · intro hlisted
    by_contra hmore
    have hpair := List.pairwise_iff_getElem.mp hlisted 999999 1000000 (by simp; omega) (by simp; omega)
      (by decide)
    rw [List.getElem_map, List.getElem_map, List.getElem_range, List.getElem_range] at hpair
    exact not_listedBefore_million hpair
  · intro hmillion
    refine List.pairwise_map.mpr (List.pairwise_lt_range.imp_of_mem fun {k l} hk hl hkl => ?_)
    have hindex : ∀ k < n, k.toUInt64.toNat = k := fun k hk => by
      rw [UInt64.toNat_ofNat']
      exact Nat.mod_eq_of_lt (Nat.lt_of_lt_of_le hk hn)
    have hk' := hindex k (List.mem_range.mp hk)
    have hl' := hindex l (List.mem_range.mp hl)
    have hmax := List.mem_range.mp hl
    have hlength : (nameDigits k.toUInt64).length = (nameDigits l.toUInt64).length := by
      rw [(length_nameDigits_eq_iff _).mpr (by omega), (length_nameDigits_eq_iff _).mpr (by omega)]
    rw [listedBefore_iff_of_length_eq hlength, UInt64.lt_iff_toNat_lt, hk', hl']
    exact hkl

/-- How the names of two frames are listed. -/
structure NamesListed (i j : FrameIndex) : Prop where
  /-- Names of the same length are listed as their frames are. -/
  alike : (nameDigits i).length = (nameDigits j).length →
    (ListedBefore (fileName i) (fileName j) ↔ i < j)
  /-- A frame with a shorter name comes before one with a longer name, but it is listed before it just if it
  is not beyond the number that as many digits of the longer name spell, and behind it if it is. -/
  shorter : (nameDigits i).length < (nameDigits j).length → i < j ∧
    (ListedBefore (fileName i) (fileName j) ↔
      i.toNat ≤ j.toNat / 10 ^ ((nameDigits j).length - (nameDigits i).length)) ∧
    (ListedBefore (fileName j) (fileName i) ↔
      j.toNat / 10 ^ ((nameDigits j).length - (nameDigits i).length) < i.toNat)
  /-- The first million of frames has names of the same length. -/
  six : (nameDigits j).length = 6 ↔ j < 1000000
  /-- So the frames of a movie, up to the last one, are listed in order just if that is one of them. -/
  movie : ((List.range (j.toNat + 1)).map fun k => fileName k.toUInt64).Pairwise ListedBefore ↔ j < 1000000

/-- **The files of a movie are listed in the order of its frames as long as their names have the same
length**, which they have up to a million of frames; the next one is listed among those before it. -/
theorem names_listed (i j : FrameIndex) : NamesListed i j := by
  have hmillion : j < 1000000 ↔ j.toNat < 1000000 := UInt64.lt_iff_toNat_lt
  refine ⟨listedBefore_iff_of_length_eq, fun hlt => ⟨lt_of_length_lt hlt, ?_⟩, ?_, ?_⟩
  · exact listedBefore_of_lt (Nat.sub_pos_of_lt hlt) (Nat.add_sub_cancel' (Nat.le_of_lt hlt)).symm
  · rw [length_nameDigits_eq_iff, hmillion]
  · rw [pairwise_listedBefore_iff (Nat.succ_le_of_lt j.toNat_lt_size), hmillion, Nat.succ_le_iff]

/-- The millionth frame and the one after it: the second of them is listed first. -/
theorem million_listed_first : (999999 : FrameIndex) < 1000000 ∧
    ¬ListedBefore (fileName 999999) (fileName 1000000) ∧
    ListedBefore (fileName 1000000) (fileName 999999) := by
  have hdigit : (nameDigits 1000000).length = (nameDigits 999999).length + 1 := by decide
  refine ⟨by decide, not_listedBefore_million, (listedBefore_of_lt Nat.one_pos hdigit).2.mpr ?_⟩
  decide

end PngSink

end Cutscene
