import Mathlib.Algebra.Order.BigOperators.Group.List
import Mathlib.Data.Rat.Floor
import Mathlib.Order.Interval.Set.Defs
import Mathlib.Tactic.FieldSimp
import Mathlib.Tactic.Linarith
import Mathlib.Tactic.Ring
import Cutscene.Asset.Sprite

/-!
# Frames of an animation

An animation is decoded with the times at which its frames end, and the frame to be shown is searched among
these. Times are exact here, so a loop is divided among the frames without a gap.

On `decode_gif_frames` and `Sprite.frame_at` (SPEC_FULL.md, §B.8).

Results:
* `remainder_eq`, `loopTime_eq`: where in its loop a time is.
* `findIdx?_runningSums`: what is found among running sums.
* `Sprite.frameIndex_eq_iff`: when a frame is shown.
* `animation_loops`: any animation with more than one frame, at any time.
-/

namespace Cutscene

/-! ## Times -/

/-- Where in a loop of some duration a time is. -/
def loopTime (total t : Rat) : Rat := t - total * ⌊t / total⌋

variable {total t : Rat}

/-- In the loop with number `k`, the time since it has begun. -/
theorem loopTime_eq (h : 0 < total) {k : Nat} (hbegun : k * total ≤ t) (hended : t < (k + 1) * total) :
    loopTime total t = t - k * total := by
  have hfloor : ⌊t / total⌋ = (k : Int) := by
    rw [Int.floor_eq_iff, Int.cast_natCast, le_div_iff₀ h, div_lt_iff₀ h]
    exact ⟨hbegun, hended⟩
  unfold loopTime
  rw [hfloor, Int.cast_natCast, mul_comm]

theorem loopTime_mem (h : 0 < total) (t : Rat) : 0 ≤ loopTime total t ∧ loopTime total t < total := by
  have hle := (le_div_iff₀ h).mp (Int.floor_le (t / total))
  have hlt := (div_lt_iff₀ h).mp (Int.lt_floor_add_one (t / total))
  unfold loopTime
  constructor <;> linarith

theorem loopTime_add (h : 0 < total) (t : Rat) (k : Nat) : loopTime total (t + k * total) = loopTime total t := by
  have hquotient : (t + k * total) / total = t / total + k := by field_simp
  unfold loopTime
  rw [hquotient, Int.floor_add_natCast]
  push_cast
  ring

theorem truncateRat_of_nonneg {x : Rat} (h : 0 ≤ x) : Scalar.truncateRat x = ⌊x⌋ := by
  unfold Scalar.truncateRat
  rw [Rat.floor_def', Int.tdiv_eq_ediv_of_nonneg (Rat.num_nonneg.mpr h)]

/-- Of a time that is not negative, the remainder is where in its loop it is. -/
theorem remainder_eq (h : 0 < total) (ht : 0 ≤ t) : Scalar.remainder t total = loopTime total t := by
  change t - total * ((Scalar.truncateRat (t / total) : Int) : Rat) = _
  rw [truncateRat_of_nonneg (div_nonneg ht h.le)]
  rfl

theorem clampNonneg_of_nonneg (ht : 0 ≤ t) : Scalar.clampNonneg t = t := by
  change (if 0 < t then t else 0) = t
  split_ifs with hpos
  · rfl
  · exact le_antisymm ht (not_lt.mp hpos)

/-! ## Running sums -/

section Sums

variable {durations : List Rat}

theorem getLast?_runningSums (hne : durations ≠ []) (start : Rat) :
    (Sprite.runningSums start durations).getLast? = some (start + durations.sum) := by
  induction durations generalizing start with
  | nil => exact absurd rfl hne
  | cons d r ih =>
    cases r with
    | nil => simp [Sprite.runningSums]
    | cons e r' =>
      have hrest : Sprite.runningSums (start + d) (e :: r') ≠ [] := List.cons_ne_nil _ _
      rw [Sprite.runningSums, List.getLast?_cons_of_ne_nil hrest, ih (List.cons_ne_nil e r') (start + d),
        List.sum_cons (l := e :: r'), add_assoc]

/-- Among running sums, the first that is larger belongs to the duration that a time falls in. -/
theorem findIdx?_runningSums {start : Rat} (hbegun : start ≤ t) (hended : t < start + durations.sum) :
    ∃ i < durations.length, ((Sprite.runningSums start durations).findIdx? fun stop => t < stop) = some i ∧
      start + (durations.take i).sum ≤ t ∧ t < start + (durations.take (i + 1)).sum := by
  induction durations generalizing start with
  | nil =>
    rw [List.sum_nil, add_zero] at hended
    exact absurd hended (not_lt.mpr hbegun)
  | cons d r ih =>
    rw [Sprite.runningSums, List.findIdx?_cons]
    by_cases hd : t < start + d
    · refine ⟨0, Nat.succ_pos _, if_pos (decide_eq_true hd), ?_, ?_⟩
      · simpa using hbegun
      · simpa using hd
    · rw [List.sum_cons, ← add_assoc] at hended
      obtain ⟨i, hi, hfound, hle, hlt⟩ := ih (not_lt.mp hd) hended
      refine ⟨i + 1, Nat.succ_lt_succ hi, ?_, ?_, ?_⟩
      · rw [if_neg (by simpa using hd), hfound]
        rfl
      · rwa [List.take_succ_cons, List.sum_cons, ← add_assoc]
      · rwa [List.take_succ_cons, List.sum_cons, ← add_assoc]

theorem sum_take_le (hpos : ∀ d ∈ durations, 0 < d) {i j : Nat} (h : i ≤ j) :
    (durations.take i).sum ≤ (durations.take j).sum :=
  (List.take_sublist_take_left h).sum_le_sum fun d hd => (hpos d (List.mem_of_mem_take hd)).le

theorem sum_take_succ {i : Nat} {d : Rat} (hd : durations[i]? = some d) :
    (durations.take (i + 1)).sum = (durations.take i).sum + d := by
  rw [List.take_add_one, hd, List.sum_append, Option.toList_some, List.sum_singleton]

/-- Durations do not overlap. -/
theorem eq_of_mem_durations (hpos : ∀ d ∈ durations, 0 < d) {i j : Nat}
    (hi : (durations.take i).sum ≤ t ∧ t < (durations.take (i + 1)).sum)
    (hj : (durations.take j).sum ≤ t ∧ t < (durations.take (j + 1)).sum) : i = j := by
  have hnot : ∀ {i j}, t < (durations.take (i + 1)).sum → (durations.take j).sum ≤ t → ¬i < j :=
    fun hlt hle hij => absurd (hlt.trans_le (sum_take_le hpos hij)) (not_lt.mpr hle)
  exact Nat.le_antisymm (not_lt.mp (hnot hj.2 hi.1)) (not_lt.mp (hnot hi.2 hj.1))

end Sums

/-! ## Frames -/

namespace Sprite

variable {s : Sprite Rat} {durations : List Rat}

/-- An animation whose frames are shown for some durations. -/
structure IsTimed (s : Sprite Rat) (durations : List Rat) : Prop where
  length : s.frames.length = durations.length
  ends : s.ends = runningSums 0 durations
  pos : ∀ d ∈ durations, 0 < d

namespace IsTimed

variable (h : s.IsTimed durations)
include h

theorem ne_nil : durations ≠ [] := by
  rintro rfl
  exact s.frames_ne_nil (List.length_eq_zero_iff.mp h.length)

theorem total_pos : 0 < durations.sum := List.sum_pos durations h.pos h.ne_nil

theorem duration?_eq : s.duration? = some durations.sum := by
  unfold duration?
  rw [h.ends, getLast?_runningSums h.ne_nil, zero_add]

/-- What the search finds at a time. -/
theorem findIdx?_ends (t : Rat) : ∃ i < durations.length,
    (s.ends.findIdx? fun stop => loopTime durations.sum t < stop) = some i ∧
      (durations.take i).sum ≤ loopTime durations.sum t ∧
      loopTime durations.sum t < (durations.take (i + 1)).sum := by
  obtain ⟨hbegun, hended⟩ := loopTime_mem h.total_pos t
  have hfind := findIdx?_runningSums hbegun (hended.trans_eq (zero_add _).symm)
  simpa only [zero_add, h.ends] using hfind

/-- A frame is shown from the time at which those before it have been shown until its own duration is over. -/
theorem frameIndex_eq_iff (ht : 0 ≤ t) (i : Nat) : s.frameIndex t = i ↔ i < durations.length ∧
    (durations.take i).sum ≤ loopTime durations.sum t ∧
    loopTime durations.sum t < (durations.take (i + 1)).sum := by
  obtain ⟨j, hj, hfound, hspan⟩ := h.findIdx?_ends t
  have hindex : s.frameIndex t = j := by
    unfold frameIndex
    rw [h.duration?_eq]
    simp only [clampNonneg_of_nonneg ht, remainder_eq h.total_pos ht]
    exact congrArg (fun found => found.getD (s.frames.length - 1)) hfound
  rw [hindex]
  constructor
  · rintro rfl
    exact ⟨hj, hspan⟩
  · rintro ⟨-, hspan'⟩
    exact eq_of_mem_durations h.pos hspan hspan'

end IsTimed

/-- How an animation with some durations divides time among its frames. -/
structure Loops (s : Sprite Rat) (durations : List Rat) : Prop where
  frameCount : s.frameCount = durations.length
  duration : s.duration? = some durations.sum
  /-- A frame is shown while the frames before it are over and it is not, and only then. -/
  shown_iff : ∀ t, 0 ≤ t → ∀ i, s.frameIndex t = i ↔ i < durations.length ∧
    (durations.take i).sum ≤ loopTime durations.sum t ∧
    loopTime durations.sum t < (durations.take (i + 1)).sum
  /-- Some frame ends later than any time of the loop, so none has to be shown for lack of it. -/
  found : ∀ t, 0 ≤ t → (s.ends.findIdx? fun stop => Scalar.remainder t durations.sum < stop).isSome
  frameAt : ∀ t, 0 ≤ t → s.frames[s.frameIndex t]? = some (s.frameAt t)
  again : ∀ t, 0 ≤ t → ∀ k : Nat, s.frameAt (t + k * durations.sum) = s.frameAt t
  /-- In every loop, a frame is shown for as long as its duration is. -/
  exposure : ∀ k i : Nat, ∀ d, durations[i]? = some d →
    { t | k * durations.sum ≤ t ∧ t < (k + 1) * durations.sum ∧ s.frameIndex t = i } =
      Set.Ico (k * durations.sum + (durations.take i).sum) (k * durations.sum + (durations.take i).sum + d)

theorem IsTimed.loops (h : s.IsTimed durations) : s.Loops durations where
  frameCount := h.length
  duration := h.duration?_eq
  shown_iff t ht i := h.frameIndex_eq_iff ht i
  found t ht := by
    obtain ⟨i, -, hfound, -⟩ := h.findIdx?_ends t
    simp only [remainder_eq h.total_pos ht]
    exact Option.isSome_iff_exists.mpr ⟨i, hfound⟩
  frameAt t ht := by
    obtain ⟨hindex, -⟩ := (h.frameIndex_eq_iff ht _).mp rfl
    rw [← h.length] at hindex
    unfold Sprite.frameAt
    rw [List.getElem?_eq_getElem hindex]
    rfl
  again t ht k := by
    have hlater : 0 ≤ t + k * durations.sum := add_nonneg ht (mul_nonneg k.cast_nonneg h.total_pos.le)
    have hindex : s.frameIndex (t + k * durations.sum) = s.frameIndex t := by
      rw [h.frameIndex_eq_iff hlater, loopTime_add h.total_pos]
      exact (h.frameIndex_eq_iff ht _).mp rfl
    unfold Sprite.frameAt
    rw [hindex]
  exposure k i d hd := by
    have htotal := h.total_pos
    have hloops : 0 ≤ k * durations.sum := mul_nonneg k.cast_nonneg htotal.le
    have hindex : i < durations.length := (List.getElem?_eq_some_iff.mp hd).1
    have hbefore : 0 ≤ (durations.take i).sum := sum_take_le h.pos (Nat.zero_le i)
    have hafter : (durations.take (i + 1)).sum ≤ durations.sum := by
      simpa using sum_take_le h.pos (Nat.succ_le_of_lt hindex)
    have hnext := sum_take_succ hd
    ext t
    rw [Set.mem_ofPred_eq, Set.mem_Ico]
    constructor
    · rintro ⟨hbegun, hended, hi⟩
      obtain ⟨-, hle, hlt⟩ := (h.frameIndex_eq_iff (hloops.trans hbegun) i).mp hi
      rw [loopTime_eq htotal hbegun hended] at hle hlt
      constructor <;> linarith
    · rintro ⟨hle, hlt⟩
      have hbegun : k * durations.sum ≤ t := by linarith
      have hended : t < (k + 1) * durations.sum := by linarith
      refine ⟨hbegun, hended, (h.frameIndex_eq_iff (hloops.trans hbegun) i).mpr ⟨hindex, ?_, ?_⟩⟩
      · rw [loopTime_eq htotal hbegun hended]
        linarith
      · rw [loopTime_eq htotal hbegun hended]
        linarith

/-- A frame with a duration of zero is shown for a tenth of a second, so every frame is shown for some time. -/
theorem delaySeconds_eq (ms : Nat) : (delaySeconds ms : Rat) = (if ms = 0 then 100 else ms : Nat) / 1000 := by
  change ((if ms = 0 then 100 else (ms : Int) : Int) : Rat) / ((1000 : Int) : Rat) = _
  split_ifs <;> norm_num

theorem delaySeconds_pos (ms : Nat) : (0 : Rat) < delaySeconds ms := by
  rw [delaySeconds_eq]
  refine div_pos (Nat.cast_pos.mpr ?_) (by norm_num)
  split_ifs <;> omega

end Sprite

/-- **Time is divided among the frames of an animation** with more than one of them. -/
theorem animation_loops (path : String) (hgif : pathEnding path = "gif") (w h : UInt32)
    (frames : List (Color × Nat)) (hmany : 2 ≤ frames.length) :
    ∃ s : Sprite Rat, Sprite.decode path (.animation w h frames) = .ok s ∧
      s.frames = frames.map (fun f => Sprite.plainFrame w h f.1) ∧
      s.Loops (frames.map fun f => (if f.2 = 0 then 100 else f.2 : Nat) / 1000) := by
  obtain ⟨f, g, rest, rfl⟩ : ∃ f g rest, frames = f :: g :: rest := by
    rcases frames with _ | ⟨f, _ | ⟨g, rest⟩⟩
    · simp at hmany
    · simp at hmany
    · exact ⟨f, g, rest, rfl⟩
  have hdelays : ((f :: g :: rest).map fun f => ((if f.2 = 0 then 100 else f.2 : Nat) / 1000 : Rat)) =
      (f :: g :: rest).map fun f => Sprite.delaySeconds f.2 :=
    List.map_congr_left fun e _ => (Sprite.delaySeconds_eq e.2).symm
  rw [hdelays]
  refine ⟨⟨path, (f :: g :: rest).map fun f => Sprite.plainFrame w h f.1,
    Sprite.runningSums 0 ((f :: g :: rest).map fun f => Sprite.delaySeconds f.2), by simp⟩, ?_, rfl, ?_⟩
  · unfold Sprite.decode Sprite.decodeFrames
    rw [hgif]
    rfl
  · refine Sprite.IsTimed.loops ⟨by simp, rfl, fun d hd => ?_⟩
    obtain ⟨e, -, rfl⟩ := List.mem_map.mp hd
    exact Sprite.delaySeconds_pos e.2

/-- Three frames, one of which has no duration of its own. -/
theorem animation_loops_threeFrames :
    let frames := [(Color.white, 50), (Color.black, 0), (Color.white, 70)]
    pathEnding "idle.gif" = "gif" ∧ 2 ≤ frames.length ∧
      ∃ s : Sprite Rat, Sprite.decode "idle.gif" (.animation 2 2 frames) = .ok s ∧
        s.frames = frames.map (fun f => Sprite.plainFrame 2 2 f.1) ∧
        s.Loops (frames.map fun f => (if f.2 = 0 then 100 else f.2 : Nat) / 1000) := by
  intro frames
  have hgif : pathEnding "idle.gif" = "gif" := by decide +kernel
  have hmany : 2 ≤ frames.length := by decide
  exact ⟨hgif, hmany, animation_loops "idle.gif" hgif 2 2 frames hmany⟩

end Cutscene
