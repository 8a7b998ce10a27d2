import Mathlib.Tactic.SplitIfs
import Cutscene.Script.Action

/-!
# What is created

Moves, pauses and paces are made from numbers of the user's. Those that are made at all have passed their
checks.

Results:
* `Move.create_eq`, `Pause.create_eq`: what is made.
* `Move.duration_pos`, `Pause.duration_pos`, `Pace.pos_of_validate`: the numbers are above zero.
* `Move.arrives`: the curve of a move is at one or above in the end.
* `Move.create_of_pos`, `Pause.create_of_pos`, `Pace.validate_of_pos`: exact numbers above zero are all that
  is asked for.
-/

namespace Cutscene

variable {R : Type} [Scalar R]

theorem pos_of_ensurePositive {what : String} {v : R} (h : ensurePositive what v = .ok ()) : 0 < v := by
  unfold ensurePositive at h
  split_ifs at h with hv
  exact hv.2

theorem Ease.one_le_of_ensureArrives {e : Ease R} (h : e.ensureArrives = .ok ()) : 1 ≤ e.apply 1 := by
  unfold ensureArrives at h
  simp only at h
  split_ifs at h with he
  exact he.2

namespace Move

variable {node : NodeId} {target : Point} {duration : R} {ease : Ease R} {m : Move R}

theorem create_eq (h : Move.create node target duration ease = .ok m) :
    m = ⟨node, target, duration, ease, none, none, 0, false⟩ := by
  unfold Move.create at h
  obtain ⟨_, -, h⟩ := bind_eq_ok_iff.mp h
  obtain ⟨_, -, h⟩ := bind_eq_ok_iff.mp h
  cases h
  rfl

theorem duration_pos (h : Move.create node target duration ease = .ok m) : 0 < duration := by
  unfold Move.create at h
  obtain ⟨_, hduration, -⟩ := bind_eq_ok_iff.mp h
  exact pos_of_ensurePositive hduration

theorem arrives (h : Move.create node target duration ease = .ok m) : 1 ≤ ease.apply 1 := by
  unfold Move.create at h
  obtain ⟨_, -, h⟩ := bind_eq_ok_iff.mp h
  obtain ⟨_, hease, -⟩ := bind_eq_ok_iff.mp h
  exact Ease.one_le_of_ensureArrives hease

end Move

namespace Pause

variable {duration : R} {p : Pause R}

theorem create_eq (h : Pause.create duration = .ok p) : p = ⟨duration, 0, none, false⟩ := by
  unfold Pause.create at h
  obtain ⟨_, -, h⟩ := bind_eq_ok_iff.mp h
  cases h
  rfl

theorem duration_pos (h : Pause.create duration = .ok p) : 0 < duration := by
  unfold Pause.create at h
  obtain ⟨_, hduration, -⟩ := bind_eq_ok_iff.mp h
  exact pos_of_ensurePositive hduration

end Pause

/-- A pace that is accepted reveals characters, and lets a page stay. -/
theorem Pace.pos_of_validate {p : Pace R} (h : p.validate = .ok ()) :
    0 < p.charsPerSecond ∧ 0 < p.holdSeconds := by
  unfold validate at h
  obtain ⟨_, hchars, hhold⟩ := bind_eq_ok_iff.mp h
  exact ⟨pos_of_ensurePositive hchars, pos_of_ensurePositive hhold⟩

/-! ## Exact numbers pass their checks -/

theorem ensurePositive_of_pos (what : String) {v : Rat} (h : 0 < v) : ensurePositive what v = .ok () :=
  if_pos ⟨rfl, h⟩

theorem Move.create_of_pos (node : NodeId) (target : Point) {duration : Rat} (hduration : 0 < duration)
    {ease : Ease Rat} (hease : 1 ≤ ease.apply 1) :
    Move.create node target duration ease = .ok ⟨node, target, duration, ease, none, none, 0, false⟩ := by
  have harrives : ease.ensureArrives = .ok () := if_pos ⟨rfl, hease⟩
  unfold Move.create
  rw [ensurePositive_of_pos _ hduration, harrives]
  rfl

theorem Pause.create_of_pos {duration : Rat} (h : 0 < duration) :
    Pause.create duration = .ok ⟨duration, 0, none, false⟩ := by
  unfold Pause.create
  rw [ensurePositive_of_pos _ h]
  rfl

theorem Pace.validate_of_pos {p : Pace Rat} (hchars : 0 < p.charsPerSecond) (hhold : 0 < p.holdSeconds) :
    p.validate = .ok () := by
  unfold validate
  rw [ensurePositive_of_pos _ hchars, ensurePositive_of_pos _ hhold]
  rfl

end Cutscene
