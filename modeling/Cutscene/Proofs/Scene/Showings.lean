import Mathlib.Algebra.Order.Field.Rat
import Mathlib.Tactic.Linarith
import Mathlib.Tactic.Ring
import Cutscene.Proofs.Scene.Tick

/-!
# Nodes that hide themselves again

A node is shown again and again, each time with a timer that hides it after some time. Its timers know
nothing of each other: the first one to be due hides the node, whatever was shown since.

Results:
* `Node.Reflects.show`, `Node.Reflects.tick`: the timers and the visibility of such a node, as showings
  come in and steps go by.
-/

namespace Cutscene

/-- A showing of a node for some time, from the step of a number on. -/
structure Showing where
  start : Nat
  secs : Rat
deriving DecidableEq

namespace Showing

/-- Whether the time of a showing is over when `n` steps of `dt` seconds have been made. The step in
which it begins counts for it. -/
def Over (dt : Rat) (u : Showing) (n : Nat) : Prop :=
  u.start < n ∧ u.secs ≤ ((n - u.start : Nat) : Rat) * dt

instance (dt : Rat) (u : Showing) (n : Nat) : Decidable (u.Over dt n) :=
  inferInstanceAs (Decidable (_ ∧ _))

/-- The timer of a showing when `n` steps have been made. -/
def timer (dt : Rat) (n : Nat) (u : Showing) : Timer Rat :=
  ⟨u.secs - ((n - u.start : Nat) : Rat) * dt, .hide⟩

variable {dt : Rat} {u : Showing} {n m : Nat}

theorem timer_succ (h : u.start ≤ n) : (u.timer dt n).elapse dt = u.timer dt (n + 1) := by
  have hsteps : n + 1 - u.start = n - u.start + 1 := by omega
  unfold timer Timer.elapse
  rw [hsteps]
  congr 1
  push_cast
  ring

theorem timer_remaining_le_iff (h : u.start < n) : (u.timer dt n).remaining ≤ 0 ↔ u.Over dt n := by
  unfold timer Over
  constructor
  · intro hle
    exact ⟨h, sub_nonpos.mp hle⟩
  · rintro ⟨-, hle⟩
    exact sub_nonpos.mpr hle

theorem Over.mono (hdt : 0 ≤ dt) (h : u.Over dt n) (hnm : n ≤ m) : u.Over dt m := by
  refine ⟨Nat.lt_of_lt_of_le h.1 hnm, h.2.trans ?_⟩
  have hsteps : ((n - u.start : Nat) : Rat) ≤ ((m - u.start : Nat) : Rat) :=
    Nat.cast_le.mpr (Nat.sub_le_sub_right hnm _)
  exact mul_le_mul_of_nonneg_right hsteps hdt

end Showing

namespace Node

/-! ## Timers that run side by side -/

section Running

variable {α : Type} {l : List α} {timer : Nat → α → Timer Rat} {ended : α → Nat → Prop}
  [∀ a n, Decidable (ended a n)] {dt : Rat} {node : Node Rat} {n : Nat}
  (htimers : node.timers = (l.filter fun a => ¬ended a n).map (timer n))
  (helapse : ∀ a ∈ l, (timer n a).elapse dt = timer (n + 1) a)
  (hdue : ∀ a ∈ l, (timer (n + 1) a).remaining ≤ 0 ↔ ended a (n + 1))

include htimers helapse hdue

/-- If timers run for what is not over yet, those are due in a step whose time the step brings to an end. -/
theorem due_of_running : (node.timers.map (·.elapse dt)).filter (fun t => t.remaining ≤ 0) =
    (l.filter fun a => ¬ended a n ∧ ended a (n + 1)).map (timer (n + 1)) := by
  have hfilter : l.filter (fun a => ¬ended a n ∧ ended a (n + 1)) =
      (l.filter fun a => ¬ended a n).filter fun a => ((timer n a).elapse dt).remaining ≤ 0 := by
    rw [List.filter_filter]
    refine List.filter_congr fun a ha => ?_
    rw [helapse a ha, decide_eq_decide.mpr (hdue a ha), Bool.decide_and, Bool.and_comm]
  rw [htimers, List.map_map, List.filter_map, hfilter]
  exact List.map_congr_left fun a ha => helapse a (List.mem_of_mem_filter (List.mem_of_mem_filter ha))

/-- The others go on running. -/
theorem tick_timers_of_running (hmono : ∀ a ∈ l, ended a n → ended a (n + 1)) :
    (node.tick dt).timers = (l.filter fun a => ¬ended a (n + 1)).map (timer (n + 1)) := by
  have hfilter : l.filter (fun a => ¬ended a (n + 1)) =
      (l.filter fun a => ¬ended a n).filter fun a => ¬((timer n a).elapse dt).remaining ≤ 0 := by
    rw [List.filter_filter]
    refine List.filter_congr fun a ha => ?_
    have hmono := hmono a ha
    simp only [helapse a ha, hdue a ha]
    grind
  rw [tick_timers, htimers, List.map_map, List.filter_map, hfilter]
  exact List.map_congr_left fun a ha => helapse a (List.mem_of_mem_filter (List.mem_of_mem_filter ha))

end Running

/-! ## Showings -/

/-- A node is as some showings have left it after `n` steps: it has the timers of those whose time is not
over, and is visible if there is a showing since whose beginning no time has been over. -/
structure Reflects (dt : Rat) (node : Node Rat) (n : Nat) (past : List Showing) : Prop where
  start_le : ∀ u ∈ past, u.start ≤ n
  timers : node.timers = (past.filter fun u => ¬u.Over dt n).map (Showing.timer dt n)
  visible_iff : node.visible ↔ ∃ u ∈ past, ∀ v ∈ past, v.Over dt n → v.Over dt u.start

variable {dt : Rat} {node node' : Node Rat} {n : Nat} {past : List Showing}

theorem Reflects.congr (h : Reflects dt node n past) (htimers : node'.timers = node.timers)
    (hvisible : node'.visible = node.visible) : Reflects dt node' n past :=
  ⟨h.start_le, htimers.trans h.timers, hvisible ▸ h.visible_iff⟩

/-- A node that is hidden and has no timers has not been shown. -/
theorem reflects_nil (htimers : node.timers = []) (hvisible : node.visible = false) :
    Reflects dt node n [] := by
  refine ⟨fun u hu => absurd hu List.not_mem_nil, htimers, ?_⟩
  rw [hvisible]
  simp

/-- New showings show the node, and each brings its timer along. -/
theorem Reflects.show (h : Reflects dt node n past) {secs : List Rat}
    (htimers : node'.timers = node.timers ++ secs.map fun t => ⟨t, .hide⟩)
    (hvisible : node'.visible = (node.visible || !secs.isEmpty)) :
    Reflects dt node' n (past ++ secs.map (Showing.mk n)) := by
  have hnew : ∀ u ∈ secs.map (Showing.mk n), u.start = n := by
    intro u hu
    obtain ⟨t, -, rfl⟩ := List.mem_map.mp hu
    rfl
  have hover : ∀ u ∈ secs.map (Showing.mk n), ¬u.Over dt n :=
    fun u hu h => Nat.lt_irrefl n (hnew u hu ▸ h.1)
  refine ⟨?_, ?_, ?_⟩
  · intro u hu
    rcases List.mem_append.mp hu with hu | hu
    · exact h.start_le u hu
    · exact Nat.le_of_eq (hnew u hu)
  · have hall : (secs.map (Showing.mk n)).filter (fun u => ¬u.Over dt n) = secs.map (Showing.mk n) :=
      List.filter_eq_self.mpr fun u hu => decide_eq_true (hover u hu)
    rw [htimers, h.timers, List.filter_append, List.map_append, hall, List.map_map]
    congr 1
    refine List.map_congr_left fun t _ => ?_
    simp [Showing.timer]
  · rw [hvisible, Bool.or_eq_true, h.visible_iff]
    constructor
    · rintro (⟨u, hu, hlast⟩ | hsome)
      · refine ⟨u, List.mem_append_left _ hu, fun v hv hvn => ?_⟩
        rcases List.mem_append.mp hv with hv | hv
        · exact hlast v hv hvn
        · exact absurd hvn (hover v hv)
      · obtain ⟨t, ht⟩ := List.exists_mem_of_ne_nil secs (by simpa using hsome)
        exact ⟨⟨n, t⟩, List.mem_append_right _ (List.mem_map_of_mem ht), fun v _ hvn => hvn⟩
    · rintro ⟨u, hu, hlast⟩
      rcases List.mem_append.mp hu with hu | hu
      · exact .inl ⟨u, hu, fun v hv => hlast v (List.mem_append_left _ hv)⟩
      · obtain ⟨t, ht, -⟩ := List.mem_map.mp hu
        exact .inr (by simpa using List.ne_nil_of_mem ht)

/-- A step hides the node if it is the one in which the time of a showing is over. -/
theorem Reflects.tick (h : Reflects dt node n past) (hdt : 0 ≤ dt) :
    Reflects dt (node.tick dt) (n + 1) past := by
  have hdue : ∀ u ∈ past, ((u.timer dt n).elapse dt).remaining ≤ 0 ↔ u.Over dt (n + 1) := by
    intro u hu
    have hle := h.start_le u hu
    rw [Showing.timer_succ hle, Showing.timer_remaining_le_iff (Nat.lt_succ_of_le hle)]
  refine ⟨fun u hu => Nat.le_succ_of_le (h.start_le u hu), ?_, ?_⟩
  · exact tick_timers_of_running h.timers (fun u hu => Showing.timer_succ (h.start_le u hu))
      (fun u hu => Showing.timer_remaining_le_iff (Nat.lt_succ_of_le (h.start_le u hu)))
      fun u _ hover => hover.mono hdt (Nat.le_succ n)
  · have hhide : ∀ t ∈ node.timers, t.action = .hide := by
      rw [h.timers]
      intro t ht
      obtain ⟨u, -, rfl⟩ := List.mem_map.mp ht
      rfl
    have hquiet : (∀ t ∈ node.timers, ¬(t.elapse dt).remaining ≤ 0) ↔
        ∀ v ∈ past, v.Over dt (n + 1) → v.Over dt n := by
      rw [h.timers, List.forall_mem_map]
      simp only [List.mem_filter, decide_eq_true_eq, and_imp]
      refine forall₂_congr fun v hv => ?_
      rw [hdue v hv]
      grind
    rw [tick_visible_of_hide hhide, h.visible_iff, hquiet]
    constructor
    · rintro ⟨⟨u, hu, hlast⟩, hnone⟩
      exact ⟨u, hu, fun v hv hover => hlast v hv (hnone v hv hover)⟩
    · rintro ⟨u, hu, hlast⟩
      have hstart := h.start_le u hu
      refine ⟨⟨u, hu, fun v hv hover => hlast v hv (hover.mono hdt (Nat.le_succ n))⟩,
        fun v hv hover => ?_⟩
      exact (hlast v hv hover).mono hdt hstart

end Node

end Cutscene
