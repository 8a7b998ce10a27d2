import Mathlib.Data.List.Basic
import Cutscene.Scene.Node

/-!
# Ticks

Each phase of a tick writes a few fields of a node and leaves the rest alone.

Results:
* `tickTween_eq`, `tickShake_eq`, `tickTimers_eq`: the fields that a phase writes.
* `tick_offset`, `tick_tween`: a tick moves a node along its tween.
* `tick_timers`, `tick_visible_of_hide`: its timers run down, and those whose time is over act.
* `tick_payload`: what a tick draws, from the sprites whose timers are due.
* `tick_relinked`: it does not look at the place in the tree.
* `keepsRole_tick`: its name, its place in the tree and its depth stay.
-/

namespace Cutscene

variable {R : Type} [Scalar R]

/-- A timer after some time. -/
def Timer.elapse (t : Timer R) (dt : R) : Timer R := { t with remaining := t.remaining - dt }

namespace Node

/-! ## Phases -/

/-- A tween moves its node, and goes on or is over. -/
theorem tickTween_eq (n : Node R) (dt : R) :
    ∃ offset tween, n.tickTween dt = { n with offset, tween } := by
  unfold tickTween
  cases n.tween with
  | none => exact ⟨n.offset, n.tween, rfl⟩
  | some t => exact ⟨_, _, rfl⟩

theorem tickShake_eq (n : Node R) (dt : R) : ∃ shake, n.tickShake dt = { n with shake } := by
  unfold tickShake
  cases n.shake with
  | none => exact ⟨n.shake, rfl⟩
  | some s => exact ⟨_, rfl⟩

theorem perform_eq (n : Node R) (e : TimerEffect R) :
    ∃ visible payload clock, n.perform e = { n with visible, payload, clock } := by
  cases e <;> exact ⟨_, _, _, rfl⟩

/-- What timers do shows or hides the node or changes its sprite. -/
theorem foldl_perform_eq (due : List (Timer R)) (n : Node R) :
    ∃ visible payload clock,
      due.foldl (fun n t => n.perform t.action) n = { n with visible, payload, clock } := by
  induction due generalizing n with
  | nil => exact ⟨_, _, _, rfl⟩
  | cons t r ih =>
    obtain ⟨visible, payload, clock, ht⟩ := n.perform_eq t.action
    obtain ⟨visible', payload', clock', hr⟩ := ih (n.perform t.action)
    refine ⟨visible', payload', clock', ?_⟩
    rw [List.foldl_cons, hr, ht]

/-- The timers that are not due stay, and those that are due act. -/
theorem tickTimers_eq (n : Node R) (dt : R) : ∃ visible payload clock,
    n.tickTimers dt =
      { n with
        visible, payload, clock
        timers := (n.timers.map (·.elapse dt)).filter fun t => ¬t.remaining ≤ 0 } :=
  foldl_perform_eq _ _

/-- Timers that hide hide the node once one of them is due. -/
theorem foldl_perform_visible_of_hide {due : List (Timer R)} (h : ∀ t ∈ due, t.action = .hide)
    (n : Node R) :
    (due.foldl (fun n t => n.perform t.action) n).visible = (n.visible && due.isEmpty) := by
  induction due generalizing n with
  | nil => simp
  | cons t r ih =>
    rw [List.foldl_cons, ih fun u hu => h u (List.mem_cons_of_mem _ hu), h t List.mem_cons_self]
    simp [perform, hide]

/-! ## The whole tick -/

/-- The fields that a tick of the clock, the tween and the shake leaves to the timers. -/
theorem tick_eq (n : Node R) (dt : R) : ∃ offset tween shake clock,
    offset = (n.tickTween dt).offset ∧ tween = (n.tickTween dt).tween ∧
      n.tick dt = ({ n with offset, tween, shake, clock } : Node R).tickTimers dt := by
  obtain ⟨offset, tween, htween⟩ := ({ n with clock := n.clock + dt } : Node R).tickTween_eq dt
  obtain ⟨shake, hshake⟩ :=
    (({ n with clock := n.clock + dt } : Node R).tickTween dt).tickShake_eq dt
  have hsame : ∀ m : Node R, m.tween = n.tween → m.offset = n.offset →
      (m.tickTween dt).offset = (n.tickTween dt).offset ∧
        (m.tickTween dt).tween = (n.tickTween dt).tween := by
    intro m hm ho
    unfold tickTween
    rw [hm]
    cases n.tween with
    | none => exact ⟨ho, hm⟩
    | some t =>
      simp only [moveTo, ho]
      exact ⟨trivial, trivial⟩
  obtain ⟨ho, ht⟩ := hsame { n with clock := n.clock + dt } rfl rfl
  rw [htween] at ho ht hshake
  refine ⟨offset, tween, shake, n.clock + dt, ho, ht, ?_⟩
  unfold tick
  rw [htween, hshake]

theorem tick_offset (n : Node R) (dt : R) : (n.tick dt).offset = (n.tickTween dt).offset := by
  obtain ⟨offset, tween, shake, clock, ho, -, h⟩ := n.tick_eq dt
  obtain ⟨_, _, _, ht⟩ := ({ n with offset, tween, shake, clock } : Node R).tickTimers_eq dt
  rw [h, ht, ← ho]

theorem tick_tween (n : Node R) (dt : R) : (n.tick dt).tween = (n.tickTween dt).tween := by
  obtain ⟨offset, tween, shake, clock, -, htween, h⟩ := n.tick_eq dt
  obtain ⟨_, _, _, ht⟩ := ({ n with offset, tween, shake, clock } : Node R).tickTimers_eq dt
  rw [h, ht, ← htween]

theorem tick_timers (n : Node R) (dt : R) :
    (n.tick dt).timers = (n.timers.map (·.elapse dt)).filter fun t => ¬t.remaining ≤ 0 := by
  obtain ⟨offset, tween, shake, clock, -, -, h⟩ := n.tick_eq dt
  obtain ⟨_, _, _, ht⟩ := ({ n with offset, tween, shake, clock } : Node R).tickTimers_eq dt
  rw [h, ht]

/-- A node with timers that hide it is hidden once the time of one of them is over. -/
theorem tick_visible_of_hide {n : Node R} (h : ∀ t ∈ n.timers, t.action = .hide) (dt : R) :
    (n.tick dt).visible ↔ n.visible ∧ ∀ t ∈ n.timers, ¬(t.elapse dt).remaining ≤ 0 := by
  obtain ⟨offset, tween, shake, clock, -, -, hn⟩ := n.tick_eq dt
  rw [hn]
  unfold tickTimers
  simp only
  rw [foldl_perform_visible_of_hide, Bool.and_eq_true, List.isEmpty_iff, List.filter_eq_nil_iff,
    List.forall_mem_map]
  · simp only [decide_eq_true_eq]
    rfl
  · intro t ht
    obtain ⟨u, hu, rfl⟩ := List.mem_map.mp (List.mem_of_mem_filter ht)
    exact h u hu

/-! ## Sprites set by timers -/

/-- The sprites that timers set in a tick, in order. -/
def dueSprites (n : Node R) (dt : R) : List (Sprite R) :=
  ({ n with timers := (n.timers.map (·.elapse dt)).filter fun t => t.remaining ≤ 0 } : Node R).pendingSprites

theorem dueSprites_congr {n n' : Node R} (h : n'.timers = n.timers) (dt : R) :
    n'.dueSprites dt = n.dueSprites dt := by
  unfold dueSprites pendingSprites
  rw [h]

omit [Scalar R] in
theorem pendingSprites_cons (n : Node R) (t : Timer R) (r : List (Timer R)) :
    ({ n with timers := t :: r } : Node R).pendingSprites =
      (match t.action with
        | .setSprite s => [s]
        | _ => []) ++ ({ n with timers := r } : Node R).pendingSprites := by
  unfold pendingSprites
  rw [List.filterMap_cons]
  cases t.action <;> rfl

theorem foldl_perform_payload (due : List (Timer R)) (n : Node R) :
    (due.foldl (fun n t => n.perform t.action) n).payload =
      ({ n with timers := due } : Node R).pendingSprites.foldl Payload.setSprite n.payload := by
  induction due generalizing n with
  | nil => rfl
  | cons t r ih =>
    rw [List.foldl_cons, ih, pendingSprites_cons, List.foldl_append]
    cases t.action <;> rfl

/-- A tick draws what was drawn before, with the sprites that timers set. -/
theorem tick_payload (n : Node R) (dt : R) :
    (n.tick dt).payload = (n.dueSprites dt).foldl Payload.setSprite n.payload := by
  obtain ⟨offset, tween, shake, clock, -, -, h⟩ := n.tick_eq dt
  rw [h]
  exact foldl_perform_payload _ _

/-! ## The place in the tree -/

/-- The node in another place of a tree. -/
def relinked (n : Node R) (parent : Option NodeId) (children : List NodeId) : Node R :=
  { n with parent, children }

/-- What there is of a node besides its place in a tree. -/
def unlinked (n : Node R) : Node R := n.relinked none []

variable (n : Node R) (parent : Option NodeId) (children : List NodeId) (dt : R)

theorem tickTween_relinked :
    (n.relinked parent children).tickTween dt = (n.tickTween dt).relinked parent children := by
  obtain ⟨_, _, _, _, _, _, _, _, _, tween⟩ := n
  cases tween <;> rfl

theorem tickShake_relinked :
    (n.relinked parent children).tickShake dt = (n.tickShake dt).relinked parent children := by
  obtain ⟨_, _, _, _, _, _, _, _, shake, _⟩ := n
  cases shake <;> rfl

theorem foldl_perform_relinked (due : List (Timer R)) :
    due.foldl (fun n t => n.perform t.action) (n.relinked parent children) =
      (due.foldl (fun n t => n.perform t.action) n).relinked parent children := by
  induction due generalizing n with
  | nil => rfl
  | cons t r ih =>
    have hperform : (n.relinked parent children).perform t.action =
        (n.perform t.action).relinked parent children := by
      cases t.action <;> rfl
    rw [List.foldl_cons, List.foldl_cons, hperform, ih]

theorem tickTimers_relinked :
    (n.relinked parent children).tickTimers dt = (n.tickTimers dt).relinked parent children :=
  foldl_perform_relinked { n with timers := _ } parent children _

/-- A tick is the same wherever in a tree the node is. -/
theorem tick_relinked : (n.relinked parent children).tick dt = (n.tick dt).relinked parent children := by
  have hclock : ({ n.relinked parent children with clock := n.clock + dt } : Node R) =
      ({ n with clock := n.clock + dt } : Node R).relinked parent children := rfl
  change ((({ n.relinked parent children with clock := n.clock + dt } : Node R).tickTween dt).tickShake
    dt).tickTimers dt = _
  rw [hclock, tickTween_relinked, tickShake_relinked, tickTimers_relinked]
  rfl

theorem unlinked_tick : (n.tick dt).unlinked = n.unlinked.tick dt := (n.tick_relinked none [] dt).symm

/-! ## Roles -/

/-- A change of a node that leaves its parent and its children to the scene. -/
def KeepsLinks (f : Node R → Node R) : Prop :=
  ∀ n, (f n).parent = n.parent ∧ (f n).children = n.children

/-- What a node is in its scene: its name, its place in the tree and its depth. -/
structure Role where
  name : String
  parent : Option NodeId
  children : List NodeId
  depth : Int32

def role (n : Node R) : Role := ⟨n.name, n.parent, n.children, n.offset.z⟩

/-- A change of a node that leaves its role as it is. -/
def KeepsRole (f : Node R → Node R) : Prop := ∀ n, (f n).role = n.role

theorem keepsRole_startTween (target : Point) (secs : R) (ease : Ease R) :
    KeepsRole fun n : Node R => n.startTween target secs ease := by
  intro n
  unfold startTween
  simp only
  split_ifs <;> rfl

theorem tickTween_depth (n : Node R) (dt : R) : (n.tickTween dt).offset.z = n.offset.z := by
  unfold tickTween
  cases n.tween <;> rfl

theorem keepsRole_tick (dt : R) : KeepsRole fun n : Node R => n.tick dt := by
  intro n
  obtain ⟨offset, tween, shake, clock, hoffset, -, h⟩ := n.tick_eq dt
  obtain ⟨_, _, _, ht⟩ := ({ n with offset, tween, shake, clock } : Node R).tickTimers_eq dt
  simp only [role, h, ht]
  rw [hoffset, tickTween_depth]

end Node

end Cutscene
