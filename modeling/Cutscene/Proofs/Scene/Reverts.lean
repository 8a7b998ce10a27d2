import Mathlib.Data.List.Forall2
import Mathlib.Data.List.Induction
import Cutscene.Proofs.Scene.Showings
import Cutscene.Stage.Effects

/-!
# Slams that are put back

A slam puts a sprite on a node and leaves a timer behind that puts the former one back. One that comes
while the timer of the last one is running takes that timer away and sets one of its own, which puts back
what the former timer would have. So slams make up chains, and a chain has one timer at a time, whatever
sprites are put on the node meanwhile.

Results:
* `slam_timers`: what a slam does to the timers of a node.
* `Node.Reverting.slam`, `Node.Reverting.tick`: the timers of a node and what they have put back, as slams
  come in and steps go by.
-/

namespace Cutscene

variable {R : Type} [Scalar R]

namespace Payload

omit [Scalar R] in
theorem sprite?_setSprite (p : Payload R) (s : Sprite R) : (p.setSprite s).sprite? = some s := by
  cases p <;> rfl

omit [Scalar R] in
/-- Of sprites that are set one after another the last one is drawn. -/
theorem sprite?_foldl_setSprite (p : Payload R) (l : List (Sprite R)) :
    (l.foldl setSprite p).sprite? = (l.getLast? <|> p.sprite?) := by
  induction l using List.reverseRecOn with
  | nil => rfl
  | append_singleton l s _ =>
    rw [List.foldl_append, List.foldl_cons, List.foldl_nil, sprite?_setSprite, List.getLast?_append]
    rfl

end Payload

namespace Stage

/-- A slam takes away the timers that set sprites, and no others. It has one of its own if there is
anything to be put back. -/
theorem slam_timers (n : Node R) (sprite : Sprite R) (secs : R) :
    (slam n sprite secs).timers = n.dropPendingSprites.timers ++
      ((n.pendingSprites.head? <|> n.payload.sprite?).map fun s => ⟨secs, .setSprite s⟩).toList := by
  unfold slam
  simp only
  cases n.pendingSprites.head? <|> n.payload.sprite? with
  | none => exact (List.append_nil _).symm
  | some s => rfl

/-- Without a slam before it, a slam has the sprite put back that it finds. -/
theorem slam_timers_of_nil {n : Node R} (h : n.timers = []) {found : Sprite R}
    (hfound : n.payload.sprite? = some found) (sprite : Sprite R) (secs : R) :
    (slam n sprite secs).timers = [⟨secs, .setSprite found⟩] := by
  rw [slam_timers]
  unfold Node.dropPendingSprites Node.pendingSprites
  rw [h, hfound]
  rfl

/-- A slam takes over what a former one has left to be put back. -/
theorem slam_timers_of_pending {n : Node R} {remaining : R} {former : Sprite R}
    (h : n.timers = [⟨remaining, .setSprite former⟩]) (sprite : Sprite R) (secs : R) :
    (slam n sprite secs).timers = [⟨secs, .setSprite former⟩] := by
  rw [slam_timers]
  unfold Node.dropPendingSprites Node.pendingSprites
  rw [h]
  rfl

theorem slam_sprite? (n : Node R) (sprite : Sprite R) (secs : R) :
    (slam n sprite secs).payload.sprite? = some sprite := Payload.sprite?_setSprite _ _

end Stage

/-! ## Chains -/

/-- A slam, with the sprite that it finds. -/
structure Slam extends Showing where
  found : Sprite Rat

/-- Slams in a row, each of which begins before the last one has been put back. -/
structure SlamChain where
  first : Slam
  last : Slam

/-- A sprite that is put back in the step of a number. -/
structure Revert where
  step : Nat
  sprite : Sprite Rat

namespace SlamChain

/-- Whether a chain has been put back when `n` steps have been made. That is for its last slam to say. -/
def Over (dt : Rat) (c : SlamChain) (n : Nat) : Prop := c.last.Over dt n

instance (dt : Rat) (c : SlamChain) (n : Nat) : Decidable (c.Over dt n) :=
  inferInstanceAs (Decidable (c.last.Over dt n))

/-- Some chains with one more slam, which goes on with the last chain unless that has been put back. -/
def join (dt : Rat) (chains : List SlamChain) (u : Slam) : List SlamChain :=
  match chains.getLast? with
  | none => [⟨u, u⟩]
  | some c =>
    if c.Over dt u.start then chains ++ [⟨u, u⟩] else chains.dropLast ++ [{ c with last := u }]

/-- The chains that slams make up, in the order in which they come. -/
def all (dt : Rat) (slams : List Slam) : List SlamChain := slams.foldl (join dt) []

/-- The timer of a chain when `n` steps have been made. It puts back what the first slam has found. -/
def timer (dt : Rat) (n : Nat) (c : SlamChain) : Timer Rat :=
  ⟨c.last.secs - ((n - c.last.start : Nat) : Rat) * dt, .setSprite c.first.found⟩

/-- A chain is put back, in the first step in which the time of its last slam is over. -/
structure PutBack (dt : Rat) (c : SlamChain) (r : Revert) : Prop where
  sprite : r.sprite = c.first.found
  running : ¬c.Over dt r.step
  ended : c.Over dt (r.step + 1)

variable {dt : Rat} {n : Nat} {c : SlamChain}

theorem join_nil (u : Slam) : join dt [] u = [⟨u, u⟩] := rfl

theorem join_append_singleton (chains : List SlamChain) (c : SlamChain) (u : Slam) :
    join dt (chains ++ [c]) u =
      if c.Over dt u.start then chains ++ [c] ++ [⟨u, u⟩] else chains ++ [{ c with last := u }] := by
  unfold join
  rw [List.getLast?_concat, List.dropLast_concat]

theorem all_append (slams more : List Slam) : all dt (slams ++ more) = more.foldl (join dt) (all dt slams) :=
  List.foldl_append

theorem timer_elapse (h : c.last.start ≤ n) : (c.timer dt n).elapse dt = c.timer dt (n + 1) := by
  have htimer : (c.last.timer dt n).elapse dt = c.last.timer dt (n + 1) := Showing.timer_succ h
  exact congrArg (Timer.mk · _) (congrArg Timer.remaining htimer)

theorem timer_remaining_le_iff (h : c.last.start < n) : (c.timer dt n).remaining ≤ 0 ↔ c.Over dt n :=
  Showing.timer_remaining_le_iff h

end SlamChain

namespace Node

/-- A node is as some chains of slams have left it after `n` steps: it has the timer of the chain that has
not been put back, which can be the last one only, and the others have been put back one after another. -/
structure Reverting (dt : Rat) (node : Node Rat) (n : Nat) (chains : List SlamChain)
    (reverts : List Revert) : Prop where
  start_le : ∀ c ∈ chains, c.last.start ≤ n
  ended : ∀ c ∈ chains.dropLast, c.Over dt n
  timers : node.timers = (chains.filter fun c => ¬c.Over dt n).map (SlamChain.timer dt n)
  stands : node.payload.sprite?.isSome
  reverts : List.Forall₂ (SlamChain.PutBack dt) (chains.filter fun c => c.Over dt n) reverts

variable {dt : Rat} {node node' : Node Rat} {n : Nat} {chains : List SlamChain} {reverts : List Revert}

theorem Reverting.congr (h : Reverting dt node n chains reverts) (htimers : node'.timers = node.timers)
    (hstands : node'.payload.sprite?.isSome) : Reverting dt node' n chains reverts :=
  ⟨h.start_le, h.ended, htimers.trans h.timers, hstands, h.reverts⟩

theorem reverting_nil (htimers : node.timers = []) (hstands : node.payload.sprite?.isSome) :
    Reverting dt node n [] [] :=
  ⟨fun _ hc => absurd hc List.not_mem_nil, fun _ hc => absurd hc List.not_mem_nil, htimers, hstands, .nil⟩

/-- Chains that have been put back, and one more. -/
theorem filter_over_append {done : List SlamChain} (h : ∀ c ∈ done, c.Over dt n) (c : SlamChain) :
    (done ++ [c]).filter (fun c => c.Over dt n) = done ++ [c].filter (fun c => c.Over dt n) ∧
      (done ++ [c]).filter (fun c => ¬c.Over dt n) = [c].filter fun c => ¬c.Over dt n := by
  have hall : done.filter (fun c => c.Over dt n) = done :=
    List.filter_eq_self.mpr fun c hc => decide_eq_true (h c hc)
  have hnone : done.filter (fun c => ¬c.Over dt n) = [] :=
    List.filter_eq_nil_iff.mpr fun c hc => by simpa using h c hc
  rw [List.filter_append, List.filter_append, hall, hnone, List.nil_append]
  exact ⟨rfl, rfl⟩

/-- One timer of a chain at most is running. -/
theorem Reverting.length_timers_le (h : Reverting dt node n chains reverts) : node.timers.length ≤ 1 := by
  rw [h.timers, List.length_map]
  rcases List.eq_nil_or_concat' chains with rfl | ⟨done, c, rfl⟩
  · exact Nat.zero_le 1
  · have hover := h.ended
    rw [List.dropLast_concat] at hover
    rw [(filter_over_append hover c).2]
    exact List.length_filter_le _ _

/-- A node has the timer of a chain whose last slam has just begun, if all the others have been put back. -/
theorem reverting_concat {done : List SlamChain} {c : SlamChain} (hle : ∀ d ∈ done, d.last.start ≤ n)
    (hover : ∀ d ∈ done, d.Over dt n) (hstart : c.last.start = n)
    (htimers : node.timers = [⟨c.last.secs, .setSprite c.first.found⟩])
    (hstands : node.payload.sprite?.isSome) (hreverts : List.Forall₂ (SlamChain.PutBack dt) done reverts) :
    Reverting dt node n (done ++ [c]) reverts := by
  have hrunning : ¬c.Over dt n := fun hover => Nat.lt_irrefl _ (hstart ▸ hover.1)
  obtain ⟨hdone, hpending⟩ := filter_over_append hover c
  refine ⟨fun d hd => ?_, ?_, ?_, hstands, ?_⟩
  · rcases List.mem_append.mp hd with hd | hd
    · exact hle d hd
    · rw [List.mem_singleton.mp hd, hstart]
  · rwa [List.dropLast_concat]
  · rw [htimers, hpending]
    simp [hrunning, SlamChain.timer, hstart]
  · rw [hdone]
    simpa [hrunning] using hreverts

/-- A slam goes on with a chain that is still to be put back, or begins one. -/
theorem Reverting.slam (h : Reverting dt node n chains reverts) {u : Slam} (hstart : u.start = n)
    (hfound : node.payload.sprite? = some u.found) (sprite : Sprite Rat) :
    Reverting dt (Stage.slam node sprite u.secs) n (SlamChain.join dt chains u) reverts := by
  have hstands : (Stage.slam node sprite u.secs).payload.sprite?.isSome := by
    rw [Stage.slam_sprite?]
    rfl
  have hle := h.start_le
  have hover := h.ended
  have htimers := h.timers
  have hreverts := h.reverts
  rcases List.eq_nil_or_concat' chains with rfl | ⟨done, c, rfl⟩
  · have htimers' := Stage.slam_timers_of_nil htimers hfound sprite u.secs
    rw [SlamChain.join_nil, ← List.nil_append [_]]
    exact reverting_concat hle hover hstart htimers' hstands hreverts
  rw [List.dropLast_concat] at hover
  obtain ⟨hdone, hpending⟩ := filter_over_append hover c
  rw [hpending] at htimers
  rw [hdone] at hreverts
  rw [SlamChain.join_append_singleton, hstart]
  split_ifs with hc
  · -- All chains so far have been put back, and the slam begins a new one.
    have hover' : ∀ d ∈ done ++ [c], d.Over dt n := by
      intro d hd
      rcases List.mem_append.mp hd with hd | hd
      · exact hover d hd
      · rwa [List.mem_singleton.mp hd]
    have hnone : node.timers = [] := by simpa [hc] using htimers
    have htimers' := Stage.slam_timers_of_nil hnone hfound sprite u.secs
    exact reverting_concat hle hover' hstart htimers' hstands (by simpa [hc] using hreverts)
  · -- The last chain is still to be put back, and goes on with the slam.
    have hone : node.timers = [c.timer dt n] := by simpa [hc] using htimers
    have htimers' := Stage.slam_timers_of_pending hone sprite u.secs
    exact reverting_concat (fun d hd => hle d (List.mem_append_left _ hd)) hover hstart htimers' hstands
      (by simpa [hc] using hreverts)

/-- A step puts a chain back if it is the first one in which the time of its last slam is over. -/
theorem Reverting.dueSprites_eq (h : Reverting dt node n chains reverts) : node.dueSprites dt =
    (chains.filter fun c => ¬c.Over dt n ∧ c.Over dt (n + 1)).map fun c => c.first.found := by
  have hdue := due_of_running h.timers
    (fun c hc => SlamChain.timer_elapse (h.start_le c hc))
    fun c hc => SlamChain.timer_remaining_le_iff (Nat.lt_succ_of_le (h.start_le c hc))
  unfold dueSprites pendingSprites
  rw [hdue, List.filterMap_map]
  exact congrFun List.filterMap_eq_map _

/-- A step keeps the node as the chains have left it. -/
theorem Reverting.tick (h : Reverting dt node n chains reverts) (hdt : 0 ≤ dt) :
    Reverting dt (node.tick dt) (n + 1) chains (reverts ++ (node.dueSprites dt).map (Revert.mk n)) := by
  have hmono : ∀ c : SlamChain, c.Over dt n → c.Over dt (n + 1) :=
    fun c hover => Showing.Over.mono hdt hover (Nat.le_succ n)
  have hover : chains.filter (fun c => c.Over dt (n + 1)) =
      chains.filter (fun c => c.Over dt n) ++ chains.filter fun c => ¬c.Over dt n ∧ c.Over dt (n + 1) := by
    rcases List.eq_nil_or_concat' chains with rfl | ⟨done, c, rfl⟩
    · rfl
    · have hdone := h.ended
      rw [List.dropLast_concat] at hdone
      have hold : done.filter (fun c => ¬c.Over dt n ∧ c.Over dt (n + 1)) = [] :=
        List.filter_eq_nil_iff.mpr fun d hd => by simpa using fun hnot => absurd (hdone d hd) hnot
      rw [(filter_over_append hdone c).1, (filter_over_append (fun d hd => hmono d (hdone d hd)) c).1,
        List.filter_append, hold, List.nil_append, List.append_assoc]
      have hc := hmono c
      by_cases hn : c.Over dt n
      · simp [hn, hc hn]
      · by_cases hnext : c.Over dt (n + 1) <;> simp [hn, hnext]
  refine ⟨fun c hc => Nat.le_succ_of_le (h.start_le c hc), fun c hc => hmono c (h.ended c hc), ?_, ?_, ?_⟩
  · exact tick_timers_of_running h.timers (fun c hc => SlamChain.timer_elapse (h.start_le c hc))
      (fun c hc => SlamChain.timer_remaining_le_iff (Nat.lt_succ_of_le (h.start_le c hc)))
      fun c _ => hmono c
  · rw [tick_payload, Payload.sprite?_foldl_setSprite]
    cases (node.dueSprites dt).getLast? with
    | none => exact h.stands
    | some s => rfl
  · rw [hover, h.dueSprites_eq, List.map_map]
    refine List.rel_append h.reverts (List.forall₂_map_right_iff.mpr (List.forall₂_same.mpr fun c hc => ?_))
    obtain ⟨-, hc⟩ := List.mem_filter.mp hc
    obtain ⟨hnot, hover⟩ := of_decide_eq_true hc
    exact ⟨rfl, hnot, hover⟩

end Node

end Cutscene
