import Mathlib.Algebra.Order.Field.Basic
import Mathlib.Data.List.Induction
import Cutscene.Proofs.Motion.Landing
import Cutscene.Proofs.Scene.Tick
import Cutscene.Proofs.Scene.Tree
import Cutscene.Proofs.Script.Created
import Cutscene.Proofs.Script.House

/-!
# Moves and tweens

A move of the script and a tween of a node are two loops for one motion. The first one is updated, and
writes what the curve gives; the second one is ticked, and is put at its target once it has arrived. Up to
then the two run abreast, and they part at arrival if the curve is above one there.

On `MoveAction.update` and the tween in `SceneNode.tick` (SPEC_FULL.md, §4.2 and §B.9).

Results:
* `Move.update_eq`: what an update of a move does.
* `abreast_create`: a move and a tween that are created alike are abreast.
* `Abreast.goOn`: a turn in which the motion is under way keeps them so.
* `Abreast.arrive`: the turn in which it arrives.
* `Abreast.run`: where the two are after any turns.
* `move_follows_curve`: a move from its creation on, whatever the turns are.
* `move_overshoots`: along a curve that is above one at the end, a move ends behind its target.
-/

namespace Cutscene

/-- A callback that leaves a node in its place. -/
def Callback.Spares {R : Type} [Scalar R] (node : NodeId) (f : Callback R) : Prop :=
  ∀ c : Context R, node < c.scene.size →
    node < (f c).scene.size ∧ ((f c).scene.node node).offset.xy = (c.scene.node node).offset.xy

variable {R : Type} [Scalar R]

/-! ## Ways -/

namespace Tween

/-- How far a motion has come. -/
def progress (g : Tween R) : R := g.ease.apply (g.elapsed / g.duration)

/-- Where the curve is, on the way and at the end. -/
def onCurve (g : Tween R) : Point :=
  ⟨lerp g.origin.x g.target.x g.progress, lerp g.origin.y g.target.y g.progress⟩

/-- The motion some time later. -/
def elapse (g : Tween R) (dt : R) : Tween R := { g with elapsed := g.elapsed + dt }

/-- A motion whose curve lands has the target on its curve. -/
theorem onCurve_of_lands {g : Tween R} (hlands : g.ease.Lands) (h : 1 ≤ g.progress) :
    g.onCurve = g.target := by
  unfold onCurve progress
  rw [hlands _ _ _ h, hlands _ _ _ h]

end Tween

/-- A tween on its way is where its curve is; after that it is over, and the node is at the target. -/
theorem Node.tick_of_tween {n : Node R} {g : Tween R} (h : n.tween = some g) (dt : R) :
    (n.tick dt).offset.xy =
        (if 1 ≤ (g.elapse dt).progress then g.target else (g.elapse dt).onCurve) ∧
      (n.tick dt).tween = if 1 ≤ (g.elapse dt).progress then none else some (g.elapse dt) := by
  have hposition : (g.elapse dt).position =
      if 1 ≤ (g.elapse dt).progress then (g.target, true) else ((g.elapse dt).onCurve, false) := rfl
  have hticked : n.tickTween dt = { n.moveTo (g.elapse dt).position.1 with
      tween := if (g.elapse dt).position.2 then none else some (g.elapse dt) } := by
    unfold tickTween
    rw [h]
    rfl
  rw [n.tick_offset, n.tick_tween, hticked, hposition]
  by_cases harrived : 1 ≤ (g.elapse dt).progress
  · simp only [if_pos harrived]
    exact ⟨rfl, rfl⟩
  · simp only [if_neg harrived]
    exact ⟨rfl, rfl⟩

theorem Node.tick_of_no_tween {n : Node R} (h : n.tween = none) (dt : R) :
    (n.tick dt).offset = n.offset ∧ (n.tick dt).tween = none := by
  rw [n.tick_offset, n.tick_tween]
  unfold tickTween
  rw [h]
  exact ⟨rfl, h⟩

namespace Move

/-- The motion that a move is in, which starts where its node is when it is first updated. -/
def way (m : Move R) (c : Context R) : Tween R :=
  ⟨m.origin.getD (c.scene.node m.node).offset.xy, m.target, m.duration, m.elapsed, m.ease⟩

/-- An update of a move puts its node on the curve, and ends the move if the curve has arrived. -/
theorem update_eq {m : Move R} (h : m.completed = false) (dt : R) (c : Context R) :
    let g := (m.way c).elapse dt
    let moved : Context R := c.modifyNode m.node (·.moveTo g.onCurve)
    let m' : Move R := { m with origin := some g.origin, elapsed := g.elapsed }
    m.update dt c =
      if 1 ≤ g.progress then ({ m' with completed := true, onComplete := none }, moved.complete m.onComplete)
      else (m', moved) := by
  unfold update
  rw [h]
  rfl

/-- Updates of a move. In each turn others are on before the move is updated. -/
def run (m : Move R) (c : Context R) (turns : List (R × Callback R)) : Move R × Context R :=
  turns.foldl (fun r turn => r.1.update turn.1 (turn.2 r.2)) (m, c)

theorem run_snoc (m : Move R) (c : Context R) (turns : List (R × Callback R)) (dt : R)
    (others : Callback R) :
    m.run c (turns ++ [(dt, others)]) = (m.run c turns).1.update dt (others (m.run c turns).2) := by
  unfold run
  rw [List.foldl_append]
  rfl

end Move

/-- Ticks of a node. -/
def Node.ticks (n : Node R) (dts : List R) : Node R := dts.foldl Node.tick n

/-! ## Side by side -/

/-- A move and a tween that are in the same motion, which has not arrived. -/
structure Abreast (node : NodeId) (onComplete : Option (Callback R)) (g : Tween R)
    (m : Move R) (c : Context R) (n : Node R) : Prop where
  works : m.node = node
  ends : m.onComplete = onComplete
  underway : m.completed = false
  way : m.way c = g
  tween : n.tween = some g
  size : node < c.scene.size
  place : (c.scene.node node).offset.xy = n.offset.xy

/-- A move and a tween that are done, the node of the former where it landed, the other at the target. -/
structure Arrived (node : NodeId) (landed target : Point) (m : Move R) (c : Context R)
    (n : Node R) : Prop where
  completed : m.completed = true
  tween : n.tween = none
  size : node < c.scene.size
  landed : (c.scene.node node).offset.xy = landed
  place : n.offset.xy = target

variable {node : NodeId} {onComplete : Option (Callback R)} {g : Tween R} {landed target : Point}
  {m : Move R} {c : Context R} {n : Node R} {others : Callback R}

theorem Context.spares_complete (h : ∀ f ∈ onComplete, Callback.Spares node f) :
    Callback.Spares node fun c => c.complete onComplete := by
  intro c hc
  unfold complete
  rw [scene_finishAction]
  cases onComplete with
  | none => exact ⟨hc, rfl⟩
  | some f => exact h f rfl c hc

theorem Context.place_modifyNode {c : Context R} (hc : node < c.scene.size) (p : Point) :
    node < (c.modifyNode node (·.moveTo p)).scene.size ∧
      ((c.modifyNode node (·.moveTo p)).scene.node node).offset.xy = p := by
  refine ⟨(c.scene.size_modify node _).symm ▸ hc, ?_⟩
  have hmoved : (c.modifyNode node (·.moveTo p)).scene.node node = (c.scene.node node).moveTo p :=
    Scene.node_modify_self hc _
  rw [hmoved]
  rfl

/-- Others who spare the node do not change the motion. -/
theorem Abreast.spared (h : Abreast node onComplete g m c n) (hothers : others.Spares node) :
    Abreast node onComplete g m (others c) n where
  works := h.works
  ends := h.ends
  underway := h.underway
  way := by
    rw [← h.way]
    unfold Move.way
    rw [h.works, (hothers c h.size).2]
  tween := h.tween
  size := (hothers c h.size).1
  place := (hothers c h.size).2.trans h.place

/-- As long as the motion has not arrived, an update and a tick lead to the same place on the curve. -/
theorem Abreast.goOn (h : Abreast node onComplete g m c n) {dt : R}
    (hearly : ¬1 ≤ (g.elapse dt).progress) :
    Abreast node onComplete (g.elapse dt) (m.update dt c).1 (m.update dt c).2 (n.tick dt) ∧
      (m.update dt c).2 = c.modifyNode node (·.moveTo (g.elapse dt).onCurve) ∧
      (n.tick dt).offset.xy = (g.elapse dt).onCurve := by
  have hupdate := Move.update_eq h.underway dt c
  simp only [h.way, if_neg hearly, h.works] at hupdate
  obtain ⟨hsize, hplace⟩ := Context.place_modifyNode h.size (g.elapse dt).onCurve
  obtain ⟨hoffset, htween⟩ := Node.tick_of_tween h.tween dt
  rw [if_neg hearly] at hoffset htween
  rw [hupdate]
  refine ⟨⟨rfl, h.ends, h.underway, ?_, htween, hsize, hplace.trans hoffset.symm⟩, rfl,
    hoffset⟩
  have hmotion := h.way
  unfold Move.way at hmotion ⊢
  rw [← hmotion]
  rfl

/--
In the turn in which the motion arrives, the move goes where the curve is and is done: its callback is run,
and it is reported. The tween is over and its node at the target.
-/
theorem Abreast.arrive (h : Abreast node onComplete g m c n)
    (hspares : ∀ f ∈ onComplete, Callback.Spares node f) {dt : R}
    (harrived : 1 ≤ (g.elapse dt).progress) :
    Arrived node (g.elapse dt).onCurve g.target (m.update dt c).1 (m.update dt c).2 (n.tick dt) ∧
      (m.update dt c).1.onComplete = none ∧
      (m.update dt c).2 =
        (c.modifyNode node (·.moveTo (g.elapse dt).onCurve)).complete onComplete := by
  have hupdate := Move.update_eq h.underway dt c
  simp only [h.way, if_pos harrived, h.works, h.ends] at hupdate
  obtain ⟨hsize, hplace⟩ := Context.place_modifyNode h.size (g.elapse dt).onCurve
  obtain ⟨hsize', hplace'⟩ := Context.spares_complete hspares _ hsize
  obtain ⟨hoffset, htween⟩ := Node.tick_of_tween h.tween dt
  rw [if_pos harrived] at hoffset htween
  rw [hupdate]
  exact ⟨⟨rfl, htween, hsize', hplace'.trans hplace, hoffset⟩, rfl, rfl⟩

/-- After that an update changes nothing, and a tick leaves the node at the target. -/
theorem Arrived.stay (h : Arrived node landed target m c n) (hothers : others.Spares node) (dt : R) :
    m.update dt (others c) = (m, others c) ∧
      Arrived node landed target m (others c) (n.tick dt) := by
  obtain ⟨hoffset, htween⟩ := Node.tick_of_no_tween h.tween dt
  obtain ⟨hsize, hplace⟩ := hothers c h.size
  refine ⟨?_, h.completed, htween, hsize, hplace.trans h.landed, ?_⟩
  · unfold Move.update
    rw [h.completed]
    rfl
  · rw [hoffset]
    exact h.place

/-- The motion after some turns. -/
def Tween.elapses (g : Tween R) (dts : List R) : Tween R := dts.foldl Tween.elapse g

theorem Tween.elapses_snoc (g : Tween R) (dts : List R) (dt : R) :
    g.elapses (dts ++ [dt]) = (g.elapses dts).elapse dt := by
  unfold elapses
  rw [List.foldl_append]
  rfl

theorem Tween.target_elapses (g : Tween R) (dts : List R) : (g.elapses dts).target = g.target := by
  induction dts generalizing g with
  | nil => rfl
  | cons dt r ih => exact ih (g.elapse dt)

/--
Where the two are after any turns: abreast, and the motion has not arrived in any of them; or arrived, the
move where the curve was at the time.
-/
theorem Abreast.run (h : Abreast node onComplete g m c n)
    (hspares : ∀ f ∈ onComplete, Callback.Spares node f) {turns : List (R × Callback R)}
    (hturns : ∀ turn ∈ turns, Callback.Spares node turn.2) :
    let dts := turns.map Prod.fst
    let now := m.run c turns
    ((∀ part, part ≠ [] → part <+: dts → ¬1 ≤ (g.elapses part).progress) ∧
        Abreast node onComplete (g.elapses dts) now.1 now.2 (n.ticks dts)) ∨
      ∃ part, part ≠ [] ∧ part <+: dts ∧ 1 ≤ (g.elapses part).progress ∧
        Arrived node (g.elapses part).onCurve g.target now.1 now.2 (n.ticks dts) := by
  induction turns using List.reverseRecOn with
  | nil =>
    refine Or.inl ⟨?_, h⟩
    intro part hpart hprefix
    exact absurd (List.prefix_nil.mp hprefix) hpart
  | append_singleton turns turn ih =>
    obtain ⟨dt, others⟩ := turn
    have hothers : others.Spares node := hturns (dt, others) (by simp)
    have hticks : n.ticks (turns.map Prod.fst ++ [dt]) = (n.ticks (turns.map Prod.fst)).tick dt := by
      unfold Node.ticks
      rw [List.foldl_append]
      rfl
    simp only [List.map_append, List.map_singleton, Move.run_snoc, hticks]
    rcases ih fun turn hturn => hturns turn (List.mem_append_left _ hturn) with
      ⟨hnone, habreast⟩ | ⟨part, hpart, hprefix, hprogress, harrived⟩
    · have hstart := habreast.spared hothers
      rw [Tween.elapses_snoc]
      by_cases harrived : 1 ≤ ((g.elapses (turns.map Prod.fst)).elapse dt).progress
      · refine Or.inr ⟨turns.map Prod.fst ++ [dt], by simp, List.prefix_refl _, ?_⟩
        rw [Tween.elapses_snoc]
        refine ⟨harrived, ?_⟩
        rw [← g.target_elapses (turns.map Prod.fst)]
        exact (hstart.arrive hspares harrived).1
      · refine Or.inl ⟨?_, (hstart.goOn harrived).1⟩
        intro part hpart hprefix
        rcases List.prefix_concat_iff.mp hprefix with rfl | hprefix
        · rwa [Tween.elapses_snoc]
        · exact hnone part hpart hprefix
    · obtain ⟨hupdate, hstay⟩ := harrived.stay hothers dt
      rw [hupdate]
      exact Or.inr ⟨part, hpart, hprefix.trans (List.prefix_append _ _), hprogress, hstay⟩

/-! ## From the creation of a move on -/

/-- A move that is created and a tween that is started from the same place are abreast. -/
theorem abreast_create {duration : R} {ease : Ease R}
    (hm : Move.create node target duration ease = .ok m) (onComplete : Option (Callback R))
    (hnode : node < c.scene.size) (hn : n.offset.xy = (c.scene.node node).offset.xy) :
    Abreast node onComplete ⟨n.offset.xy, target, duration, 0, ease⟩ { m with onComplete } c
      (n.startTween target duration ease) := by
  have htween : n.startTween target duration ease =
      { n with tween := some ⟨n.offset.xy, target, duration, 0, ease⟩ } := if_pos (Move.duration_pos hm)
  rw [Move.create_eq hm, htween]
  exact ⟨rfl, rfl, rfl, by rw [Move.way, Option.getD_none, ← hn], rfl, hnode, hn.symm⟩

omit [Scalar R] in
/-- A callback that leaves finishers alone lets the end of an action be reported. -/
theorem Context.raised_complete {id : ActionId} (hid : c.finisher = some id)
    (hkeeps : ∀ f ∈ onComplete, ∀ d, (f d).finisher = d.finisher ∧ (f d).raised = d.raised) :
    (c.complete onComplete).raised = c.raised ++ [id] ∧ (c.complete onComplete).finisher = none := by
  unfold complete finishAction raise
  cases onComplete with
  | none =>
    rw [hid]
    exact ⟨rfl, rfl⟩
  | some f =>
    obtain ⟨hfinisher, hraised⟩ := hkeeps f rfl c
    simp only [hfinisher, hid, hraised]
    exact ⟨trivial, trivial⟩

theorem Tween.elapses_eq (g : Tween Rat) (dts : List Rat) :
    g.elapses dts = { g with elapsed := g.elapsed + dts.sum } := by
  induction dts generalizing g with
  | nil =>
    rw [List.sum_nil, add_zero]
    rfl
  | cons dt r ih =>
    have hsum : g.elapsed + (dt + r.sum) = (g.elapsed + dt) + r.sum := (add_assoc _ _ _).symm
    rw [List.sum_cons, hsum]
    exact ih (g.elapse dt)

/--
**A move follows its curve to the end, and a tween of the same motion runs abreast of it until then.** Take
any move that is created, any turns in which it is updated while nobody else moves its node, and a node
that starts from the same place with a tween of the same target, duration and curve and is ticked by the
same durations. Progress is what the curve gives for the time that has passed.

* A move is completed exactly from the first turn on in which its progress is one or above, and this comes
  at the latest when its duration has passed.
* Before that turn an update puts its node where the curve is, and does nothing else. The tween is there
  as well.
* In that turn an update puts the node where the curve is, runs the callback of the move and reports the
  move, once if the callback leaves finishers alone. The curve is at the target if the progress is one. The
  tween is at the target in any case.
* After it an update changes nothing, and the tween stays at the target.
* Along a curve with a name, and along any that is nowhere above one, both are at the same place after
  every turn.
-/
theorem move_follows_curve {node : NodeId} {target : Point} {duration : Rat} {ease : Ease Rat}
    {m : Move Rat} (hm : Move.create node target duration ease = .ok m)
    {onComplete : Option (Callback Rat)} (hspares : ∀ f ∈ onComplete, Callback.Spares node f)
    {c : Context Rat} (hnode : node < c.scene.size) {n : Node Rat}
    (hn : n.offset.xy = (c.scene.node node).offset.xy) {turns : List (Rat × Callback Rat)}
    (hturns : ∀ turn ∈ turns, Callback.Spares node turn.2) {others : Callback Rat}
    (hothers : others.Spares node) (dt : Rat) :
    let was := Move.run { m with onComplete } c turns
    let before := others was.2
    let now := was.1.update dt before
    let place := (now.2.scene.node node).offset.xy
    let tweenPlace := (((n.startTween target duration ease).ticks (turns.map Prod.fst)).tick dt).offset.xy
    let progress (dts : List Rat) : Rat := ease.apply (dts.sum / duration)
    let reached := progress (turns.map Prod.fst ++ [dt])
    let point : Point := ⟨lerp n.offset.x target.x reached, lerp n.offset.y target.y reached⟩
    (was.1.completed = true ↔
        ∃ part, part ≠ [] ∧ part <+: turns.map Prod.fst ∧ 1 ≤ progress part) ∧
      (duration ≤ (turns.map Prod.fst ++ [dt]).sum → now.1.completed = true) ∧
      (was.1.completed = false → reached < 1 →
        now.1.completed = false ∧ now.1.onComplete = onComplete ∧
          now.2 = before.modifyNode node (·.moveTo point) ∧ place = point ∧ tweenPlace = point) ∧
      (was.1.completed = false → 1 ≤ reached →
        now.1.completed = true ∧ now.1.onComplete = none ∧
          now.2 = (before.modifyNode node (·.moveTo point)).complete onComplete ∧
          place = point ∧ (reached = 1 → point = target) ∧ tweenPlace = target ∧
          ∀ id, before.finisher = some id →
            (∀ f ∈ onComplete, ∀ d, (f d).finisher = d.finisher ∧ (f d).raised = d.raised) →
            now.2.raised = before.raised ++ [id] ∧ now.2.finisher = none) ∧
      (was.1.completed = true → now = (was.1, before) ∧ tweenPlace = target) ∧
      (ease.name?.isSome ∨ (∀ t, ease.apply t ≤ 1) → place = tweenPlace) := by
  intro was before now place tweenPlace progress reached point
  let way (dts : List Rat) : Tween Rat := ⟨n.offset.xy, target, duration, dts.sum, ease⟩
  have hpos : 0 < duration := Move.duration_pos hm
  have hway : ∀ dts, (way []).elapses dts = way dts := by
    intro dts
    rw [Tween.elapses_eq]
    simp only [way, List.sum_nil, zero_add]
  have hnext : (way (turns.map Prod.fst)).elapse dt = way (turns.map Prod.fst ++ [dt]) := by
    rw [← hway (turns.map Prod.fst), ← Tween.elapses_snoc, hway]
  have hlands : ease.name?.isSome ∨ (∀ t, ease.apply t ≤ 1) → ease.Lands := by
    rintro (hnamed | hle)
    · exact Ease.lands_of_le_one (Ease.apply_le_one hnamed)
    · exact Ease.lands_of_le_one hle
  have hlate : duration ≤ (turns.map Prod.fst ++ [dt]).sum → 1 ≤ reached := by
    intro hsum
    have hover : 1 ≤ (turns.map Prod.fst ++ [dt]).sum / duration := (one_le_div hpos).mpr hsum
    exact (Move.arrives hm).trans_eq (ease.apply_of_le hover).symm
  have hstart : Abreast node onComplete (way []) { m with onComplete } c
      (n.startTween target duration ease) := abreast_create hm onComplete hnode hn
  have hrun := hstart.run hspares hturns
  simp only [hway] at hrun
  rcases hrun with ⟨hnone, habreast⟩ | ⟨part, hpart, hprefix, harrived, hdone⟩
  · have hready := habreast.spared hothers
    have hunderway : was.1.completed ≠ true := Bool.eq_false_iff.mp hready.underway
    have hearlier : ¬∃ part, part ≠ [] ∧ part <+: turns.map Prod.fst ∧ 1 ≤ progress part := by
      rintro ⟨part, hpart, hprefix, harrived⟩
      exact hnone part hpart hprefix harrived
    refine ⟨iff_of_false hunderway hearlier, ?_⟩
    by_cases harrived : 1 ≤ reached
    · have hover : 1 ≤ ((way (turns.map Prod.fst)).elapse dt).progress := hnext ▸ harrived
      obtain ⟨hdone, hgone, hcontext⟩ := hready.arrive hspares hover
      rw [hnext] at hdone hcontext
      refine ⟨fun _ => hdone.completed, fun _ hearly => absurd harrived (not_le.mpr hearly),
        fun _ _ => ⟨hdone.completed, hgone, hcontext, hdone.landed, ?_, hdone.place, ?_⟩,
        fun h => absurd h hunderway, ?_⟩
      · intro hone
        simp only [point, hone, Ease.lerp_one]
      · intro id hid hkeeps
        rw [hcontext]
        exact Context.raised_complete (c := before.modifyNode node _) hid hkeeps
      · intro hcurve
        exact (hdone.landed.trans (Tween.onCurve_of_lands (hlands hcurve) harrived)).trans
          hdone.place.symm
    · have hearly : ¬1 ≤ ((way (turns.map Prod.fst)).elapse dt).progress := hnext ▸ harrived
      obtain ⟨hgoes, hcontext, htween⟩ := hready.goOn hearly
      rw [hnext] at hcontext htween
      have hplace : place = point := hgoes.place.trans htween
      exact ⟨fun hsum => absurd (hlate hsum) harrived,
        fun _ _ => ⟨hgoes.underway, hgoes.ends, hcontext, hplace, htween⟩,
        fun _ hover => absurd hover harrived, fun h => absurd h hunderway,
        fun _ => hplace.trans htween.symm⟩
  · obtain ⟨hupdate, hstay⟩ := hdone.stay hothers dt
    have hcompleted : was.1.completed = true := hdone.completed
    have hnow : now = (was.1, before) := hupdate
    have hplace : place = (way part).onCurve := by
      simp only [place, hnow]
      exact hstay.landed
    refine ⟨iff_of_true hcompleted ⟨part, hpart, hprefix, harrived⟩, ?_, fun h => ?_, fun h => ?_,
      fun _ => ⟨hnow, hstay.place⟩, ?_⟩
    · intro _
      rw [hnow]
      exact hcompleted
    · exact absurd hcompleted (by simp [h])
    · exact absurd hcompleted (by simp [h])
    · intro hcurve
      exact (hplace.trans (Tween.onCurve_of_lands (hlands hcurve) harrived)).trans hstay.place.symm

/-- A move of a node by ten pixels to the right, in a second. -/
def slide (ease : Ease Rat) : Move Rat := ⟨1, ⟨10, 0⟩, 1, ease, none, none, 0, false⟩

/-- The node that slides is at the origin, and its move is on. -/
def slideContext : Context Rat where
  scene := ⟨#[Node.group "Root", Node.group "Card"]⟩
  dialogue := ⟨.standard, 1 / 30, none, 0, 0, none, 0⟩
  sounds := .empty
  time := 0
  finisher := some 0
  raised := []
  notes := []
  parked := []

/-- Half a second along a square and another half: a quarter of the way, then the target. -/
theorem move_follows_curve_slide :
    let was := Move.run (slide .inQuad) slideContext [(1 / 2, id)]
    let now := was.1.update (1 / 2) was.2
    Move.create 1 ⟨10, 0⟩ 1 (.inQuad : Ease Rat) = .ok (slide .inQuad) ∧ was.1.completed = false ∧
      now.1.completed = true ∧ (now.2.scene.node 1).offset.xy = ⟨10, 0⟩ ∧
      now.2.raised = was.2.raised ++ [0] := by
  have hcreated : Move.create 1 ⟨10, 0⟩ 1 (.inQuad : Ease Rat) = .ok (slide .inQuad) :=
    Move.create_of_pos 1 ⟨10, 0⟩ (by decide +kernel) (by decide +kernel)
  have hidle : Callback.Spares 1 (id : Callback Rat) := fun c hc => ⟨hc, rfl⟩
  have hnone : ∀ f ∈ (none : Option (Callback Rat)), Callback.Spares 1 f := nofun
  have hturns : ∀ turn ∈ [((1 / 2 : Rat), (id : Callback Rat))], Callback.Spares 1 turn.2 := by
    simpa using hidle
  obtain ⟨-, -, -, harrive, -, -⟩ := move_follows_curve hcreated hnone (c := slideContext) (by decide)
    (n := Node.group "Card") rfl hturns hidle (1 / 2)
  have hunderway : (Move.run (slide .inQuad) slideContext [(1 / 2, id)]).1.completed = false := by
    decide +kernel
  obtain ⟨hcompleted, -, -, hplace, -, -, hraised⟩ := harrive hunderway (by decide +kernel)
  exact ⟨hcreated, hunderway, hcompleted, hplace.trans (by decide +kernel),
    (hraised 0 (by decide +kernel) nofun).1⟩

/--
A curve that doubles progress is accepted, since it is above one at the end. One update of a second
completes a move along it, at twice the way to the target; a tween along it ends at the target.
-/
theorem move_overshoots :
    let ease : Ease Rat := .custom fun t => t * 2
    let now := (slide ease).update 1 slideContext
    Move.create 1 ⟨10, 0⟩ 1 ease = .ok (slide ease) ∧ now.1.completed = true ∧
      (now.2.scene.node 1).offset.xy = ⟨20, 0⟩ ∧
      (((Node.group "Card").startTween ⟨10, 0⟩ 1 ease).tick 1).offset.xy = ⟨10, 0⟩ := by
  exact ⟨Move.create_of_pos 1 ⟨10, 0⟩ (by decide +kernel) (by decide +kernel), by decide +kernel,
    by decide +kernel, by decide +kernel⟩

end Cutscene
