import Mathlib.Algebra.Order.BigOperators.Group.List
import Cutscene.Proofs.Motion.Rising
import Cutscene.Proofs.Script.Glide

/-!
# Motions that go onward

Along a curve that rises from zero to one, a motion is where its curve is at any time, also after it is over.
So it goes from its origin to its target and turns back nowhere.

On `Ease.apply`, `lerp_i32` and what is moved by them (SPEC_FULL.md, §B.7).

Results:
* `Node.Follows.ticks`: a tween along a curve with a name is where the curve is.
* `Tween.between_onCurve`: a place on the curve is between any former one and the target.
* `Abreast.place_run`: a move is where the tween of the same motion is.
* `goesOnward_tween`, `goesOnward_move`: where a tween and a move are after any turns.
* `named_curves_lead_onward`: a curve with a name, and all motions along it.
-/

namespace Cutscene

variable {g : Tween Rat} {n : Node Rat}

/-! ## Along the curve -/

namespace Tween

theorem progress_le_progress (hnamed : g.ease.name?.isSome) (hduration : 0 < g.duration) {r s : Rat}
    (h : r ≤ s) :
    ({ g with elapsed := r } : Tween Rat).progress ≤ ({ g with elapsed := s } : Tween Rat).progress :=
  Ease.apply_le_apply hnamed (div_le_div_of_nonneg_right h hduration.le)

/-- A place on the curve is between any former one and the target. -/
theorem between_onCurve (hnamed : g.ease.name?.isSome) (hduration : 0 < g.duration) {r s : Rat}
    (h : r ≤ s) :
    ({ g with elapsed := r } : Tween Rat).onCurve.Between
      ({ g with elapsed := s } : Tween Rat).onCurve g.target := by
  have hprogress := progress_le_progress hnamed hduration h
  have hone : ({ g with elapsed := s } : Tween Rat).progress ≤ 1 := Ease.apply_le_one hnamed _
  exact ⟨lerp_mem_uIcc _ _ hprogress hone, lerp_mem_uIcc _ _ hprogress hone⟩

theorem onCurve_of_progress (hnamed : g.ease.name?.isSome) (h : 1 ≤ g.progress) : g.onCurve = g.target :=
  onCurve_of_lands (Ease.lands_of_le_one (Ease.apply_le_one hnamed)) h

theorem onCurve_zero (hnamed : g.ease.name?.isSome) :
    ({ g with elapsed := 0 } : Tween Rat).onCurve = g.origin := by
  have hstart : ({ g with elapsed := 0 } : Tween Rat).progress = 0 :=
    (congrArg g.ease.apply (zero_div g.duration)).trans (Ease.apply_zero hnamed)
  unfold onCurve
  rw [hstart, lerp_zero, lerp_zero]

end Tween

/-- A node is where the curve of a motion is. The motion is under way, or it has arrived and is over. -/
structure Node.Follows (n : Node Rat) (g : Tween Rat) : Prop where
  place : n.offset.xy = g.onCurve
  tween : n.tween = some g ∨ n.tween = none ∧ 1 ≤ g.progress

namespace Node.Follows

theorem tick (h : n.Follows g) (hnamed : g.ease.name?.isSome) (hduration : 0 < g.duration) {dt : Rat}
    (hdt : 0 ≤ dt) : (n.tick dt).Follows (g.elapse dt) := by
  rcases h.tween with htween | ⟨htween, harrived⟩
  · obtain ⟨hplace, hgoes⟩ := Node.tick_of_tween htween dt
    by_cases harrived : 1 ≤ (g.elapse dt).progress
    · rw [if_pos harrived] at hplace hgoes
      have hend := Tween.onCurve_of_progress (g := g.elapse dt) hnamed harrived
      exact ⟨hplace.trans hend.symm, .inr ⟨hgoes, harrived⟩⟩
    · rw [if_neg harrived] at hplace hgoes
      exact ⟨hplace, .inl hgoes⟩
  · obtain ⟨hoffset, hover⟩ := Node.tick_of_no_tween htween dt
    have hstill : 1 ≤ (g.elapse dt).progress :=
      harrived.trans (Tween.progress_le_progress hnamed hduration (le_add_of_nonneg_right hdt))
    refine ⟨?_, .inr ⟨hover, hstill⟩⟩
    rw [hoffset, h.place, Tween.onCurve_of_progress hnamed harrived,
      Tween.onCurve_of_progress (g := g.elapse dt) hnamed hstill]
    rfl

/-- A tween along a curve with a name is where the curve is. -/
theorem ticks (h : n.Follows g) (hnamed : g.ease.name?.isSome) (hduration : 0 < g.duration) {dts : List Rat}
    (hdts : ∀ dt ∈ dts, 0 ≤ dt) : (n.ticks dts).Follows (g.elapses dts) := by
  induction dts generalizing n g with
  | nil => exact h
  | cons dt r ih =>
    exact ih (h.tick hnamed hduration (hdts dt List.mem_cons_self)) hnamed hduration
      fun dt' hdt' => hdts dt' (List.mem_cons_of_mem _ hdt')

end Node.Follows

theorem Node.ticks_of_no_tween (h : n.tween = none) (dts : List Rat) : (n.ticks dts).offset = n.offset := by
  induction dts generalizing n with
  | nil => rfl
  | cons dt r ih =>
    obtain ⟨hoffset, hnone⟩ := Node.tick_of_no_tween h dt
    exact (ih hnone).trans hoffset

/-- A move is where the tween of the same motion is. -/
theorem Abreast.place_run {node : NodeId} {onComplete : Option (Callback Rat)} {m : Move Rat} {c : Context Rat}
    (h : Abreast node onComplete g m c n) (hnamed : g.ease.name?.isSome)
    (hspares : ∀ f ∈ onComplete, Callback.Spares node f) {turns : List (Rat × Callback Rat)}
    (hturns : ∀ turn ∈ turns, Callback.Spares node turn.2) :
    ((m.run c turns).2.scene.node node).offset.xy = (n.ticks (turns.map Prod.fst)).offset.xy := by
  rcases h.run hspares hturns with ⟨-, habreast⟩ | ⟨part, -, -, harrived, hdone⟩
  · exact habreast.place
  · rw [g.elapses_eq] at harrived hdone
    exact (hdone.landed.trans (Tween.onCurve_of_progress hnamed harrived)).trans hdone.place.symm

/-! ## Onward -/

/--
A motion as it is seen after turns: from where it starts it only comes closer to the target, and once its
duration has passed it is there.
-/
structure GoesOnward {α : Type} (origin target : Point) (duration : Rat) (secs : α → Rat) (fair : α → Prop)
    (place : List α → Point) : Prop where
  between : ∀ turns, (∀ turn ∈ turns, fair turn) → origin.Between (place turns) target
  onward : ∀ turns more, (∀ turn ∈ turns ++ more, fair turn) →
    (place turns).Between (place (turns ++ more)) target
  arrives : ∀ turns, (∀ turn ∈ turns, fair turn) → duration ≤ (turns.map secs).sum → place turns = target

theorem goesOnward_tween {ease : Ease Rat} (hnamed : ease.name?.isSome) (n : Node Rat) (target : Point)
    (duration : Rat) : GoesOnward n.offset.xy target duration id (0 ≤ ·) fun dts =>
      ((n.startTween target duration ease).ticks dts).offset.xy := by
  by_cases hduration : 0 < duration
  · let way (elapsed : Rat) : Tween Rat := ⟨n.offset.xy, target, duration, elapsed, ease⟩
    have hstart : (n.startTween target duration ease).Follows (way 0) := by
      have htween : n.startTween target duration ease = { n with tween := some (way 0) } := if_pos hduration
      rw [htween]
      exact ⟨(Tween.onCurve_zero (g := way 0) hnamed).symm, .inl rfl⟩
    have hplace : ∀ dts : List Rat, (∀ dt ∈ dts, 0 ≤ dt) →
        ((n.startTween target duration ease).ticks dts).offset.xy = (way dts.sum).onCurve := by
      intro dts hdts
      rw [(hstart.ticks hnamed hduration hdts).place, Tween.elapses_eq, zero_add]
    refine ⟨fun dts hdts => ?_, fun dts more hdts => ?_, fun dts hdts hover => ?_⟩
    · have horigin : n.offset.xy = (way 0).onCurve := (Tween.onCurve_zero (g := way 0) hnamed).symm
      rw [hplace dts hdts, horigin]
      exact Tween.between_onCurve (g := way 0) hnamed hduration (List.sum_nonneg hdts)
    · have hmore : 0 ≤ more.sum := List.sum_nonneg fun dt hdt => hdts dt (List.mem_append_right _ hdt)
      rw [hplace dts fun dt hdt => hdts dt (List.mem_append_left _ hdt), hplace _ hdts, List.sum_append]
      exact Tween.between_onCurve (g := way 0) hnamed hduration (le_add_of_nonneg_right hmore)
    · rw [List.map_id] at hover
      rw [hplace dts hdts]
      exact Tween.onCurve_of_progress hnamed
        ((Ease.one_le_apply_iff hnamed).mpr ((one_le_div hduration).mpr hover))
  · -- Without a positive duration the node is at the target from the start on.
    have hplace : ∀ dts : List Rat, ((n.startTween target duration ease).ticks dts).offset.xy = target := by
      intro dts
      have hjump : n.startTween target duration ease = { n.moveTo target with tween := none } :=
        if_neg hduration
      rw [hjump, Node.ticks_of_no_tween rfl]
      rfl
    refine ⟨fun dts _ => ?_, fun dts more _ => ?_, fun dts _ _ => hplace dts⟩
    · rw [hplace]
      exact ⟨Set.right_mem_uIcc, Set.right_mem_uIcc⟩
    · rw [hplace, hplace]
      exact ⟨Set.right_mem_uIcc, Set.right_mem_uIcc⟩

theorem goesOnward_move {ease : Ease Rat} (hnamed : ease.name?.isSome) {node : NodeId} {target : Point}
    {duration : Rat} {m : Move Rat} (hm : Move.create node target duration ease = .ok m)
    {onComplete : Option (Callback Rat)} (hspares : ∀ f ∈ onComplete, Callback.Spares node f)
    {c : Context Rat} (hnode : node < c.scene.size) :
    GoesOnward (c.scene.node node).offset.xy target duration Prod.fst
      (fun turn : Rat × Callback Rat => 0 ≤ turn.1 ∧ turn.2.Spares node)
      fun turns => ((Move.run { m with onComplete } c turns).2.scene.node node).offset.xy := by
  have hstart := abreast_create hm onComplete hnode (n := c.scene.node node) rfl
  have hplace : ∀ turns : List (Rat × Callback Rat), (∀ turn ∈ turns, 0 ≤ turn.1 ∧ turn.2.Spares node) →
      ((Move.run { m with onComplete } c turns).2.scene.node node).offset.xy =
        (((c.scene.node node).startTween target duration ease).ticks (turns.map Prod.fst)).offset.xy :=
    fun turns hturns => hstart.place_run hnamed hspares fun turn hturn => (hturns turn hturn).2
  have hdts : ∀ turns : List (Rat × Callback Rat), (∀ turn ∈ turns, 0 ≤ turn.1 ∧ turn.2.Spares node) →
      ∀ dt ∈ turns.map Prod.fst, 0 ≤ dt := by
    intro turns hturns dt hdt
    obtain ⟨turn, hturn, rfl⟩ := List.mem_map.mp hdt
    exact (hturns turn hturn).1
  have htween := goesOnward_tween hnamed (c.scene.node node) target duration
  refine ⟨fun turns hturns => ?_, fun turns more hturns => ?_, fun turns hturns hover => ?_⟩
  · rw [hplace turns hturns]
    exact htween.between _ (hdts turns hturns)
  · have hdone := hdts (turns ++ more) hturns
    rw [List.map_append] at hdone
    rw [hplace turns fun turn hturn => hturns turn (List.mem_append_left _ hturn), hplace _ hturns,
      List.map_append]
    exact htween.onward _ _ hdone
  · rw [hplace turns hturns]
    refine htween.arrives _ (hdts turns hturns) ?_
    rwa [List.map_id]

/-- A curve rises to one, and motions along it go onward. -/
structure Ease.LeadsOnward (e : Ease Rat) : Prop where
  rises : ∀ s t, s ≤ t → e.apply s ≤ e.apply t
  start : e.apply 0 = 0
  finish_iff : ∀ t, t ≤ 1 → (e.apply t = 1 ↔ t = 1)
  /-- A position is between the ends, and any later one between it and the target. -/
  position : ∀ (a b : Int32) (s t : Rat), 0 ≤ s → s ≤ t → t ≤ 1 →
    (lerp a b s).toInt ∈ Set.uIcc a.toInt b.toInt ∧ (lerp a b t).toInt ∈ Set.uIcc (lerp a b s).toInt b.toInt
  tween : ∀ (n : Node Rat) (target : Point) (duration : Rat),
    GoesOnward n.offset.xy target duration id (0 ≤ ·) fun dts =>
      ((n.startTween target duration e).ticks dts).offset.xy
  /-- In the turns of a move others are on as well; they leave its node in its place. -/
  move : ∀ (node : NodeId) (target : Point) (duration : Rat) (m : Move Rat),
    Move.create node target duration e = .ok m → ∀ onComplete : Option (Callback Rat),
      (∀ f ∈ onComplete, Callback.Spares node f) → ∀ c : Context Rat, node < c.scene.size →
        GoesOnward (c.scene.node node).offset.xy target duration Prod.fst
          (fun turn : Rat × Callback Rat => 0 ≤ turn.1 ∧ turn.2.Spares node)
          fun turns => ((Move.run { m with onComplete } c turns).2.scene.node node).offset.xy

/-- **Motions along a curve with a name go onward**: such a curve rises from zero to one, which it reaches at
the end only; positions are cut so that they turn back nowhere. So moves and tweens stay between their ends,
only come closer to the target, and are there when their time is over. -/
theorem named_curves_lead_onward {e : Ease Rat} (h : e.name?.isSome) : e.LeadsOnward where
  rises _ _ := Ease.apply_le_apply h
  start := Ease.apply_zero h
  finish_iff t ht := by
    refine ⟨fun hone => le_antisymm ht ((Ease.one_le_apply_iff h).mp (le_of_eq hone.symm)), ?_⟩
    rintro rfl
    exact Ease.apply_of_one_le h le_rfl
  position a b s t hs hst ht := by
    have hfirst := lerp_mem_uIcc a b hs (hst.trans ht)
    rw [lerp_zero] at hfirst
    exact ⟨hfirst, lerp_mem_uIcc a b hst ht⟩
  tween := goesOnward_tween h
  move _ _ _ _ hm _ hspares _ hnode := goesOnward_move h hm hspares hnode

/-- One coordinate falls through zero and one rises through it, in a second: both are cut toward zero on
either side of it, and come closer to the target all the same. -/
theorem named_curves_lead_onward_crossing :
    let card : Node Rat := { Node.group "Card" with offset := ⟨5, -5, 0⟩ }
    let place (dts : List Rat) : Point := ((card.startTween ⟨-8, 9⟩ 1 .inOutCubic).ticks dts).offset.xy
    (Ease.inOutCubic : Ease Rat).name?.isSome ∧ (Ease.inOutCubic : Ease Rat).LeadsOnward ∧
      place [2 / 5] = ⟨1, -1⟩ ∧ (place [2 / 5]).Between (place [2 / 5, 1 / 5]) ⟨-8, 9⟩ ∧
        place [2 / 5, 1 / 5, 1 / 2] = ⟨-8, 9⟩ := by
  have hlaw : (Ease.inOutCubic : Ease Rat).LeadsOnward := named_curves_lead_onward rfl
  have htween := hlaw.tween { Node.group "Card" with offset := ⟨5, -5, 0⟩ } ⟨-8, 9⟩ 1
  refine ⟨rfl, hlaw, by decide +kernel, htween.onward [2 / 5] [1 / 5] (by decide +kernel),
    htween.arrives [2 / 5, 1 / 5, 1 / 2] (by decide +kernel) (by decide +kernel)⟩

end Cutscene
