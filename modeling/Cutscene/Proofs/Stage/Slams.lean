import Cutscene.Proofs.Scene.Reverts
import Cutscene.Proofs.Stage.Fleeting
import Cutscene.Proofs.Stage.Payloads

/-!
# Desk slams

A desk slam puts its sprite on a stand for some time. Slams of a stand may overlap, and other sprites may
be put on it meanwhile, by directives and by actions; the stands know nothing of each other.

On the desk slam in `Director.apply_directive` (SPEC_FULL.md, §B.9 and §B.11).

Results:
* `apply_stand`, `applyAll_stand`: what directives do to a stand.
* `Slamming.handle`, `Slamming.after`: in every run that is handed no callbacks a stand is as its slams
  have left it.
* `slams_revert`: what is put back on a stand and when.
-/

namespace Cutscene

variable {R : Type} [Scalar R]

omit [Scalar R] in
/-- Whether a directive slams the desk of a stand. -/
def Directive.slams (side : Side) : Directive R → Bool
  | .deskSlam other => other = side
  | _ => false

namespace Stage

variable {s : Stage R} {side : Side} {disk : Disk}

/-! ## Directives -/

/-- What a directive finds on a stand whose desk it slams. A slam without its sprite is none. -/
def slam? (s : Stage R) (disk : Disk) (side : Side) (d : Directive R) : Option (Sprite R) :=
  if d.slams side ∧ (s.assets.loadSprite disk (s.config.stage.slamSprite side)).isOk then
    (s.scene.node (s.cast.stand side)).payload.sprite?
  else none

/-- What slams of a stand find there, as directives are carried out up to the first failure. -/
def slammedBy (s : Stage R) (disk : Disk) (side : Side) : List (Directive R) → List (Sprite R)
  | [] => []
  | d :: r => (s.slam? disk side d).toList ++
    match s.apply disk d with
    | (.ok (), t) => t.slammedBy disk side r
    | (.error _, _) => []

omit [Scalar R] in
theorem stand_lt (side : Side) : Cast.standing.stand side < 11 := by
  cases side <;> decide

omit [Scalar R] in
theorem stand_ne_root (side : Side) : Cast.standing.stand side ≠ Scene.root := by
  cases side <;> decide

/-- A directive that works on a stand sets its sprite or slams its desk. -/
theorem Staged.of_worksOn?_stand (h : s.Staged) {d : Directive R}
    (hd : s.cast.worksOn? d = some (s.cast.stand side)) :
    (∃ path, d = .sprite side path) ∨ d = .deskSlam side := by
  rw [h.cast] at hd
  cases d with
  | sprite other path => cases other <;> cases side <;> simp_all [Cast.worksOn?, Cast.stand, Cast.standing]
  | deskSlam other => cases other <;> cases side <;> simp_all [Cast.worksOn?, Cast.stand, Cast.standing]
  | _ => cases side <;> simp [Cast.worksOn?, Cast.stand, Cast.standing] at hd

/-- A directive slams the desk of a stand, or changes its sprite at most. -/
theorem Staged.apply_stand (h : s.Staged) (disk : Disk) (side : Side) (d : Directive R)
    (hsprite : (s.scene.node (s.cast.stand side)).payload.sprite?.isSome) :
    let node := s.scene.node (s.cast.stand side)
    let node' := (s.apply disk d).2.scene.node (s.cast.stand side)
    (s.slam? disk side d = none ∧ node'.timers = node.timers ∧ node'.payload.sprite?.isSome) ∨
      ∃ found sprite, s.slam? disk side d = some found ∧ node.payload.sprite? = some found ∧
        node' = slam node sprite s.config.slamSeconds := by
  have hsize : s.cast.stand side < s.scene.size := by
    rw [h.cast, h.size]
    exact stand_lt side
  by_cases hd : s.cast.worksOn? d = some (s.cast.stand side)
  · rcases h.of_worksOn?_stand hd with ⟨path, rfl⟩ | rfl
    · refine .inl ⟨rfl, ?_⟩
      simp only [Stage.apply, withSprite]
      cases s.assets.loadSprite disk path with
      | error e => exact ⟨rfl, hsprite⟩
      | ok r =>
        have hnode : (s.scene.modify (s.cast.stand side) (·.setSprite r.1)).node (s.cast.stand side) =
            (s.scene.node (s.cast.stand side)).setSprite r.1 := Scene.node_modify_self hsize _
        have htimers := congrArg Node.timers hnode
        have hdrawn := congrArg (fun n => n.payload.sprite?) hnode
        exact ⟨htimers, Option.isSome_iff_exists.mpr ⟨r.1, hdrawn.trans (Payload.sprite?_setSprite _ _)⟩⟩
    · obtain ⟨found, hfound⟩ := Option.isSome_iff_exists.mp hsprite
      unfold slam?
      simp only [Stage.apply, withSprite, Directive.slams, decide_true, true_and]
      cases s.assets.loadSprite disk (s.config.stage.slamSprite side) with
      | error e => exact .inl ⟨rfl, rfl, hsprite⟩
      | ok r => exact .inr ⟨found, r.1, hfound, hfound, Scene.node_modify_self hsize _⟩
  · have hnone : s.slam? disk side d = none := by
      unfold slam?
      refine if_neg fun hslam => hd ?_
      cases d with
      | deskSlam other => rw [of_decide_eq_true hslam.1]; rfl
      | _ => cases hslam.1
    rw [apply_node_of_ne hd]
    exact .inl ⟨hnone, rfl, hsprite⟩

/-! ## Runs -/

section Runs

variable {s : Stage Rat} {n : Nat} {past : List Slam} {fired : List Revert}

/-- Directives keep a stand as its slams have left it. -/
theorem Staged.applyAll_stand (h : s.Staged) (disk : Disk) (side : Side) {dt : Rat}
    (hstand : Node.Reverting dt (s.scene.node (s.cast.stand side)) n (SlamChain.all dt past) fired)
    (ds : List (Directive Rat)) :
    Node.Reverting dt ((s.applyAll disk ds).2.scene.node (s.cast.stand side)) n
      (SlamChain.all dt (past ++ (s.slammedBy disk side ds).map (Slam.mk ⟨n, s.config.slamSeconds⟩))) fired := by
  induction ds generalizing s past with
  | nil =>
    rw [slammedBy, List.map_nil, List.append_nil]
    exact hstand
  | cons d r ih =>
    have hkept := s.undisturbed_apply disk d
    have hnext := h.apply disk d
    have hd : Node.Reverting dt ((s.apply disk d).2.scene.node (s.cast.stand side)) n
        (SlamChain.all dt
          (past ++ (s.slam? disk side d).toList.map (Slam.mk ⟨n, s.config.slamSeconds⟩))) fired := by
      rcases h.apply_stand disk side d hstand.stands with
        ⟨hslam, htimers, hsprite⟩ | ⟨found, sprite, hslam, hfound, hnode⟩
      · rw [hslam, Option.toList_none, List.map_nil, List.append_nil]
        exact hstand.congr htimers hsprite
      · rw [hslam, hnode, SlamChain.all_append]
        exact hstand.slam (u := ⟨⟨n, s.config.slamSeconds⟩, found⟩) rfl hfound sprite
    unfold applyAll slammedBy
    cases happly : s.apply disk d with
    | mk result t =>
      rw [happly] at hd hnext hkept
      cases result with
      | error e =>
        simp only [List.append_nil]
        exact hd
      | ok _ =>
        rw [← hkept.cast, ← hkept.config] at hd
        have hr := ih hnext hd
        rw [hkept.cast, hkept.config] at hr
        rwa [List.map_append, ← List.append_assoc]

/-- The slams of a stand in an event. -/
def slamsIn (s : Stage Rat) (side : Side) : StageEvent Rat → List Slam
  | .step disk => (s.played.2.slammedBy disk side s.played.1).map (Slam.mk ⟨s.frame, s.config.slamSeconds⟩)
  | _ => []

/-- The slams of a stand in a run, in the order in which they begin. -/
def slams (s : Stage Rat) (side : Side) : List (StageEvent Rat) → List Slam
  | [] => []
  | e :: r => s.slamsIn side e ++ (s.handle e).slams side r

/-- The sprites that the timers of a stand put back in an event. -/
def revertsIn (s : Stage Rat) (side : Side) : StageEvent Rat → List Revert
  | .step disk =>
    if (s.step disk).1.isOk then
      (((s.applied disk).scene.node (s.cast.stand side)).dueSprites s.config.rate.frameSeconds).map
        (Revert.mk s.frame)
    else []
  | _ => []

/-- The sprites that the timers of a stand put back in a run, in order. -/
def reverts (s : Stage Rat) (side : Side) : List (StageEvent Rat) → List Revert
  | [] => []
  | e :: r => s.revertsIn side e ++ (s.handle e).reverts side r

/-- The cast is in place, callbacks keep off what nodes draw, and a stand is as its slams have left it. -/
structure Slamming (s : Stage Rat) (side : Side) (past : List Slam) (fired : List Revert) : Prop where
  staged : s.Staged
  discreet : ∀ q ∈ s.queue.items, q.action.Discreet
  stand : Node.Reverting s.config.rate.frameSeconds (s.scene.node (s.cast.stand side)) s.frame
    (SlamChain.all s.config.rate.frameSeconds past) fired

/-- The stands of a new stage draw their sprites. -/
theorem slamming_create {config : Config Rat} (h : create disk config = .ok s) (side : Side) :
    s.Slamming side [] [] := by
  have hstaged := Staged.create h
  obtain ⟨htimers, -, -, hkind⟩ := create_node h (stand_lt side) (stand_ne_root side)
  refine ⟨hstaged, ?_, ?_⟩
  · rw [(create_spec h).2.1]
    exact fun q hq => absurd hq List.not_mem_nil
  · rw [hstaged.cast]
    refine Node.reverting_nil htimers ?_
    have hsprite : (s.scene.node (Cast.standing.stand side)).payload.kind = .sprite := by
      cases side <;> exact (Option.some.inj hkind).symm
    cases hpayload : (s.scene.node (Cast.standing.stand side)).payload with
    | sprite sprite w h => rfl
    | _ => rw [hpayload] at hsprite; cases hsprite

/-- The directives of a step keep a stand as its slams have left it. -/
theorem Slamming.applied (h : s.Slamming side past fired) (disk : Disk) :
    Node.Reverting s.config.rate.frameSeconds ((s.applied disk).scene.node (s.cast.stand side)) s.frame
      (SlamChain.all s.config.rate.frameSeconds (past ++ s.slamsIn side (.step disk))) fired := by
  have hplayed : Node.Reverting s.config.rate.frameSeconds (s.played.2.scene.node (s.played.2.cast.stand side))
      s.frame (SlamChain.all s.config.rate.frameSeconds past) fired := by
    rw [played_scene, played_cast]
    exact h.stand.congr ((tended_cued h.staged.house).timers _)
      (isSome_sprite?_cued h.discreet h.stand.stands)
  have happlied := h.staged.played.applyAll_stand disk side hplayed s.played.1
  rwa [played_cast, played_config] at happlied

/-- The end of a step is a tick of a stand. -/
theorem Staged.stand_step (h : s.Staged) (hok : (s.step disk).1.isOk) (side : Side) :
    ∃ node : Node Rat, (s.step disk).2.scene.node (s.cast.stand side) =
        node.tick s.config.rate.frameSeconds ∧
      node.timers = ((s.applied disk).scene.node (s.cast.stand side)).timers ∧
      node.payload.sprite? = ((s.applied disk).scene.node (s.cast.stand side)).payload.sprite? := by
  have hlt := stand_lt side
  have hroot := stand_ne_root side
  rw [← h.cast] at hlt hroot
  rw [step_snd, if_pos hok, (h.applied disk).node_finishStep_eq hlt hroot]
  exact ⟨_, rfl, (TextBox.tended_present _ _ _ none Scene.root).timers _, TextBox.sprite?_present _ _ _ _⟩

/-- Every event adds the slams that begin with it, and what it puts back. -/
theorem Slamming.handle (h : s.Slamming side past fired) {e : StageEvent Rat} (he : e.Plain) :
    (s.handle e).Slamming side (past ++ s.slamsIn side e) (fired ++ s.revertsIn side e) := by
  refine ⟨h.staged.handle he, ?_, ?_⟩
  · exact forall_handle (fun _ dt c ha => ha.update dt c) h.discreet (fun _ ha => ha.discreet)
      fun _ ha => he.callback ha
  rw [handle_cast, handle_config]
  rcases e.eq_step_or with ⟨disk, rfl⟩ | hother
  · have happlied := h.applied disk
    change Node.Reverting _ ((s.step disk).2.scene.node _) (s.step disk).2.frame _ _
    rw [step_frame]
    simp only [revertsIn]
    split_ifs with hok
    · obtain ⟨node, hnode, htimers, hsprite⟩ := h.staged.stand_step hok side
      have hnode' := happlied.congr htimers (hsprite ▸ happlied.stands)
      rw [hnode, ← Node.dueSprites_congr htimers]
      exact hnode'.tick (frameSeconds_nonneg _)
    · rw [List.append_nil, step_snd, if_neg hok]
      exact happlied
  · have hnone : s.slamsIn side e = [] ∧ s.revertsIn side e = [] := by
      cases e with
      | step disk => exact absurd rfl (hother disk)
      | _ => exact ⟨rfl, rfl⟩
    have hroot := stand_ne_root side
    rw [← h.staged.cast] at hroot
    rw [hnone.1, hnone.2, List.append_nil, List.append_nil, s.handle_node_of_ne hother hroot,
      s.handle_frame_of_ne hother]
    exact h.stand

theorem Slamming.after (h : s.Slamming side past fired) {es : List (StageEvent Rat)}
    (hes : ∀ e ∈ es, e.Plain) :
    (s.after es).Slamming side (past ++ s.slams side es) (fired ++ s.reverts side es) := by
  induction es generalizing s past fired with
  | nil =>
    rw [slams, reverts, List.append_nil, List.append_nil]
    exact h
  | cons e r ih =>
    rw [slams, reverts, ← List.append_assoc, ← List.append_assoc]
    exact ih (h.handle (hes e List.mem_cons_self)) fun e' he' => hes e' (List.mem_cons_of_mem _ he')

/-- A desk slam that is carried out finds what stands there. -/
theorem slam?_of_ok {d : Directive Rat} (hok : (s.apply disk d).1 = .ok ()) : s.slam? disk side d =
    if d.slams side then (s.scene.node (s.cast.stand side)).payload.sprite? else none := by
  unfold slam?
  cases d with
  | deskSlam other =>
    by_cases hside : other = side
    · subst hside
      simp only [apply, withSprite] at hok
      cases hload : s.assets.loadSprite disk (s.config.stage.slamSprite other) with
      | error e =>
        rw [hload] at hok
        cases hok
      | ok r => simp [Directive.slams, Except.isOk, Except.toBool]
    · simp [Directive.slams, hside]
  | _ => rfl

/-- In directives that are all carried out every desk slam is one. -/
theorem Staged.length_slammedBy (h : s.Staged)
    (hsprite : (s.scene.node (s.cast.stand side)).payload.sprite?.isSome) {ds : List (Directive Rat)}
    (hok : (s.applyAll disk ds).1 = .ok ()) : (s.slammedBy disk side ds).length = ds.countP (·.slams side) := by
  induction ds generalizing s with
  | nil => rfl
  | cons d r ih =>
    have hkept := s.undisturbed_apply disk d
    have hnext := h.apply disk d
    have hsprite' : ((s.apply disk d).2.scene.node (s.cast.stand side)).payload.sprite?.isSome := by
      rcases h.apply_stand disk side d hsprite with ⟨-, -, hsome⟩ | ⟨found, sprite, -, -, hnode⟩
      · exact hsome
      · rw [hnode, slam_sprite?]
        rfl
    unfold applyAll at hok
    unfold slammedBy
    cases happly : s.apply disk d with
    | mk result t =>
      rw [happly] at hok hkept hnext hsprite'
      cases result with
      | error e => cases hok
      | ok _ =>
        rw [← hkept.cast] at hsprite'
        obtain ⟨found, hfound⟩ := Option.isSome_iff_exists.mp hsprite
        rw [List.length_append, ih hnext hsprite' hok, slam?_of_ok (congrArg Prod.fst happly), hfound,
          List.countP_cons]
        split_ifs <;> simp [Nat.add_comm]

/-- What is put back on a stand, as it follows from its slams so far and those of the next step. -/
structure SlamsRevert (t : Stage Rat) (side : Side) (slams : List Slam) (fired : List Revert) : Prop where
  /-- The only timer of the stand is that of the last chain of slams, unless the time of its last slam is
  over. It puts back what the first slam of the chain has found. -/
  timers : (t.scene.node (t.cast.stand side)).timers =
    ((SlamChain.all t.config.rate.frameSeconds slams).filter fun c =>
      ¬c.Over t.config.rate.frameSeconds t.frame).map (SlamChain.timer t.config.rate.frameSeconds t.frame)
  length_timers_le : (t.scene.node (t.cast.stand side)).timers.length ≤ 1
  /-- Timers have fired once for each of the other chains, in the first step in which the time of its last
  slam was over, and for nothing else. -/
  reverts : List.Forall₂ (SlamChain.PutBack t.config.rate.frameSeconds)
    ((SlamChain.all t.config.rate.frameSeconds slams).filter fun c =>
      c.Over t.config.rate.frameSeconds t.frame) fired
  /-- In a step that goes well, every desk slam of the side is one. -/
  length_slamsIn : ∀ disk, (t.step disk).1 = .ok () →
    (t.slamsIn side (.step disk)).length = t.played.1.countP (·.slams side)
  /-- After it the stand shows what a timer has put back or, if none was due, what the directives have
  left there. -/
  stands : ∀ disk, (t.step disk).1 = .ok () →
    ((t.step disk).2.scene.node (t.cast.stand side)).payload.sprite? =
      ((t.revertsIn side (.step disk)).getLast?.map Revert.sprite <|>
        ((t.applied disk).scene.node (t.cast.stand side)).payload.sprite?)

/-- **Overlapping desk slams are put back to the right sprite**, in every run that is handed no callbacks:
to what stood there before the first of them, once, when the time of the last one is over. -/
theorem slams_revert {config : Config Rat} (h : create disk config = .ok s) {es : List (StageEvent Rat)}
    (hes : ∀ e ∈ es, e.Plain) (side : Side) :
    SlamsRevert (s.after es) side (s.slams side es) (s.reverts side es) := by
  have hrun := (slamming_create h side).after hes
  rw [List.nil_append, List.nil_append] at hrun
  generalize s.after es = t at hrun ⊢
  generalize s.slams side es = past at hrun ⊢
  generalize s.reverts side es = fired at hrun ⊢
  refine ⟨hrun.stand.timers, hrun.stand.length_timers_le, hrun.stand.reverts, fun disk hok => ?_,
    fun disk hok => ?_⟩
  · have hsprite : (t.played.2.scene.node (t.played.2.cast.stand side)).payload.sprite?.isSome := by
      rw [played_scene, played_cast]
      exact isSome_sprite?_cued hrun.discreet hrun.stand.stands
    simp only [slamsIn]
    rw [List.length_map, hrun.staged.played.length_slammedBy hsprite ((t.step_fst disk).symm.trans hok)]
  · have hok' : (t.step disk).1.isOk := by rw [hok]; rfl
    obtain ⟨node, hnode, htimers, hsprite⟩ := hrun.staged.stand_step hok' side
    simp only [revertsIn, hok', if_true]
    rw [hnode, Node.tick_payload, Payload.sprite?_foldl_setSprite, hsprite, Node.dueSprites_congr htimers,
      List.getLast?_map, Option.map_map]
    exact congrArg (· <|> _) Option.map_id'.symm

end Runs

/-! ## Two slams -/

/-- A disk with two pictures. -/
def deskDisk : Disk :=
  ⟨pixelDisk.entries ++ [(["assets", "b.png"], .file (.still 1 1 ⟨#[4, 5, 6, 255]⟩))]⟩

/-- One of the pictures on the stands, and the other one for slams. -/
def deskConfig : Config Rat :=
  { pixelConfig with
    stage := { pixelConfig.stage with leftSlamSprite := "b.png", rightSlamSprite := "b.png" } }

/-- Two slams of a desk, half a second apart. -/
def deskPage : Page :=
  ⟨[.call ⟨"deskslam", ["left"]⟩, .call ⟨"wait", ["0.5"]⟩, .call ⟨"deskslam", ["left"]⟩]⟩

/-- The page is queued and three steps are made. -/
def deskRun : List (StageEvent Rat) :=
  .write deskDisk (.push (.page deskPage none)) :: List.replicate 3 (.step deskDisk)

/-- The second slam begins while the first one is still to be put back. What the first one has found is
put back in the third step, when the time of the second one is over, and nothing is put back in the second
step. -/
theorem slams_revert_deskRun : ∃ s, create deskDisk deskConfig = .ok s ∧ (∀ e ∈ deskRun, e.Plain) ∧
    SlamsRevert (s.after deskRun) .left (s.slams .left deskRun) (s.reverts .left deskRun) ∧
    (s.slams .left deskRun).map (fun u => (u.start, u.secs, u.found.path)) =
      [(0, 4 / 5, "a.png"), (1, 4 / 5, "b.png")] ∧
    (s.reverts .left deskRun).map (fun r => (r.step, r.sprite.path)) = [(2, "a.png")] := by
  have hplain : ∀ e ∈ deskRun, e.Plain := by
    intro e he
    rcases List.mem_cons.mp he with rfl | he
    · rintro a ⟨⟩
      rfl
    · rw [(List.mem_replicate.mp he).2]
      exact nofun
  obtain ⟨s, hs, hrun⟩ := exists_create deskDisk deskConfig
    (fun s => (s.slams .left deskRun).map (fun u => (u.start, u.secs, u.found.path)) =
        [(0, 4 / 5, "a.png"), (1, 4 / 5, "b.png")] ∧
      (s.reverts .left deskRun).map (fun r => (r.step, r.sprite.path)) = [(2, "a.png")])
    (by decide +kernel)
  exact ⟨s, hs, hplain, slams_revert hs hplain .left, hrun⟩

end Stage

end Cutscene
