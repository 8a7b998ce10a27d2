import Cutscene.Proofs.Motion.Landing
import Cutscene.Proofs.Script.Aloof
import Cutscene.Proofs.Stage.Staged

/-!
# The camera

The camera moves by moving the background. Actions of the queue do so in their turn, and a glide that a
directive has begun does so at the end of every step, until it is over. An action does not end a glide,
so a glide that is under way has the last word.

On `Director.pan_to` and `cut_to` and the directives `pan` and `cut` (SPEC_FULL.md, §B.11).

Results:
* `CameraAction`: what the camera commands of the script queue. `CameraAction.update_offset`.
* `Filming.handle`, `Filming.after`: in every run that leaves the camera to its commands, actions and
  glides lead to a side.
* `camera_settles`: where the camera is after a command, and until the next one.
* `glide_outlives_cut`: a cut of the script is undone by a glide that is under way.
-/

namespace Cutscene

variable {R : Type} [Scalar R]

omit [Scalar R] in
/-- Whether a directive moves the camera. -/
def Directive.isCamera : Directive R → Bool
  | .pan _ => true
  | .cut _ => true
  | _ => false

omit [Scalar R] in
/-- An event that hands the stage no callback and nothing that moves the camera. -/
def StageEvent.OffCamera (e : StageEvent R) : Prop :=
  ∀ a, e.own? = some a → a.callback? = none ∧ a.moves? ≠ some Cast.standing.background

omit [Scalar R] in
theorem StageEvent.OffCamera.plain {e : StageEvent R} (h : e.OffCamera) : e.Plain :=
  fun a ha => (h a ha).1

namespace Stage

variable {s : Stage R} {side : Side}

/-- The node that moves with the camera. -/
def panorama (s : Stage R) : Node R := s.scene.node s.cast.background

/-- The camera is at a place, and no glide is under way. -/
def CameraAt (s : Stage R) (x : Int32) : Prop := s.panorama.offset.x = x ∧ s.panorama.tween = none

/-- An action that a camera command of the script has queued, as far as it has come. -/
inductive CameraAction (s : Stage R) (side : Side) : Action R → Prop
  | pan {m : Move R} (hnode : m.node = s.cast.background)
    (htarget : m.target = ⟨s.config.cameraX side, 0⟩) (hease : m.ease = cameraEase) : CameraAction s side (.move m)
  | cut {j : Jump R} (hnode : j.node = s.cast.background)
    (htarget : j.target = ⟨s.config.cameraX side, 0⟩) : CameraAction s side (.jump j)

theorem CameraAction.update {a : Action R} (h : s.CameraAction side a) (dt : R) (c : Context R) :
    s.CameraAction side (a.update dt c).1 := by
  cases h with
  | pan hnode htarget hease =>
    simp only [Action.update, Move.update]
    split_ifs <;> exact .pan hnode htarget hease
  | cut hnode htarget =>
    simp only [Action.update, Jump.update]
    split_ifs <;> exact .cut hnode htarget

/-- A camera action that finishes has brought the camera to its side. -/
theorem CameraAction.update_offset {a : Action R} (h : s.CameraAction side a)
    (hland : (cameraEase : Ease R).Lands) {dt : R} (hfin : a.finishes dt) {box : NodeId}
    (hhouse : a.House box) {c : Context R} (hsize : s.cast.background < c.scene.size) :
    ((a.update dt c).2.scene.node s.cast.background).offset.x = s.config.cameraX side := by
  cases h with
  | @pan m hnode htarget hease =>
    have hcallback : ∀ f ∈ m.onComplete, Callback.House box f := hhouse
    simp only [Action.finishes, Bool.and_eq_true, Bool.not_eq_true', decide_eq_true_eq] at hfin
    obtain ⟨hgoing, harrived⟩ := hfin
    simp only [Action.update, Move.update, hgoing, harrived, if_true, Bool.false_eq_true, if_false]
    rw [Context.offset_complete hcallback]
    simp only [Context.modifyNode, hnode, Scene.node_modify_self hsize, Node.moveTo, Offset.withXY,
      htarget]
    rw [hease] at harrived ⊢
    exact hland _ _ _ harrived
  | @cut j hnode htarget =>
    have hcallback : ∀ f ∈ j.onComplete, Callback.House box f := hhouse
    have hgoing : j.completed = false := by simpa [Action.finishes] using hfin
    simp only [Action.update, Jump.update, hgoing, Bool.false_eq_true, if_false]
    rw [Context.offset_complete hcallback]
    simp only [Context.modifyNode, hnode, Scene.node_modify_self hsize, Node.moveTo, Offset.withXY,
      htarget]

/-! ## Steps -/

theorem Staged.background_lt (h : s.Staged) : s.cast.background < s.scene.size := by
  rw [h.cast, h.size]
  decide

theorem Staged.background_ne_root (h : s.Staged) : s.cast.background ≠ Scene.root := by
  rw [h.cast]
  decide

/-- A directive that is not for the camera leaves it where it is. -/
theorem Staged.apply_panorama (h : s.Staged) (disk : Disk) {d : Directive R} (hd : d.isCamera = false) :
    (s.apply disk d).2.panorama.offset = s.panorama.offset ∧
      (s.apply disk d).2.panorama.tween = s.panorama.tween := by
  have hcast := (s.undisturbed_apply disk d).cast
  unfold panorama
  rw [hcast]
  by_cases hworks : s.cast.worksOn? d = some s.cast.background
  · cases d with
    | shake secs =>
      have hnode : (s.apply disk (.shake secs)).2.scene.node s.cast.background =
          (s.scene.node s.cast.background).startShake shakeAmplitude secs :=
        Scene.node_modify_self h.background_lt _
      rw [hnode]
      exact ⟨rfl, rfl⟩
    | sprite side path => cases side <;> simp [h.cast, Cast.worksOn?, Cast.standing, Cast.stand] at hworks
    | deskSlam side => cases side <;> simp [h.cast, Cast.worksOn?, Cast.standing, Cast.stand] at hworks
    | pan side => cases hd
    | cut side => cases hd
    | _ => simp [h.cast, Cast.worksOn?, Cast.standing] at hworks
  · rw [apply_node_of_ne hworks]
    exact ⟨rfl, rfl⟩

/-- Nothing but the head of the queue moves the camera before the tick of a step without camera
directives. -/
theorem Staged.applied_panorama (h : s.Staged) (disk : Disk)
    (hd : ∀ d ∈ s.played.1, d.isCamera = false) :
    (s.applied disk).panorama.offset = s.cued.panorama.offset ∧
      (s.applied disk).panorama.tween = s.panorama.tween := by
  have hplayed : s.played.2.panorama = s.cued.panorama := by
    unfold panorama
    rw [played_scene, played_cast]
    rfl
  have hcued : s.cued.panorama.tween = s.panorama.tween := (tended_cued h.house).tween _
  rw [← hcued, ← hplayed]
  refine (applyAll_induction (P := fun t => t.Staged ∧ t.panorama.offset = s.played.2.panorama.offset ∧
    t.panorama.tween = s.played.2.panorama.tween) ⟨h.played, rfl, rfl⟩ ?_).2
  rintro t ⟨ht, hoffset, htween⟩ d hmem
  obtain ⟨ho, hw⟩ := ht.apply_panorama disk (hd d hmem)
  exact ⟨ht.apply disk d, ho.trans hoffset, hw.trans htween⟩

/-- The end of a step is a tick of the panorama. -/
theorem Staged.finishStep_panorama (h : s.Staged) (dt : R) :
    (s.finishStep dt).panorama.offset = (s.panorama.tickTween dt).offset ∧
      (s.finishStep dt).panorama.tween = (s.panorama.tickTween dt).tween := by
  have hlt : s.cast.background < 11 := h.size ▸ h.background_lt
  obtain ⟨n, hn, hoffset, htween, -, -⟩ := h.node_finishStep hlt h.background_ne_root dt
  have hsame : (n.tickTween dt).offset = (s.panorama.tickTween dt).offset ∧
      (n.tickTween dt).tween = (s.panorama.tickTween dt).tween := by
    unfold Node.tickTween panorama
    rw [htween]
    cases (s.scene.node s.cast.background).tween with
    | none => exact ⟨hoffset, htween⟩
    | some g =>
      simp only [Node.moveTo, hoffset]
      exact ⟨trivial, trivial⟩
  have hpanorama : (s.finishStep dt).panorama = n.tick dt := hn
  rw [hpanorama, Node.tick_offset, Node.tick_tween]
  exact hsame

/-- Without a glide, the camera is where a step without camera directives has found it after the turn of
the queue. -/
theorem Staged.step_panorama_of_none (h : s.Staged) (disk : Disk)
    (hd : ∀ d ∈ s.played.1, d.isCamera = false) (hnone : s.panorama.tween = none) :
    (s.step disk).2.CameraAt s.cued.panorama.offset.x := by
  obtain ⟨hoffset, htween⟩ := h.applied_panorama disk hd
  rw [hnone] at htween
  rw [step_snd]
  split_ifs
  · obtain ⟨ho, hw⟩ := (h.applied disk).finishStep_panorama s.config.rate.frameSeconds
    have hstill : (s.applied disk).panorama.tickTween s.config.rate.frameSeconds =
        (s.applied disk).panorama := by
      unfold Node.tickTween
      rw [htween]
    rw [hstill] at ho hw
    exact ⟨by rw [ho, hoffset], hw.trans htween⟩
  · exact ⟨by rw [hoffset], htween⟩

/-- A glide that is under way has the last word in a step without camera directives. -/
theorem Staged.step_panorama_of_some (h : s.Staged) (disk : Disk)
    (hd : ∀ d ∈ s.played.1, d.isCamera = false) {g : Tween R} (hsome : s.panorama.tween = some g)
    (hok : (s.step disk).1 = .ok ()) :
    let g' := { g with elapsed := g.elapsed + s.config.rate.frameSeconds }
    (s.step disk).2.panorama.offset.x = g'.position.1.x ∧
      (s.step disk).2.panorama.tween = if g'.position.2 then none else some g' := by
  obtain ⟨hoffset, htween⟩ := h.applied_panorama disk hd
  rw [hsome] at htween
  obtain ⟨ho, hw⟩ := (h.applied disk).finishStep_panorama s.config.rate.frameSeconds
  rw [step_snd, hok]
  simp only [Except.isOk, Except.toBool, if_true]
  rw [ho, hw]
  unfold Node.tickTween
  rw [htween]
  exact ⟨rfl, rfl⟩

/-! ## Runs -/

/-- The cast is in place, and all that moves the camera goes to a side: what is queued, and a glide that is
under way. -/
structure Filming (s : Stage R) : Prop where
  staged : s.Staged
  commands : ∀ q ∈ s.queue.items, q.action.moves? = some s.cast.background →
    ∃ side, s.CameraAction side q.action
  gliding : ∀ g, s.panorama.tween = some g → ∃ side, g.target.x = s.config.cameraX side

omit [Scalar R] in
theorem CameraAction.congr {t : Stage R} (hcast : t.cast = s.cast) (hconfig : t.config = s.config)
    {a : Action R} (h : s.CameraAction side a) : t.CameraAction side a := by
  cases h with
  | pan hnode htarget hease => exact .pan (hcast ▸ hnode) (hconfig ▸ htarget) hease
  | cut hnode htarget => exact .cut (hcast ▸ hnode) (hconfig ▸ htarget)

/-- What the scripting calls queue to move the camera leads to a side. -/
theorem Scripted.cameraAction {a : Action R} (h : s.Scripted a)
    (hmoves : a.moves? = some s.cast.background) : ∃ side, s.CameraAction side a := by
  cases h with
  | @pan side m h =>
    rw [Move.create_eq h]
    exact ⟨side, .pan rfl rfl rfl⟩
  | cut side => exact ⟨side, .cut rfl rfl⟩
  | _ => cases hmoves

/-- A new stage has nothing queued, and no glide is under way. -/
theorem filming_create {disk : Disk} {config : Config R} (h : create disk config = .ok s) : s.Filming := by
  have hstaged := Staged.create h
  refine ⟨hstaged, ?_, ?_⟩
  · rw [(create_spec h).2.1]
    exact fun q hq => absurd hq List.not_mem_nil
  · intro g hg
    have hnone : s.panorama.tween = none := by
      unfold panorama
      rw [hstaged.cast]
      exact (create_node h (by decide) (by decide)).2.1
    rw [hnone] at hg
    cases hg

/-- A directive leaves a glide to a side under way, if any. -/
theorem Staged.apply_gliding (h : s.Staged) (disk : Disk) (d : Directive R)
    (hglide : ∀ g, s.panorama.tween = some g → ∃ side, g.target.x = s.config.cameraX side) :
    ∀ g, (s.apply disk d).2.panorama.tween = some g → ∃ side, g.target.x = s.config.cameraX side := by
  intro g hg
  by_cases hd : d.isCamera = false
  · rw [(h.apply_panorama disk hd).2] at hg
    exact hglide g hg
  · have hstart : ∀ side (secs : R) (ease : Ease R),
        (s.glideCamera side secs ease).panorama.tween = some g → g.target.x = s.config.cameraX side := by
      intro side secs ease hg
      have hnode : (s.glideCamera side secs ease).panorama =
          s.panorama.startTween ⟨s.config.cameraX side, s.panorama.offset.y⟩ secs ease :=
        Scene.node_modify_self h.background_lt _
      rw [hnode] at hg
      unfold Node.startTween at hg
      split_ifs at hg
      cases hg
      rfl
    cases d with
    | pan side => exact ⟨side, hstart _ _ _ hg⟩
    | cut side => exact ⟨side, hstart _ _ _ hg⟩
    | _ => exact absurd rfl hd

theorem Filming.step (h : s.Filming) (disk : Disk) : (s.step disk).2.Filming := by
  have hstaged : (s.step disk).2.Staged := h.staged.handle (e := .step disk) nofun
  refine ⟨hstaged, ?_, ?_⟩
  · rw [step_cast]
    refine forall_step (P := fun a => a.moves? = some s.cast.background →
      ∃ side, (s.step disk).2.CameraAction side a) ?_ ?_ disk
    · intro a dt c ha hmoves
      rw [Action.moves?_update] at hmoves
      obtain ⟨side, hside⟩ := ha hmoves
      exact ⟨side, hside.update dt c⟩
    · intro q hq hmoves
      obtain ⟨side, hside⟩ := h.commands q hq hmoves
      exact ⟨side, hside.congr (s.step_cast disk) (s.step_config disk)⟩
  · have hcued : ∀ g, s.played.2.panorama.tween = some g →
        ∃ side, g.target.x = s.config.cameraX side := by
      have hsame : s.played.2.panorama.tween = s.panorama.tween := by
        unfold panorama
        rw [played_scene, played_cast]
        exact (tended_cued h.staged.house).tween _
      rw [hsame]
      exact h.gliding
    have happlied : ∀ g, (s.applied disk).panorama.tween = some g →
        ∃ side, g.target.x = s.config.cameraX side := by
      refine (applyAll_induction (P := fun t => (t.Staged ∧ t.config = s.config) ∧
        ∀ g, t.panorama.tween = some g → ∃ side, g.target.x = s.config.cameraX side)
        ⟨⟨h.staged.played, s.played_config⟩, hcued⟩ ?_).2
      rintro t ⟨⟨ht, hconfig⟩, hglide⟩ d -
      refine ⟨⟨ht.apply disk d, (t.undisturbed_apply disk d).config.trans hconfig⟩, ?_⟩
      rw [← hconfig] at hglide ⊢
      exact ht.apply_gliding disk d hglide
    rw [step_config, step_snd]
    split_ifs
    · intro g hg
      rw [((h.staged.applied disk).finishStep_panorama _).2] at hg
      unfold Node.tickTween at hg
      cases hglide : (s.applied disk).panorama.tween with
      | none =>
        rw [hglide] at hg
        rw [hg] at hglide
        cases hglide
      | some g' =>
        rw [hglide] at hg
        simp only at hg
        split_ifs at hg
        cases hg
        exact happlied g' hglide
    · exact happlied

theorem Filming.handle (h : s.Filming) {e : StageEvent R} (he : e.OffCamera) : (s.handle e).Filming := by
  rcases e.eq_step_or with ⟨disk, rfl⟩ | hother
  · exact h.step disk
  · have hstaged := h.staged.handle he.plain
    have hsame := s.handle_node_of_ne hother h.staged.background_ne_root
    obtain ⟨assets, actions, scene, sounds, painter, hhandle, hactions, -⟩ := s.handle_eq hother
    rw [hhandle] at hstaged hsame ⊢
    refine ⟨hstaged, ?_, ?_⟩
    · intro q hq hmoves
      have hside : ∃ side, s.CameraAction side q.action := by
        rcases ActionQueue.mem_pushAll hq with hq | hq
        · exact h.commands q hq hmoves
        · rcases hactions _ hq with hscripted | hown
          · exact hscripted.cameraAction hmoves
          · exact absurd (h.staged.cast ▸ hmoves) (he _ hown).2
      obtain ⟨side, hside⟩ := hside
      have hnext : ∀ t : Stage R, t.cast = s.cast → t.config = s.config →
          t.CameraAction side q.action :=
        fun t hcast hconfig => hside.congr hcast hconfig
      exact ⟨side, hnext _ rfl rfl⟩
    · intro g hg
      unfold panorama at hg
      rw [hsame] at hg
      exact h.gliding g hg

theorem Filming.after (h : s.Filming) {es : List (StageEvent R)} (hes : ∀ e ∈ es, e.OffCamera) :
    (s.after es).Filming :=
  after_induction h fun _ ht e he => ht.handle (hes e he)

/-- Whether no camera command runs in an event. -/
def CameraRests (s : Stage R) : StageEvent R → Prop
  | .step _ => s.mover? ≠ some s.cast.background ∧ ∀ d ∈ s.played.1, d.isCamera = false
  | _ => True

/-- Whether no camera command runs in a run. -/
def CameraRestsIn (s : Stage R) : List (StageEvent R) → Prop
  | [] => True
  | e :: r => s.CameraRests e ∧ (s.handle e).CameraRestsIn r

/-- The camera stays where it is in an event in which no camera command runs. -/
theorem CameraAt.handle {x : Int32} (h : s.CameraAt x) (hs : s.Staged) {e : StageEvent R}
    (hrests : s.CameraRests e) : (s.handle e).CameraAt x := by
  rcases e.eq_step_or with ⟨disk, rfl⟩ | hother
  · have hmoved : s.cued.panorama.offset = s.panorama.offset := (tended_cued hs.house).offset _ hrests.1
    have hstill := hs.step_panorama_of_none disk hrests.2 h.2
    rw [hmoved, h.1] at hstill
    exact hstill
  · have hsame : (s.handle e).panorama = s.panorama := by
      unfold panorama
      rw [s.handle_cast, s.handle_node_of_ne hother hs.background_ne_root]
    unfold CameraAt
    rw [hsame]
    exact h

/-- The camera stays where it is as long as no camera command runs. -/
theorem CameraAt.after {x : Int32} (h : s.CameraAt x) (hs : s.Staged) {es : List (StageEvent R)}
    (hes : ∀ e ∈ es, e.Plain) (hrests : s.CameraRestsIn es) : (s.after es).CameraAt x := by
  induction es generalizing s with
  | nil => exact h
  | cons e r ih =>
    have he := hes e List.mem_cons_self
    exact ih (h.handle hs hrests.1) (hs.handle he) (fun e' he' => hes e' (List.mem_cons_of_mem _ he'))
      hrests.2

/-- A camera action that finishes has brought the camera to its side before the tick of the step. -/
theorem Staged.cued_panorama (h : s.Staged) (hland : (cameraEase : Ease R).Lands) {q : Queued R}
    {rest : List (Queued R)} (hitems : s.queue.settle.items = q :: rest) (hside : s.CameraAction side q.action)
    (hfin : q.action.finishes s.config.rate.frameSeconds) :
    s.cued.panorama.offset.x = s.config.cameraX side := by
  have hhouse := h.house q (ActionQueue.mem_of_mem_settle (hitems ▸ List.mem_cons_self))
  obtain ⟨c, hc, hcued⟩ := cued_scene_of_cons hitems
  have hsize := h.background_lt
  rw [← hc] at hsize
  have hpanorama : s.cued.panorama = s.cued.scene.node s.cast.background := rfl
  rw [hpanorama, hcued]
  exact hside.update_offset hland hfin hhouse hsize

/-- Where the camera is, as it follows from the commands that have been queued and the glide that is under
way. -/
structure CameraSettles (t : Stage R) : Prop where
  /-- What is queued to move the camera was queued by a camera command, for a side. -/
  commands : ∀ q ∈ t.queue.items, q.action.moves? = some t.cast.background →
    ∃ side, t.CameraAction side q.action
  /-- A glide goes to a side. -/
  gliding : ∀ g, t.panorama.tween = some g → ∃ side, g.target.x = t.config.cameraX side
  /-- A camera action that finishes in a step without camera directives brings the camera to its side, if
  no glide is under way. -/
  arrives : t.panorama.tween = none → ∀ disk q rest side, t.queue.settle.items = q :: rest →
    t.CameraAction side q.action → q.action.finishes t.config.rate.frameSeconds →
    (∀ d ∈ t.played.1, d.isCamera = false) → (t.step disk).2.CameraAt (t.config.cameraX side)
  /-- If a glide is under way, the camera is where the glide has come to, whatever the head of the queue
  has done in the step. -/
  glides : ∀ g, t.panorama.tween = some g → ∀ disk, (t.step disk).1 = .ok () →
    (∀ d ∈ t.played.1, d.isCamera = false) →
    let g' := { g with elapsed := g.elapsed + t.config.rate.frameSeconds }
    if g'.position.2 then (t.step disk).2.CameraAt g.target.x
    else (t.step disk).2.panorama.offset.x = g'.position.1.x ∧ (t.step disk).2.panorama.tween = some g'
  /-- Without a glide, the camera stays where it is until a camera command runs. -/
  stays : ∀ x, t.CameraAt x → ∀ es, (∀ e ∈ es, e.Plain) → t.CameraRestsIn es →
    (t.after es).CameraAt x

/-- **Where the camera is after a command**, in every run that leaves the camera to its commands. -/
theorem camera_settles (hland : (cameraEase : Ease R).Lands) {disk : Disk} {config : Config R}
    (h : create disk config = .ok s) {es : List (StageEvent R)} (hes : ∀ e ∈ es, e.OffCamera) :
    CameraSettles (s.after es) := by
  have hfilming := (filming_create h).after hes
  generalize s.after es = t at hfilming ⊢
  have hstaged := hfilming.staged
  refine ⟨hfilming.commands, hfilming.gliding, ?_, ?_,
    fun x hx es hes hrests => hx.after hstaged hes hrests⟩
  · intro hnone disk q rest side hitems hside hfin hd
    rw [← hstaged.cued_panorama hland hitems hside hfin]
    exact hstaged.step_panorama_of_none disk hd hnone
  · intro g hg disk hok hd
    obtain ⟨hoffset, htween⟩ := hstaged.step_panorama_of_some disk hd hg hok
    simp only
    split_ifs at htween ⊢ with harrived
    · exact ⟨by rw [hoffset, Tween.position_of_arrived harrived], htween⟩
    · exact ⟨hoffset, htween⟩

/-! ## A cut during a glide -/

/-- The camera begins to glide to the right. -/
def panPage : Page := ⟨[.call ⟨"pan", ["right"]⟩]⟩

/-- The page and a cut to the left are queued, and a step is made. -/
def cutRun : List (StageEvent Rat) :=
  [.write pixelDisk (.push (.page panPage none)), .write pixelDisk (.cutTo .left), .step pixelDisk]

/-- The page is over after one step, and the glide is under way. -/
theorem camera_settles_cutRun : (cameraEase : Ease Rat).Lands ∧
    ∃ s, create pixelDisk pixelConfig = .ok s ∧
    (∀ e ∈ cutRun, e.OffCamera) ∧ CameraSettles (s.after cutRun) ∧
    (s.after cutRun).panorama.tween.isSome ∧ (s.after cutRun).queue.ids = [1] := by
  have hoff : ∀ e ∈ cutRun, e.OffCamera := by
    intro e he
    simp only [cutRun, List.mem_cons, List.not_mem_nil, or_false] at he
    rcases he with rfl | rfl | rfl
    · rintro a ⟨⟩
      exact ⟨rfl, nofun⟩
    · exact nofun
    · exact nofun
  obtain ⟨s, hs, hrun⟩ := exists_create pixelDisk pixelConfig
    (fun s => (s.after cutRun).panorama.tween.isSome ∧ (s.after cutRun).queue.ids = [1])
    (by decide +kernel)
  exact ⟨Ease.lands_inOutCubic, s, hs, hoff, camera_settles Ease.lands_inOutCubic hs hoff, hrun⟩

/-- The cut to the left is carried out in a step without directives, and at the end of that step the camera
is on the right. -/
theorem glide_outlives_cut : ∃ s, create pixelDisk pixelConfig = .ok s ∧
    let t := s.after cutRun
    (t.queue.settle.items.any fun q => match q.action with
      | .jump j => j.node = t.cast.background ∧ j.target = ⟨t.config.cameraX .left, 0⟩
      | _ => False) ∧
      t.played.1.length = 0 ∧ (t.step pixelDisk).1.isOk ∧ (t.step pixelDisk).2.queue.ids = [] ∧
      (t.step pixelDisk).2.panorama.offset.x = t.config.cameraX .right ∧
      t.config.cameraX .left ≠ t.config.cameraX .right := by
  refine exists_create _ _ _ ?_
  decide +kernel

end Stage

end Cutscene
