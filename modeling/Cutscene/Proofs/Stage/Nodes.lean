import Cutscene.Proofs.Script.House
import Cutscene.Proofs.Stage.InStep

/-!
# The nodes of the stage

Three parts of a step change nodes: the head of the queue, the directives, and the tick of the scene. A
directive works on one node of the cast at most.

Results:
* `tended_cued`: what the head of the queue does to the scene. `forall_cued`: what it keeps of the queue.
* `apply_scene`: a directive changes the node that it works on. `applyAll_induction`.
* `step_fst`, `step_snd`, `step_frame`, `forall_step`: a step by its parts.
-/

namespace Cutscene

variable {R : Type} [Scalar R]

/-- The node that a directive works on. -/
def Cast.worksOn? (c : Cast) : Directive R → Option NodeId
  | .sprite side _ => some (c.stand side)
  | .deskSlam side => some (c.stand side)
  | .shake _ => some c.background
  | .pan _ => some c.background
  | .cut _ => some c.background
  | .flash _ => some c.flash
  | .exclamation _ _ => some c.exclamation
  | .showArrow => some c.arrow
  | .hideArrow => some c.arrow
  | .showBox => some c.dialogueBox
  | .hideBox => some c.dialogueBox
  | _ => none

namespace Stage

/-! ## The head of the queue -/

variable {s t : Stage R}

/-- The node that the head of the queue moves in the next step. -/
def mover? (s : Stage R) : Option NodeId := s.queue.settle.items.head?.bind fun q => q.action.moves?

/-- The scene after the turn of the queue is that which the update of its head has left. -/
theorem cued_scene_of_cons {q : Queued R} {rest : List (Queued R)}
    (hitems : s.queue.settle.items = q :: rest) :
    ∃ c : Context R, c.scene = s.scene ∧
      s.cued.scene = (q.action.update s.config.rate.frameSeconds c).2.scene := by
  have hscene : s.cued.scene = (s.queue.update s.config.rate.frameSeconds s.cueing).2.2.scene := rfl
  rw [hscene, ActionQueue.update_of_cons hitems]
  have hopened : (if s.queue.settle.started = some q.id then s.cueing
      else ActionQueue.begin q s.cueing).scene = s.scene := by
    split_ifs
    · rfl
    · exact q.action.scene_start _
  generalize (if s.queue.settle.started = some q.id then s.cueing
    else ActionQueue.begin q s.cueing) = c at hopened
  exact ⟨{ c with finisher := some q.id }, hopened, rfl⟩

theorem cued_scene_of_nil (hitems : s.queue.settle.items = []) : s.cued.scene = s.scene := by
  have hscene : s.cued.scene = (s.queue.update s.config.rate.frameSeconds s.cueing).2.2.scene := rfl
  rw [hscene, ActionQueue.update_of_nil hitems]
  rfl

/-- What the queue does to the scene in its turn. -/
theorem tended_cued {box : NodeId} (h : ∀ q ∈ s.queue.items, q.action.House box) :
    s.scene.Tended s.cued.scene s.mover? box := by
  unfold mover?
  cases hitems : s.queue.settle.items with
  | nil =>
    rw [cued_scene_of_nil hitems]
    exact .refl _ _ _
  | cons q rest =>
    have hq : q.action.House box :=
      h q (ActionQueue.mem_of_mem_settle (hitems ▸ List.mem_cons_self))
    obtain ⟨c, hc, hcued⟩ := cued_scene_of_cons hitems
    rw [hcued, ← hc]
    exact Action.tended_update hq _ c

/-- What updates keep of actions, a turn of the queue keeps of all that are queued. -/
theorem forall_cued {P : Action R → Prop} (hupdate : ∀ a dt c, P a → P (a.update dt c).1)
    (h : ∀ q ∈ s.queue.items, P q.action) : ∀ q ∈ s.cued.queue.items, P q.action := by
  intro q hq
  rw [cued_queue] at hq
  cases hitems : s.queue.settle.items with
  | nil =>
    rw [ActionQueue.update_of_nil hitems] at hq
    exact h q (ActionQueue.mem_of_mem_settle hq)
  | cons head rest =>
    rw [ActionQueue.update_of_cons hitems] at hq
    have hmem : ∀ r ∈ head :: rest, P r.action :=
      fun r hr => h r (ActionQueue.mem_of_mem_settle (hitems ▸ hr))
    rcases List.mem_cons.mp (ActionQueue.mem_of_mem_settle hq) with rfl | hrest
    · exact hupdate _ _ _ (hmem head List.mem_cons_self)
    · exact hmem q (List.mem_cons_of_mem _ hrest)

/-! ## Directives -/

omit [Scalar R] in
theorem scene_withSound (s : Stage R) (path : Except Error String)
    (log : String → SoundLog R → SoundLog R) : (s.withSound path log).2.scene = s.scene := by
  unfold withSound
  cases path <;> rfl

theorem keepsRole_slam (sprite : Sprite R) (secs : R) :
    Node.KeepsRole fun n : Node R => slam n sprite secs := by
  intro n
  unfold slam
  simp only
  split <;> rfl

/-- A directive changes the node that it works on, or nothing in the scene. -/
theorem apply_scene (s : Stage R) (disk : Disk) (d : Directive R) :
    (s.apply disk d).2.scene = s.scene ∨ ∃ id f, s.cast.worksOn? d = some id ∧ Node.KeepsRole f ∧
      (s.apply disk d).2.scene = s.scene.modify id f := by
  have hsprite : ∀ path id (f : Sprite R → Node R → Node R)
      (next : Sprite R → Stage R → Except Error Unit × Stage R), s.cast.worksOn? d = some id →
      (∀ sprite, Node.KeepsRole (f sprite)) →
      (∀ sprite assets, (next sprite { s with assets }).2.scene = s.scene.modify id (f sprite)) →
      (s.withSprite disk path next).2.scene = s.scene ∨ ∃ id f, s.cast.worksOn? d = some id ∧
        Node.KeepsRole f ∧ (s.withSprite disk path next).2.scene = s.scene.modify id f := by
    intro path id f next hd hf hnext
    unfold withSprite
    cases s.assets.loadSprite disk path with
    | error e => exact .inl rfl
    | ok r => exact .inr ⟨id, f r.1, hd, hf r.1, hnext r.1 r.2⟩
  cases d with
  | sprite side path =>
    simp only [apply]
    exact hsprite _ _ (fun sprite n => n.setSprite sprite) _ rfl (fun _ _ => rfl)
      fun _ _ => rfl
  | playSound name =>
    refine .inl ?_
    exact s.scene_withSound _ _
  | startBlip voice =>
    refine .inl ?_
    exact s.scene_withSound _ _
  | musicStart name =>
    refine .inl ?_
    exact s.scene_withSound _ _
  | stopBlip => exact .inl rfl
  | musicStop => exact .inl rfl
  | nametag text => exact .inl rfl
  | wait secs => exact .inl rfl
  | unknown name => exact .inl rfl
  | exclamation kind speaker =>
    simp only [apply]
    refine hsprite _ _ (fun sprite n =>
      ((n.setSprite sprite).appear).schedule s.config.exclamationSeconds .hide) _ rfl
      (fun _ _ => rfl) fun sprite assets => ?_
    exact scene_withSound _ _ _
  | deskSlam side =>
    simp only [apply]
    exact hsprite _ _ (fun sprite n => slam n sprite s.config.slamSeconds) _ rfl
      (fun sprite => keepsRole_slam sprite _) fun _ _ => rfl
  | pan side =>
    refine .inr ⟨_, _, rfl, ?_, rfl⟩
    exact fun n => Node.keepsRole_startTween ⟨s.config.cameraX side, n.offset.y⟩ _ _ n
  | cut side =>
    refine .inr ⟨_, _, rfl, ?_, rfl⟩
    exact fun n => Node.keepsRole_startTween ⟨s.config.cameraX side, n.offset.y⟩ _ _ n
  | _ =>
    refine .inr ⟨_, _, rfl, ?_, rfl⟩
    exact fun _ => rfl

theorem sameRoles_apply (s : Stage R) (disk : Disk) (d : Directive R) :
    s.scene.SameRoles (s.apply disk d).2.scene := by
  rcases s.apply_scene disk d with h | ⟨id, f, -, hf, h⟩
  · rw [h]
    exact .refl _
  · rw [h]
    exact s.scene.sameRoles_modify id hf

/-- A directive leaves a node alone that it does not work on. -/
theorem apply_node_of_ne {disk : Disk} {d : Directive R} {j : NodeId} (h : s.cast.worksOn? d ≠ some j) :
    (s.apply disk d).2.scene.node j = s.scene.node j := by
  rcases s.apply_scene disk d with hscene | ⟨id, f, hd, -, hscene⟩
  · rw [hscene]
  · rw [hscene]
    exact Scene.node_modify_of_ne (fun hj : j = id => h (hj ▸ hd)) f

/-- What each directive keeps, a list of them keeps. -/
theorem applyAll_induction {P : Stage R → Prop} {disk : Disk} {ds : List (Directive R)} (hs : P s)
    (happly : ∀ t, P t → ∀ d ∈ ds, P (t.apply disk d).2) : P (s.applyAll disk ds).2 := by
  induction ds generalizing s with
  | nil => exact hs
  | cons d r ih =>
    have hd := happly s hs d List.mem_cons_self
    unfold applyAll
    cases hs' : s.apply disk d with
    | mk result t =>
      rw [hs'] at hd
      cases result with
      | error e => exact hd
      | ok _ => exact ih hd fun u hu d' hd' => happly u hu d' (List.mem_cons_of_mem _ hd')

theorem sameRoles_applyAll (s : Stage R) (disk : Disk) (ds : List (Directive R)) :
    s.scene.SameRoles (s.applyAll disk ds).2.scene :=
  applyAll_induction (P := fun t => s.scene.SameRoles t.scene) (.refl _)
    fun t ht d _ => ht.trans (t.sameRoles_apply disk d)

/-! ## Steps -/

omit [Scalar R] in
/-- What a page was loaded to do when it completes is a signal or a note. -/
theorem complete_eq (s : Stage R) (completed : Option Completion) :
    ∃ signals notes, s.complete completed = { s with queue := { s.queue with signals }, notes } := by
  cases completed with
  | none => exact ⟨_, _, rfl⟩
  | some token => cases token <;> exact ⟨_, _, rfl⟩

theorem played_dialogue (s : Stage R) :
    s.played.2.dialogue = (s.cued.dialogue.update s.config.rate.frameSeconds).typewriter := by
  obtain ⟨signals, notes, h⟩ := complete_eq { s.cued with
    dialogue := (s.cued.dialogue.update s.config.rate.frameSeconds).typewriter }
    (s.cued.dialogue.update s.config.rate.frameSeconds).completed
  exact congrArg Stage.dialogue h

/-- The turn of the typewriter changes the dialogue, signals and notes. -/
theorem played_eq (s : Stage R) : ∃ dialogue signals notes,
    s.played.2 = { s.cued with dialogue, queue := { s.cued.queue with signals }, notes } := by
  obtain ⟨signals, notes, h⟩ := complete_eq { s.cued with
    dialogue := (s.cued.dialogue.update s.config.rate.frameSeconds).typewriter }
    (s.cued.dialogue.update s.config.rate.frameSeconds).completed
  exact ⟨_, signals, notes, h⟩

theorem played_scene (s : Stage R) : s.played.2.scene = s.cued.scene := by
  obtain ⟨dialogue, signals, notes, h⟩ := s.played_eq
  rw [h]

theorem played_items (s : Stage R) : s.played.2.queue.items = s.cued.queue.items := by
  obtain ⟨dialogue, signals, notes, h⟩ := s.played_eq
  rw [h]

theorem played_config (s : Stage R) : s.played.2.config = s.config := by
  obtain ⟨dialogue, signals, notes, h⟩ := s.played_eq
  rw [h]
  rfl

theorem played_cast (s : Stage R) : s.played.2.cast = s.cast := by
  obtain ⟨dialogue, signals, notes, h⟩ := s.played_eq
  rw [h]
  rfl

theorem played_frame (s : Stage R) : s.played.2.frame = s.frame := by
  obtain ⟨dialogue, signals, notes, h⟩ := s.played_eq
  rw [h]
  rfl

/-- The stage once the directives of a step have been carried out. -/
def applied (s : Stage R) (disk : Disk) : Stage R := (s.played.2.applyAll disk s.played.1).2

theorem applied_undisturbed (s : Stage R) (disk : Disk) : s.played.2.Undisturbed (s.applied disk) :=
  s.played.2.undisturbed_applyAll disk s.played.1

/-- A step goes well if all its directives can be carried out. -/
theorem step_fst (s : Stage R) (disk : Disk) :
    (s.step disk).1 = (s.played.2.applyAll disk s.played.1).1 := by
  rw [step_eq]
  cases s.played.2.applyAll disk s.played.1 with
  | mk result t => cases result <;> rfl

/-- A step that goes well is brought to an end, and another one is cut short. -/
theorem step_snd (s : Stage R) (disk : Disk) : (s.step disk).2 =
    if (s.step disk).1.isOk then (s.applied disk).finishStep s.config.rate.frameSeconds
    else s.applied disk := by
  rw [step_eq]
  unfold applied
  cases s.played.2.applyAll disk s.played.1 with
  | mk result t => cases result <;> rfl

/-- What updates keep of actions, a step keeps of all that are queued. -/
theorem forall_step {P : Action R → Prop} (hupdate : ∀ a dt c, P a → P (a.update dt c).1)
    (h : ∀ q ∈ s.queue.items, P q.action) (disk : Disk) :
    ∀ q ∈ (s.step disk).2.queue.items, P q.action := by
  have happlied : ∀ q ∈ (s.applied disk).queue.items, P q.action := by
    rw [(s.applied_undisturbed disk).queue, played_items]
    exact forall_cued hupdate h
  rw [step_snd]
  split_ifs
  · exact fun q hq => happlied q (ActionQueue.mem_of_mem_settle hq)
  · exact happlied

/-- A step is counted if it goes well. -/
theorem step_frame (s : Stage R) (disk : Disk) :
    (s.step disk).2.frame = if (s.step disk).1.isOk then s.frame + 1 else s.frame := by
  have hframe : (s.applied disk).frame = s.frame := (s.applied_undisturbed disk).frame.trans s.played_frame
  rw [step_snd]
  split_ifs
  · exact congrArg (· + 1) hframe
  · exact hframe

theorem step_cast (s : Stage R) (disk : Disk) : (s.step disk).2.cast = s.cast := by
  have hcast : (s.applied disk).cast = s.cast := (s.applied_undisturbed disk).cast.trans s.played_cast
  rw [step_snd]
  split_ifs
  · exact hcast
  · exact hcast

theorem finishStep_tended (s : Stage R) (dt : R) (moved : Option NodeId) (box : NodeId) :
    ∃ scene, s.scene.Tended scene moved box ∧ (s.finishStep dt).scene = scene.update dt :=
  ⟨_, s.textBox.tended_present s.dialogue s.scene moved box, rfl⟩

end Stage

end Cutscene
