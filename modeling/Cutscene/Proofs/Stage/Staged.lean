import Cutscene.Proofs.Scene.Preorder
import Cutscene.Proofs.Stage.Nodes
import Cutscene.Proofs.Stage.Opening

/-!
# The cast in place

In a run that is handed no callbacks, the scene is a tree of the nodes of the cast at all times, and what
is queued is of the house.

Results:
* `forall_handle`: what holds of every action that comes in holds of all that are queued.
* `Staged.create`, `Staged.handle`, `Staged.after`: the cast is in place in every such run.
* `Staged.sameRoles_handle`, `Staged.sameRoles_after`: its nodes keep their roles.
* `Staged.node_finishStep_eq`, `Staged.node_finishStep`: so the end of a step is a tick of every node.
-/

namespace Cutscene

variable {R : Type} [Scalar R]

omit [Scalar R] in
/-- An event that hands the stage no callback. -/
def StageEvent.Plain (e : StageEvent R) : Prop := ∀ a, e.own? = some a → a.callback? = none

omit [Scalar R] in
/-- Of the callbacks that it hands the stage, anything can be said. -/
theorem StageEvent.Plain.callback {P : Callback R → Prop} {e : StageEvent R} (h : e.Plain) {a : Action R}
    (ha : e.own? = some a) : ∀ f ∈ a.callback?, P f := by
  rw [h a ha]
  exact nofun

omit [Scalar R] in
theorem StageEvent.Plain.aloof {e : StageEvent R} (h : e.Plain) : e.Aloof := by
  cases e with
  | write disk line =>
    cases line with
    | run f => exact h.callback rfl f rfl
    | push a => exact h.callback rfl
    | _ => trivial
  | _ => trivial

namespace Stage

variable {s t : Stage R}

/-- The scene is a tree of the nodes of the cast, and what is queued shows or hides the dialogue box at
most. -/
structure Staged (s : Stage R) : Prop where
  tree : s.scene.IsTree
  size : s.scene.size = 11
  cast : s.cast = Cast.standing
  house : ∀ q ∈ s.queue.items, q.action.House s.cast.dialogueBox

theorem Staged.congr (h : s.Staged) (hlinks : s.scene.SameLinks t.scene) (hcast : t.cast = s.cast)
    (hhouse : ∀ q ∈ t.queue.items, q.action.House s.cast.dialogueBox) : t.Staged where
  tree := h.tree.congr hlinks
  size := hlinks.size.trans h.size
  cast := hcast.trans h.cast
  house := hcast ▸ hhouse

/-- A new stage is in place, and nothing is queued. -/
theorem Staged.create {disk : Disk} {config : Config R} (h : create disk config = .ok s) : s.Staged := by
  obtain ⟨hcast, nodes, hscene, hparts, -, -⟩ := create_scene h
  obtain ⟨hlength, hfirst⟩ := Cast.parts_spec hparts
  refine ⟨?_, ?_, hcast, ?_⟩
  · rw [hscene]
    exact Scene.isTree_ofNodes hfirst
  · rw [hscene, Scene.size_ofNodes, hlength]
  · rw [(create_spec h).2.1]
    exact fun q hq => absurd hq List.not_mem_nil

/-- A cue of the scripting calls shows or hides the dialogue box at most. -/
theorem HouseCue.house {box : NodeId} {cue : Cue R} (h : HouseCue box cue) :
    Callback.House box cue.perform := by
  intro c moved
  cases h with
  | showBox =>
    exact c.scene.tended_modify (fun _ => rfl) (fun _ => rfl) (fun _ => rfl) (.inr fun _ => rfl)
      (.inl rfl)
  | hideBox =>
    exact c.scene.tended_modify (fun _ => rfl) (fun _ => rfl) (fun _ => rfl) (.inr fun _ => rfl)
      (.inl rfl)
  | _ => exact .refl _ _ _

/-- What the scripting calls queue has no callback but one that shows or hides the dialogue box at most. -/
theorem Scripted.house {a : Action R} (h : s.Scripted a) : a.House s.cast.dialogueBox := by
  intro f hf
  obtain ⟨cue, hcue, rfl⟩ := h.callback hf
  exact hcue.house

/-- A directive leaves the cast in place and the queue alone. -/
theorem Staged.apply (h : s.Staged) (disk : Disk) (d : Directive R) : (s.apply disk d).2.Staged := by
  have hkept := s.undisturbed_apply disk d
  refine h.congr (s.sameRoles_apply disk d).links hkept.cast ?_
  rw [hkept.queue]
  exact h.house

/-- Queue and typewriter leave the nodes in their roles. -/
theorem Staged.sameRoles_played (h : s.Staged) : s.scene.SameRoles s.played.2.scene := by
  rw [played_scene]
  exact (tended_cued h.house).roles

/-- Queue and typewriter leave the cast in place. -/
theorem Staged.played (h : s.Staged) : s.played.2.Staged := by
  refine h.congr h.sameRoles_played.links s.played_cast ?_
  rw [played_items]
  exact forall_cued (fun a dt c ha => ha.update dt c) h.house

/-- The directives of a step leave the cast in place and the queue alone. -/
theorem Staged.applied (h : s.Staged) (disk : Disk) : (s.applied disk).Staged := by
  have hkept := s.applied_undisturbed disk
  refine h.played.congr (sameRoles_applyAll _ disk _).links hkept.cast ?_
  rw [hkept.queue]
  exact h.played.house

/-- Every event leaves the nodes in their roles. -/
theorem Staged.sameRoles_handle (h : s.Staged) (e : StageEvent R) :
    s.scene.SameRoles (s.handle e).scene := by
  rcases e.eq_step_or with ⟨disk, rfl⟩ | hother
  · have happlied : s.scene.SameRoles (s.applied disk).scene :=
      h.sameRoles_played.trans (sameRoles_applyAll _ disk _)
    change s.scene.SameRoles (s.step disk).2.scene
    rw [step_snd]
    split_ifs
    · obtain ⟨scene, htended, hscene⟩ := (s.applied disk).finishStep_tended s.config.rate.frameSeconds
        none Scene.root
      rw [hscene]
      exact (happlied.trans htended.roles).trans (scene.sameRoles_update _)
    · exact happlied
  · obtain ⟨assets, actions, scene, sounds, painter, hhandle, -, hscene⟩ := s.handle_eq hother
    rw [hhandle]
    rcases hscene with rfl | ⟨y, rfl⟩
    · exact .refl _
    · exact s.scene.sameRoles_modify _ fun _ => rfl

/-- What updates keep of actions, and what holds of those that come in, holds of all that are queued. -/
theorem forall_handle {P : Action R → Prop} (hupdate : ∀ a dt c, P a → P (a.update dt c).1)
    (h : ∀ q ∈ s.queue.items, P q.action) {e : StageEvent R} (hscripted : ∀ a, s.Scripted a → P a)
    (hown : ∀ a, e.own? = some a → P a) : ∀ q ∈ (s.handle e).queue.items, P q.action := by
  rcases e.eq_step_or with ⟨disk, rfl⟩ | hother
  · exact forall_step hupdate h disk
  · obtain ⟨assets, actions, scene, sounds, painter, hhandle, hactions, -⟩ := s.handle_eq hother
    rw [hhandle]
    intro q hq
    rcases ActionQueue.mem_pushAll hq with hq | hq
    · exact h q hq
    · exact (hactions _ hq).elim (hscripted _) (hown _)

/-- Every event leaves the cast alone. -/
theorem handle_cast (s : Stage R) (e : StageEvent R) : (s.handle e).cast = s.cast := by
  rcases e.eq_step_or with ⟨disk, rfl⟩ | hother
  · exact s.step_cast disk
  · obtain ⟨assets, actions, scene, sounds, painter, hhandle, -⟩ := s.handle_eq hother
    rw [hhandle]

/-- Only steps are counted. -/
theorem handle_frame_of_ne (s : Stage R) {e : StageEvent R} (he : ∀ disk, e ≠ .step disk) :
    (s.handle e).frame = s.frame := by
  obtain ⟨assets, actions, scene, sounds, painter, hhandle, -⟩ := s.handle_eq he
  rw [hhandle]

/-- Every event keeps the cast in place. -/
theorem Staged.handle (h : s.Staged) {e : StageEvent R} (he : e.Plain) : (s.handle e).Staged :=
  h.congr (h.sameRoles_handle e).links (s.handle_cast e)
    (forall_handle (fun _ dt c ha => ha.update dt c) h.house (fun _ ha => ha.house)
      fun _ ha => he.callback ha)

theorem Staged.after (h : s.Staged) {es : List (StageEvent R)} (hes : ∀ e ∈ es, e.Plain) :
    (s.after es).Staged :=
  after_induction h fun _ ht e he => ht.handle (hes e he)

/-- A whole run leaves the nodes in their roles. -/
theorem Staged.sameRoles_after (h : s.Staged) {es : List (StageEvent R)} (hes : ∀ e ∈ es, e.Plain) :
    s.scene.SameRoles (s.after es).scene :=
  (after_induction (P := fun t => t.Staged ∧ s.scene.SameRoles t.scene) ⟨h, .refl _⟩
    fun _ ht e he => ⟨ht.1.handle (hes e he), ht.2.trans (ht.1.sameRoles_handle e)⟩).2

/-- An event that is no step changes no node but the root. -/
theorem handle_node_of_ne (s : Stage R) {e : StageEvent R} (he : ∀ disk, e ≠ .step disk) {j : NodeId}
    (hroot : j ≠ Scene.root) : (s.handle e).scene.node j = s.scene.node j := by
  obtain ⟨assets, actions, scene, sounds, painter, hhandle, -, hscene⟩ := s.handle_eq he
  rw [hhandle]
  rcases hscene with rfl | ⟨y, rfl⟩
  · rfl
  · exact Scene.node_modify_of_ne hroot _

/-- The end of a step is a tick of every node, once the text box has been seen to. -/
theorem Staged.node_finishStep_eq (h : s.Staged) {j : NodeId} (hj : j < 11) (hroot : j ≠ Scene.root) (dt : R) :
    (s.finishStep dt).scene.node j = ((s.textBox.present s.dialogue s.scene).node j).tick dt := by
  have htended := s.textBox.tended_present s.dialogue s.scene none Scene.root
  have hsize : j < (s.textBox.present s.dialogue s.scene).size := by rwa [htended.links.size, h.size]
  exact (h.tree.congr htended.links).node_update hsize hroot dt

theorem Staged.node_finishStep (h : s.Staged) {j : NodeId} (hj : j < 11) (hroot : j ≠ Scene.root) (dt : R) :
    ∃ n : Node R, (s.finishStep dt).scene.node j = n.tick dt ∧ n.offset = (s.scene.node j).offset ∧
      n.tween = (s.scene.node j).tween ∧ n.timers = (s.scene.node j).timers ∧
      n.visible = (s.scene.node j).visible := by
  have htended := s.textBox.tended_present s.dialogue s.scene none Scene.root
  exact ⟨_, h.node_finishStep_eq hj hroot dt, htended.offset j nofun, htended.tween j, htended.timers j,
    htended.visible j hroot⟩

end Stage

end Cutscene
