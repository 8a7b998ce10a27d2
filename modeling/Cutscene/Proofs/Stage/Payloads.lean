import Cutscene.Proofs.Stage.Staged

/-!
# What nodes draw

The head of the queue changes what a node draws if it sets its sprite, and the text box changes texts.
Nothing else does outside of directives and ticks, as long as callbacks keep off.

Results:
* `Action.Discreet`: an action whose callback changes nothing of what nodes draw.
  `Action.update_payload`, `cued_payload`: what then is drawn after the turn of the queue.
* `TextBox.sprite?_present`: the text box leaves sprites alone.
-/

namespace Cutscene

variable {R : Type} [Scalar R]

theorem Scene.payload_modify (s : Scene R) (id j : NodeId) {f : Node R → Node R}
    (hf : ∀ n, (f n).payload = n.payload) : ((s.modify id f).node j).payload = (s.node j).payload := by
  rw [node_modify]
  split_ifs with hj
  · rw [hf, hj.1]
  · rfl

/-! ## Actions -/

/-- A callback that changes nothing of what nodes draw. -/
def Callback.Discreet (f : Callback R) : Prop := ∀ c j, ((f c).scene.node j).payload = (c.scene.node j).payload

theorem Context.payload_complete {onComplete : Option (Callback R)}
    (h : ∀ f ∈ onComplete, Callback.Discreet f) (c : Context R) (j : NodeId) :
    ((c.complete onComplete).scene.node j).payload = (c.scene.node j).payload := by
  unfold complete
  rw [scene_finishAction]
  cases onComplete with
  | none => rfl
  | some f => exact h f rfl c j

namespace Action

/-- An action whose callback changes nothing of what nodes draw. -/
def Discreet (a : Action R) : Prop := ∀ f ∈ a.callback?, Callback.Discreet f

theorem Discreet.update {a : Action R} (h : a.Discreet) (dt : R) (c : Context R) :
    (a.update dt c).1.Discreet :=
  fun f hf => h f (a.callback?_update dt c f hf)

/-- The head of the queue leaves what a node draws, unless it is there to set its sprite. -/
theorem update_payload {a : Action R} (h : a.Discreet) (dt : R) (c : Context R) (j : NodeId) :
    ((a.update dt c).2.scene.node j).payload = (c.scene.node j).payload ∨
      ∃ sprite, a = .setSprite j sprite ∧
        ((a.update dt c).2.scene.node j).payload = (c.scene.node j).payload.setSprite sprite := by
  have hmoved : ∀ id p, ((c.scene.modify id (·.moveTo p)).node j).payload = (c.scene.node j).payload :=
    fun id p => c.scene.payload_modify id j fun _ => rfl
  cases a with
  | move m =>
    refine .inl ?_
    simp only [update, Move.update]
    split_ifs
    · rfl
    · exact (Context.payload_complete h (c.modifyNode _ _) j).trans (hmoved _ _)
    · exact hmoved _ _
  | jump k =>
    refine .inl ?_
    simp only [update, Jump.update]
    split_ifs
    · rfl
    · exact (Context.payload_complete h (c.modifyNode _ _) j).trans (hmoved _ _)
  | pause p =>
    refine .inl ?_
    simp only [update, Pause.update]
    split_ifs
    · rfl
    · exact Context.payload_complete h c j
    · rfl
  | setSprite id sprite =>
    simp only [update, Context.scene_finishAction]
    unfold Context.modifyNode
    simp only
    rw [Scene.node_modify]
    split_ifs with hj
    · obtain ⟨rfl, -⟩ := hj
      exact .inr ⟨sprite, rfl, rfl⟩
    · exact .inl rfl
  | run f =>
    refine .inl ?_
    cases f with
    | none => rfl
    | some f =>
      simp only [update, Context.scene_finishAction]
      exact h f rfl c j
  | page p speaker => exact .inl rfl

end Action

/-! ## The text box -/

theorem TextBox.sprite?_present {κ : Type} (b : TextBox) (i : Typewriter R κ) (s : Scene R) (j : NodeId) :
    ((b.present i s).node j).payload.sprite? = (s.node j).payload.sprite? := by
  refine b.present_induction (P := fun t => (t.node j).payload.sprite? = (s.node j).payload.sprite?) i rfl
    fun t id f ht => ?_
  rw [Scene.node_modify]
  split_ifs with hj
  · rw [← ht, hj.1]
    unfold Node.mapRun
    cases (t.node id).payload <;> rfl
  · exact ht

namespace Stage

variable {s : Stage R}

/-! ## The queue -/

/-- A cue of the scripting calls changes nothing of what nodes draw. -/
theorem HouseCue.discreet {box : NodeId} {cue : Cue R} (h : HouseCue box cue) :
    Callback.Discreet cue.perform := by
  intro c j
  cases h with
  | showBox => exact c.scene.payload_modify _ j fun _ => rfl
  | hideBox => exact c.scene.payload_modify _ j fun _ => rfl
  | _ => rfl

theorem Scripted.discreet {a : Action R} (h : s.Scripted a) : a.Discreet := by
  intro f hf
  obtain ⟨cue, hcue, rfl⟩ := h.callback hf
  exact hcue.discreet

/-- The turn of the queue leaves what a node draws, unless an action that is queued sets its sprite. -/
theorem cued_payload (h : ∀ q ∈ s.queue.items, q.action.Discreet) (j : NodeId) :
    (s.cued.scene.node j).payload = (s.scene.node j).payload ∨
      ∃ q ∈ s.queue.items, ∃ sprite, q.action = .setSprite j sprite ∧
        (s.cued.scene.node j).payload = (s.scene.node j).payload.setSprite sprite := by
  cases hitems : s.queue.settle.items with
  | nil =>
    rw [cued_scene_of_nil hitems]
    exact .inl rfl
  | cons q rest =>
    have hq : q ∈ s.queue.items := ActionQueue.mem_of_mem_settle (hitems ▸ List.mem_cons_self)
    obtain ⟨c, hc, hcued⟩ := cued_scene_of_cons hitems
    rw [hcued, ← hc]
    rcases Action.update_payload (h q hq) s.config.rate.frameSeconds c j with hkept | ⟨sprite, hset, hdrawn⟩
    · exact .inl hkept
    · exact .inr ⟨q, hq, sprite, hset, hdrawn⟩

/-- A node that draws a sprite draws one after the turn of the queue. -/
theorem isSome_sprite?_cued (h : ∀ q ∈ s.queue.items, q.action.Discreet) {j : NodeId}
    (hsprite : (s.scene.node j).payload.sprite?.isSome) : (s.cued.scene.node j).payload.sprite?.isSome := by
  rcases cued_payload h j with hkept | ⟨-, -, sprite, -, hset⟩
  · rwa [hkept]
  · rw [hset]
    cases (s.scene.node j).payload <;> rfl

end Stage

end Cutscene
