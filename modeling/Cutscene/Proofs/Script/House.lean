import Cutscene.Proofs.Scene.Tended
import Cutscene.Proofs.Script.Finisher

/-!
# Actions of the house

An action of the house has no callback but one that shows or hides the dialogue box at most. What such an
action does to the scene is read off the action: it moves its node.

Results:
* `Action.moves?_update`, `Action.House.update`: an update keeps the node that is moved, and the house.
* `Action.tended_update`: what the update of an action does to the scene.
-/

namespace Cutscene

variable {R : Type} [Scalar R]

/-- A callback that shows or hides the dialogue box, or changes nothing in the scene. -/
def Callback.House (box : NodeId) (f : Callback R) : Prop :=
  ∀ (c : Context R) moved, c.scene.Tended (f c).scene moved box

omit [Scalar R] in
theorem Context.scene_finishAction (c : Context R) : c.finishAction.scene = c.scene := by
  unfold finishAction
  cases c.finisher <;> rfl

theorem Context.tended_complete {box : NodeId} {onComplete : Option (Callback R)}
    (h : ∀ f ∈ onComplete, Callback.House box f) (c : Context R) (moved : Option NodeId) :
    c.scene.Tended (c.complete onComplete).scene moved box := by
  unfold complete
  rw [scene_finishAction]
  cases onComplete with
  | none => exact .refl _ _ _
  | some f => exact h f rfl c moved

/-- The end of an action of the house moves no node. -/
theorem Context.offset_complete {box : NodeId} {onComplete : Option (Callback R)}
    (h : ∀ f ∈ onComplete, Callback.House box f) (c : Context R) (j : NodeId) :
    ((c.complete onComplete).scene.node j).offset = (c.scene.node j).offset :=
  (c.tended_complete h none).offset j (Option.some_ne_none j).symm

namespace Action

/-- An action whose callback shows or hides the dialogue box at most. -/
def House (box : NodeId) (a : Action R) : Prop := ∀ f ∈ a.callback?, Callback.House box f

omit [Scalar R] in
/-- The node that an action moves. -/
def moves? : Action R → Option NodeId
  | move m => some m.node
  | jump j => some j.node
  | _ => none

theorem moves?_update (a : Action R) (dt : R) (c : Context R) :
    (a.update dt c).1.moves? = a.moves? := by
  cases a with
  | move m =>
    simp only [update, Move.update]
    split_ifs <;> rfl
  | jump j =>
    simp only [update, Jump.update]
    split_ifs <;> rfl
  | run f => cases f <;> rfl
  | _ => rfl

theorem House.update {box : NodeId} {a : Action R} (h : a.House box) (dt : R) (c : Context R) :
    (a.update dt c).1.House box :=
  fun f hf => h f (a.callback?_update dt c f hf)

/-- The start of an action is nothing to the scene. -/
theorem scene_start (a : Action R) (c : Context R) : (a.start c).scene = c.scene := by
  cases a with
  | page p speaker =>
    unfold start Context.takeFinisher
    cases c.finisher <;> rfl
  | _ => rfl

/-- The head of the queue moves its node, changes a sprite or shows or hides the dialogue box. -/
theorem tended_update {box : NodeId} {a : Action R} (h : a.House box) (dt : R) (c : Context R) :
    c.scene.Tended (a.update dt c).2.scene a.moves? box := by
  cases a with
  | move m =>
    have hdone : ∀ d : Context R, d.scene.Tended (d.complete m.onComplete).scene (some m.node) box :=
      fun d => d.tended_complete h _
    simp only [update, Move.update]
    split_ifs
    · exact .refl _ _ _
    · exact (c.scene.tended_moveTo _ _ _).trans (hdone (c.modifyNode _ _))
    · exact c.scene.tended_moveTo _ _ _
  | jump j =>
    have hdone : ∀ d : Context R, d.scene.Tended (d.complete j.onComplete).scene (some j.node) box :=
      fun d => d.tended_complete h _
    simp only [update, Jump.update]
    split_ifs
    · exact .refl _ _ _
    · exact (c.scene.tended_moveTo _ _ _).trans (hdone (c.modifyNode _ _))
  | pause p =>
    simp only [update, Pause.update]
    split_ifs
    · exact .refl _ _ _
    · exact c.tended_complete h _
    · exact .refl _ _ _
  | setSprite node sprite =>
    simp only [update, Context.scene_finishAction]
    exact c.scene.tended_setSprite _ _ _ _
  | run f =>
    cases f with
    | none => exact .refl _ _ _
    | some f =>
      simp only [update, Context.scene_finishAction]
      exact h f rfl c _
  | page p speaker => exact .refl _ _ _

end Action

end Cutscene
