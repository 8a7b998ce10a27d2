import Mathlib.Data.List.Basic
import Cutscene.Proofs.Dialogue.Run
import Cutscene.Script.Action
import Cutscene.Script.Cue

/-!
# Where finishers go

A finisher can be used by whoever holds it: the running action, a slot, or a page of the typewriter.
A callback is any function on the context, so what a program can do with finishers is stated as a
property: it makes none up.

Results:
* `honest_perform`, `honest_performAll`: a cue, and so every callback made of cues, is honest.
* `finishers_start`, `finishers_update`: an action with honest callbacks makes no finisher up.
* `callback?_update`: and it stays one.
-/

namespace Cutscene

/-- The action that a completion finishes. -/
def Completion.finisher? : Completion → Option ActionId
  | finish id => some id
  | note _ => none

/-- The callback that an action has not yet run. -/
def Action.callback? {R : Type} : Action R → Option (Callback R)
  | .move m => m.onComplete
  | .jump j => j.onComplete
  | .pause p => p.onComplete
  | .run f => f
  | .setSprite _ _ => none
  | .page _ _ => none

variable {R : Type}

namespace Context

/-- The actions that were reported as done, and those that a holder of a finisher could report. -/
def finishers (c : Context R) : List ActionId :=
  c.raised ++ c.finisher.toList ++ c.parked.map Prod.snd ++
    (c.dialogue.loaded.bind fun l => l.2.finisher?).toList

theorem mem_finishers {c : Context R} {id : ActionId} :
    id ∈ c.finishers ↔ id ∈ c.raised ∨ c.finisher = some id ∨ (∃ slot, (slot, id) ∈ c.parked) ∨
      ∃ page, c.dialogue.loaded = some (page, .finish id) := by
  have hpage : id ∈ (c.dialogue.loaded.bind fun l => l.2.finisher?).toList ↔
      ∃ page, c.dialogue.loaded = some (page, .finish id) := by
    cases c.dialogue.loaded with
    | none => simp
    | some l =>
      obtain ⟨page, token⟩ := l
      cases token <;> simp [Completion.finisher?, eq_comm]
  simp only [finishers, List.mem_append, hpage, Option.mem_toList, List.mem_map, Prod.exists,
    exists_eq_right, or_assoc]

end Context

/-- A callback that makes no finisher up: it reports, keeps and hands on only what it has found. -/
def Callback.Honest (f : Callback R) : Prop := ∀ c, (f c).finishers ⊆ c.finishers

/-- An action whose callback is honest. -/
def Action.Honest (a : Action R) : Prop := ∀ f ∈ a.callback?, Callback.Honest f

namespace Context

theorem finishers_finishAction (c : Context R) : c.finishAction.finishers ⊆ c.finishers := by
  intro id h
  unfold finishAction at h
  cases hf : c.finisher with
  | none => rwa [hf] at h
  | some running =>
    rw [hf] at h
    simp only [mem_finishers, raise, List.mem_append, List.mem_singleton] at h ⊢
    grind

theorem finishers_takeFinisher (c : Context R) : c.takeFinisher.2.finishers ⊆ c.finishers := by
  intro id h
  simp only [mem_finishers, takeFinisher] at h ⊢
  grind

theorem finishers_park (c : Context R) (slot : String) : (c.park slot).finishers ⊆ c.finishers := by
  intro id h
  unfold park at h
  cases hf : c.finisher with
  | none => rw [hf] at h; exact h
  | some running =>
    rw [hf] at h
    simp only [mem_finishers, List.mem_cons, Prod.mk.injEq, List.mem_filter] at h ⊢
    grind

theorem finishers_release (c : Context R) (slot : String) :
    (c.release slot).finishers ⊆ c.finishers := by
  intro id h
  unfold release at h
  cases hf : c.parked.lookup slot with
  | none => rw [hf] at h; exact h
  | some kept =>
    have hmem : (slot, kept) ∈ c.parked := by
      obtain ⟨before, later, heq, -⟩ := List.lookup_eq_some_iff.mp hf
      rw [heq]
      exact List.mem_append_right _ List.mem_cons_self
    rw [hf] at h
    simp only [mem_finishers, raise, List.mem_append, List.mem_singleton, List.mem_filter] at h ⊢
    grind

theorem finishers_setSpeaker (c : Context R) (name : String) :
    ({ c with dialogue := c.dialogue.setSpeaker name } : Context R).finishers = c.finishers := by
  have hloaded : (c.dialogue.setSpeaker name).loaded = c.dialogue.loaded := by
    unfold Typewriter.setSpeaker Typewriter.loaded
    cases c.dialogue.active <;> rfl
  unfold finishers
  rw [hloaded]

theorem finishers_complete (c : Context R) {onComplete : Option (Callback R)}
    (h : ∀ f ∈ onComplete, Callback.Honest f) : (c.complete onComplete).finishers ⊆ c.finishers := by
  unfold complete
  cases onComplete with
  | none => exact c.finishers_finishAction
  | some f => exact List.Subset.trans (f c).finishers_finishAction (h f rfl c)

end Context

variable [Scalar R]

namespace Context

theorem finishers_reparent (c : Context R) (id target : NodeId) :
    (c.reparent id target).finishers = c.finishers := by
  unfold reparent
  cases c.scene.reparent id target <;> rfl

/-- Loading a page drops the page that was there, and its token with it. -/
theorem finishers_load (c : Context R) (page : Page) (speaker : Option String)
    (token : Completion) :
    ({ c with dialogue := c.dialogue.load page speaker token } : Context R).finishers ⊆
      token.finisher?.toList ++ c.finishers := by
  intro id h
  simp only [mem_finishers, Typewriter.load, Typewriter.loaded, Option.map_some, Option.some.injEq,
    Prod.mk.injEq, List.mem_append] at h ⊢
  rcases h with h | h | h | ⟨p, -, h⟩
  · exact Or.inr (Or.inl h)
  · exact Or.inr (Or.inr (Or.inl h))
  · exact Or.inr (Or.inr (Or.inr (Or.inl h)))
  · exact Or.inl (by rw [h]; simp [Completion.finisher?])

end Context

/-- A cue makes no finisher up. -/
theorem honest_perform (cue : Cue R) : Callback.Honest cue.perform := by
  intro c
  cases cue with
  | finish => exact c.finishers_finishAction
  | park slot => exact c.finishers_park slot
  | drop => exact c.finishers_takeFinisher
  | release slot => exact c.finishers_release slot
  | reparent node target => exact (c.finishers_reparent node target) ▸ List.Subset.refl _
  | load page speaker tag => exact c.finishers_load page speaker (.done tag)
  | setSpeaker name => exact (c.finishers_setSpeaker name) ▸ List.Subset.refl _
  | _ => exact List.Subset.refl _

/-- A callback that is made of cues is honest. -/
theorem honest_performAll (cues : List (Cue R)) : Callback.Honest (Cue.performAll cues) := by
  induction cues with
  | nil => exact fun c => List.Subset.refl _
  | cons cue r ih => exact fun c => List.Subset.trans (ih (cue.perform c)) (honest_perform cue c)

namespace Action

/-- An action that is started takes along nothing but the finisher it was given. -/
theorem finishers_start (a : Action R) (c : Context R) : (a.start c).finishers ⊆ c.finishers := by
  cases a with
  | page p speaker =>
    cases hf : c.finisher with
    | none =>
      simp only [start, Context.takeFinisher, hf]
      exact c.finishers_takeFinisher
    | some id =>
      simp only [start, Context.takeFinisher, hf]
      refine List.Subset.trans (Context.finishers_load c.takeFinisher.2 p speaker (.finish id)) ?_
      intro other h
      rcases List.mem_append.mp h with h | h
      · obtain rfl : other = id := by simpa [Completion.finisher?] using h
        exact Context.mem_finishers.mpr (Or.inr (Or.inl hf))
      · exact c.finishers_takeFinisher h
  | _ => exact List.Subset.refl _

/-- An action with honest callbacks makes no finisher up when it is updated. -/
theorem finishers_update {a : Action R} (h : a.Honest) (dt : R) (c : Context R) :
    (a.update dt c).2.finishers ⊆ c.finishers := by
  cases a with
  | move m =>
    simp only [update, Move.update]
    split_ifs
    · exact List.Subset.refl _
    · exact Context.finishers_complete _ h
    · exact List.Subset.refl _
  | jump j =>
    simp only [update, Jump.update]
    split_ifs
    · exact List.Subset.refl _
    · exact Context.finishers_complete _ h
  | pause p =>
    simp only [update, Pause.update]
    split_ifs
    · exact List.Subset.refl _
    · exact Context.finishers_complete _ h
    · exact List.Subset.refl _
  | setSprite node sprite => exact Context.finishers_finishAction _
  | run f =>
    cases f with
    | none => exact List.Subset.refl _
    | some f => exact List.Subset.trans (Context.finishers_finishAction _) (h f rfl c)
  | page p speaker => exact List.Subset.refl _

/-- An update runs a callback or keeps it, and puts no other in its place. -/
theorem callback?_update (a : Action R) (dt : R) (c : Context R) :
    ∀ f ∈ (a.update dt c).1.callback?, f ∈ a.callback? := by
  cases a with
  | move m =>
    simp only [update, Move.update]
    split_ifs <;> simp [callback?]
  | jump j =>
    simp only [update, Jump.update]
    split_ifs <;> simp [callback?]
  | pause p =>
    simp only [update, Pause.update]
    split_ifs <;> simp [callback?]
  | run f => cases f <;> simp [update, callback?]
  | _ => exact fun f h => h

end Action

end Cutscene
