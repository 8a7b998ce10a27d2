import Mathlib.Data.List.Basic
import Cutscene.Proofs.Script.Finisher
import Cutscene.Proofs.Script.Order

/-!
# Actions that leave the dialogue alone

A callback is aloof if it touches neither the typewriter nor the finisher of its action. When the
callbacks of an action are aloof, the step in which it is done depends on its own clock alone:
`finishes` reads that step off the action, and `advance` is what the others do to it. Where a move
started is the one thing that an action takes from the scene; `unplaced` forgets it.

Results:
* `Action.update_ends`: an action runs its callback and reports itself in the step in which it finishes.
* `Action.update_aloof`: an aloof action reports itself when it finishes, and nothing else.
* `Action.update_unplaced`: until then it advances by its own clock.
* `ActionQueue.update_aloof`: a step of a queue with an aloof action at its head.
-/

namespace Cutscene

/-- A callback that touches neither the typewriter nor the finisher of its action. As long as nobody
puts a finisher aside, there is no other that it could use. -/
structure Callback.Aloof {R : Type} (f : Callback R) : Prop where
  dialogue : ∀ c, (f c).dialogue = c.dialogue
  finisher : ∀ c, (f c).finisher = c.finisher
  others : ∀ c, c.parked = [] → (f c).raised = c.raised ∧ (f c).parked = []

variable {R : Type}

theorem Callback.aloof_of_eq {f : Callback R} (h : ∀ c, (f c).dialogue = c.dialogue ∧
    (f c).finisher = c.finisher ∧ (f c).raised = c.raised ∧ (f c).parked = c.parked) : f.Aloof where
  dialogue c := (h c).1
  finisher c := (h c).2.1
  others c hparked := ⟨(h c).2.2.1, (h c).2.2.2.trans hparked⟩

theorem Context.finishAction_of_some {c : Context R} {id : ActionId} (hc : c.finisher = some id) :
    c.finishAction = { c with finisher := none, raised := c.raised ++ [id] } := by
  unfold finishAction
  rw [hc]
  rfl

/-- After an aloof callback the running action is reported, and the dialogue is as before. -/
theorem Context.complete_aloof {c : Context R} {id : ActionId} (hc : c.finisher = some id)
    (hparked : c.parked = []) {onComplete : Option (Callback R)}
    (h : ∀ f ∈ onComplete, Callback.Aloof f) :
    (c.complete onComplete).dialogue = c.dialogue ∧
      (c.complete onComplete).raised = c.raised ++ [id] ∧ (c.complete onComplete).parked = [] := by
  unfold Context.complete
  cases onComplete with
  | none =>
    rw [Context.finishAction_of_some hc]
    exact ⟨rfl, rfl, hparked⟩
  | some f =>
    have hf := h f rfl
    obtain ⟨hraised, hempty⟩ := hf.others c hparked
    rw [Context.finishAction_of_some ((hf.finisher c).trans hc)]
    exact ⟨hf.dialogue c, congrArg (· ++ [id]) hraised, hempty⟩

namespace Action

/-- An action whose callback is aloof. -/
def Aloof (a : Action R) : Prop := ∀ f ∈ a.callback?, Callback.Aloof f

/-- The page that an action shows. -/
def page? : Action R → Option Page
  | page p _ => some p
  | _ => none

theorem page?_eq_some_iff {a : Action R} {p : Page} :
    a.page? = some p ↔ ∃ speaker, a = .page p speaker := by
  cases a <;> simp [page?]

/-- The action, as if it had not yet begun to move anything. -/
def unplaced : Action R → Action R
  | move m => move { m with origin := none }
  | a => a

end Action

variable [Scalar R]

namespace Action

/-- What the start of an action does to the typewriter. -/
def opening (a : Action R) (id : ActionId) (i : Typewriter R Completion) : Typewriter R Completion :=
  match a with
  | page p speaker => i.load p speaker (.finish id)
  | _ => i

/-- Whether an action of aloof callbacks is done in a step. A page is done when the typewriter says so. -/
def finishes (dt : R) : Action R → Bool
  | move m => !m.completed && decide (1 ≤ m.ease.apply ((m.elapsed + dt) / m.duration))
  | jump j => !j.completed
  | pause p => !p.completed && decide (p.duration < p.elapsed + dt)
  | setSprite _ _ => true
  | run f => f.isSome
  | page _ _ => false

/-- The clock of an action after a step in which it is not done. -/
def advance (dt : R) : Action R → Action R
  | move m => move (if m.completed then m else { m with elapsed := m.elapsed + dt })
  | pause p => pause (if p.completed then p else { p with elapsed := p.elapsed + dt })
  | a => a

theorem finishes_unplaced (a : Action R) (dt : R) : a.unplaced.finishes dt = a.finishes dt := by
  cases a <;> rfl

theorem finishes_of_page? {a : Action R} {p : Page} (h : a.page? = some p) (dt : R) :
    a.finishes dt = false := by
  obtain ⟨speaker, rfl⟩ := page?_eq_some_iff.mp h
  rfl

theorem page?_update (a : Action R) (dt : R) (c : Context R) : (a.update dt c).1.page? = a.page? := by
  cases a with
  | run f => cases f <;> rfl
  | _ => rfl

theorem Aloof.update {a : Action R} (h : a.Aloof) (dt : R) (c : Context R) :
    (a.update dt c).1.Aloof :=
  fun f hf => h f (callback?_update a dt c f hf)

/--
An action works on the scene, and in the step in which it finishes it runs its callback and reports itself.
-/
theorem update_ends (a : Action R) (dt : R) (c : Context R) :
    ∃ scene, (a.update dt c).2 =
      if a.finishes dt then ({ c with scene } : Context R).complete a.callback? else { c with scene } := by
  cases a with
  | move m =>
    simp only [Action.update, Move.update, finishes]
    by_cases hdone : m.completed
    · exact ⟨c.scene, by simp [hdone]⟩
    · by_cases harrived : 1 ≤ m.ease.apply ((m.elapsed + dt) / m.duration)
      · simp only [hdone, harrived, if_false, if_true, Bool.not_false, Bool.true_and, decide_true,
          Bool.false_eq_true]
        exact ⟨_, rfl⟩
      · simp only [hdone, harrived, if_false, Bool.not_false, Bool.true_and, decide_false,
          Bool.false_eq_true]
        exact ⟨_, rfl⟩
  | jump j =>
    simp only [Action.update, Jump.update, finishes]
    by_cases hdone : j.completed
    · exact ⟨c.scene, by simp [hdone]⟩
    · simp only [hdone, if_false, if_true, Bool.not_false, Bool.false_eq_true]
      exact ⟨_, rfl⟩
  | pause p =>
    simp only [Action.update, Pause.update, finishes]
    refine ⟨c.scene, ?_⟩
    by_cases hdone : p.completed
    · simp [hdone]
    · by_cases hpassed : p.duration < p.elapsed + dt <;> simp [hdone, hpassed, callback?]
  | setSprite node sprite => exact ⟨_, rfl⟩
  | run f =>
    refine ⟨c.scene, ?_⟩
    cases f <;> rfl
  | page p speaker => exact ⟨c.scene, rfl⟩

/-- An aloof action reports itself when it finishes, and leaves the dialogue as it is. -/
theorem update_aloof {a : Action R} (h : a.Aloof) (dt : R) {c : Context R} {id : ActionId}
    (hc : c.finisher = some id) (hparked : c.parked = []) :
    (a.update dt c).2.dialogue = c.dialogue ∧
      (a.update dt c).2.raised = c.raised ++ (if a.finishes dt then [id] else []) ∧
      (a.update dt c).2.parked = [] := by
  obtain ⟨scene, hends⟩ := a.update_ends dt c
  rw [hends]
  split_ifs
  · exact Context.complete_aloof (c := { c with scene }) hc hparked h
  · exact ⟨rfl, (List.append_nil _).symm, hparked⟩

/-- An action that is not done advances by its own clock. -/
theorem update_unplaced {a : Action R} {dt : R} (h : a.finishes dt = false) (c : Context R) :
    (a.update dt c).1.unplaced = a.unplaced.advance dt := by
  cases a with
  | move m =>
    simp only [Action.update, Move.update]
    by_cases hdone : m.completed
    · simp [hdone, unplaced, advance]
    · have hmoving : ¬1 ≤ m.ease.apply ((m.elapsed + dt) / m.duration) := by
        simpa [finishes, hdone] using h
      simp [hdone, hmoving, unplaced, advance]
  | jump j =>
    have hdone : j.completed := by simpa [finishes] using h
    simp [Action.update, Jump.update, hdone, unplaced, advance]
  | pause p =>
    simp only [Action.update, Pause.update]
    by_cases hdone : p.completed
    · simp [hdone, unplaced, advance]
    · have hpausing : ¬p.duration < p.elapsed + dt := by
        simpa [finishes, hdone] using h
      simp [hdone, hpausing, unplaced, advance]
  | setSprite node sprite => simp [finishes] at h
  | run f =>
    cases f with
    | none => rfl
    | some f => simp [finishes] at h
  | page p speaker => rfl

/-- The start of an action loads its page and takes the finisher along, or does nothing. -/
theorem start_eq_opening (a : Action R) {c : Context R} {id : ActionId} (hc : c.finisher = some id) :
    (a.start c).dialogue = a.opening id c.dialogue ∧ (a.start c).raised = c.raised ∧
      (a.start c).parked = c.parked := by
  cases a with
  | page p speaker =>
    unfold start Context.takeFinisher
    simp only [hc]
    exact ⟨rfl, trivial, trivial⟩
  | _ => exact ⟨rfl, rfl, rfl⟩

end Action

namespace ActionQueue

/-- What the head finds when it is updated: it has just been started, unless it was before. -/
theorem opened_head (q : Queued R) (c : Context R) (begun : Prop) [Decidable begun] :
    (if begun then c else begin q c).dialogue =
        (if begun then c.dialogue else q.action.opening q.id c.dialogue) ∧
      (if begun then c else begin q c).raised = c.raised ∧
      (if begun then c else begin q c).parked = c.parked := by
  by_cases hbegun : begun
  · simp only [hbegun, if_true, and_self]
  · simp only [hbegun, if_false]
    exact q.action.start_eq_opening (c := { c with finisher := some q.id }) rfl

/-- A step of a queue with an aloof action at its head. -/
theorem update_aloof {s : ActionQueue R} {q : Queued R} {rest : List (Queued R)}
    (hitems : s.settle.items = q :: rest) (h : q.action.Aloof) (dt : R) {c : Context R}
    (hc : c.raised = []) (hparked : c.parked = []) :
    (s.update dt c).2.2.dialogue =
        (if s.settle.started = some q.id then c.dialogue else q.action.opening q.id c.dialogue) ∧
      (s.update dt c).2.2.parked = [] ∧
      ∃ a, a.Aloof ∧ a.page? = q.action.page? ∧
        (q.action.finishes dt = false → a.unplaced = q.action.unplaced.advance dt) ∧
        (s.update dt c).2.1 =
          if q.action.finishes dt then
            { s.settle with
              items := rest, started := some q.id, completed := s.settle.completed + 1, signals := [] }
          else { s.settle with items := ⟨q.id, a⟩ :: rest, started := some q.id, signals := [] } := by
  rw [update_of_cons hitems]
  obtain ⟨hdialogue, hraised, hkept⟩ := opened_head q c (s.settle.started = some q.id)
  generalize (if s.settle.started = some q.id then c else begin q c) = c' at hdialogue hraised hkept ⊢
  obtain ⟨hdialogue', hreport, hparked'⟩ :=
    Action.update_aloof h dt (c := { c' with finisher := some q.id }) rfl (hkept.trans hparked)
  refine ⟨hdialogue'.trans hdialogue, hparked', (turn q dt c').1, h.update dt _,
    Action.page?_update _ dt _, fun hfin => Action.update_unplaced hfin _, ?_⟩
  simp only [hraised, hc, List.nil_append] at hreport
  split_ifs at hreport ⊢ with hfin
  · exact settle_turned_of_raised s.settle q rest (by simp only [turn, hraised, hc, hreport]; rfl)
      List.not_mem_nil
  · exact settle_turned_of_quiet s.settle q rest (by simp [turn, hraised, hc, hreport])

end ActionQueue

end Cutscene
