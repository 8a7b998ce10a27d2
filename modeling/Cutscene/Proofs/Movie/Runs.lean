import Cutscene.Proofs.Movie.Calls

/-!
# Movies as runs

While a movie is recorded, nothing happens to the stage that could not happen in a run: the scene is
shifted, steps are made and pictures are taken, and the sounds are closed at the end.

Results:
* `Films.runsTo`: the frames of a movie are steps and pictures of a run.
* `exists_closeSounds`: a movie that goes well ends by closing the sounds.
-/

namespace Cutscene.Stage

variable {R σ : Type} [Scalar R] [Sink σ] {s t u : Stage R}

/-- What can happen to a stage while it is handed nothing. -/
def RunsTo (s t : Stage R) : Prop :=
  ∃ es : List (StageEvent R), (∀ e ∈ es, e.own? = none) ∧ t = s.after es

theorem RunsTo.handle (h : s.RunsTo t) {e : StageEvent R} (he : e.own? = none) : s.RunsTo (t.handle e) := by
  obtain ⟨es, hes, rfl⟩ := h
  refine ⟨es ++ [e], ?_, (s.after_append es [e]).symm⟩
  intro e' he'
  rcases List.mem_append.mp he' with he' | he'
  · exact hes e' he'
  · rw [List.mem_singleton.mp he']
    exact he

theorem runsTo_shifted (s : Stage R) (y : Int32) : s.RunsTo (s.shifted y) :=
  ⟨[.shift y], by simp [StageEvent.own?], rfl⟩

/-- A step, whatever it comes to. -/
theorem RunsTo.step (h : s.RunsTo t) {disk : Disk} {result : Except Error Unit}
    (hstep : t.step disk = (result, u)) : s.RunsTo u := by
  have hnext := h.handle (e := .step disk) rfl
  rwa [Stage.handle, hstep] at hnext

/-- A picture, whatever it comes to. -/
theorem RunsTo.picture (h : s.RunsTo t) {result : Except Error Frame} (hpicture : t.renderFrame = (result, u)) :
    s.RunsTo u := by
  have hnext := h.handle (e := .picture) rfl
  rwa [Stage.handle, hpicture] at hnext

variable {p q last : Production R σ} {frames : List Frame} {y : Int32}

theorem Films.runsTo (h : Films p frames q) (hs : s.RunsTo p.stage) : s.RunsTo q.stage := by
  induction h with
  | start => exact hs
  | frame _ _ hstep hpicture _ ih => exact (ih.step hstep).picture hpicture

/-- A movie that goes well ends by closing the sounds. -/
theorem exists_closeSounds {stats : MovieStats R} (h : renderMovie p y = (.ok stats, last)) :
    ∃ t, p.stage.RunsTo t ∧ last.stage = t.closeSounds := by
  obtain ⟨calls, hcourse⟩ := exists_course p y
  rw [h] at hcourse
  cases hcourse with
  | done _ hfilms => exact ⟨_, hfilms.runsTo (p.stage.runsTo_shifted y), rfl⟩

end Cutscene.Stage
