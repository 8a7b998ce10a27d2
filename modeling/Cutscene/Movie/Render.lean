import Cutscene.Movie.Sink
import Cutscene.Stage.Step

/-!
# Rendering movies

`Stage.renderMovie` carries out the whole script and hands each frame to a sink. The sink is started
once before anything happens, and finished once after the last frame, also when something has failed.

Models `Director.render_movie` with `run_frames` and `RenderStats` (SPEC_FULL.md, §B.11).
-/

namespace Cutscene

/-- What a movie has come to. -/
structure MovieStats (R : Type) where
  frames : Nat
  seconds : R
deriving Repr, DecidableEq

namespace Stage

variable {R σ : Type} [Scalar R] [Sink σ]

/-- A stage and what records it. -/
structure Production (R σ : Type) where
  stage : Stage R
  recording : Recording σ

/-- Makes a step and hands the frame after it to the sink. -/
def recordFrame (p : Production R σ) (i : Nat) : Except Error Unit × Production R σ :=
  match p.stage.step p.recording.disk with
  | (.error e, stage) => (.error e, { p with stage })
  | (.ok (), stage) =>
    match stage.renderFrame with
    | (.error e, stage) => (.error e, { p with stage })
    | (.ok frame, stage) =>
      match Sink.push i.toUInt64 frame p.recording with
      | (r, recording) => (r, ⟨stage, recording⟩)

/--
Records frames until the script is settled, and at most `left` of them; gives how many frames the
sink has taken by then, those before included.
-/
def recordFrames : (left : Nat) → (taken : Nat) → Production R σ → Except Error Nat × Production R σ
  | 0, _, p => (.error (.scriptTooLong p.stage.config.maxFrames.toNat p.stage.queued), p)
  | left + 1, taken, p =>
    match recordFrame p taken with
    | (.error e, p) => (.error e, p)
    | (.ok (), p) =>
      if p.stage.isSettled then (.ok (taken + 1), p) else recordFrames left (taken + 1) p

/-- Closes what is still open in the sound log at the end of the movie. -/
def closeSounds (s : Stage R) : Stage R :=
  { s with sounds := s.sounds.closeAll (s.config.rate.seconds s.frame) }

/-- What the sink is told about the movie. -/
def sinkConfig (s : Stage R) : SinkConfig := ⟨s.config.canvas.width, s.config.canvas.height, s.config.rate⟩

/-- Carries out the script into a sink, with the whole scene shifted down by `shiftY`. -/
def renderMovie (p : Production R σ) (shiftY : Int32) :
    Except Error (MovieStats R) × Production R σ :=
  let stage := p.stage.modifyNode Scene.root (·.setY shiftY)
  match Sink.start stage.sinkConfig p.recording with
  | (.error e, recording) => (.error e, ⟨stage, recording⟩)
  | (.ok (), recording) =>
    match recordFrames stage.config.maxFrames.toNat 0 ⟨stage, recording⟩ with
    | (.error e, p) => (.error e, { p with recording := (Sink.finish p.recording).2 })
    | (.ok frames, p) =>
      match Sink.finish p.recording with
      | (.error e, recording) => (.error e, { p with recording })
      | (.ok (), recording) =>
        (.ok ⟨frames, p.stage.config.rate.seconds frames⟩, ⟨p.stage.closeSounds, recording⟩)

end Stage

end Cutscene
