import Cutscene.Stage.Effects

/-!
# Steps of the stage

One step is one frame of the movie. In order: the head of the queue, the typewriter and the
directives it hands out, the text box, and the life of the nodes.

Models `Director.step` (SPEC_FULL.md, §2 and §4.4).
-/

namespace Cutscene.Stage

variable {R : Type} [Scalar R]

/-- Updates the head of the queue. -/
def stepQueue (s : Stage R) (dt : R) : Stage R :=
  let (_, queue, c) := s.queue.update dt s.context
  { s.withContext c with queue }

/-- Does what a page that has completed was loaded to do. -/
def complete (s : Stage R) : Option Completion → Stage R
  | none => s
  | some (.finish id) => { s with queue := s.queue.signal id }
  | some (.note text) => { s with notes := s.notes ++ [.plain text] }

/-- Updates the typewriter; gives the directives that it hands out. -/
def stepDialogue (s : Stage R) (dt : R) : List (Directive R) × Stage R :=
  let u := s.dialogue.update dt
  (u.fired, { s with dialogue := u.typewriter }.complete u.completed)

/--
The end of a step that did not fail. An action whose page has completed in this step is taken off
the queue before the step is over.
-/
def finishStep (s : Stage R) (dt : R) : Stage R :=
  { s with
    queue := s.queue.settle
    scene := (s.textBox.present s.dialogue s.scene).update dt
    frame := s.frame + 1 }

/-- One step. A step that fails is cut short, and the next one starts at the same time. -/
def step (s : Stage R) (disk : Disk) : Except Error Unit × Stage R :=
  let dt : R := s.config.rate.frameSeconds
  let s := { s with time := s.config.rate.seconds s.frame }
  let (fired, s) := (s.stepQueue dt).stepDialogue dt
  match s.applyAll disk fired with
  | (.ok (), s) => (.ok (), s.finishStep dt)
  | (.error e, s) => (.error e, s)

end Cutscene.Stage
