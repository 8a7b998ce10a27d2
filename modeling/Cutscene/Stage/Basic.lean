import Cutscene.Picture.Painter
import Cutscene.Script.Cue
import Cutscene.Script.Queue
import Cutscene.Stage.Cast

/-!
# The stage

A stage owns a scene with its cast, the queue of actions that the script asked for, the typewriter of
the dialogue and the log of sounds. Scripting only adds to the queue; frame by frame the stage then
carries the script out.

Models `Director` with `new`, `is_settled` and `render_frame` (SPEC_FULL.md, §4.4).
-/

namespace Cutscene

/-- A stage and all that happens on it. -/
structure Stage (R : Type) where
  config : Config R
  assets : AssetLibrary R
  scene : Scene R
  cast : Cast
  textBox : TextBox
  queue : ActionQueue R
  dialogue : Typewriter R Completion
  sounds : SoundLog R
  painter : Painter
  /-- How many steps have been made. -/
  frame : Nat
  /-- The time at which the last step started. -/
  time : R
  /-- What callbacks have noted. -/
  notes : List (Note R)
  /-- The finishers that callbacks have put aside. -/
  parked : List (String × ActionId)

namespace Stage

variable {R : Type} [Scalar R]

/-- A stage with all its art in place and nothing to do. -/
def create (disk : Disk) (config : Config R) : Except Error (Stage R) := do
  config.validate
  let (cast, textBox, hand) ← Cast.build ⟨disk, .create config.assetsRoot, .empty⟩ config
  let dialogue ← Typewriter.create config.pace
  let painter ← Painter.create config.canvas (some .black)
  .ok {
    config, assets := hand.assets, scene := hand.scene, cast, textBox, queue := .empty, dialogue,
    sounds := .empty, painter, frame := 0, time := 0, notes := [], parked := [] }

/-- How many actions are queued, the running one included. -/
def queued (s : Stage R) : Nat := s.queue.length

/-- Whether there is neither an action nor a page left. -/
def isSettled (s : Stage R) : Bool := s.queue.isEmpty && s.dialogue.isIdle

def modifyNode (s : Stage R) (id : NodeId) (f : Node R → Node R) : Stage R :=
  { s with scene := s.scene.modify id f }

/-- What actions work on. -/
def context (s : Stage R) : Context R where
  scene := s.scene
  dialogue := s.dialogue
  sounds := s.sounds
  time := s.time
  finisher := none
  raised := []
  notes := s.notes
  parked := s.parked

/-- Takes over what actions have changed. -/
def withContext (s : Stage R) (c : Context R) : Stage R :=
  { s with
    scene := c.scene, dialogue := c.dialogue, sounds := c.sounds, notes := c.notes, parked := c.parked }

/-- The frame that shows the scene as it stands. -/
def renderFrame (s : Stage R) : Except Error Frame × Stage R :=
  match s.painter.renderFrame s.scene with
  | (r, painter) => (r, { s with painter })

end Stage

end Cutscene
