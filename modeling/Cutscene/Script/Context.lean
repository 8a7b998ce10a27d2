import Cutscene.Dialogue.TextBox
import Cutscene.Scene.Walk
import Cutscene.Sound.Log

/-!
# What actions work on

While an action runs it may change the scene, the dialogue and the audio log, and it holds a finisher:
the right to say, once, that it is done. A finisher can be given away, to a dialogue page or to a
named slot, and be used later.

Models `ActionCtx` with `take_finisher` and `action_finished`, and `ActionFinisher`: its `FinishQueue` is
the list `raised`.
-/

namespace Cutscene

/-- A queued action, by its number in the order of queueing. A finisher is the number it finishes. -/
abbrev ActionId := Nat

/-- What happens when a dialogue page completes. -/
inductive Completion where
  /-- The action of this number is done. -/
  | finish (id : ActionId)
  /-- A note is taken. -/
  | note (text : String)
deriving Repr, DecidableEq

/-- A line that a callback leaves for whoever runs the stage. -/
inductive Note (R : Type) where
  | plain (text : String)
  /-- A text with the time at which it was noted. -/
  | timed (text : String) (time : R)
deriving Repr, DecidableEq

/-- The state that actions and callbacks work on. -/
structure Context (R : Type) where
  scene : Scene R
  dialogue : Typewriter R Completion
  sounds : SoundLog R
  /-- The time at which the frame starts. -/
  time : R
  /-- The finisher of the running action, as long as nobody has taken it. -/
  finisher : Option ActionId
  /-- The numbers of the actions that were reported as done, oldest first. -/
  raised : List ActionId
  notes : List (Note R)
  /-- Finishers that were put aside, by slot. -/
  parked : List (String × ActionId)

/-- What an action does besides its own work. -/
abbrev Callback (R : Type) := Context R → Context R

namespace Context

variable {R : Type} [Scalar R]

/-- Reports an action as done. -/
def raise (c : Context R) (id : ActionId) : Context R := { c with raised := c.raised ++ [id] }

/-- Takes the finisher of the running action. -/
def takeFinisher (c : Context R) : Option ActionId × Context R :=
  (c.finisher, { c with finisher := none })

/-- Reports the running action as done, unless its finisher has been taken. -/
def finishAction (c : Context R) : Context R :=
  match c.finisher with
  | none => c
  | some id => { c with finisher := none }.raise id

def modifyNode (c : Context R) (id : NodeId) (f : Node R → Node R) : Context R :=
  { c with scene := c.scene.modify id f }

def note (c : Context R) (text : String) : Context R := { c with notes := c.notes ++ [.plain text] }

/-- Takes a note of the time as well. -/
def noteTime (c : Context R) (text : String) : Context R :=
  { c with notes := c.notes ++ [.timed text c.time] }

/-- Puts the finisher of the running action aside. -/
def park (c : Context R) (slot : String) : Context R :=
  match c.finisher with
  | none => c.note "no finisher"
  | some id =>
    { c with finisher := none, parked := (slot, id) :: c.parked.filter (·.1 ≠ slot) }

/-- Uses a finisher that was put aside. -/
def release (c : Context R) (slot : String) : Context R :=
  match c.parked.lookup slot with
  | none => c.note "nothing parked"
  | some id => { c with parked := c.parked.filter (·.1 ≠ slot) }.raise id

/-- Moves a node to another parent and notes how that went. -/
def reparent (c : Context R) (id target : NodeId) : Context R :=
  match c.scene.reparent id target with
  | .ok scene => { c with scene }.note "moved"
  | .error e => c.note e.display

end Context

end Cutscene
