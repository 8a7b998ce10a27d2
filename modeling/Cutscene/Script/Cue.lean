import Cutscene.Script.Context

/-!
# Cues

A cue is a single thing that a callback does. A list of cues, carried out in order, is a callback.

The callbacks that `Director.show_text_box`, `start_music`, `play_sound` and their like queue are cues.
-/

namespace Cutscene

/-- One thing that a callback does. -/
inductive Cue (R : Type) where
  /-- Takes a note with the time. -/
  | log (text : String)
  | show (node : NodeId)
  | hide (node : NodeId)
  | setX (node : NodeId) (x : Int32)
  | setY (node : NodeId) (y : Int32)
  | setZ (node : NodeId) (z : Int32)
  | shake (node : NodeId) (amplitude : Int32) (secs : R)
  | tween (node : NodeId) (target : Point) (secs : R) (ease : Ease R)
  | schedule (node : NodeId) (secs : R) (action : TimerEffect R)
  | setSprite (node : NodeId) (sprite : Sprite R)
  | setPayload (node : NodeId) (payload : Payload R)
  | reparent (node target : NodeId)
  | play (path : String)
  | startChannel (channel : Channel) (path : String) (delay : Option R) (repetition : Repetition)
  | stopChannel (channel : Channel)
  | closeAll
  /-- Reports the running action as done. -/
  | finish
  /-- Puts the finisher of the running action aside. -/
  | park (slot : String)
  /-- Takes the finisher of the running action and never uses it. -/
  | drop
  /-- Uses a finisher that was put aside. -/
  | release (slot : String)
  /-- Loads a page, whose completion is noted. -/
  | load (page : Page) (speaker : Option String) (tag : String)
  | setSpeaker (name : String)

/-- What is noted when a page that was loaded under a tag completes. -/
def Completion.done (tag : String) : Completion := .note ("done " ++ tag)

variable {R : Type} [Scalar R]

/-- Carries out a cue. -/
def Cue.perform (cue : Cue R) (c : Context R) : Context R :=
  match cue with
  | log text => c.noteTime text
  | .show node => c.modifyNode node Node.appear
  | hide node => c.modifyNode node Node.hide
  | setX node x => c.modifyNode node (·.setX x)
  | setY node y => c.modifyNode node (·.setY y)
  | setZ node z => c.modifyNode node (·.setZ z)
  | shake node amplitude secs => c.modifyNode node (·.startShake amplitude secs)
  | tween node target secs ease => c.modifyNode node (·.startTween target secs ease)
  | schedule node secs action => c.modifyNode node (·.schedule secs action)
  | setSprite node sprite => c.modifyNode node (·.setSprite sprite)
  | setPayload node payload => c.modifyNode node (·.setPayload payload)
  | reparent node target => c.reparent node target
  | play path => { c with sounds := c.sounds.play path c.time }
  | startChannel channel path delay repetition =>
    { c with sounds := c.sounds.startChannel channel path c.time delay repetition }
  | stopChannel channel => { c with sounds := c.sounds.stopChannel channel c.time }
  | closeAll => { c with sounds := c.sounds.closeAll c.time }
  | finish => c.finishAction
  | park slot => c.park slot
  | drop => c.takeFinisher.2
  | release slot => c.release slot
  | load page speaker tag => { c with dialogue := c.dialogue.load page speaker (.done tag) }
  | setSpeaker name => { c with dialogue := c.dialogue.setSpeaker name }

/-- Carries out cues in order. -/
def Cue.performAll (cues : List (Cue R)) : Callback R := fun c => cues.foldl (fun c cue => cue.perform c) c

end Cutscene
