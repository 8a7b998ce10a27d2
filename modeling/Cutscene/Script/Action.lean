import Cutscene.Script.Context

/-!
# Actions

An action is an entry of the script. It is started once, when it comes to the head of the queue, and
then updated each frame until it has reported that it is done.

Models `Action`, `MoveAction`, `SetPositionAction` and `WaitAction` (SPEC_FULL.md, §4.2).
-/

namespace Cutscene

/-- A glide of a node to a position. -/
structure Move (R : Type) where
  node : NodeId
  target : Point
  duration : R
  ease : Ease R
  onComplete : Option (Callback R)
  /-- Where the node stood at the first update. -/
  origin : Option Point
  elapsed : R
  completed : Bool

/-- A jump of a node to a position. -/
structure Jump (R : Type) where
  node : NodeId
  target : Point
  onComplete : Option (Callback R)
  completed : Bool

/-- A pause. -/
structure Pause (R : Type) where
  duration : R
  elapsed : R
  onComplete : Option (Callback R)
  completed : Bool

/-- An entry of the script. -/
inductive Action (R : Type) where
  | move (m : Move R)
  | jump (j : Jump R)
  | pause (p : Pause R)
  /-- Changes the sprite of a node. -/
  | setSprite (node : NodeId) (sprite : Sprite R)
  /-- Runs a callback, once. -/
  | run (callback : Option (Callback R))
  /-- Shows a dialogue page and is done when the page completes. -/
  | page (page : Page) (speaker : Option String)

variable {R : Type} [Scalar R]

/-- Runs a callback, if there is one, and then reports the running action as done. -/
def Context.complete (c : Context R) (onComplete : Option (Callback R)) : Context R :=
  (match onComplete with
    | some f => f c
    | none => c).finishAction

namespace Move

/-- A move that has not begun. Its curve must arrive. -/
def create (node : NodeId) (target : Point) (duration : R) (ease : Ease R) : Except Error (Move R) := do
  ensurePositive "move duration" duration
  ease.ensureArrives
  .ok ⟨node, target, duration, ease, none, none, 0, false⟩

/-- A step. The move is done when the curve has arrived. -/
def update (m : Move R) (dt : R) (c : Context R) : Move R × Context R :=
  if m.completed then (m, c)
  else
    let origin := m.origin.getD (c.scene.node m.node).offset.xy
    let m := { m with origin := some origin, elapsed := m.elapsed + dt }
    let t := m.ease.apply (m.elapsed / m.duration)
    let c := c.modifyNode m.node fun n =>
      n.moveTo ⟨lerp origin.x m.target.x t, lerp origin.y m.target.y t⟩
    if 1 ≤ t then
      ({ m with completed := true, onComplete := none }, c.complete m.onComplete)
    else (m, c)

end Move

namespace Jump

def create (node : NodeId) (target : Point) : Jump R := ⟨node, target, none, false⟩

def update (j : Jump R) (c : Context R) : Jump R × Context R :=
  if j.completed then (j, c)
  else
    let c := c.modifyNode j.node fun n => n.moveTo j.target
    ({ j with completed := true, onComplete := none }, c.complete j.onComplete)

end Jump

namespace Pause

def create (duration : R) : Except Error (Pause R) := do
  ensurePositive "wait duration" duration
  .ok ⟨duration, 0, none, false⟩

/-- A step. The pause is done in the first one in which more than its duration has passed. -/
def update (p : Pause R) (dt : R) (c : Context R) : Pause R × Context R :=
  if p.completed then (p, c)
  else
    let p := { p with elapsed := p.elapsed + dt }
    if p.duration < p.elapsed then
      ({ p with completed := true, onComplete := none }, c.complete p.onComplete)
    else (p, c)

end Pause

namespace Action

/-- A short name. -/
def label : Action R → String
  | move _ => "move"
  | jump _ => "set_position"
  | pause _ => "wait"
  | setSprite _ _ => "set_sprite"
  | run _ => "run_callback"
  | page _ _ => "display_dialogue_page"

/--
What an action does when it comes to the head of the queue. A page takes the finisher along, to be
used when the page completes.
-/
def start (a : Action R) (c : Context R) : Context R :=
  match a with
  | page p speaker =>
    match c.takeFinisher with
    | (some id, c) => { c with dialogue := c.dialogue.load p speaker (.finish id) }
    | (none, c) => c
  | _ => c

/-- A step at the head of the queue. -/
def update (a : Action R) (dt : R) (c : Context R) : Action R × Context R :=
  match a with
  | move m =>
    let (m, c) := m.update dt c
    (move m, c)
  | jump j =>
    let (j, c) := j.update c
    (jump j, c)
  | pause p =>
    let (p, c) := p.update dt c
    (pause p, c)
  | setSprite node sprite => (a, (c.modifyNode node (·.setSprite sprite)).finishAction)
  | run (some f) => (run none, (f c).finishAction)
  | run none => (a, c)
  | page _ _ => (a, c)

end Action

end Cutscene
