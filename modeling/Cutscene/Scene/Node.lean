import Cutscene.Motion.Ease
import Cutscene.Scene.Offset
import Cutscene.Scene.Payload

/-!
# Nodes

A node of the scene has a place, a payload and a life of its own: `Node.tick` advances its clock,
its tween, its shake and its timers by one step.

Models `SceneNode` with `schedule`, `take_pending_sprite`, `start_shake`, `start_tween` and `tick`, and
its `NodeTimer`, `Shake` and `Tween` (SPEC_FULL.md, §3 and §B.9).
-/

namespace Cutscene

/-- A node of a scene, by its number in order of creation. -/
abbrev NodeId := Nat

/-- What a timer does when it is due. -/
inductive TimerEffect (R : Type) where
  | setSprite (s : Sprite R)
  | hide
  | appear

/-- A change that a node makes to itself once its time has run down. -/
structure Timer (R : Type) where
  remaining : R
  action : TimerEffect R

/-- A jitter of the painted position. -/
structure Shake (R : Type) where
  amplitude : Int32
  remaining : R
  /-- The steps taken so far. -/
  steps : Nat

/-- A glide between two positions. -/
structure Tween (R : Type) where
  origin : Point
  target : Point
  duration : R
  elapsed : R
  ease : Ease R

/-- A node of a scene. Its parent and children are kept by the scene. -/
structure Node (R : Type) where
  name : String
  /-- The position relative to the parent. -/
  offset : Offset
  /-- Whether the node itself is shown; a hidden node hides all below it. -/
  visible : Bool
  payload : Payload R
  parent : Option NodeId
  children : List NodeId
  /-- The time that an animated sprite is shown at. -/
  clock : R
  timers : List (Timer R)
  shake : Option (Shake R)
  tween : Option (Tween R)

/-- Where a shake displaces the painting: right, left, down and up in turn. -/
def Shake.displacement {R : Type} (s : Shake R) : Point :=
  match s.steps % 4 with
  | 0 => ⟨s.amplitude, 0⟩
  | 1 => ⟨-s.amplitude, 0⟩
  | 2 => ⟨0, s.amplitude⟩
  | _ => ⟨0, -s.amplitude⟩

/-- The position that a tween has come to, and whether it has arrived. -/
def Tween.position {R : Type} [Scalar R] (t : Tween R) : Point × Bool :=
  let progress := t.ease.apply (t.elapsed / t.duration)
  if 1 ≤ progress then (t.target, true)
  else (⟨lerp t.origin.x t.target.x progress, lerp t.origin.y t.target.y progress⟩, false)

namespace Node

variable {R : Type} [Scalar R]

/-- A visible node at the origin that draws nothing. -/
def group (name : String) : Node R :=
  ⟨name, .zero, true, .none, none, [], 0, [], none, none⟩

instance : Inhabited (Node R) := ⟨group ""⟩

/-- A node with a payload. -/
def make (name : String) (payload : Payload R) : Node R := { group name with payload }

def placed (n : Node R) (x y z : Int32) : Node R := { n with offset := ⟨x, y, z⟩ }

def hidden (n : Node R) : Node R := { n with visible := false }

/-! ## Changes -/

def appear (n : Node R) : Node R := { n with visible := true }

def hide (n : Node R) : Node R := { n with visible := false }

def setX (n : Node R) (x : Int32) : Node R := { n with offset := { n.offset with x } }

def setY (n : Node R) (y : Int32) : Node R := { n with offset := { n.offset with y } }

def setZ (n : Node R) (z : Int32) : Node R := { n with offset := { n.offset with z } }

def moveTo (n : Node R) (p : Point) : Node R := { n with offset := n.offset.withXY p }

def rename (n : Node R) (name : String) : Node R := { n with name }

def setPayload (n : Node R) (payload : Payload R) : Node R := { n with payload }

def mapRun (n : Node R) (f : TextRun → TextRun) : Node R := { n with payload := n.payload.mapRun f }

/-- Changes the sprite and starts its animation over. -/
def setSprite (n : Node R) (s : Sprite R) : Node R :=
  { n with payload := n.payload.setSprite s, clock := 0 }

/-- Has an action done after some time. -/
def schedule (n : Node R) (after : R) (action : TimerEffect R) : Node R :=
  { n with timers := n.timers ++ [⟨after, action⟩] }

/-- The sprites that timers are going to set, in order. -/
def pendingSprites (n : Node R) : List (Sprite R) :=
  n.timers.filterMap fun t => match t.action with
    | .setSprite s => some s
    | _ => none

/-- Takes away all timers that set a sprite. -/
def dropPendingSprites (n : Node R) : Node R :=
  { n with timers := n.timers.filter fun t => match t.action with
      | .setSprite _ => false
      | _ => true }

def startShake (n : Node R) (amplitude : Int32) (secs : R) : Node R :=
  { n with shake := some ⟨amplitude, secs, 0⟩ }

/-- Glides to a position; without a positive duration the node is there at once. -/
def startTween (n : Node R) (target : Point) (secs : R) (ease : Ease R) : Node R :=
  if 0 < secs then { n with tween := some ⟨n.offset.xy, target, secs, 0, ease⟩ }
  else { n.moveTo target with tween := none }

def isTweening (n : Node R) : Bool := n.tween.isSome

/-- The displacement of the painting by a shake. -/
def displacement (n : Node R) : Point := (n.shake.map Shake.displacement).getD .zero

/-! ## One step -/

def tickTween (n : Node R) (dt : R) : Node R :=
  match n.tween with
  | none => n
  | some t =>
    let t := { t with elapsed := t.elapsed + dt }
    let (p, arrived) := t.position
    { n.moveTo p with tween := if arrived then none else some t }

def tickShake (n : Node R) (dt : R) : Node R :=
  match n.shake with
  | none => n
  | some s =>
    let remaining := s.remaining - dt
    { n with shake := if remaining ≤ 0 then none else some { s with remaining, steps := s.steps + 1 } }

def perform (n : Node R) : TimerEffect R → Node R
  | .setSprite s => n.setSprite s
  | .hide => n.hide
  | .appear => n.appear

/-- Runs all timers down; those whose time is over act, in the order in which they were set. -/
def tickTimers (n : Node R) (dt : R) : Node R :=
  let timers := n.timers.map fun t => { t with remaining := t.remaining - dt }
  let due := timers.filter fun t => t.remaining ≤ 0
  let rest := timers.filter fun t => ¬ t.remaining ≤ 0
  due.foldl (fun n t => n.perform t.action) { n with timers := rest }

/-- A step of `dt` seconds. -/
def tick (n : Node R) (dt : R) : Node R :=
  (({ n with clock := n.clock + dt }.tickTween dt).tickShake dt).tickTimers dt

end Node

end Cutscene
