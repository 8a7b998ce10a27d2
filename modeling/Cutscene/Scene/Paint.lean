import Cutscene.Scene.Walk

/-!
# What a scene paints

Nodes are painted in one order for the whole tree: by depth, and at equal depth as the walk comes to
them. `Scene.drawItems` is what is painted, and `Scene.render` hands it to a draw target.

Models `SceneGraph.paint_order`, `SceneGraph.render`, `DrawItem` and, as `DrawTarget`, `Compositor`
(SPEC_FULL.md, §4.1).
-/

namespace Cutscene

/-- One thing to paint. -/
structure DrawItem (R : Type) where
  node : NodeId
  name : String
  payload : Payload R
  /-- The position on the canvas, shakes included. -/
  position : Point
  /-- The time that an animated sprite is shown at. -/
  clock : R

/-- Something that paints. What it has painted stays painted when it refuses the next item. -/
class DrawTarget (R σ : Type) where
  draw : DrawItem R → σ → Except Error Unit × σ

namespace Scene

variable {R : Type} [Scalar R]

/-- The visible nodes in the order of painting. -/
def paintOrder (s : Scene R) : List NodeId :=
  (s.descendants.filter s.absoluteVisibility).mergeSort
    fun a b => (s.node a).offset.z ≤ (s.node b).offset.z

/-- What is painted for a node. -/
def drawItem (s : Scene R) (id : NodeId) : DrawItem R :=
  let n := s.node id
  ⟨id, n.name, n.payload, (s.absolutePosition id).xy + s.absoluteDisplacement id, n.clock⟩

/-- Everything that is painted, from back to front. -/
def drawItems (s : Scene R) : List (DrawItem R) :=
  (s.paintOrder.filter fun id => !(s.node id).payload.isNone).map s.drawItem

end Scene

/-- Paints items until one is refused. -/
def paintItems {R σ : Type} [DrawTarget R σ] : List (DrawItem R) → σ → Except Error Unit × σ
  | [], state => (.ok (), state)
  | item :: r, state =>
    match DrawTarget.draw item state with
    | (.ok (), state) => paintItems r state
    | (.error e, state) => (.error e, state)

/-- Paints a scene from back to front. -/
def Scene.render {R σ : Type} [Scalar R] [DrawTarget R σ] (s : Scene R) (state : σ) :
    Except Error Unit × σ :=
  paintItems s.drawItems state

end Cutscene
