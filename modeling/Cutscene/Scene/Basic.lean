import Cutscene.Error
import Cutscene.Scene.Node

/-!
# Scenes

A scene is a tree of nodes kept in one array. Node 0 is the root; it is there from the start, is never
painted and never moves to another parent. The tree is written down twice, as the parent of each node
and as the children of each node, and the changes below keep the two in agreement.

Models `SceneGraph` with `add`, `reparent`, `absolute_position`, `absolute_visibility` and
`shake_offset_chain` (SPEC_FULL.md, §3, §4.1 and §B.9).
-/

namespace Cutscene

/-- A tree of nodes. -/
structure Scene (R : Type) where
  nodes : Array (Node R)

namespace Scene

variable {R : Type} [Scalar R]

/-- The number of the root. -/
def root : NodeId := 0

/-- A scene with a root and nothing else. -/
def empty : Scene R := ⟨#[Node.group "Root"]⟩

/-- The number of nodes, the root included. -/
def size (s : Scene R) : Nat := s.nodes.size

def node (s : Scene R) (id : NodeId) : Node R := s.nodes[id]?.getD default

/-- Changes one node. -/
def modify (s : Scene R) (id : NodeId) (f : Node R → Node R) : Scene R := ⟨s.nodes.modify id f⟩

/-- Adds a node as the last child of a parent. It comes without children. -/
def add (s : Scene R) (parent : NodeId) (n : Node R) : NodeId × Scene R :=
  let id := s.size
  let grown : Scene R := ⟨s.nodes.push { n with parent := some parent, children := [] }⟩
  (id, grown.modify parent fun p => { p with children := p.children ++ [id] })

/-- A node and those above it, up to `fuel` of them. -/
def chainFrom (s : Scene R) : (fuel : Nat) → NodeId → List NodeId
  | 0, _ => []
  | fuel + 1, id =>
    match (s.node id).parent with
    | none => [id]
    | some p => id :: chainFrom s fuel p

/-- A node and those above it, the root last. -/
def chain (s : Scene R) (id : NodeId) : List NodeId := s.chainFrom s.size id

/--
Moves a node, with all below it, to the end of the children of another parent. The root cannot move
and no node can move below itself; then nothing changes.
-/
def reparent (s : Scene R) (id target : NodeId) : Except Error (Scene R) :=
  if id = root then .error .rootFixed
  else if (s.chain target).contains id then .error (.ownSubtree (s.node id).name)
  else
    let detached := match (s.node id).parent with
      | none => s
      | some old => s.modify old fun p => { p with children := p.children.filter (· ≠ id) }
    let attached := detached.modify target fun p => { p with children := p.children ++ [id] }
    .ok (attached.modify id fun n => { n with parent := some target })

/-! ## Along the chain -/

/-- The sum of the offsets of a node and those above it. -/
def absolutePosition (s : Scene R) (id : NodeId) : Offset :=
  (s.chain id).foldl (fun sum i => sum + (s.node i).offset) .zero

/-- Whether a node and those above it all are visible. -/
def absoluteVisibility (s : Scene R) (id : NodeId) : Bool :=
  (s.chain id).all fun i => (s.node i).visible

/-- The sum of the shakes of a node and those above it. -/
def absoluteDisplacement (s : Scene R) (id : NodeId) : Point :=
  (s.chain id).foldl (fun sum i => sum + (s.node i).displacement) .zero

end Scene

end Cutscene
