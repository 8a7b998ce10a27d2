import Cutscene.Scene.Basic

/-!
# Walks through a scene

The nodes of a scene are visited with a stack of nodes still to come: the next node is taken off and
its children are put on. A parent so comes before its children, and siblings come in order.

Models `SceneGraph.descendants`, `find`, `update` and `hierarchy` (SPEC_FULL.md, §4.1 and §B.9).
-/

namespace Cutscene.Scene

variable {R : Type} [Scalar R]

/-- Visits the nodes on the stack and all below them; at most `fuel` nodes. -/
def walk (s : Scene R) : (fuel : Nat) → (stack : List NodeId) → List NodeId
  | 0, _ => []
  | _ + 1, [] => []
  | fuel + 1, id :: stack => id :: walk s fuel ((s.node id).children ++ stack)

/-- All nodes but the root, each before those below it. -/
def descendants (s : Scene R) : List NodeId := s.walk s.size (s.node root).children

/-- The first node of a name, the root included. -/
def find? (s : Scene R) (name : String) : Option NodeId :=
  (root :: s.descendants).find? fun id => (s.node id).name = name

/-- Advances every node but the root by one step. -/
def update (s : Scene R) (dt : R) : Scene R :=
  s.descendants.foldl (fun s id => s.modify id fun n => n.tick dt) s

/-! ## Outline -/

/-- The line of a node in the outline. -/
def outlineLine (depth : Nat) (n : Node R) : String :=
  String.ofList (List.replicate depth '\t') ++ "\"" ++ n.name ++ "\" (" ++ toString n.offset.x.toInt ++
    ", " ++ toString n.offset.y.toInt ++ ", " ++ toString n.offset.z.toInt ++ ")" ++
    if n.visible then "" else " [hidden]"

/-- The lines of the nodes on the stack and all below them, indented by their depths. -/
def outlineFrom (s : Scene R) : (fuel : Nat) → (stack : List (NodeId × Nat)) → List String
  | 0, _ => []
  | _ + 1, [] => []
  | fuel + 1, (id, depth) :: stack =>
    let n := s.node id
    outlineLine depth n :: outlineFrom s fuel (n.children.map (·, depth + 1) ++ stack)

/-- The tree, a line for each node. -/
def outline (s : Scene R) : String :=
  String.join ((s.outlineFrom s.size [(root, 0)]).map (· ++ "\n"))

end Cutscene.Scene
