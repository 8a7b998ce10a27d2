import Cutscene.Proofs.Asset.Growth
import Cutscene.Proofs.Scene.Change
import Cutscene.Proofs.Stage.Pages

/-!
# The scene of a new stage

A stage is made with the same nodes in the same places, whatever its art.

Results:
* `Scene.ofNodes`: a scene as the list of its nodes. `isTree_ofNodes`, `node_ofNodes`.
* `create_scene`, `create_node`: the nodes of a new stage.
* `create_root`: its library has the root that the config names.
-/

namespace Cutscene

variable {R : Type} [Scalar R]

namespace Scene

/-- The scene of some nodes, which are added one after another below their parents. -/
def ofNodes (nodes : List (NodeId × Node R)) : Scene R := nodes.foldl (fun s p => (s.add p.1 p.2).2) empty

/-- The parent, the name and the depth of a node that is added. -/
def part (p : NodeId × Node R) : NodeId × String × Int32 := (p.1, p.2.name, p.2.offset.z)

/-- Every parent comes before its children, the root before all. -/
def ParentsFirst (parents : List NodeId) : Prop := ∀ i (h : i < parents.length), parents[i] ≤ i

instance (parents : List NodeId) : Decidable (ParentsFirst parents) :=
  inferInstanceAs (Decidable (∀ i (h : i < parents.length), parents[i] ≤ i))

theorem ParentsFirst.of_append {parents : List NodeId} {p : NodeId} (h : ParentsFirst (parents ++ [p])) :
    ParentsFirst parents ∧ p ≤ parents.length := by
  refine ⟨fun i hi => ?_, ?_⟩
  · have hle := h i (by rw [List.length_append]; exact Nat.lt_add_right _ hi)
    rwa [List.getElem_append_left hi] at hle
  · have hle := h parents.length (by simp)
    rwa [List.getElem_concat_length rfl] at hle

theorem ofNodes_append (nodes : List (NodeId × Node R)) (p : NodeId × Node R) :
    ofNodes (nodes ++ [p]) = ((ofNodes nodes).add p.1 p.2).2 := by
  unfold ofNodes
  rw [List.foldl_append]
  rfl

theorem size_ofNodes (nodes : List (NodeId × Node R)) : (ofNodes nodes).size = nodes.length + 1 := by
  induction nodes using List.reverseRecOn with
  | nil => rfl
  | append_singleton nodes p ih =>
    rw [ofNodes_append, size_add, ih, List.length_append, List.length_singleton]

theorem add_ofNodes (nodes : List (NodeId × Node R)) (parent : NodeId) (n : Node R) :
    (ofNodes nodes).add parent n = (nodes.length + 1, ofNodes (nodes ++ [(parent, n)])) := by
  rw [ofNodes_append, ← size_ofNodes]
  rfl

theorem isTree_ofNodes {nodes : List (NodeId × Node R)} (h : ParentsFirst (nodes.map Prod.fst)) :
    (ofNodes nodes).IsTree := by
  induction nodes using List.reverseRecOn with
  | nil => exact IsTree.empty
  | append_singleton nodes p ih =>
    rw [List.map_append] at h
    obtain ⟨hbefore, hp⟩ := h.of_append
    rw [List.length_map] at hp
    rw [ofNodes_append]
    exact (ih hbefore).add (by rw [size_ofNodes]; exact Nat.lt_succ_of_le hp) p.2

/-- A node of the list has its place in the tree, and is as it was given besides. -/
theorem node_ofNodes {nodes : List (NodeId × Node R)} (h : ParentsFirst (nodes.map Prod.fst)) {i : Nat}
    (hi : i < nodes.length) :
    ∃ parent children, (ofNodes nodes).node (i + 1) = { nodes[i].2 with parent, children } := by
  induction nodes using List.reverseRecOn with
  | nil => exact absurd hi (Nat.not_lt_zero i)
  | append_singleton nodes p ih =>
    rw [List.map_append] at h
    obtain ⟨hbefore, hp⟩ := h.of_append
    rw [List.length_map] at hp
    rw [ofNodes_append, node_add (by rw [size_ofNodes]; exact Nat.lt_succ_of_le hp), size_ofNodes]
    rw [List.length_append, List.length_singleton] at hi
    rcases Nat.lt_or_eq_of_le (Nat.le_of_lt_succ hi) with hold | rfl
    · obtain ⟨parent, children, hnode⟩ := ih hbefore hold
      rw [List.getElem_append_left hold, if_neg (Nat.ne_of_lt (Nat.succ_lt_succ hold))]
      split_ifs with hparent
      · exact ⟨parent, _, by rw [← hparent, hnode]⟩
      · exact ⟨parent, children, hnode⟩
    · rw [if_pos rfl, List.getElem_concat_length rfl]
      exact ⟨_, _, rfl⟩

end Scene

namespace Stagehand

variable {h h' : Stagehand R}

theorem sprite_scene {path : String} {s : Sprite R} (hs : h.sprite path = .ok (s, h')) :
    h'.scene = h.scene := by
  obtain ⟨_, -, hs⟩ := bind_eq_ok_iff.mp hs
  cases hs
  rfl

omit [Scalar R] in
theorem font?_scene {path : Option String} {f : Option Font} (hf : h.font? path = .ok (f, h')) :
    h'.scene = h.scene := by
  cases path with
  | none =>
    cases hf
    rfl
  | some path =>
    obtain ⟨_, -, hf⟩ := bind_eq_ok_iff.mp hf
    cases hf
    rfl

theorem sprite_root {path : String} {s : Sprite R} (hs : h.sprite path = .ok (s, h')) :
    h'.assets.root = h.assets.root := by
  obtain ⟨_, hload, hs⟩ := bind_eq_ok_iff.mp hs
  cases hs
  exact (AssetLibrary.loadSprite_spec hload).1.root

omit [Scalar R] in
theorem font?_root {path : Option String} {f : Option Font} (hf : h.font? path = .ok (f, h')) :
    h'.assets.root = h.assets.root := by
  cases path with
  | none =>
    cases hf
    rfl
  | some path =>
    obtain ⟨_, hload, hf⟩ := bind_eq_ok_iff.mp hf
    cases hf
    exact AssetLibrary.loadFont_root hload

end Stagehand

/-- The cast of every stage. -/
def Cast.standing : Cast := ⟨1, 2, 3, 4, 5, 6, 9, 10, 8⟩

/-- The nodes of every stage from the first one behind the root: parents, names and depths. -/
def Cast.parts : List (NodeId × String × Int32) :=
  [(0, "Background", 0), (1, "Left Character", 1), (1, "Right Character", 2), (0, "Exclamation", 20),
    (0, "Flash", 30), (0, "Dialogue Box", 12), (6, "Dialogue Box Background", 10),
    (6, "Dialogue Box Arrow", 11), (6, "Dialogue Text", 12), (6, "Name Box Text", 12)]

/-- What a payload is, whatever its art. -/
inductive Payload.Kind where
  | none
  | sprite
  | text
  | fill
deriving DecidableEq

def Payload.kind : Payload R → Kind
  | none => .none
  | sprite _ _ _ => .sprite
  | text _ => .text
  | fill _ _ _ => .fill

/-- What the parts draw: the background, the stands, the box and the arrow sprites, the flash a
rectangle, and the last two texts. -/
def Cast.kinds : List Payload.Kind :=
  [.sprite, .sprite, .sprite, .none, .fill, .none, .sprite, .sprite, .text, .text]

omit [Scalar R] in
/-- The parts are ten, and parents come before their children. -/
theorem Cast.parts_spec {nodes : List (NodeId × Node R)} (h : nodes.map Scene.part = Cast.parts) :
    nodes.length = 10 ∧ Scene.ParentsFirst (nodes.map Prod.fst) := by
  have hparents : nodes.map Prod.fst = Cast.parts.map Prod.fst := by
    rw [← h, List.map_map]
    rfl
  constructor
  · rw [← List.length_map (f := Scene.part), h]
    rfl
  · rw [hparents]
    decide

namespace Stage

/-- The nodes of a new stage are its parts. Hidden are the exclamation, the flash and the arrow. -/
theorem create_scene {disk : Disk} {config : Config R} {s : Stage R} (h : create disk config = .ok s) :
    s.cast = Cast.standing ∧ ∃ nodes : List (NodeId × Node R), s.scene = Scene.ofNodes nodes ∧
      nodes.map Scene.part = Cast.parts ∧
      nodes.map (·.2.visible) = [true, true, true, false, false, true, true, false, true, true] ∧
      (∀ p ∈ nodes, p.2.timers = [] ∧ p.2.tween = none) ∧
      nodes.map (·.2.payload.kind) = Cast.kinds ∧
      s.textBox = ⟨s.cast.text, some s.cast.nametag, config.palette, .white⟩ := by
  obtain ⟨_, -, h⟩ := bind_eq_ok_iff.mp h
  obtain ⟨⟨cast, textBox, hand⟩, hbuild, h⟩ := bind_eq_ok_iff.mp h
  obtain ⟨i, -, h⟩ := bind_eq_ok_iff.mp h
  obtain ⟨painter, -, h⟩ := bind_eq_ok_iff.mp h
  cases h
  unfold Cast.build at hbuild
  simp -zeta only at hbuild
  extract_lets art at hbuild
  obtain ⟨⟨background, h₁⟩, hload, hbuild⟩ := bind_eq_ok_iff.mp hbuild
  have hscene₁ : h₁.scene = Scene.ofNodes [] := Stagehand.sprite_scene hload
  obtain ⟨⟨left, h₂⟩, hload, hbuild⟩ := bind_eq_ok_iff.mp hbuild
  have hscene₂ := Stagehand.sprite_scene hload
  obtain ⟨⟨right, h₃⟩, hload, hbuild⟩ := bind_eq_ok_iff.mp hbuild
  have hscene₃ := Stagehand.sprite_scene hload
  obtain ⟨⟨font, h₄⟩, hload, hbuild⟩ := bind_eq_ok_iff.mp hbuild
  have hscene₄ := Stagehand.font?_scene hload
  simp -zeta only at hbuild
  extract_lets next at hbuild
  have hname : ∃ nameFont h₅, h₅.scene = h₄.scene ∧
      next (nameFont, h₅) = .ok (cast, textBox, hand) := by
    cases hname : config.stage.nameFont with
    | none =>
      rw [hname] at hbuild
      exact ⟨_, _, rfl, hbuild⟩
    | some path =>
      rw [hname] at hbuild
      obtain ⟨⟨nameFont, h₅⟩, hload, hbuild⟩ := bind_eq_ok_iff.mp hbuild
      exact ⟨_, _, Stagehand.font?_scene hload, hbuild⟩
  obtain ⟨nameFont, h₅, hscene₅, hbuild⟩ := hname
  simp only [next] at hbuild
  obtain ⟨⟨box, h₆⟩, hload, hbuild⟩ := bind_eq_ok_iff.mp hbuild
  have hscene₆ := Stagehand.sprite_scene hload
  simp only at hbuild
  obtain ⟨⟨arrow, h₇⟩, hload, hbuild⟩ := bind_eq_ok_iff.mp hbuild
  have hscene₇ := Stagehand.sprite_scene hload
  cases hbuild
  simp only [Stagehand.add, hscene₁, Scene.add_ofNodes] at hscene₂
  simp only [Stagehand.add, hscene₁, hscene₂, Scene.add_ofNodes] at hscene₃
  simp only [Stagehand.add, hscene₁, hscene₃, Scene.add_ofNodes] at hscene₄
  simp only [Stagehand.add, hscene₅, hscene₄, Scene.add_ofNodes] at hscene₆
  simp only [Stagehand.add, hscene₅, hscene₄, hscene₆, Scene.add_ofNodes] at hscene₇
  simp only [Stagehand.add, hscene₁, hscene₂, hscene₃, hscene₄, hscene₅, hscene₇,
    Scene.add_ofNodes]
  refine ⟨rfl, _, rfl, rfl, rfl, ?_, rfl, trivial⟩
  simp [Stagehand.spriteNode, Node.placed, Node.hidden, Node.make, Node.group]

/-- The nodes of a new stage are at rest, and all but the exclamation, the flash and the arrow are shown. -/
theorem create_node {disk : Disk} {config : Config R} {s : Stage R} (h : create disk config = .ok s)
    {j : NodeId} (hj : j < 11) (hroot : j ≠ Scene.root) :
    (s.scene.node j).timers = [] ∧ (s.scene.node j).tween = none ∧
      (s.scene.node j).visible = (!([4, 5, 8].contains j)) ∧
      Cast.kinds[j - 1]? = some (s.scene.node j).payload.kind := by
  obtain ⟨-, nodes, hscene, hparts, hvisible, hquiet, hkinds, -⟩ := create_scene h
  obtain ⟨i, rfl⟩ := Nat.exists_eq_succ_of_ne_zero hroot
  obtain ⟨hlength, hfirst⟩ := Cast.parts_spec hparts
  have hi : i < nodes.length := hlength ▸ Nat.lt_of_succ_lt_succ hj
  obtain ⟨parent, children, hnode⟩ := Scene.node_ofNodes hfirst hi
  have hshown : (nodes.map (·.2.visible))[i]? = some nodes[i].2.visible := by simp [hi]
  have htable : ∀ k < 10, [true, true, true, false, false, true, true, false, true, true][k]? =
      some (!([4, 5, 8].contains (k + 1))) := by decide
  rw [hvisible, htable i (hlength ▸ hi)] at hshown
  have hkind : (nodes.map (·.2.payload.kind))[i]? = some nodes[i].2.payload.kind := by simp [hi]
  rw [hscene, hnode, ← hkinds]
  exact ⟨(hquiet _ (List.getElem_mem hi)).1, (hquiet _ (List.getElem_mem hi)).2,
    (Option.some.inj hshown).symm, hkind⟩

/-- What is loaded for a new stage is loaded from the same root. -/
theorem build_root {h h' : Stagehand R} {config : Config R} {cast : Cast} {textBox : TextBox}
    (hbuild : Cast.build h config = .ok (cast, textBox, h')) : h'.assets.root = h.assets.root := by
  unfold Cast.build at hbuild
  simp -zeta only at hbuild
  extract_lets art at hbuild
  obtain ⟨⟨background, h₁⟩, hload, hbuild⟩ := bind_eq_ok_iff.mp hbuild
  have hroot₁ := Stagehand.sprite_root hload
  obtain ⟨⟨left, h₂⟩, hload, hbuild⟩ := bind_eq_ok_iff.mp hbuild
  have hroot₂ := (Stagehand.sprite_root hload).trans hroot₁
  obtain ⟨⟨right, h₃⟩, hload, hbuild⟩ := bind_eq_ok_iff.mp hbuild
  have hroot₃ := (Stagehand.sprite_root hload).trans hroot₂
  obtain ⟨⟨font, h₄⟩, hload, hbuild⟩ := bind_eq_ok_iff.mp hbuild
  have hroot₄ := (Stagehand.font?_root hload).trans hroot₃
  simp -zeta only at hbuild
  extract_lets next at hbuild
  have hname : ∃ nameFont h₅, h₅.assets.root = h.assets.root ∧
      next (nameFont, h₅) = .ok (cast, textBox, h') := by
    cases hname : config.stage.nameFont with
    | none =>
      rw [hname] at hbuild
      exact ⟨_, _, hroot₄, hbuild⟩
    | some path =>
      rw [hname] at hbuild
      obtain ⟨⟨nameFont, h₅⟩, hload, hbuild⟩ := bind_eq_ok_iff.mp hbuild
      exact ⟨_, _, (Stagehand.font?_root hload).trans hroot₄, hbuild⟩
  obtain ⟨nameFont, h₅, hroot₅, hbuild⟩ := hname
  simp only [next] at hbuild
  obtain ⟨⟨box, h₆⟩, hload, hbuild⟩ := bind_eq_ok_iff.mp hbuild
  have hroot₆ := (Stagehand.sprite_root hload).trans hroot₅
  obtain ⟨⟨arrow, h₇⟩, hload, hbuild⟩ := bind_eq_ok_iff.mp hbuild
  have hroot₇ := (Stagehand.sprite_root hload).trans hroot₆
  cases hbuild
  exact hroot₇

/-- The library of a new stage has the root that the config names. -/
theorem create_root {disk : Disk} {config : Config R} {s : Stage R} (h : create disk config = .ok s) :
    s.assets.root = config.assetsRoot := by
  obtain ⟨_, -, h⟩ := bind_eq_ok_iff.mp h
  obtain ⟨⟨cast, textBox, hand⟩, hbuild, h⟩ := bind_eq_ok_iff.mp h
  obtain ⟨i, -, h⟩ := bind_eq_ok_iff.mp h
  obtain ⟨painter, -, h⟩ := bind_eq_ok_iff.mp h
  cases h
  exact build_root hbuild

end Stage

end Cutscene
