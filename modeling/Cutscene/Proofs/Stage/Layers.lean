import Cutscene.Proofs.Scene.PaintOrder
import Cutscene.Proofs.Stage.Staged

/-!
# The layers of the stage

A stage is made with ten nodes, and in a run that is handed no callbacks each of them keeps its name, its
place in the tree and its depth: what directives, actions, timers and tweens change is what a node shows,
where on the canvas, and whether it does. So the layers of every picture are the same, from the background
to the flash.

On `Cast.build` and `SceneGraph.paint_order` (SPEC_FULL.md, §B.11).

Results:
* `Scene.role_ofNodes`: the roles of nodes that are added one after another.
* `Scene.IsTree.drawItems_sublist`, `Paints.calls_prefix`: what is painted of a scene, and in which order.
* `Stage.create_role`, `Stage.create_behind`: the roles of the nodes of a new stage, and which is behind
  which.
* `fixed_layers`: the nodes of a stage stay in their roles, and its pictures are painted in layers.
-/

namespace Cutscene

variable {R : Type} [Scalar R]

namespace Scene

/-! ## The roles of a scene that is made -/

/-- The nodes below a node, of some that are added below these parents. -/
def childrenOf (parents : List NodeId) (id : NodeId) : List NodeId :=
  ((parents.zipIdx 1).filter fun p => p.1 = id).map Prod.snd

theorem childrenOf_append (parents : List NodeId) (p id : NodeId) :
    childrenOf (parents ++ [p]) id = childrenOf parents id ++ if id = p then [parents.length + 1] else [] := by
  unfold childrenOf
  rw [List.zipIdx_append, List.filter_append, List.map_append, List.zipIdx_singleton, Nat.add_comm 1]
  by_cases hp : p = id
  · simp [hp]
  · simp [hp, Ne.symm hp]

/-- A node has nothing below it when it comes in. -/
theorem childrenOf_length {parents : List NodeId} (h : ParentsFirst parents) :
    childrenOf parents (parents.length + 1) = [] := by
  unfold childrenOf
  rw [List.map_eq_nil_iff, List.filter_eq_nil_iff]
  intro p hp hparent
  obtain ⟨hle, hlt, hget⟩ := List.mem_zipIdx hp
  have hplace : p.2 - 1 < parents.length := by omega
  have hbefore := h _ hplace
  rw [← hget, of_decide_eq_true hparent] at hbefore
  exact Nat.not_succ_le_self _ (hbefore.trans (Nat.le_of_lt hplace))

/-- The role of a node, of some with these parents, names and depths. -/
def roleOf (parts : List (NodeId × String × Int32)) (id : NodeId) : Node.Role :=
  let children := childrenOf (parts.map Prod.fst) id
  match id with
  | 0 => ⟨"Root", none, children, 0⟩
  | i + 1 =>
    let (parent, name, depth) := parts.getD i default
    ⟨name, some parent, children, depth⟩

theorem roleOf_append (parts : List (NodeId × String × Int32)) (p : NodeId × String × Int32) {id : NodeId}
    (hid : id ≤ parts.length) :
    roleOf (parts ++ [p]) id = { roleOf parts id with
      children := (roleOf parts id).children ++ if id = p.1 then [parts.length + 1] else [] } := by
  cases id with
  | zero => simp [roleOf, childrenOf_append]
  | succ i => simp [roleOf, childrenOf_append, List.getElem?_append_left hid]

theorem roleOf_length {parts : List (NodeId × String × Int32)} {p : NodeId × String × Int32}
    (h : ParentsFirst (parts.map Prod.fst)) (hp : p.1 ≤ parts.length) :
    roleOf (parts ++ [p]) (parts.length + 1) = ⟨p.2.1, some p.1, [], p.2.2⟩ := by
  have hchildren := childrenOf_length h
  rw [List.length_map] at hchildren
  simp [roleOf, childrenOf_append, hchildren, Nat.ne_of_gt (Nat.lt_succ_of_le hp)]

theorem role_add {s : Scene R} {parent : NodeId} (h : parent < s.size) (n : Node R) (j : NodeId) :
    ((s.add parent n).2.node j).role =
      if j = s.size then ⟨n.name, some parent, [], n.offset.z⟩
      else { (s.node j).role with
        children := (s.node j).role.children ++ if j = parent then [s.size] else [] } := by
  rw [node_add h]
  split_ifs with _ hj
  · rfl
  · rw [hj]
    rfl
  · rw [List.append_nil]

theorem role_ofNodes {nodes : List (NodeId × Node R)} (h : ParentsFirst (nodes.map Prod.fst)) {id : NodeId}
    (hid : id ≤ nodes.length) : ((ofNodes nodes).node id).role = roleOf (nodes.map part) id := by
  induction nodes using List.reverseRecOn generalizing id with
  | nil =>
    obtain rfl := Nat.le_zero.mp hid
    rfl
  | append_singleton nodes p ih =>
    rw [List.map_append] at h
    obtain ⟨hbefore, hp⟩ := h.of_append
    rw [List.length_map] at hp
    have hfirst : ParentsFirst ((nodes.map part).map Prod.fst) := by
      rwa [List.map_map]
    have hlength : (nodes.map part).length = nodes.length := List.length_map _
    rw [ofNodes_append, role_add (by rw [size_ofNodes]; exact Nat.lt_succ_of_le hp), size_ofNodes,
      List.map_append, List.map_singleton]
    rw [List.length_append, List.length_singleton] at hid
    rcases Nat.lt_or_eq_of_le hid with hold | rfl
    · have hold := Nat.le_of_lt_succ hold
      rw [if_neg (Nat.ne_of_lt (Nat.lt_succ_of_le hold)), roleOf_append _ _ (hlength ▸ hold), ih hbefore hold,
        hlength]
      rfl
    · have hlast := roleOf_length hfirst (p := part p) (hlength ▸ hp)
      rw [hlength] at hlast
      rw [if_pos rfl, hlast]
      rfl

end Scene

namespace Scene

/-! ## What scenes of the same roles have in common -/

variable {s t : Scene R}

theorem SameRoles.depth (h : s.SameRoles t) (id : NodeId) : (t.node id).offset.z = (s.node id).offset.z :=
  congrArg Node.Role.depth (h.role id)

theorem SameRoles.behind (h : s.SameRoles t) {a b : NodeId} (hab : s.Behind a b) : t.Behind a b := by
  unfold Behind at hab ⊢
  rwa [h.depth, h.depth, h.links.subtree_eq]

/-! ## What is painted in layers -/

/-- What is painted of a scene are layers of it, in their order. -/
theorem IsTree.drawItems_sublist (h : s.IsTree) {layers : List NodeId} (hlayers : layers.Pairwise s.Behind)
    (hall : ∀ id < s.size, id ≠ root → id ∈ layers) :
    (s.drawItems.map DrawItem.name).Sublist (layers.map fun id => (s.node id).name) := by
  have hnames : s.drawItems.map DrawItem.name =
      (s.paintOrder.filter fun id => !(s.node id).payload.isNone).map fun id => (s.node id).name := by
    unfold drawItems
    rw [List.map_map]
    rfl
  rw [hnames]
  exact (List.filter_sublist.trans (h.paintOrder_sublist hlayers hall)).map _

end Scene

omit [Scalar R] in
/-- What a draw target is asked to paint are the first of the items. -/
theorem Paints.calls_prefix {σ : Type} [DrawTarget R σ] {items : List (DrawItem R)} {state last : σ}
    {calls : List (DrawItem R × Except Error Unit)} {outcome : Except Error Unit}
    (h : Paints items state calls outcome last) : calls.map Prod.fst <+: items := by
  induction h with
  | done => exact List.prefix_refl _
  | painted _ _ ih => exact List.prefix_cons_iff.mpr (.inr ⟨_, rfl, ih⟩)
  | refused _ => exact List.prefix_cons_iff.mpr (.inr ⟨_, rfl, List.nil_prefix⟩)

/-! ## The stage -/

/-- The nodes of every stage from back to front. -/
def Cast.layers : List NodeId := [1, 2, 3, 7, 8, 6, 9, 10, 4, 5]

/-- The names of the layers. -/
def Cast.layerNames : List String :=
  ["Background", "Left Character", "Right Character", "Dialogue Box Background", "Dialogue Box Arrow",
    "Dialogue Box", "Dialogue Text", "Name Box Text", "Exclamation", "Flash"]

namespace Stage

variable {s t : Stage R} {disk : Disk} {config : Config R}

theorem create_role (h : create disk config = .ok s) :
    s.scene.size = 11 ∧ ∀ id < 11, (s.scene.node id).role = Scene.roleOf Cast.parts id := by
  obtain ⟨-, nodes, hscene, hparts, -, -⟩ := create_scene h
  obtain ⟨hlength, hfirst⟩ := Cast.parts_spec hparts
  rw [hscene]
  refine ⟨by rw [Scene.size_ofNodes, hlength], fun id hid => ?_⟩
  rw [Scene.role_ofNodes hfirst (hlength ▸ Nat.le_of_lt_succ hid), hparts]

/-- The nodes of a new stage come in the recursive order of its tree. -/
theorem create_subtree (h : create disk config = .ok s) :
    s.scene.subtree Scene.root = [0, 1, 2, 3, 4, 5, 6, 7, 8, 9, 10] := by
  obtain ⟨hsize, hrole⟩ := create_role h
  have hsubtree : ∀ id < 11, s.scene.subtree id =
      id :: (Scene.roleOf Cast.parts id).children.flatMap s.scene.subtree := by
    intro id hid
    rw [(Staged.create h).tree.subtree_eq (hsize ▸ hid)]
    exact congrArg (fun role => id :: role.children.flatMap s.scene.subtree) (hrole id hid)
  have hleaf : ∀ id ∈ [2, 3, 4, 5, 7, 8, 9, 10], s.scene.subtree id = [id] := by
    intro id hid
    have hnone : ∀ id ∈ [2, 3, 4, 5, 7, 8, 9, 10],
        id < 11 ∧ (Scene.roleOf Cast.parts id).children = [] := by decide
    rw [hsubtree id (hnone id hid).1, (hnone id hid).2]
    rfl
  have hbackground : s.scene.subtree 1 = [1, 2, 3] := by
    rw [hsubtree 1 (by decide)]
    change 1 :: [2, 3].flatMap s.scene.subtree = _
    simp [hleaf]
  have hbox : s.scene.subtree 6 = [6, 7, 8, 9, 10] := by
    rw [hsubtree 6 (by decide)]
    change 6 :: [7, 8, 9, 10].flatMap s.scene.subtree = _
    simp [hleaf]
  rw [hsubtree Scene.root (by decide)]
  change 0 :: [1, 4, 5, 6].flatMap s.scene.subtree = _
  simp [hleaf, hbackground, hbox]

/-- Each layer of a new stage is behind those after it. -/
theorem create_behind (h : create disk config = .ok s) : Cast.layers.Pairwise s.scene.Behind := by
  have htable : Cast.layers.Pairwise fun a b => a < 11 ∧ b < 11 ∧
      ((Scene.roleOf Cast.parts a).depth < (Scene.roleOf Cast.parts b).depth ∨
        (Scene.roleOf Cast.parts a).depth = (Scene.roleOf Cast.parts b).depth ∧
          [0, 1, 2, 3, 4, 5, 6, 7, 8, 9, 10].idxOf a < [0, 1, 2, 3, 4, 5, 6, 7, 8, 9, 10].idxOf b) := by
    decide
  have hdepth : ∀ id < 11, (s.scene.node id).offset.z = (Scene.roleOf Cast.parts id).depth :=
    fun id hid => congrArg Node.Role.depth ((create_role h).2 id hid)
  refine htable.imp fun {a b} hab => ?_
  obtain ⟨ha, hb, hab⟩ := hab
  unfold Scene.Behind
  rwa [hdepth a ha, hdepth b hb, create_subtree h]

theorem create_names (h : create disk config = .ok s) :
    Cast.layers.map (fun id => (s.scene.node id).name) = Cast.layerNames := by
  have htable : ∀ id ∈ Cast.layers, id < 11 := by decide
  have hnames : ∀ id ∈ Cast.layers, (s.scene.node id).name = (Scene.roleOf Cast.parts id).name :=
    fun id hid => congrArg Node.Role.name ((create_role h).2 id (htable id hid))
  rw [List.map_congr_left hnames]
  rfl

/-- What stays as it was when the stage was made, and what is painted of it. -/
structure FixedLayers (s t : Stage R) : Prop where
  size : t.scene.size = s.scene.size
  name : ∀ id, (t.scene.node id).name = (s.scene.node id).name
  parent : ∀ id, (t.scene.node id).parent = (s.scene.node id).parent
  children : ∀ id, (t.scene.node id).children = (s.scene.node id).children
  depth : ∀ id, (t.scene.node id).offset.z = (s.scene.node id).offset.z
  /-- The items to paint are some of the layers, from back to front. -/
  items : (t.scene.drawItems.map DrawItem.name).Sublist Cast.layerNames
  /-- So are the items that a draw target is asked to paint, whatever it answers. -/
  calls : ∀ (σ : Type) [DrawTarget R σ] (state : σ), ∃ calls : List (DrawItem R × Except Error Unit),
    t.scene.render (⟨state, []⟩ : Overseen R σ) =
      ((t.scene.render state).1, ⟨(t.scene.render state).2, calls⟩) ∧
    (calls.map fun call => call.1.name).Sublist Cast.layerNames

/-- **The stage is fixed**, in every run that is handed no callbacks: nothing comes in or goes, and
nothing moves to another place in the tree or another depth. -/
theorem fixed_layers (h : create disk config = .ok s) {es : List (StageEvent R)}
    (hes : ∀ e ∈ es, e.Plain) : FixedLayers s (s.after es) := by
  have hstaged := Staged.create h
  have hroles := hstaged.sameRoles_after hes
  have hitems : ((s.after es).scene.drawItems.map DrawItem.name).Sublist Cast.layerNames := by
    have hall : ∀ id < (s.after es).scene.size, id ≠ Scene.root → id ∈ Cast.layers := by
      rw [(hstaged.after hes).size]
      decide
    have hbehind := (create_behind h).imp fun {_ _} hab => hroles.behind hab
    have hsublist := (hstaged.after hes).tree.drawItems_sublist hbehind hall
    have hnames : ∀ id, ((s.after es).scene.node id).name = (s.scene.node id).name :=
      fun id => congrArg Node.Role.name (hroles.role id)
    rwa [funext hnames, create_names h] at hsublist
  exact
    { size := hroles.size
      name := fun id => congrArg Node.Role.name (hroles.role id)
      parent := hroles.links.parent
      children := hroles.links.children
      depth := hroles.depth
      items := hitems
      calls := by
        intro σ _ state
        obtain ⟨calls, hpaints, hrender⟩ := paintItems_overseen (s.after es).scene.drawItems state []
        refine ⟨calls, hrender, List.Sublist.trans ?_ hitems⟩
        have hprefix := hpaints.calls_prefix.sublist.map DrawItem.name
        rwa [List.map_map] at hprefix }

/-- The dialogue box is given a picture and glides, a character jumps, and a page flashes. -/
def restlessRun : List (StageEvent Rat) :=
  [.write pixelDisk (.push (.setSprite 6 default)),
    .write pixelDisk (.push (.move ⟨6, ⟨3, 4⟩, 1, .linear, none, none, 0, false⟩)),
    .write pixelDisk (.push (.jump ⟨3, ⟨7, -7⟩, none, false⟩)),
    .write pixelDisk (.push (.page ⟨[.call ⟨"flash", ["1"]⟩, .text ⟨"a", []⟩]⟩ none))] ++
  List.replicate 5 (.step pixelDisk)

/-- At the end of the run the flash is there, and the dialogue box is painted itself. -/
theorem fixed_layers_restlessRun : ∃ s, create pixelDisk pixelConfig = .ok s ∧
    (∀ e ∈ restlessRun, e.Plain) ∧ FixedLayers s (s.after restlessRun) ∧
    let scene := (s.after restlessRun).scene
    (scene.node 6).offset = ⟨3, 4, 12⟩ ∧ (scene.node 3).offset = ⟨7, -7, 2⟩ ∧
      (scene.descendants.filter fun id => scene.absoluteVisibility id && !(scene.node id).payload.isNone) =
        [1, 2, 3, 5, 6, 7, 9, 10] := by
  have hplain : ∀ e ∈ restlessRun, e.Plain := by
    intro e he a ha
    simp only [restlessRun, List.cons_append, List.nil_append, List.mem_cons, List.mem_replicate] at he
    rcases he with rfl | rfl | rfl | rfl | ⟨-, rfl⟩ <;> cases ha <;> rfl
  obtain ⟨s, hs, hrun⟩ := exists_create pixelDisk pixelConfig
    (fun s => let scene := (s.after restlessRun).scene
      (scene.node 6).offset = ⟨3, 4, 12⟩ ∧ (scene.node 3).offset = ⟨7, -7, 2⟩ ∧
        (scene.descendants.filter fun id => scene.absoluteVisibility id && !(scene.node id).payload.isNone) =
          [1, 2, 3, 5, 6, 7, 9, 10]) (by decide +kernel)
  exact ⟨s, hs, hplain, fixed_layers hs hplain, hrun⟩

end Stage

end Cutscene
