import Cutscene.Proofs.Scene.Reparent

/-!
# Ticks in any order

A step of a scene ticks the nodes in the order of the walk, but no node looks at another one in its tick,
nor at its own place in the tree. So any other order leads to the same scene, as long as each node comes
once, and moves to other parents may come before the step as well as behind it.

On `SceneGraph.update`: update order and paint order are decoupled (SPEC_FULL.md, §4.1).

Results:
* `node_tickAll`: a node is ticked as often as it comes in the order.
* `Rehung`: what moves to other parents keep. `rehung_moveAll`.
* `IsTree.update_move`, `IsTree.update_moveAll`: a step and moves make the same of a scene in either order.
* `ticks_in_any_order`: what a step is, in every scene that a program can make.
-/

namespace Cutscene.Scene

variable {R : Type} [Scalar R] {s t u : Scene R} {id target : NodeId} {dt : R}

/-! ## One tick after another -/

theorem update_eq_tickAll (s : Scene R) (dt : R) : s.update dt = s.tickAll s.descendants dt := rfl

theorem node_tickAll (s : Scene R) (ids : List NodeId) (dt : R) (hid : id < s.size) :
    (s.tickAll ids dt).node id = (fun n => n.tick dt)^[ids.count id] (s.node id) :=
  s.node_foldl_modify ids _ hid

/-- In another order every node comes as often, so it is ticked as often. -/
theorem tickAll_perm (s : Scene R) {ids ids' : List NodeId} (h : ids.Perm ids') (dt : R) :
    s.tickAll ids dt = s.tickAll ids' dt := by
  refine eq_of_node ?_ fun id hid => ?_
  · rw [(s.sameRoles_tickAll ids dt).size, (s.sameRoles_tickAll ids' dt).size]
  · rw [(s.sameRoles_tickAll ids' dt).size] at hid
    rw [s.node_tickAll ids dt hid, s.node_tickAll ids' dt hid, h.count_eq]

/-- The walk does not come to the root. -/
theorem IsTree.node_update_root (h : s.IsTree) (dt : R) : (s.update dt).node root = s.node root := by
  have hroot : root ∉ s.descendants := fun hmem => (h.mem_descendants_iff.mp hmem).2 rfl
  rw [update_eq_tickAll, s.node_tickAll _ _ h.size_pos, List.count_eq_zero_of_not_mem hroot]
  rfl

/-! ## Moves to other parents -/

/-- Asks for a move to another parent; the scene stays when it is refused. -/
def move (s : Scene R) (m : NodeId × NodeId) : Scene R :=
  match s.reparent m.1 m.2 with
  | .ok t => t
  | .error _ => s

/-- Asks for some moves, one after another. -/
def moveAll (s : Scene R) (moves : List (NodeId × NodeId)) : Scene R := moves.foldl move s

/-- The second scene is a tree of the nodes of the first one, in other places. -/
structure Rehung (s t : Scene R) : Prop where
  size : t.size = s.size
  tree : t.IsTree
  node : ∀ id, (t.node id).unlinked = (s.node id).unlinked

theorem Rehung.trans (h : s.Rehung t) (h' : t.Rehung u) : s.Rehung u where
  size := h'.size.trans h.size
  tree := h'.tree
  node id := (h'.node id).trans (h.node id)

theorem IsTree.rehung_move (h : s.IsTree) {m : NodeId × NodeId} (hid : m.1 < s.size) (htarget : m.2 < s.size) :
    s.Rehung (s.move m) := by
  unfold move
  cases hok : s.reparent m.1 m.2 with
  | error e => exact ⟨rfl, h, fun _ => rfl⟩
  | ok t =>
    obtain ⟨old, hold⟩ := h.exists_parent m.1 hid (reparent_spec h hid htarget hok).2.1
    refine ⟨(reparent_spec h hid htarget hok).1, h.reparent hid htarget hok, fun id => ?_⟩
    rw [h.node_reparent hid htarget hold hok]
    rfl

theorem IsTree.rehung_moveAll (h : s.IsTree) {moves : List (NodeId × NodeId)}
    (hmoves : ∀ m ∈ moves, m.1 < s.size ∧ m.2 < s.size) : s.Rehung (s.moveAll moves) := by
  unfold moveAll
  induction moves generalizing s with
  | nil => exact ⟨rfl, h, fun _ => rfl⟩
  | cons m r ih =>
    obtain ⟨hm, hr⟩ := List.forall_mem_cons.mp hmoves
    have hfirst := h.rehung_move hm.1 hm.2
    exact hfirst.trans (ih hfirst.tree (by rwa [hfirst.size]))

/-- Wherever a node is, it is ticked as often as it comes in the order. -/
theorem Rehung.unlinked_tickAll (hst : s.Rehung t) (ids : List NodeId) (dt : R) (hid : id < s.size) :
    ((t.tickAll ids dt).node id).unlinked = ((s.tickAll ids dt).node id).unlinked := by
  have hticks : Function.Semiconj Node.unlinked (fun n : Node R => n.tick dt) fun n => n.tick dt :=
    fun n => n.unlinked_tick dt
  rw [t.node_tickAll ids dt (hst.size ▸ hid), s.node_tickAll ids dt hid, (hticks.iterate_right _).eq,
    (hticks.iterate_right _).eq, hst.node]

/-! ## A step and a move -/

/-- A move makes of each node what it would have made of it before the step. -/
theorem IsTree.update_of_reparent (h : s.IsTree) (hid : id < s.size) (htarget : target < s.size)
    (hok : s.reparent id target = .ok t) (hok' : (s.update dt).reparent id target = .ok u) :
    t.update dt = u := by
  have hlinks := s.sameLinks_update dt
  have h' : (s.update dt).IsTree := h.congr hlinks
  have hid' : id < (s.update dt).size := hlinks.size ▸ hid
  have htarget' : target < (s.update dt).size := hlinks.size ▸ htarget
  obtain ⟨hsize, hroot, -⟩ := reparent_spec h hid htarget hok
  obtain ⟨hsize', -⟩ := reparent_spec h' hid' htarget' hok'
  obtain ⟨old, hold⟩ := h.exists_parent id hid hroot
  have hnode := h.node_reparent hid htarget hold hok
  have hnode' := h'.node_reparent hid' htarget' ((hlinks.parent id).trans hold) hok'
  have ht : t.IsTree := h.reparent hid htarget hok
  refine (eq_of_node ?_ fun j hj => ?_).symm
  · rw [(t.sameLinks_update dt).size, hsize, hsize', hlinks.size]
  · rw [(t.sameLinks_update dt).size, hsize] at hj
    rw [hnode', hlinks.parent, hlinks.children]
    by_cases hj0 : j = root
    · rw [hj0, ht.node_update_root, h.node_update_root, hnode]
    · rw [ht.node_update (hsize ▸ hj) hj0, h.node_update hj hj0, hnode]
      exact ((s.node j).tick_relinked _ _ dt).symm

/-- After a step the same moves are refused. -/
theorem IsTree.reparent_update_eq_error_iff (h : s.IsTree) (hid : id < s.size) (htarget : target < s.size)
    (dt : R) : (∃ e, (s.update dt).reparent id target = .error e) ↔ ∃ e, s.reparent id target = .error e := by
  have hlinks := s.sameLinks_update dt
  rw [(h.congr hlinks).reparent_eq_error_iff (hlinks.size ▸ hid) (hlinks.size ▸ htarget),
    h.reparent_eq_error_iff hid htarget, hlinks.subtree_eq]

theorem IsTree.update_move (h : s.IsTree) {m : NodeId × NodeId} (hid : m.1 < s.size) (htarget : m.2 < s.size)
    (dt : R) : (s.move m).update dt = (s.update dt).move m := by
  have hrefused := h.reparent_update_eq_error_iff hid htarget dt
  unfold move
  cases hok : s.reparent m.1 m.2 with
  | error e =>
    obtain ⟨e', he'⟩ := hrefused.mpr ⟨e, hok⟩
    rw [he']
  | ok t =>
    cases hok' : (s.update dt).reparent m.1 m.2 with
    | error e' =>
      obtain ⟨e, he⟩ := hrefused.mp ⟨e', hok'⟩
      rw [hok] at he
      cases he
    | ok u => exact h.update_of_reparent hid htarget hok hok'

theorem IsTree.update_moveAll (h : s.IsTree) {moves : List (NodeId × NodeId)}
    (hmoves : ∀ m ∈ moves, m.1 < s.size ∧ m.2 < s.size) (dt : R) :
    (s.moveAll moves).update dt = (s.update dt).moveAll moves := by
  unfold moveAll
  induction moves generalizing s with
  | nil => rfl
  | cons m r ih =>
    obtain ⟨hm, hr⟩ := List.forall_mem_cons.mp hmoves
    have hfirst := h.rehung_move hm.1 hm.2
    rw [List.foldl_cons, List.foldl_cons, ← h.update_move hm.1 hm.2]
    exact ih hfirst.tree (by rwa [hfirst.size])

/-! ## What a step is -/

/-- Every node but the root comes once. -/
def ListsOnce (s : Scene R) (ids : List NodeId) : Prop :=
  ∀ id, ids.count id = if id < s.size ∧ id ≠ root then 1 else 0

theorem IsTree.listsOnce_descendants (h : s.IsTree) : s.ListsOnce s.descendants := by
  intro id
  split_ifs with hid
  · exact List.count_eq_one_of_mem h.nodup_descendants (h.mem_descendants_iff.mpr hid)
  · exact List.count_eq_zero_of_not_mem fun hmem => hid (h.mem_descendants_iff.mp hmem)

/-- What a step makes of a scene, and that it may be made in any order. -/
structure StepLaw (s : Scene R) (dt : R) : Prop where
  /-- Every node but the root is ticked once. -/
  node : ∀ id < s.size, id ≠ root → (s.update dt).node id = (s.node id).tick dt
  node_root : (s.update dt).node root = s.node root
  /-- The names and the tree stay. -/
  size : (s.update dt).size = s.size
  name : ∀ id, ((s.update dt).node id).name = (s.node id).name
  parent : ∀ id, ((s.update dt).node id).parent = (s.node id).parent
  children : ∀ id, ((s.update dt).node id).children = (s.node id).children
  /-- An order in which every node but the root comes once leads to the same scene. -/
  any_order : ∀ ids, s.ListsOnce ids → s.tickAll ids dt = s.update dt
  /-- So it does after moves to other parents, but for these; refused ones count for nothing. -/
  after_moves : ∀ moves : List (NodeId × NodeId), (∀ m ∈ moves, m.1 < s.size ∧ m.2 < s.size) →
    ∀ ids, s.ListsOnce ids → ∀ id < s.size,
      (((s.moveAll moves).tickAll ids dt).node id).unlinked = ((s.update dt).node id).unlinked
  /-- The step behind the moves leads to the same scene as the moves behind the step. -/
  moves : ∀ moves : List (NodeId × NodeId), (∀ m ∈ moves, m.1 < s.size ∧ m.2 < s.size) →
    (s.moveAll moves).update dt = (s.update dt).moveAll moves

/-- **The order of the ticks does not matter**: a step ticks every node but the root once and leaves the
tree and the names as they are, and so does every other order, before moves to other parents and after. -/
theorem ticks_in_any_order (hs : s.Reachable) (dt : R) : s.StepLaw dt :=
  have h := hs.isTree
  have hroles := s.sameRoles_update dt
  have hperm {ids : List NodeId} (hids : s.ListsOnce ids) : ids.Perm s.descendants :=
    List.perm_iff_count.mpr fun id => (hids id).trans (h.listsOnce_descendants id).symm
  { node := fun id hid hroot => h.node_update hid hroot dt
    node_root := h.node_update_root dt
    size := hroles.size
    name := fun id => congrArg Node.Role.name (hroles.role id)
    parent := hroles.links.parent
    children := hroles.links.children
    any_order := fun ids hids => s.tickAll_perm (hperm hids) dt
    after_moves := by
      intro moves hmoves ids hids id hid
      rw [(h.rehung_moveAll hmoves).unlinked_tickAll ids dt hid, s.tickAll_perm (hperm hids) dt]
      rfl
    moves := fun moves hmoves => h.update_moveAll hmoves dt }

/-- A lamp that goes out, and a box that glides, with a lid on it. -/
def workshop : Scene Rat :=
  let lamp := (empty.add root ((Node.group "Lamp").schedule 1 .hide)).2
  let box := (lamp.add root ((Node.group "Box").startTween ⟨10, 0⟩ 2 .linear)).2
  (box.add 2 (Node.group "Lid")).2

/-- The lid is ticked before the box that it lies on. After the moves the box lies on the lid, and the lid on
the lamp; the last one is refused. -/
theorem ticks_in_any_order_workshop : workshop.Reachable ∧ workshop.StepLaw 1 ∧
    workshop.tickAll [3, 1, 2] 1 = workshop.update 1 ∧
    (workshop.moveAll [(3, 1), (2, 3), (1, 2)]).descendants = [1, 3, 2] ∧
    (((workshop.moveAll [(3, 1), (2, 3), (1, 2)]).update 1).node 1).visible = false ∧
    (((workshop.moveAll [(3, 1), (2, 3), (1, 2)]).update 1).node 2).offset = ⟨5, 0, 0⟩ := by
  have hworkshop : workshop.Reachable :=
    ((Reachable.empty.add (by decide) _).add (by decide) _).add (by decide) _
  have hlaw := ticks_in_any_order hworkshop 1
  have hlists : workshop.ListsOnce [3, 1, 2] := by
    have hperm : [3, 1, 2].Perm workshop.descendants := by decide
    exact fun id => (hperm.count_eq id).trans (hworkshop.isTree.listsOnce_descendants id)
  refine ⟨hworkshop, hlaw, hlaw.any_order _ hlists, by decide, ?_, ?_⟩
  · rw [hlaw.moves _ (by decide)]
    decide +kernel
  · rw [hlaw.moves _ (by decide)]
    decide +kernel

end Cutscene.Scene
