import Cutscene.Proofs.Scene.PaintOrder

/-!
# What is hidden is not seen

What is hidden takes part in the walk, and its depth could take part in the sort, its offset and its shake
in the sums along the ways up. None of it does: hidden nodes are left out before the sort, and no way up
from a node that is shown leads through one of them.

On `SceneGraph.absolute_visibility` and `render` (SPEC_FULL.md, §3 and §8).

Results:
* `ChangedBelow`: changes of a node and of what is below it that leave the tree as it is.
  `ChangedBelow.modify`: they are made node by node.
* `IsTree.absoluteVisibility_of_mem_subtree`: what is below a hidden node is hidden.
* `ChangedBelow.node_of_not_mem`: the ways up from elsewhere are as before.
* `ChangedBelow.paintOrder_eq`, `ChangedBelow.drawItems_eq`: so is what is painted, if the node is hidden.
* `hidden_subtree_unseen`: what changes of a hidden part of a scene come to.
-/

namespace Cutscene.Scene

variable {R : Type} [Scalar R] {s t : Scene R} {id j : NodeId}

/-- The second scene is the first one with other nodes at and below one of its nodes, in the same places of
the tree. That node itself is switched on or off as it was. -/
structure ChangedBelow (s t : Scene R) (id : NodeId) : Prop where
  links : s.SameLinks t
  visible : (t.node id).visible = (s.node id).visible
  outside : ∀ j, j ∉ s.subtree id → t.node j = s.node j

theorem ChangedBelow.refl (s : Scene R) (id : NodeId) : s.ChangedBelow s id where
  links := (SameRoles.refl s).links
  visible := rfl
  outside _ _ := rfl

/-- One more node may be changed. -/
theorem ChangedBelow.modify (hst : s.ChangedBelow t id) (hj : j ∈ s.subtree id) {f : Node R → Node R}
    (hlinks : Node.KeepsLinks f) (hvisible : j = id → ∀ n, (f n).visible = n.visible) :
    s.ChangedBelow (t.modify j f) id where
  links := hst.links.trans (t.sameLinks_modify j hlinks)
  visible := by
    rw [node_modify]
    split_ifs with hid
    · rw [hvisible hid.1.symm, ← hid.1, hst.visible]
    · exact hst.visible
  outside k hk := by
    have hne : k ≠ j := fun hkj => hk (hkj ▸ hj)
    rw [node_modify_of_ne hne, hst.outside k hk]

/-! ## Along the ways up -/

/-- What is below a hidden node is hidden. -/
theorem IsTree.absoluteVisibility_of_mem_subtree (h : s.IsTree) (hid : id < s.size)
    (hhidden : s.absoluteVisibility id = false) (hj : j ∈ s.subtree id) : s.absoluteVisibility j = false := by
  obtain ⟨k, hk, hoff⟩ := List.all_eq_false.mp hhidden
  obtain ⟨hlt, hchain⟩ := (h.mem_subtree_iff hid).mp hj
  exact List.all_eq_false.mpr ⟨k, h.mem_chain_trans hlt hk hchain, hoff⟩

theorem IsTree.not_mem_subtree_of_shown (h : s.IsTree) (hid : id < s.size)
    (hhidden : s.absoluteVisibility id = false) (hj : j ∈ s.descendants.filter s.absoluteVisibility) :
    j < s.size ∧ j ∉ s.subtree id := by
  obtain ⟨hmem, hshown⟩ := List.mem_filter.mp hj
  refine ⟨(h.mem_descendants_iff.mp hmem).1, fun hbelow => ?_⟩
  rw [h.absoluteVisibility_of_mem_subtree hid hhidden hbelow] at hshown
  cases hshown

/-- A node is shown or hidden by what is switched on and off on its way up. -/
theorem SameLinks.absoluteVisibility_eq (hst : s.SameLinks t)
    (h : ∀ k ∈ s.chain j, (t.node k).visible = (s.node k).visible) :
    t.absoluteVisibility j = s.absoluteVisibility j := by
  unfold absoluteVisibility
  rw [hst.chain_eq, Bool.eq_iff_iff, List.all_eq_true, List.all_eq_true]
  exact forall₂_congr fun k hk => by rw [h k hk]

namespace ChangedBelow

variable (hst : s.ChangedBelow t id) (h : s.IsTree) (hid : id < s.size)

include hst h hid

/-- The node is hidden just if it was: the nodes above it are as they were. -/
theorem absoluteVisibility_eq : t.absoluteVisibility id = s.absoluteVisibility id := by
  refine hst.links.absoluteVisibility_eq fun k hk => ?_
  by_cases hkid : k = id
  · rw [hkid, hst.visible]
  · rw [hst.outside k fun hmem => hkid ?_]
    exact h.eq_of_mem_chain_of_mem_chain hid hk ((h.mem_subtree_iff hid).mp hmem).2

/-- No way up from elsewhere leads through a node that is changed. -/
theorem node_of_not_mem (hj : j < s.size) (hout : j ∉ s.subtree id) : ∀ k ∈ s.chain j, t.node k = s.node k := by
  intro k hk
  refine hst.outside k fun hmem => hout ((h.mem_subtree_iff hid).mpr ⟨hj, ?_⟩)
  exact h.mem_chain_trans hj ((h.mem_subtree_iff hid).mp hmem).2 hk

theorem drawItem_eq (hj : j < s.size) (hout : j ∉ s.subtree id) : t.drawItem j = s.drawItem j := by
  have hnode := hst.node_of_not_mem h hid hj hout
  have hposition : t.absolutePosition j = s.absolutePosition j := by
    unfold absolutePosition
    rw [hst.links.chain_eq]
    exact List.foldl_ext _ _ _ fun sum k hk => by rw [hnode k hk]
  have hdisplacement : t.absoluteDisplacement j = s.absoluteDisplacement j := by
    unfold absoluteDisplacement
    rw [hst.links.chain_eq]
    exact List.foldl_ext _ _ _ fun sum k hk => by rw [hnode k hk]
  unfold drawItem
  rw [hposition, hdisplacement, hst.outside j hout]

variable (hhidden : s.absoluteVisibility id = false)

include hhidden

/-- Each node is shown just if it was. -/
theorem shown_eq (hj : j < s.size) : t.absoluteVisibility j = s.absoluteVisibility j := by
  by_cases hmem : j ∈ s.subtree id
  · have ht : t.IsTree := h.congr hst.links
    have hmem' : j ∈ t.subtree id := by rwa [hst.links.subtree_eq]
    rw [h.absoluteVisibility_of_mem_subtree hid hhidden hmem]
    refine ht.absoluteVisibility_of_mem_subtree (hst.links.size ▸ hid) ?_ hmem'
    rw [hst.absoluteVisibility_eq h hid, hhidden]
  · refine hst.links.absoluteVisibility_eq fun k hk => ?_
    rw [hst.node_of_not_mem h hid hj hmem k hk]

/-! ## What is painted -/

/-- The nodes that are shown are sorted by the depths that they had. -/
theorem paintOrder_eq : t.paintOrder = s.paintOrder := by
  have hshown : t.descendants.filter t.absoluteVisibility = s.descendants.filter s.absoluteVisibility := by
    rw [hst.links.descendants_eq]
    exact List.filter_congr fun j hj => hst.shown_eq h hid hhidden (h.mem_descendants_iff.mp hj).1
  have hnode : ∀ j ∈ s.descendants.filter s.absoluteVisibility, t.node j = s.node j :=
    fun j hj => hst.outside j (h.not_mem_subtree_of_shown hid hhidden hj).2
  unfold paintOrder
  rw [hshown, ← List.map_id (List.mergeSort _ _), List.map_mergeSort, List.map_id]
  -- The sort compares no other nodes than those that are shown.
  intro a ha b hb
  rw [hnode a ha, hnode b hb]
  rfl

theorem drawItems_eq : t.drawItems = s.drawItems := by
  have hout : ∀ j ∈ s.paintOrder, j < s.size ∧ j ∉ s.subtree id :=
    fun j hj => h.not_mem_subtree_of_shown hid hhidden (List.mem_mergeSort.mp hj)
  have hpayload : s.paintOrder.filter (fun j => !(t.node j).payload.isNone) =
      s.paintOrder.filter fun j => !(s.node j).payload.isNone :=
    List.filter_congr fun j hj => by rw [hst.outside j (hout j hj).2]
  unfold drawItems
  rw [hst.paintOrder_eq h hid hhidden, hpayload]
  refine List.map_congr_left fun j hj => ?_
  obtain ⟨hlt, hbelow⟩ := hout j (List.mem_filter.mp hj).1
  exact hst.drawItem_eq h hid hlt hbelow

end ChangedBelow

/-- What a part of a scene that is hidden comes to when the scene is painted. -/
structure UnseenLaw (s : Scene R) (id : NodeId) : Prop where
  /-- Nothing of it is painted. -/
  unpainted : ∀ item ∈ s.drawItems, item.node ∉ s.subtree id
  /-- Whatever its nodes are made of, the same is painted: the nodes, in their order, with their positions,
  payloads and clocks. -/
  items : ∀ t, s.ChangedBelow t id → t.drawItems = s.drawItems
  /-- So whatever paints is asked for the same and comes to the same. -/
  render : ∀ t, s.ChangedBelow t id → ∀ (σ : Type) [DrawTarget R σ] (state : σ),
    t.render state = s.render state

/-- **What is hidden is not seen**: below a node that is hidden, itself included, nodes may be changed in any
way that leaves the tree as it is, and the picture is the same. -/
theorem hidden_subtree_unseen (hs : s.Reachable) (hid : id < s.size)
    (hhidden : s.absoluteVisibility id = false) : s.UnseenLaw id :=
  have h := hs.isTree
  { unpainted := by
      intro item hitem
      obtain ⟨j, hj, rfl⟩ := List.mem_map.mp hitem
      have hshown := List.mem_mergeSort.mp (List.mem_filter.mp hj).1
      exact (h.not_mem_subtree_of_shown hid hhidden hshown).2
    items := fun t hst => hst.drawItems_eq h hid hhidden
    render := by
      intro t hst σ _ state
      unfold Scene.render
      rw [hst.drawItems_eq h hid hhidden] }

/-- A rack with a coat on it, in a group that is switched off, and a chair. -/
def backstage : Scene Rat :=
  let store := (empty.add root (Node.group "Store").hidden).2
  let rack := (store.add 1 (Node.group "Rack")).2
  let coat := (rack.add 2 ((Node.make "Coat" (.fill 4 4 .white)).placed 1 2 0)).2
  (coat.add root ((Node.make "Chair" (.fill 5 5 .white)).placed 5 5 0)).2

/-- The rack itself is switched on, but not what it is in. It is shaken, and the coat on it is renamed, gets
another payload and another depth, and is switched off: the chair is painted as before. -/
theorem hidden_subtree_unseen_backstage : backstage.Reachable ∧ backstage.absoluteVisibility 2 = false ∧
    backstage.UnseenLaw 2 ∧
    let shaken := backstage.modify 2 fun n => n.startShake 3 1
    let worn := shaken.modify 3 fun n =>
      { n with name := "Cape", payload := .none, offset := ⟨9, 9, -7⟩, clock := 2, visible := false }
    backstage.ChangedBelow worn 2 ∧ worn.drawItems = backstage.drawItems ∧
      backstage.drawItems.map (fun item => (item.node, item.position)) = [(4, ⟨5, 5⟩)] := by
  have hbackstage : backstage.Reachable :=
    (((Reachable.empty.add (by decide) _).add (by decide) _).add (by decide) _).add (by decide) _
  have hhidden : backstage.absoluteVisibility 2 = false := by decide
  have hlaw := hidden_subtree_unseen hbackstage (by decide) hhidden
  have hshaken := (ChangedBelow.refl backstage 2).modify (j := 2) (f := fun n => n.startShake 3 1)
    (by decide) (fun _ => ⟨rfl, rfl⟩) fun _ _ => rfl
  have hworn := hshaken.modify (j := 3) (f := fun n =>
      { n with name := "Cape", payload := .none, offset := ⟨9, 9, -7⟩, clock := 2, visible := false })
    (by decide) (fun _ => ⟨rfl, rfl⟩) (fun hne => absurd hne (by decide))
  exact ⟨hbackstage, hhidden, hlaw, hworn, hlaw.items _ hworn, by cbv⟩

end Cutscene.Scene
