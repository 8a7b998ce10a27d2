import Mathlib.Data.List.Nodup
import Mathlib.Data.List.Perm.Subperm
import Mathlib.Logic.Function.Iterate
import Cutscene.Proofs.Scene.Tick
import Cutscene.Scene.Walk

/-!
# Scenes are trees

A scene writes its tree down twice, as the parent of each node and as the children of each node, and it
follows the parents with a bound on their number. Here both ways of writing agree, and the bound is
never what ends the way up.

Results:
* `node_modify`, `node_foldl_modify`, `node_add`: the nodes of a changed scene.
* `Climbs`: the way up from a node. It is unique, and no node is met twice on it.
* `IsTree`: the two ways of writing agree, and every way up ends.
* `IsTree.chain_eq_cons`, `IsTree.chainFrom_eq`: the chain of a node is the way up from it.
-/

namespace Cutscene.Scene

variable {R : Type} [Scalar R] {s t : Scene R}

/-! ## Nodes after a change -/

theorem node_of_size_le {id : NodeId} (h : s.size ≤ id) : s.node id = default := by
  unfold node
  rw [Array.getElem?_eq_none h]
  rfl

/-- A scene is what its nodes are. -/
theorem eq_of_node (hsize : t.size = s.size) (hnode : ∀ id < s.size, t.node id = s.node id) : t = s := by
  have hnodes : t.nodes = s.nodes := by
    refine Array.ext hsize fun id hid hid' => ?_
    have hid'' := hnode id hid'
    unfold node at hid''
    rwa [Array.getElem?_eq_getElem hid, Array.getElem?_eq_getElem hid'] at hid''
  cases s
  cases t
  cases hnodes
  rfl

omit [Scalar R] in
@[simp] theorem size_modify (s : Scene R) (id : NodeId) (f : Node R → Node R) :
    (s.modify id f).size = s.size := Array.size_modify

theorem node_modify (s : Scene R) (id j : NodeId) (f : Node R → Node R) :
    (s.modify id f).node j = if j = id ∧ id < s.size then f (s.node id) else s.node j := by
  unfold modify node
  rw [Array.getElem?_modify]
  by_cases hj : id = j
  · subst hj
    by_cases hid : id < s.size
    · have hid' : id < s.nodes.size := hid
      simp [hid, hid']
    · have hid' : ¬id < s.nodes.size := hid
      simp [hid, hid']
  · simp [hj, Ne.symm hj]

theorem node_modify_self {id : NodeId} (h : id < s.size) (f : Node R → Node R) :
    (s.modify id f).node id = f (s.node id) := by
  rw [node_modify, if_pos ⟨rfl, h⟩]

theorem node_modify_of_ne {id j : NodeId} (h : j ≠ id) (f : Node R → Node R) :
    (s.modify id f).node j = s.node j := by
  rw [node_modify, if_neg fun hj => h hj.1]

/-- A change that is made node by node is made of each node as often as it comes. -/
theorem node_foldl_modify (s : Scene R) (ids : List NodeId) (f : Node R → Node R) {id : NodeId}
    (hid : id < s.size) :
    (ids.foldl (fun s j => s.modify j f) s).node id = f^[ids.count id] (s.node id) := by
  induction ids generalizing s with
  | nil => rfl
  | cons j r ih =>
    rw [List.foldl_cons, ih _ (by rwa [size_modify]), node_modify]
    by_cases hj : id = j
    · subst hj
      rw [if_pos ⟨rfl, hid⟩, List.count_cons_self, Function.iterate_succ_apply]
    · rw [if_neg fun h => hj h.1, List.count_cons_of_ne (Ne.symm hj)]

omit [Scalar R] in
theorem size_add (s : Scene R) (parent : NodeId) (n : Node R) :
    (s.add parent n).2.size = s.size + 1 := by
  unfold add
  rw [size_modify]
  exact Array.size_push _

/-- A node comes without children, as the last child of its parent. -/
theorem node_add {parent : NodeId} (h : parent < s.size) (n : Node R) (j : NodeId) :
    (s.add parent n).2.node j =
      if j = s.size then { n with parent := some parent, children := [] }
      else if j = parent then
        { s.node parent with children := (s.node parent).children ++ [s.size] }
      else s.node j := by
  have hgrown : ∀ j, (⟨s.nodes.push { n with parent := some parent, children := [] }⟩ : Scene R).node j =
      if j = s.size then { n with parent := some parent, children := [] } else s.node j := by
    intro j
    unfold node
    rw [Array.getElem?_push]
    change Option.getD (if j = s.size then _ else _) default = _
    split_ifs <;> rfl
  unfold add
  simp only
  rw [node_modify, hgrown, hgrown, if_neg (Nat.ne_of_lt h)]
  have hsize : parent < (⟨s.nodes.push { n with parent := some parent, children := [] }⟩ : Scene R).size := by
    unfold size
    rw [Array.size_push]
    exact Nat.lt_succ_of_lt h
  by_cases hj : j = parent
  · subst hj
    simp [hsize, Nat.ne_of_lt h]
  · simp [hj]

/-! ## The way up -/

/-- The way from a node along the parents, which ends at a node without one. -/
inductive Climbs (s : Scene R) : NodeId → List NodeId → Prop
  | top {id} (h : (s.node id).parent = none) : Climbs s id [id]
  | up {id p l} (h : (s.node id).parent = some p) (hp : Climbs s p l) : Climbs s id (id :: l)

namespace Climbs

variable {id : NodeId} {l : List NodeId}

theorem unique (h : s.Climbs id l) {l' : List NodeId} (h' : s.Climbs id l') : l = l' := by
  induction h generalizing l' with
  | top h =>
    cases h' with
    | top _ => rfl
    | up h'' _ =>
      rw [h] at h''
      cases h''
  | up h _ ih =>
    cases h' with
    | top h'' =>
      rw [h] at h''
      cases h''
    | up h'' hp' =>
      rw [h] at h''
      cases h''
      rw [ih hp']

theorem mem_self (h : s.Climbs id l) : id ∈ l := by
  cases h <;> exact List.mem_cons_self

/-- From every node on the way, the way goes on as it does from that node. -/
theorem suffix (h : s.Climbs id l) {j : NodeId} (hj : j ∈ l) : ∃ l', s.Climbs j l' ∧ l' <:+ l := by
  induction h with
  | top h =>
    rw [List.mem_singleton.mp hj]
    exact ⟨_, .top h, List.suffix_refl _⟩
  | up h hp ih =>
    rcases List.mem_cons.mp hj with rfl | hj
    · exact ⟨_, .up h hp, List.suffix_refl _⟩
    · obtain ⟨l', hl', hsuffix⟩ := ih hj
      exact ⟨l', hl', hsuffix.trans (List.suffix_cons _ _)⟩

/-- No node is met twice: the way would go on from it as before and never end. -/
theorem nodup (h : s.Climbs id l) : l.Nodup := by
  induction h with
  | top _ => exact List.nodup_singleton _
  | up h hp ih =>
    refine List.nodup_cons.mpr ⟨fun hmem => ?_, ih⟩
    obtain ⟨l', hl', hsuffix⟩ := hp.suffix hmem
    have hlength := hsuffix.length_le
    rw [hl'.unique (.up h hp), List.length_cons] at hlength
    exact Nat.not_succ_le_self _ hlength

/-- The chain of a node is the way up, unless it is cut short. -/
theorem chainFrom_eq (h : s.Climbs id l) {fuel : Nat} (hfuel : l.length ≤ fuel) :
    s.chainFrom fuel id = l := by
  induction h generalizing fuel with
  | top h =>
    obtain ⟨fuel, rfl⟩ := Nat.exists_eq_succ_of_ne_zero (Nat.ne_of_gt hfuel)
    unfold chainFrom
    rw [h]
  | up h hp ih =>
    obtain ⟨fuel, rfl⟩ :=
      Nat.exists_eq_succ_of_ne_zero (Nat.ne_of_gt (Nat.lt_of_lt_of_le (Nat.succ_pos _) hfuel))
    unfold chainFrom
    rw [h]
    exact congrArg _ (ih (Nat.le_of_succ_le_succ hfuel))

end Climbs

/-! ## Trees -/

/-- The parents and the children are those of one tree. -/
structure IsTree (s : Scene R) : Prop where
  size_pos : root < s.size
  root_parent : (s.node root).parent = none
  exists_parent : ∀ id < s.size, id ≠ root → ∃ p, (s.node id).parent = some p
  mem_children_iff : ∀ {p id}, id ∈ (s.node p).children ↔ (s.node id).parent = some p
  nodup_children : ∀ p, (s.node p).children.Nodup
  climbs : ∀ id < s.size, ∃ l, s.Climbs id l

namespace IsTree

variable (h : s.IsTree) {id p : NodeId}

include h

theorem lt_size_of_parent (hp : (s.node id).parent = some p) : id < s.size ∧ p < s.size := by
  constructor
  · by_contra hid
    rw [node_of_size_le (Nat.le_of_not_lt hid)] at hp
    cases hp
  · by_contra hout
    have hmem := h.mem_children_iff.mpr hp
    rw [node_of_size_le (Nat.le_of_not_lt hout)] at hmem
    cases hmem

theorem lt_size_of_mem {l : List NodeId} (hl : s.Climbs id l) (hid : id < s.size) :
    ∀ j ∈ l, j < s.size := by
  induction hl with
  | top _ =>
    intro j hj
    rwa [List.mem_singleton.mp hj]
  | up hp _ ih =>
    intro j hj
    rcases List.mem_cons.mp hj with rfl | hj
    · exact hid
    · exact ih (h.lt_size_of_parent hp).2 j hj

theorem length_le {l : List NodeId} (hl : s.Climbs id l) (hid : id < s.size) : l.length ≤ s.size := by
  have hsub : l ⊆ List.range s.size := fun j hj => List.mem_range.mpr (h.lt_size_of_mem hl hid j hj)
  have hle := (hl.nodup.subperm hsub).length_le
  rwa [List.length_range] at hle

/-- The chain of a node is the way up from it. -/
theorem climbs_chain (hid : id < s.size) : s.Climbs id (s.chain id) := by
  obtain ⟨l, hl⟩ := h.climbs id hid
  unfold chain
  rw [hl.chainFrom_eq (h.length_le hl hid)]
  exact hl

/-- The bound on the length of a chain is not what ends it. -/
theorem chainFrom_eq (hid : id < s.size) {fuel : Nat} (hfuel : s.size ≤ fuel) :
    s.chainFrom fuel id = s.chain id :=
  have hl := h.climbs_chain hid
  hl.chainFrom_eq (Nat.le_trans (h.length_le hl hid) hfuel)

theorem chain_root : s.chain root = [root] :=
  (h.climbs_chain h.size_pos).unique (.top h.root_parent)

theorem chain_eq_cons (hp : (s.node id).parent = some p) : s.chain id = id :: s.chain p :=
  have hlt := h.lt_size_of_parent hp
  (h.climbs_chain hlt.1).unique (.up hp (h.climbs_chain hlt.2))

theorem nodup_chain (hid : id < s.size) : (s.chain id).Nodup := (h.climbs_chain hid).nodup

theorem length_chain_le (hid : id < s.size) : (s.chain id).length ≤ s.size :=
  h.length_le (h.climbs_chain hid) hid

/-- What holds of the root, and of a node when it holds of its parent, holds of all nodes. -/
theorem induction_up {P : NodeId → Prop} (hroot : P root)
    (hup : ∀ id p, (s.node id).parent = some p → P p → P id) : ∀ id < s.size, P id := by
  intro id hid
  obtain ⟨l, hl⟩ := h.climbs id hid
  induction hl with
  | @top id htop =>
    by_cases hr : id = root
    · exact hr ▸ hroot
    · obtain ⟨p, hp⟩ := h.exists_parent id hid hr
      rw [htop] at hp
      cases hp
  | up hp _ ih => exact hup _ _ hp (ih (h.lt_size_of_parent hp).2)

theorem mem_chain_self (hid : id < s.size) : id ∈ s.chain id := (h.climbs_chain hid).mem_self

theorem lt_size_of_mem_chain (hid : id < s.size) {j : NodeId} (hj : j ∈ s.chain id) : j < s.size :=
  h.lt_size_of_mem (h.climbs_chain hid) hid j hj

/-- The way up ends at the root. -/
theorem getLast?_chain : ∀ id < s.size, (s.chain id).getLast? = some root := by
  refine h.induction_up ?_ ?_
  · rw [h.chain_root]
    rfl
  · intro id p hp ih
    rw [h.chain_eq_cons hp, List.getLast?_cons, ih]
    rfl

/-- A node is not above its parent. -/
theorem not_mem_chain_of_parent (hp : (s.node id).parent = some p) : id ∉ s.chain p := by
  have hnodup := h.nodup_chain (h.lt_size_of_parent hp).1
  rw [h.chain_eq_cons hp] at hnodup
  exact (List.nodup_cons.mp hnodup).1

/-- What is above a node that is above another one is above that one too. -/
theorem mem_chain_trans {j : NodeId} (hj : j < s.size) {k : NodeId} (hk : k ∈ s.chain id)
    (hid : id ∈ s.chain j) : k ∈ s.chain j := by
  obtain ⟨l, hl, hsuffix⟩ := (h.climbs_chain hj).suffix hid
  rw [hl.unique (h.climbs_chain (h.lt_size_of_mem_chain hj hid))] at hsuffix
  exact hsuffix.subset hk

/-- Of two nodes one is not above the other both ways. -/
theorem eq_of_mem_chain_of_mem_chain {j : NodeId} (hj : j < s.size) (hid : id ∈ s.chain j)
    (hjid : j ∈ s.chain id) : id = j := by
  by_cases hroot : j = root
  · rw [hroot, h.chain_root] at hid
    rw [hroot]
    exact List.mem_singleton.mp hid
  · obtain ⟨p, hp⟩ := h.exists_parent j hj hroot
    rw [h.chain_eq_cons hp] at hid
    refine (List.mem_cons.mp hid).resolve_right fun habove => ?_
    exact h.not_mem_chain_of_parent hp (h.mem_chain_trans (h.lt_size_of_parent hp).2 hjid habove)

end IsTree

end Cutscene.Scene
