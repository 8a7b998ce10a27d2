import Cutscene.Proofs.Scene.Change

/-!
# The order of the walk

The walk through a scene keeps a stack of nodes still to come. What it visits is the recursive order of
the tree: a node, and then what is below each of its children, one child after another. The bound on
the number of its steps is never what ends it.

On `SceneGraph.descendants` (SPEC_FULL.md, §3 and §4.1).

Results:
* `subtree_eq`: the recursive order.
* `SameLinks.subtree_eq`, `SameLinks.descendants_eq`: the order depends on the tree alone.
* `mem_subtree_iff`, `nodup_subtree`: it meets every node below once.
* `walk_eq_take`: the walk visits what is below the nodes on its stack, in that order.
* `tree_integrity`: what holds of every scene that a program can make.
-/

namespace Cutscene

namespace Offset

theorem zero_add (p : Offset) : Offset.zero + p = p := by
  change (⟨0 + p.x, 0 + p.y, 0 + p.z⟩ : Offset) = p
  simp only [Int32.zero_add]

theorem add_assoc (p q r : Offset) : p + q + r = p + (q + r) := by
  change (⟨p.x + q.x + r.x, p.y + q.y + r.y, p.z + q.z + r.z⟩ : Offset) =
    ⟨p.x + (q.x + r.x), p.y + (q.y + r.y), p.z + (q.z + r.z)⟩
  simp only [Int32.add_assoc]

theorem add_zero (p : Offset) : p + Offset.zero = p := by
  change (⟨p.x + 0, p.y + 0, p.z + 0⟩ : Offset) = p
  simp only [Int32.add_zero]

/-- A sum may be begun with any offset. -/
theorem foldl_add {α : Type} (f : α → Offset) (l : List α) (p : Offset) :
    l.foldl (fun sum a => sum + f a) p = p + l.foldl (fun sum a => sum + f a) .zero := by
  induction l generalizing p with
  | nil => exact p.add_zero.symm
  | cons a r ih => rw [List.foldl_cons, List.foldl_cons, ih, ih (Offset.zero + f a), zero_add, add_assoc]

end Offset

namespace Scene

variable {R : Type} [Scalar R] {s t : Scene R} {id : NodeId}

/-- A node and all below it, at most `fuel` levels deep. -/
def subtreeFrom (s : Scene R) : (fuel : Nat) → NodeId → List NodeId
  | 0, _ => []
  | fuel + 1, id => id :: (s.node id).children.flatMap (subtreeFrom s fuel)

/-- A node and all below it, each node before what is below it. -/
def subtree (s : Scene R) (id : NodeId) : List NodeId := s.subtreeFrom s.size id

theorem SameLinks.subtree_eq (hst : s.SameLinks t) (id : NodeId) : t.subtree id = s.subtree id := by
  have hfrom : ∀ fuel id, t.subtreeFrom fuel id = s.subtreeFrom fuel id := by
    intro fuel
    induction fuel with
    | zero => exact fun _ => rfl
    | succ fuel ih =>
      intro id
      rw [subtreeFrom, subtreeFrom, hst.children, funext ih]
  unfold subtree
  rw [hst.size, hfrom]

theorem SameLinks.descendants_eq (hst : s.SameLinks t) : t.descendants = s.descendants := by
  have hwalk : ∀ fuel stack, t.walk fuel stack = s.walk fuel stack := by
    intro fuel
    induction fuel with
    | zero => exact fun _ => rfl
    | succ fuel ih =>
      intro stack
      cases stack with
      | nil => rfl
      | cons id r => rw [walk, walk, hst.children, ih]
  unfold descendants
  rw [hst.size, hst.children, hwalk]

namespace IsTree

variable (h : s.IsTree)

include h

theorem lt_size_of_mem_children {c : NodeId} (hc : c ∈ (s.node id).children) : c < s.size :=
  (h.lt_size_of_parent (h.mem_children_iff.mp hc)).1

/-- What holds of a node when it holds of its children holds of all nodes. -/
theorem induction_down {P : NodeId → Prop}
    (hdown : ∀ id < s.size, (∀ c ∈ (s.node id).children, P c) → P id) : ∀ id < s.size, P id := by
  intro id hid
  -- The way up from a child is longer, and no way up is longer than the scene.
  induction hk : s.size - (s.chain id).length using Nat.strongRecOn generalizing id with
  | _ k ih =>
    subst hk
    refine hdown id hid fun c hc => ih _ ?_ c (h.lt_size_of_mem_children hc) rfl
    have hle := h.length_chain_le (h.lt_size_of_mem_children hc)
    rw [h.chain_eq_cons (h.mem_children_iff.mp hc), List.length_cons] at hle ⊢
    omega

/-- The bound on the depth is large enough for every node. -/
theorem subtreeFrom_succ (hid : id < s.size) {fuel : Nat}
    (hfuel : s.size < fuel + (s.chain id).length) :
    s.subtreeFrom (fuel + 1) id = s.subtreeFrom fuel id := by
  induction fuel generalizing id with
  | zero =>
    have hle := h.length_chain_le hid
    omega
  | succ fuel ih =>
    rw [subtreeFrom, subtreeFrom]
    refine congrArg _ (List.flatMap_congr fun c hc => ih (h.lt_size_of_mem_children hc) ?_)
    rw [h.chain_eq_cons (h.mem_children_iff.mp hc), List.length_cons]
    omega

/-- A node comes before what is below it, and its children come one after another, each with all that
is below it. -/
theorem subtree_eq (hid : id < s.size) :
    s.subtree id = id :: (s.node id).children.flatMap s.subtree := by
  have hlength : 0 < (s.chain id).length := List.length_pos_of_mem (h.mem_chain_self hid)
  unfold subtree
  rw [← h.subtreeFrom_succ hid (by omega), subtreeFrom]

theorem mem_subtree_self (hid : id < s.size) : id ∈ s.subtree id := by
  rw [h.subtree_eq hid]
  exact List.mem_cons_self

/-- With a node, its children are below. -/
theorem mem_subtree_of_mem_children (hid : id < s.size) {j c : NodeId} (hj : j ∈ s.subtree id)
    (hc : c ∈ (s.node j).children) : c ∈ s.subtree id := by
  revert hj
  refine h.induction_down (P := fun id => j ∈ s.subtree id → c ∈ s.subtree id) ?_ id hid
  intro id hid ih hj
  rw [h.subtree_eq hid, List.mem_cons, List.mem_flatMap] at hj ⊢
  rcases hj with rfl | ⟨d, hd, hj⟩
  · exact Or.inr ⟨c, hc, h.mem_subtree_self (h.lt_size_of_mem_children hc)⟩
  · exact Or.inr ⟨d, hd, ih d hd hj⟩

/-- What is below a node is what has it on its way up. -/
theorem mem_subtree_iff (hid : id < s.size) {j : NodeId} :
    j ∈ s.subtree id ↔ j < s.size ∧ id ∈ s.chain j := by
  constructor
  · refine h.induction_down (P := fun id => j ∈ s.subtree id → j < s.size ∧ id ∈ s.chain j) ?_ id hid
    intro id hid ih hj
    rw [h.subtree_eq hid, List.mem_cons, List.mem_flatMap] at hj
    rcases hj with rfl | ⟨c, hc, hj⟩
    · exact ⟨hid, h.mem_chain_self hid⟩
    · obtain ⟨hlt, hchain⟩ := ih c hc hj
      refine ⟨hlt, h.mem_chain_trans hlt ?_ hchain⟩
      rw [h.chain_eq_cons (h.mem_children_iff.mp hc)]
      exact List.mem_cons_of_mem _ (h.mem_chain_self hid)
  · rintro ⟨hj, hchain⟩
    revert hchain
    refine h.induction_up (P := fun j => id ∈ s.chain j → j ∈ s.subtree id) ?_ ?_ j hj
    · rw [h.chain_root, List.mem_singleton]
      rintro rfl
      exact h.mem_subtree_self hid
    · intro j p hp ih hchain
      rw [h.chain_eq_cons hp, List.mem_cons] at hchain
      rcases hchain with rfl | hchain
      · exact h.mem_subtree_self hid
      · exact h.mem_subtree_of_mem_children hid (ih hchain) (h.mem_children_iff.mpr hp)

/-- No node is below two children of a node. -/
theorem eq_of_mem_chain {c c' p j : NodeId} (hj : j < s.size) (hc : (s.node c).parent = some p)
    (hc' : (s.node c').parent = some p) (hcj : c ∈ s.chain j) (hcj' : c' ∈ s.chain j) : c = c' := by
  revert hcj hcj'
  refine h.induction_up (P := fun j => c ∈ s.chain j → c' ∈ s.chain j → c = c') ?_ ?_ j hj
  · rw [h.chain_root, List.mem_singleton, List.mem_singleton]
    rintro rfl rfl
    rfl
  · intro j q hq ih hcj hcj'
    have habove : ∀ {d d' : NodeId}, (s.node d').parent = some p → (s.node d).parent = some p →
        d = j → d' ∉ s.chain q := by
      rintro d d' hd' hd rfl
      rw [hd] at hq
      cases hq
      exact h.not_mem_chain_of_parent hd'
    rw [h.chain_eq_cons hq, List.mem_cons] at hcj hcj'
    rcases hcj with hcj | hcj <;> rcases hcj' with hcj' | hcj'
    · rw [hcj, hcj']
    · exact absurd hcj' (habove hc' hc hcj)
    · exact absurd hcj (habove hc hc' hcj')
    · exact ih hcj hcj'

/-- No node comes twice. -/
theorem nodup_subtree (hid : id < s.size) : (s.subtree id).Nodup := by
  refine h.induction_down (P := fun id => (s.subtree id).Nodup) ?_ id hid
  intro id hid ih
  rw [h.subtree_eq hid]
  refine List.nodup_cons.mpr ⟨fun hmem => ?_, List.nodup_flatMap.mpr ⟨ih, ?_⟩⟩
  · obtain ⟨c, hc, hidc⟩ := List.mem_flatMap.mp hmem
    have hbelow := ((h.mem_subtree_iff (h.lt_size_of_mem_children hc)).mp hidc).2
    exact h.not_mem_chain_of_parent (h.mem_children_iff.mp hc) hbelow
  · refine (h.nodup_children id).imp_of_mem fun {c c'} hc hc' hne j hj hj' => hne ?_
    have hjc := (h.mem_subtree_iff (h.lt_size_of_mem_children hc)).mp hj
    have hjc' := (h.mem_subtree_iff (h.lt_size_of_mem_children hc')).mp hj'
    exact h.eq_of_mem_chain hjc.1 (h.mem_children_iff.mp hc) (h.mem_children_iff.mp hc') hjc.2 hjc'.2

/-! ## The walk -/

/-- The walk visits the nodes on its stack in order, each with all below it. -/
theorem walk_eq_take {stack : List NodeId} (hstack : ∀ id ∈ stack, id < s.size) (fuel : Nat) :
    s.walk fuel stack = (stack.flatMap s.subtree).take fuel := by
  induction fuel generalizing stack with
  | zero => rfl
  | succ fuel ih =>
    cases stack with
    | nil => rfl
    | cons id r =>
      have hnext : ∀ j ∈ (s.node id).children ++ r, j < s.size := by
        intro j hj
        rcases List.mem_append.mp hj with hj | hj
        · exact h.lt_size_of_mem_children hj
        · exact hstack j (List.mem_cons_of_mem _ hj)
      rw [walk, ih hnext, List.flatMap_cons, h.subtree_eq (hstack id List.mem_cons_self),
        List.flatMap_append, List.cons_append, List.take_succ_cons]

theorem length_subtree_le (hid : id < s.size) : (s.subtree id).length ≤ s.size := by
  have hsub : s.subtree id ⊆ List.range s.size :=
    fun j hj => List.mem_range.mpr ((h.mem_subtree_iff hid).mp hj).1
  have hle := ((h.nodup_subtree hid).subperm hsub).length_le
  rwa [List.length_range] at hle

/-- The bound on the number of steps is not what ends the walk. -/
theorem walk_children_root {fuel : Nat} (hfuel : s.size ≤ fuel) :
    s.walk fuel (s.node root).children = (s.node root).children.flatMap s.subtree := by
  rw [h.walk_eq_take fun id hid => h.lt_size_of_mem_children hid]
  refine List.take_of_length_le ?_
  have hle := h.length_subtree_le h.size_pos
  rw [h.subtree_eq h.size_pos, List.length_cons] at hle
  omega

theorem descendants_eq : s.descendants = (s.node root).children.flatMap s.subtree :=
  h.walk_children_root (Nat.le_refl _)

/-- The root and all nodes below it are the whole scene. -/
theorem subtree_root : s.subtree root = root :: s.descendants := by
  rw [h.subtree_eq h.size_pos, h.descendants_eq]

theorem nodup_descendants : s.descendants.Nodup := by
  have hnodup := h.nodup_subtree h.size_pos
  rw [h.subtree_root] at hnodup
  exact (List.nodup_cons.mp hnodup).2

theorem mem_descendants_iff : id ∈ s.descendants ↔ id < s.size ∧ id ≠ root := by
  have hroot : root ∉ s.descendants := by
    have hnodup := h.nodup_subtree h.size_pos
    rw [h.subtree_root] at hnodup
    exact (List.nodup_cons.mp hnodup).1
  have hmem := h.mem_subtree_iff (j := id) h.size_pos
  rw [h.subtree_root, List.mem_cons] at hmem
  constructor
  · intro hid
    exact ⟨(hmem.mp (Or.inr hid)).1, fun heq => hroot (heq ▸ hid)⟩
  · rintro ⟨hid, hne⟩
    exact (hmem.mpr ⟨hid, List.mem_of_getLast? (h.getLast?_chain id hid)⟩).resolve_left hne

/-- A step of the scene is a tick of every node but the root. -/
theorem node_update (hid : id < s.size) (hroot : id ≠ root) (dt : R) :
    (s.update dt).node id = (s.node id).tick dt := by
  have hmem : id ∈ s.descendants := h.mem_descendants_iff.mpr ⟨hid, hroot⟩
  unfold update
  rw [s.node_foldl_modify _ _ hid, List.count_eq_one_of_mem h.nodup_descendants hmem]
  rfl

/-- A node and all below it come in one piece. -/
theorem subtree_infix_descendants (hid : id < s.size) (hroot : id ≠ root) :
    s.subtree id <:+: s.descendants := by
  have hpiece : ∀ {p c : NodeId}, c ∈ (s.node p).children →
      s.subtree c <:+: (s.node p).children.flatMap s.subtree := by
    intro p c hc
    obtain ⟨before, later, hsplit⟩ := List.append_of_mem hc
    refine ⟨before.flatMap s.subtree, later.flatMap s.subtree, ?_⟩
    rw [hsplit, List.flatMap_append, List.flatMap_cons, List.append_assoc]
  revert hroot
  refine h.induction_up (P := fun id => id ≠ root → s.subtree id <:+: s.descendants)
    (fun hne => absurd rfl hne) ?_ id hid
  intro id p hp ih _
  have hc := h.mem_children_iff.mpr hp
  by_cases hroot : p = root
  · subst hroot
    rw [h.descendants_eq]
    exact hpiece hc
  · refine List.IsInfix.trans ?_ (ih hroot)
    rw [h.subtree_eq (h.lt_size_of_parent hp).2]
    exact (hpiece hc).trans (List.suffix_cons _ _).isInfix

/-! ## Sums along the way up -/

theorem absoluteVisibility_eq {p : NodeId} (hp : (s.node id).parent = some p) :
    s.absoluteVisibility id = ((s.node id).visible && s.absoluteVisibility p) := by
  unfold absoluteVisibility
  rw [h.chain_eq_cons hp, List.all_cons]

theorem absolutePosition_eq {p : NodeId} (hp : (s.node id).parent = some p) :
    s.absolutePosition id = (s.node id).offset + s.absolutePosition p := by
  unfold absolutePosition
  rw [h.chain_eq_cons hp, List.foldl_cons, Offset.zero_add, Offset.foldl_add]

end IsTree

/-! ## Integrity -/

/-- The two ways of writing a tree down agree, and what follows the tree ends and misses nothing. -/
structure TreeIntegrity (s : Scene R) : Prop where
  root_parent : (s.node root).parent = none
  /-- Every other node has one parent, and stands once among the children of that one alone. -/
  one_parent : ∀ id < s.size, id ≠ root → ∃ p < s.size, (s.node id).parent = some p ∧
    (s.node p).children.count id = 1 ∧ ∀ q, q ≠ p → id ∉ (s.node q).children
  /-- Following the parents leads to the root, and there it ends, whatever bound it is given. -/
  chain_root : s.chain root = [root]
  chain_eq : ∀ id p, (s.node id).parent = some p → s.chain id = id :: s.chain p
  getLast?_chain : ∀ id < s.size, (s.chain id).getLast? = some root
  chain_ends : ∀ id < s.size, ∀ fuel, s.size ≤ fuel → s.chainFrom fuel id = s.chain id
  /-- So positions and visibility are those of the parent, with what the node adds. -/
  position_root : s.absolutePosition root = (s.node root).offset
  position_eq : ∀ id p, (s.node id).parent = some p →
    s.absolutePosition id = (s.node id).offset + s.absolutePosition p
  visibility_root : s.absoluteVisibility root = (s.node root).visible
  visibility_eq : ∀ id p, (s.node id).parent = some p →
    s.absoluteVisibility id = ((s.node id).visible && s.absoluteVisibility p)
  /-- The walk ends, whatever bound it is given, and lists every node but the root once. -/
  walk_ends : ∀ fuel, s.size ≤ fuel → s.walk fuel (s.node root).children = s.descendants
  count_descendants : ∀ id, s.descendants.count id = if id < s.size ∧ id ≠ root then 1 else 0
  /-- It lists them in the recursive order: a node, and then what is below each of its children. -/
  descendants_eq : s.descendants = (s.node root).children.flatMap s.subtree
  subtree_eq : ∀ id < s.size, s.subtree id = id :: (s.node id).children.flatMap s.subtree
  mem_subtree_iff : ∀ id < s.size, ∀ j, j ∈ s.subtree id ↔ j < s.size ∧ id ∈ s.chain j
  /-- What is below a node comes in one piece. -/
  contiguous : ∀ id < s.size, id ≠ root → s.subtree id <:+: s.descendants

/-- **Every scene that a program can make is a tree**: parents and children agree, the way up from every
node ends at the root, and the walk lists all nodes but the root once, in the recursive order. -/
theorem tree_integrity (hs : s.Reachable) : s.TreeIntegrity :=
  have h := hs.isTree
  { root_parent := h.root_parent
    one_parent := by
      intro id hid hroot
      obtain ⟨p, hp⟩ := h.exists_parent id hid hroot
      have hmem := h.mem_children_iff.mpr hp
      refine ⟨p, (h.lt_size_of_parent hp).2, hp,
        List.count_eq_one_of_mem (h.nodup_children p) hmem, fun q hq hq' => hq ?_⟩
      rw [h.mem_children_iff, hp] at hq'
      exact (Option.some.inj hq').symm
    chain_root := h.chain_root
    chain_eq := fun id p hp => h.chain_eq_cons hp
    getLast?_chain := h.getLast?_chain
    chain_ends := fun id hid fuel hfuel => h.chainFrom_eq hid hfuel
    position_root := by
      unfold absolutePosition
      rw [h.chain_root, List.foldl_cons, List.foldl_nil, Offset.zero_add]
    position_eq := fun id p hp => h.absolutePosition_eq hp
    visibility_root := by
      unfold absoluteVisibility
      rw [h.chain_root, List.all_cons, List.all_nil, Bool.and_true]
    visibility_eq := fun id p hp => h.absoluteVisibility_eq hp
    walk_ends := fun fuel hfuel => (h.walk_children_root hfuel).trans h.descendants_eq.symm
    count_descendants := by
      intro id
      by_cases hid : id < s.size ∧ id ≠ root
      · rw [if_pos hid, List.count_eq_one_of_mem h.nodup_descendants (h.mem_descendants_iff.mpr hid)]
      · rw [if_neg hid, List.count_eq_zero, h.mem_descendants_iff]
        exact hid
    descendants_eq := h.descendants_eq
    subtree_eq := fun id hid => h.subtree_eq hid
    mem_subtree_iff := fun id hid j => h.mem_subtree_iff hid
    contiguous := fun id hid hroot => h.subtree_infix_descendants hid hroot }

/-- A node with one below it, and a copy of the first, which comes without children. -/
def family : Scene Rat :=
  let parent := (empty.add root (.group "Parent")).2
  let child := (parent.add 1 (.group "Child")).2
  (child.add root (child.node 1)).2

/-- The first node is moved below its copy, and the one below it goes along. -/
theorem tree_integrity_family : family.Reachable ∧ family.descendants = [1, 2, 3] ∧
    ∃ t, family.reparent 1 3 = .ok t ∧ t.TreeIntegrity ∧ t.descendants = [3, 1, 2] := by
  have hfamily : family.Reachable :=
    ((Reachable.empty.add (by decide) _).add (by decide) _).add (by decide) _
  obtain ⟨t, ht, hdescendants⟩ : ∃ t, family.reparent 1 3 = .ok t ∧ t.descendants = [3, 1, 2] :=
    ⟨_, rfl, by decide⟩
  exact ⟨hfamily, by decide, t, ht,
    tree_integrity (hfamily.reparent (by decide) (by decide) ht), hdescendants⟩

end Scene

end Cutscene
