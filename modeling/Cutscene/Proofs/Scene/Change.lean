import Cutscene.Proofs.Scene.Tree

/-!
# Changes of a scene

What a program can do to a scene keeps it a tree: it adds a node, moves one to another parent, has all
nodes make a step, or changes of a node what is not its place in the tree.

Results:
* `SameLinks`: the tree is left as it is. `SameRoles`: so are the names and the depths.
  `sameRoles_modify`, `sameRoles_update`.
* `IsTree.add`, `reparent_spec`, `IsTree.reparent`: a node comes in, and a node is moved.
* `Reachable.isTree`: every scene that a program can make is a tree.
-/

namespace Cutscene.Scene

variable {R : Type} [Scalar R] {s t : Scene R}

/-! ## Changes that leave the tree as it is -/

/-- The second scene has the nodes of the first one in the same places of the tree. -/
structure SameLinks (s t : Scene R) : Prop where
  size : t.size = s.size
  parent : ∀ id, (t.node id).parent = (s.node id).parent
  children : ∀ id, (t.node id).children = (s.node id).children

theorem SameLinks.trans {u : Scene R} (h : s.SameLinks t) (h' : t.SameLinks u) : s.SameLinks u where
  size := h'.size.trans h.size
  parent id := (h'.parent id).trans (h.parent id)
  children id := (h'.children id).trans (h.children id)

theorem sameLinks_modify (s : Scene R) (id : NodeId) {f : Node R → Node R} (hf : Node.KeepsLinks f) :
    s.SameLinks (s.modify id f) := by
  have hnode : ∀ j, ((s.modify id f).node j).parent = (s.node j).parent ∧
      ((s.modify id f).node j).children = (s.node j).children := by
    intro j
    rw [node_modify]
    split_ifs with hj
    · rw [hj.1]
      exact hf _
    · exact ⟨rfl, rfl⟩
  exact ⟨s.size_modify id f, fun j => (hnode j).1, fun j => (hnode j).2⟩

/-- The second scene has the nodes of the first one in the same roles. -/
structure SameRoles (s t : Scene R) : Prop where
  size : t.size = s.size
  role : ∀ id, (t.node id).role = (s.node id).role

theorem SameRoles.refl (s : Scene R) : s.SameRoles s := ⟨rfl, fun _ => rfl⟩

theorem SameRoles.trans {u : Scene R} (h : s.SameRoles t) (h' : t.SameRoles u) : s.SameRoles u where
  size := h'.size.trans h.size
  role id := (h'.role id).trans (h.role id)

theorem SameRoles.links (h : s.SameRoles t) : s.SameLinks t where
  size := h.size
  parent id := congrArg Node.Role.parent (h.role id)
  children id := congrArg Node.Role.children (h.role id)

theorem sameRoles_modify (s : Scene R) (id : NodeId) {f : Node R → Node R} (hf : Node.KeepsRole f) :
    s.SameRoles (s.modify id f) where
  size := s.size_modify id f
  role j := by
    rw [node_modify]
    split_ifs with hj
    · rw [hf, hj.1]
    · rfl

/-- Ticks some nodes, one after another. -/
def tickAll (s : Scene R) (ids : List NodeId) (dt : R) : Scene R :=
  ids.foldl (fun s id => s.modify id fun n => n.tick dt) s

/-- Ticks leave all nodes in their roles. -/
theorem sameRoles_tickAll (s : Scene R) (ids : List NodeId) (dt : R) : s.SameRoles (s.tickAll ids dt) := by
  unfold tickAll
  induction ids generalizing s with
  | nil => exact .refl s
  | cons id r ih => exact (s.sameRoles_modify id (Node.keepsRole_tick dt)).trans (ih _)

theorem sameRoles_update (s : Scene R) (dt : R) : s.SameRoles (s.update dt) :=
  s.sameRoles_tickAll s.descendants dt

theorem sameLinks_update (s : Scene R) (dt : R) : s.SameLinks (s.update dt) := (s.sameRoles_update dt).links

theorem Climbs.congr (hst : s.SameLinks t) {id : NodeId} {l : List NodeId} (h : s.Climbs id l) :
    t.Climbs id l := by
  induction h with
  | top h => exact .top ((hst.parent _).trans h)
  | up h _ ih => exact .up ((hst.parent _).trans h) ih

theorem SameLinks.chain_eq (hst : s.SameLinks t) (id : NodeId) : t.chain id = s.chain id := by
  have hfrom : ∀ fuel id, t.chainFrom fuel id = s.chainFrom fuel id := by
    intro fuel
    induction fuel with
    | zero => exact fun _ => rfl
    | succ fuel ih =>
      intro id
      rw [chainFrom, chainFrom, hst.parent, funext ih]
  unfold chain
  rw [hst.size, hfrom]

namespace IsTree

theorem congr (h : s.IsTree) (hst : s.SameLinks t) : t.IsTree where
  size_pos := hst.size ▸ h.size_pos
  root_parent := (hst.parent root).trans h.root_parent
  exists_parent id hid hroot := by
    rw [hst.parent]
    exact h.exists_parent id (hst.size ▸ hid) hroot
  mem_children_iff := by
    intro p id
    rw [hst.parent, hst.children]
    exact h.mem_children_iff
  nodup_children p := hst.children p ▸ h.nodup_children p
  climbs id hid := by
    obtain ⟨l, hl⟩ := h.climbs id (hst.size ▸ hid)
    exact ⟨l, hl.congr hst⟩

theorem empty : (empty : Scene R).IsTree where
  size_pos := Nat.one_pos
  root_parent := rfl
  exists_parent id hid hroot := absurd (Nat.lt_one_iff.mp hid) hroot
  mem_children_iff := by
    intro p id
    have hnode : ∀ j, ((Scene.empty : Scene R).node j).children = [] ∧
        ((Scene.empty : Scene R).node j).parent = none := by
      intro j
      cases j with
      | zero => exact ⟨rfl, rfl⟩
      | succ j => rw [node_of_size_le (Nat.succ_le_succ (Nat.zero_le j))]; exact ⟨rfl, rfl⟩
    rw [(hnode p).1, (hnode id).2]
    simp
  nodup_children p := by
    cases p with
    | zero => exact List.nodup_nil
    | succ p => rw [node_of_size_le (Nat.succ_le_succ (Nat.zero_le p))]; exact List.nodup_nil
  climbs id hid := by
    rw [Nat.lt_one_iff.mp hid]
    exact ⟨_, .top rfl⟩

end IsTree

/-! ## A new node -/

section Add

variable {parent : NodeId} (hparent : parent < s.size) (n : Node R)

include hparent

theorem parent_add (j : NodeId) : ((s.add parent n).2.node j).parent =
    if j = s.size then some parent else (s.node j).parent := by
  rw [node_add hparent]
  split_ifs with _ hj
  · rfl
  · rw [hj]
  · rfl

theorem children_add (j : NodeId) : ((s.add parent n).2.node j).children =
    if j = s.size then [] else (s.node j).children ++ if j = parent then [s.size] else [] := by
  rw [node_add hparent]
  split_ifs with _ hj
  · rfl
  · rw [hj]
  · exact (List.append_nil _).symm

/-- The ways up from the nodes that were there are as before. -/
theorem IsTree.climbs_add (h : s.IsTree) {id : NodeId} {l : List NodeId} (hl : s.Climbs id l)
    (hid : id < s.size) : (s.add parent n).2.Climbs id l := by
  induction hl with
  | top htop => exact .top (by rw [parent_add hparent, if_neg (Nat.ne_of_lt hid), htop])
  | up hp _ ih =>
    refine .up ?_ (ih (h.lt_size_of_parent hp).2)
    rw [parent_add hparent, if_neg (Nat.ne_of_lt hid), hp]

/-- A new node is a leaf below its parent. -/
theorem IsTree.add (h : s.IsTree) : (s.add parent n).2.IsTree := by
  have hnew : s.node s.size = default := node_of_size_le (Nat.le_refl _)
  have hchild : ∀ j, s.size ∉ (s.node j).children := by
    intro j hj
    rw [h.mem_children_iff, hnew] at hj
    cases hj
  refine ⟨?_, ?_, ?_, ?_, ?_, ?_⟩
  · rw [size_add]
    exact Nat.succ_pos _
  · rw [parent_add hparent, if_neg (Nat.ne_of_lt h.size_pos), h.root_parent]
  · intro id hid hroot
    rw [parent_add hparent]
    split_ifs with hnewest
    · exact ⟨parent, rfl⟩
    · rw [size_add] at hid
      exact h.exists_parent id (Nat.lt_of_le_of_ne (Nat.le_of_lt_succ hid) hnewest) hroot
  · intro p id
    rw [parent_add hparent, children_add hparent]
    have hmem : id ∈ (s.node p).children ↔ _ := h.mem_children_iff
    have hnone := hchild p
    have hfresh : (s.node id).parent ≠ some s.size := by
      rw [Ne, ← h.mem_children_iff, hnew]
      exact List.not_mem_nil
    grind
  · intro p
    rw [children_add hparent]
    have hnodup := h.nodup_children p
    have hnone := hchild p
    split_ifs
    · exact List.nodup_nil
    · exact List.nodup_append.mpr ⟨hnodup, List.nodup_singleton _, by grind⟩
    · rwa [List.append_nil]
  · intro id hid
    rw [size_add] at hid
    rcases Nat.lt_or_eq_of_le (Nat.le_of_lt_succ hid) with hold | rfl
    · obtain ⟨l, hl⟩ := h.climbs id hold
      exact ⟨l, h.climbs_add hparent n hl hold⟩
    · obtain ⟨l, hl⟩ := h.climbs parent hparent
      exact ⟨_, .up (by rw [parent_add hparent, if_pos rfl]) (h.climbs_add hparent n hl hparent)⟩

end Add

/-! ## A node under another parent -/

/-- What an accepted move to another parent changes: the parent of the node, and who lists it. -/
theorem reparent_spec (h : s.IsTree) {id target : NodeId} (hid : id < s.size) (htarget : target < s.size)
    (hok : s.reparent id target = .ok t) :
    t.size = s.size ∧ id ≠ root ∧ id ∉ s.chain target ∧
      (∀ j, (t.node j).parent = if j = id then some target else (s.node j).parent) ∧
      ∀ j, (t.node j).children =
        (s.node j).children.filter (· ≠ id) ++ if j = target then [id] else [] := by
  unfold reparent at hok
  split_ifs at hok with hroot hcycle
  obtain ⟨old, hold⟩ := h.exists_parent id hid hroot
  have hother : ∀ j, j ≠ old → (s.node j).children.filter (· ≠ id) = (s.node j).children := by
    intro j hj
    refine List.filter_eq_self.mpr fun c hc => decide_eq_true fun hcid => hj ?_
    rw [hcid, h.mem_children_iff, hold] at hc
    exact (Option.some.inj hc).symm
  have hout := h.lt_size_of_parent hold
  simp only [hold] at hok
  cases hok
  refine ⟨by simp only [size_modify], hroot, fun hmem => hcycle (List.contains_iff_mem.mpr hmem), ?_, ?_⟩
  · intro j
    simp only [node_modify, size_modify]
    split_ifs with h₁ h₂ h₃ h₄ <;> grind
  · intro j
    have hj := hother j
    simp only [node_modify, size_modify]
    split_ifs <;> grind

/-- A move of a node with all below it keeps the tree, since its new parent is not below it. -/
theorem IsTree.reparent (h : s.IsTree) {id target : NodeId} (hid : id < s.size) (htarget : target < s.size)
    (hok : s.reparent id target = .ok t) : t.IsTree := by
  obtain ⟨hsize, hroot, hbelow, hparent, hchildren⟩ := reparent_spec h hid htarget hok
  have hway : ∀ {j l}, s.Climbs j l → j < s.size → id ∉ s.chain j → t.Climbs j l := by
    intro j l hl hj
    induction hl with
    | top htop =>
      intro hmem
      refine .top ?_
      rw [hparent, if_neg (fun hji : _ = id => hmem (hji ▸ h.mem_chain_self hj)), htop]
    | up hp _ ih =>
      intro hmem
      rw [h.chain_eq_cons hp, List.mem_cons, not_or] at hmem
      refine .up ?_ (ih (h.lt_size_of_parent hp).2 hmem.2)
      rw [hparent, if_neg (Ne.symm hmem.1), hp]
  obtain ⟨above, habove⟩ := h.climbs target htarget
  have hmoved : t.Climbs id (id :: above) :=
    .up (by rw [hparent, if_pos rfl]) (hway habove htarget hbelow)
  refine ⟨hsize ▸ h.size_pos, ?_, ?_, ?_, ?_, ?_⟩
  · rw [hparent, if_neg (Ne.symm hroot), h.root_parent]
  · intro j hj hjroot
    rw [hparent]
    split_ifs
    · exact ⟨target, rfl⟩
    · exact h.exists_parent j (hsize ▸ hj) hjroot
  · intro p j
    rw [hparent, hchildren]
    have hmem : j ∈ (s.node p).children ↔ _ := h.mem_children_iff
    grind
  · intro p
    rw [hchildren]
    have hnodup := (h.nodup_children p).filter (· ≠ id)
    split_ifs
    · exact List.nodup_append.mpr ⟨hnodup, List.nodup_singleton _, by grind⟩
    · rwa [List.append_nil]
  · intro j hj
    -- The way up from a node below the moved one is the old one as far as that node.
    refine h.induction_up (P := fun j => ∃ l, t.Climbs j l) ⟨_, .top ?_⟩ (fun k p hp hk => ?_) j
      (hsize ▸ hj)
    · rw [hparent, if_neg (Ne.symm hroot), h.root_parent]
    · by_cases hkid : k = id
      · exact ⟨_, hkid ▸ hmoved⟩
      · obtain ⟨l, hl⟩ := hk
        exact ⟨_, .up (by rw [hparent, if_neg hkid, hp]) hl⟩

/-! ## What a program can make -/

/-- The scenes that a program can make. A node that is added may be any, also a copy of one that is in
the scene; what is set of a node is anything but its place in the tree. A move that is refused makes no
new scene. -/
inductive Reachable : Scene R → Prop
  | empty : Reachable empty
  | add {s : Scene R} (hs : Reachable s) {parent} (hparent : parent < s.size) (n : Node R) :
      Reachable (s.add parent n).2
  | reparent {s t : Scene R} (hs : Reachable s) {id target} (hid : id < s.size)
      (htarget : target < s.size) (hok : s.reparent id target = .ok t) : Reachable t
  | update {s : Scene R} (hs : Reachable s) (dt : R) : Reachable (s.update dt)
  | modify {s : Scene R} (hs : Reachable s) (id : NodeId) {f} (hf : Node.KeepsLinks f) :
      Reachable (s.modify id f)

theorem Reachable.isTree (h : s.Reachable) : s.IsTree := by
  induction h with
  | empty => exact IsTree.empty
  | add _ hparent n ih => exact ih.add hparent n
  | reparent _ hid htarget hok ih => exact ih.reparent hid htarget hok
  | update _ dt ih => exact ih.congr (sameLinks_update _ dt)
  | modify _ id hf ih => exact ih.congr (sameLinks_modify _ id hf)

end Cutscene.Scene
