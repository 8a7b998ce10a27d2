import Cutscene.Proofs.Scene.Preorder
import Cutscene.Script.Context

/-!
# Moves to another parent

A move looks for a cycle along the parents and edits the children. Here is all that it does: when it is
refused, what it writes when it is not, and what becomes of the positions, which are sums along the way
up and so change with every node above.

On `SceneGraph.reparent`: it is atomic, and absolute positions are sums (SPEC_FULL.md, §3 and §8).

Results:
* `reparent_eq_error_iff`: the moves that are refused.
* `node_reparent`: the nodes after a move, with all their fields.
* `absolutePosition_reparent_of_mem`, `absolutePosition_reparent_of_not_mem`: the positions.
* `reparent_exact`: what a move is, in every scene that a program can make.
-/

namespace Cutscene

namespace Offset

instance : Sub Offset := ⟨fun p q => ⟨p.x - q.x, p.y - q.y, p.z - q.z⟩⟩

theorem add_add_sub_cancel (p q r : Offset) : p + q + (r - q) = p + r := by
  change (⟨p.x + q.x + (r.x - q.x), p.y + q.y + (r.y - q.y), p.z + q.z + (r.z - q.z)⟩ : Offset) =
    ⟨p.x + r.x, p.y + r.y, p.z + r.z⟩
  have hword : ∀ a b c : Int32, a + b + (c - b) = a + c := by
    intro a b c
    rw [Int32.add_assoc, Int32.add_comm b, Int32.sub_add_cancel]
  rw [hword, hword, hword]

end Offset

namespace Scene

variable {R : Type} [Scalar R] {s t : Scene R} {id target old : NodeId}

namespace IsTree

theorem absolutePosition_root (h : s.IsTree) : s.absolutePosition root = (s.node root).offset := by
  unfold absolutePosition
  rw [h.chain_root, List.foldl_cons, List.foldl_nil, Offset.zero_add]

/-- A move is refused for the root, and to the node itself and what is below it. -/
theorem reparent_eq_error_iff (h : s.IsTree) (hid : id < s.size) (htarget : target < s.size) :
    (∃ e, s.reparent id target = .error e) ↔ id = root ∨ target ∈ s.subtree id := by
  rw [h.mem_subtree_iff hid, and_iff_right htarget, ← List.contains_iff_mem]
  unfold Scene.reparent
  split_ifs with hroot hcycle
  · exact iff_of_true ⟨_, rfl⟩ (Or.inl hroot)
  · exact iff_of_true ⟨_, rfl⟩ (Or.inr hcycle)
  · refine iff_of_false ?_ (not_or.mpr ⟨hroot, hcycle⟩)
    rintro ⟨e, he⟩
    cases he

/-- The nodes after a move. The old parent and the new one may be the same. -/
theorem node_reparent (h : s.IsTree) (hid : id < s.size) (htarget : target < s.size)
    (hold : (s.node id).parent = some old) (hok : s.reparent id target = .ok t) (j : NodeId) :
    t.node j = { s.node j with
      parent := if j = id then some target else (s.node j).parent
      children := (if j = old then (s.node j).children.erase id else (s.node j).children) ++
        if j = target then [id] else [] } := by
  have hne : old ≠ id := by
    rintro rfl
    exact h.not_mem_chain_of_parent hold (h.mem_chain_self hid)
  have hchildren : (s.node old).children.filter (· ≠ id) = (s.node old).children.erase id := by
    rw [(h.nodup_children old).erase_eq_filter]
    exact List.filter_congr fun c _ => by grind
  have hdetached : ∀ j, ((s.modify old fun p => { p with children := p.children.filter (· ≠ id) }).node j) =
      { s.node j with
        children := if j = old then (s.node j).children.erase id else (s.node j).children } := by
    intro j
    rw [node_modify]
    split_ifs with hj hjold hjold
    · rw [hjold, hchildren]
    · exact absurd hj.1 hjold
    · exact absurd ⟨hjold, (h.lt_size_of_parent hold).2⟩ hj
    · rfl
  unfold Scene.reparent at hok
  split_ifs at hok with hroot hcycle
  have htid : target ≠ id := by
    rintro rfl
    exact hcycle (List.contains_iff_mem.mpr (h.mem_chain_self hid))
  simp only [hold] at hok
  cases hok
  by_cases hj : j = id
  · subst hj
    rw [node_modify_self (by simpa using hid), node_modify_of_ne htid.symm, hdetached,
      if_pos rfl, if_neg hne.symm, if_neg htid.symm, List.append_nil]
  rw [node_modify_of_ne hj, if_neg hj]
  by_cases hjt : j = target
  · subst hjt
    rw [node_modify_self (by simpa using htarget), hdetached, if_pos rfl]
  · rw [node_modify_of_ne hjt, hdetached, if_neg hjt, List.append_nil]

section Moved

variable (h : s.IsTree) (hid : id < s.size) (htarget : target < s.size)
  (hold : (s.node id).parent = some old) (hok : s.reparent id target = .ok t)

include h hid htarget hold hok

theorem offset_reparent (j : NodeId) : (t.node j).offset = (s.node j).offset := by
  rw [h.node_reparent hid htarget hold hok]

/-- What is not below the moved node has the same nodes above it. -/
theorem absolutePosition_reparent_of_not_mem {j : NodeId} (hj : j < s.size) (hout : j ∉ s.subtree id) :
    t.absolutePosition j = s.absolutePosition j := by
  have ht : t.IsTree := h.reparent hid htarget hok
  obtain ⟨-, -, -, hparent, -⟩ := reparent_spec h hid htarget hok
  rw [h.mem_subtree_iff hid, and_iff_right hj] at hout
  revert hout
  refine h.induction_up (P := fun j => id ∉ s.chain j → t.absolutePosition j = s.absolutePosition j)
    ?_ ?_ j hj
  · intro _
    rw [ht.absolutePosition_root, h.absolutePosition_root, h.offset_reparent hid htarget hold hok]
  · intro j p hp ih hout
    rw [h.chain_eq_cons hp, List.mem_cons, not_or] at hout
    have hp' : (t.node j).parent = some p := by rw [hparent, if_neg (Ne.symm hout.1), hp]
    rw [ht.absolutePosition_eq hp', h.absolutePosition_eq hp, ih hout.2,
      h.offset_reparent hid htarget hold hok]

/-- The moved node, and all below it, leave the position of the old parent for that of the new one. -/
theorem absolutePosition_reparent_of_mem {j : NodeId} (hj : j ∈ s.subtree id) :
    t.absolutePosition j =
      s.absolutePosition j + (s.absolutePosition target - s.absolutePosition old) := by
  have ht : t.IsTree := h.reparent hid htarget hok
  obtain ⟨-, hroot, hcycle, hparent, -⟩ := reparent_spec h hid htarget hok
  have htarget' : t.absolutePosition target = s.absolutePosition target :=
    h.absolutePosition_reparent_of_not_mem hid htarget hold hok htarget
      fun hmem => hcycle ((h.mem_subtree_iff hid).mp hmem).2
  obtain ⟨hj, hbelow⟩ := (h.mem_subtree_iff hid).mp hj
  revert hbelow
  -- The way up from below the moved node is the old one as far as that node.
  refine h.induction_up (P := fun j => id ∈ s.chain j → t.absolutePosition j =
    s.absolutePosition j + (s.absolutePosition target - s.absolutePosition old)) ?_ ?_ j hj
  · rw [h.chain_root, List.mem_singleton]
    exact fun hid => absurd hid hroot
  · intro j p hp ih hbelow
    by_cases hji : j = id
    · subst hji
      cases hold.symm.trans hp
      have hp' : (t.node j).parent = some target := by rw [hparent, if_pos rfl]
      rw [ht.absolutePosition_eq hp', h.absolutePosition_eq hp, htarget',
        h.offset_reparent hid htarget hold hok, Offset.add_add_sub_cancel]
    · rw [h.chain_eq_cons hp, List.mem_cons] at hbelow
      have hp' : (t.node j).parent = some p := by rw [hparent, if_neg hji, hp]
      rw [ht.absolutePosition_eq hp', h.absolutePosition_eq hp, ih (hbelow.resolve_left (Ne.symm hji)),
        h.offset_reparent hid htarget hold hok, Offset.add_assoc]

end Moved

/-- The walk meets the nodes that it met before. -/
theorem perm_descendants_reparent (h : s.IsTree) (hid : id < s.size) (htarget : target < s.size)
    (hok : s.reparent id target = .ok t) : t.descendants.Perm s.descendants := by
  have ht : t.IsTree := h.reparent hid htarget hok
  refine (List.perm_ext_iff_of_nodup ht.nodup_descendants h.nodup_descendants).mpr fun j => ?_
  rw [ht.mem_descendants_iff, h.mem_descendants_iff, (reparent_spec h hid htarget hok).1]

end IsTree

/-! ## What a move is -/

/-- The second scene is the first one with a node moved from its parent to another one, which may be
the same. -/
structure Moved (s t : Scene R) (id old target : NodeId) : Prop where
  size : t.size = s.size
  /-- The node becomes the last child of the new parent. All else that is said of any node, and the
  order of the other children, is as before. -/
  node : ∀ j, t.node j = { s.node j with
    parent := if j = id then some target else (s.node j).parent
    children := (if j = old then (s.node j).children.erase id else (s.node j).children) ++
      if j = target then [id] else [] }
  /-- All that is below the node moves along. -/
  position_below : ∀ j ∈ s.subtree id, t.absolutePosition j =
    s.absolutePosition j + (s.absolutePosition target - s.absolutePosition old)
  position_else : ∀ j < s.size, j ∉ s.subtree id → t.absolutePosition j = s.absolutePosition j
  descendants : t.descendants.Perm s.descendants

/-- A move is refused or done, and nothing is done when it is refused. -/
structure ReparentLaw (s : Scene R) (id target : NodeId) : Prop where
  /-- The root stays, and no node goes below itself. -/
  refused_iff : (∃ e, s.reparent id target = .error e) ↔ id = root ∨ target ∈ s.subtree id
  /-- Whoever asks for a move that is refused keeps the scene that he had. -/
  scene_of_error : ∀ c : Context R, c.scene = s → ∀ e, s.reparent id target = .error e →
    (c.reparent id target).scene = s
  scene_of_ok : ∀ c : Context R, c.scene = s → ∀ t, s.reparent id target = .ok t →
    (c.reparent id target).scene = t
  moved : ∀ t, s.reparent id target = .ok t →
    ∃ old, (s.node id).parent = some old ∧ s.Moved t id old target

/-- **A move to another parent is exact, and it is done at once or not at all**: it is refused for the
root and for a way below the node itself, and then the scene stays. Else it changes the parent of the
node, the two lists of children and the positions below the node, and nothing more. -/
theorem reparent_exact (hs : s.Reachable) (hid : id < s.size) (htarget : target < s.size) :
    s.ReparentLaw id target :=
  have h := hs.isTree
  { refused_iff := h.reparent_eq_error_iff hid htarget
    scene_of_error := by
      rintro c rfl e he
      unfold Context.reparent
      rw [he]
      rfl
    scene_of_ok := by
      rintro c rfl t ht
      unfold Context.reparent
      rw [ht]
      rfl
    moved := by
      intro t ht
      obtain ⟨old, hold⟩ := h.exists_parent id hid (reparent_spec h hid htarget ht).2.1
      exact ⟨old, hold,
        { size := (reparent_spec h hid htarget ht).1
          node := h.node_reparent hid htarget hold ht
          position_below := fun j hj => h.absolutePosition_reparent_of_mem hid htarget hold ht hj
          position_else := fun j hj hout =>
            h.absolutePosition_reparent_of_not_mem hid htarget hold ht hj hout
          descendants := h.perm_descendants_reparent hid htarget ht }⟩ }

/-- Two nodes at the root, and below the first one two more, one below the other. -/
def shelf : Scene Rat :=
  let left := (empty.add root { Node.group "Left" with offset := ⟨1, 0, 0⟩ }).2
  let right := (left.add root { Node.group "Right" with offset := ⟨10, 5, 0⟩ }).2
  let box := (right.add 1 { Node.group "Box" with offset := ⟨100, 0, 2⟩ }).2
  (box.add 3 { Node.group "Lid" with offset := ⟨0, 1, 0⟩ }).2

/-- The box goes to the right with its lid. The left one cannot go below the lid. -/
theorem reparent_exact_shelf : shelf.Reachable ∧ shelf.ReparentLaw 3 2 ∧ shelf.ReparentLaw 1 4 ∧
    (∃ t, shelf.reparent 3 2 = .ok t ∧ shelf.Moved t 3 1 2 ∧ t.absolutePosition 4 = ⟨110, 6, 2⟩) ∧
    ∃ e, shelf.reparent 1 4 = .error e := by
  have hshelf : shelf.Reachable :=
    (((Reachable.empty.add (by decide) _).add (by decide) _).add (by decide) _).add (by decide) _
  have hbox : shelf.ReparentLaw 3 2 := reparent_exact hshelf (by decide) (by decide)
  have hleft : shelf.ReparentLaw 1 4 := reparent_exact hshelf (by decide) (by decide)
  refine ⟨hshelf, hbox, hleft, ?_, hleft.refused_iff.mpr (by decide)⟩
  obtain ⟨t, ht, hposition⟩ : ∃ t, shelf.reparent 3 2 = .ok t ∧ t.absolutePosition 4 = ⟨110, 6, 2⟩ :=
    ⟨_, rfl, by decide⟩
  obtain ⟨old, hold, hmoved⟩ := hbox.moved t ht
  cases hold
  exact ⟨t, ht, hmoved, hposition⟩

end Scene

end Cutscene
