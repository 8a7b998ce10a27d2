import Mathlib
import Cutscene.Proofs.Scene.Preorder
import Cutscene.Scene.Paint

/-!
# The order of painting

A scene is painted by one sort of all its nodes. The sort is stable, so nodes of equal depth stay as the
walk comes to them, wherever in the tree they are; and the depth is that of the node alone, so a node
may be painted before its parent.

On `SceneGraph.paint_order` and `render` (SPEC_FULL.md, §4.1 and §8).

Results:
* `idxOf_mergeSort_lt_iff`: the order that a stable sort leads to.
* `position_drawItem`: where an item is painted, as a sum of whole numbers.
* `paintItems_overseen`: what a draw target is asked to paint, until it refuses.
* `paintOrder_sublist`: what is painted of a list of all nodes from back to front.
* `painted_by_depth`: the order of painting and the items painted, for every scene that a program can
  make.
-/

namespace Cutscene

/-! ## Stable sorting -/

section Sorting

open scoped List

variable {α : Type} {l : List α} {a b : α}

/-- Of two members one comes before the other. -/
theorem pair_sublist_or (ha : a ∈ l) (hb : b ∈ l) (hne : a ≠ b) : [a, b] <+ l ∨ [b, a] <+ l := by
  have hsymm : Std.Symm fun a b : α => [a, b] <+ l ∨ [b, a] <+ l := ⟨fun _ _ => Or.symm⟩
  have hpairs : l.Pairwise fun a b => [a, b] <+ l ∨ [b, a] <+ l :=
    List.pairwise_iff_forall_sublist.mpr Or.inl
  exact hpairs.forall ha hb hne

variable [DecidableEq α]

/-- Without repetitions, the places of two members say which of them comes first. -/
theorem idxOf_lt_iff (h : l.Nodup) (ha : a ∈ l) (hb : b ∈ l) :
    l.idxOf a < l.idxOf b ↔ [a, b] <+ l := by
  have hplaces : l.Pairwise fun a b => l.idxOf a < l.idxOf b := by
    refine List.pairwise_iff_getElem.mpr fun i j hi hj hij => ?_
    rwa [h.idxOf_getElem, h.idxOf_getElem]
  have hlt : ∀ {a b}, [a, b] <+ l → l.idxOf a < l.idxOf b := List.pairwise_iff_forall_sublist.mp hplaces
  refine ⟨fun hab => ?_, hlt⟩
  have hne : a ≠ b := by
    rintro rfl
    exact Nat.lt_irrefl _ hab
  exact (pair_sublist_or ha hb hne).resolve_right fun hba => Nat.lt_asymm hab (hlt hba)

/-- Members keep their order when others are left out. -/
theorem idxOf_lt_iff_of_sublist {part : List α} (hpart : part <+ l) (h : l.Nodup) (ha : a ∈ part)
    (hb : b ∈ part) : part.idxOf a < part.idxOf b ↔ l.idxOf a < l.idxOf b := by
  have hlt : ∀ {a b}, a ∈ part → b ∈ part → part.idxOf a < part.idxOf b → l.idxOf a < l.idxOf b := by
    intro a b ha hb hab
    rw [idxOf_lt_iff (hpart.nodup h) ha hb] at hab
    exact (idxOf_lt_iff h (hpart.subset ha) (hpart.subset hb)).mpr (hab.trans hpart)
  refine ⟨hlt ha hb, fun hab => ?_⟩
  refine Nat.lt_of_le_of_ne (Nat.le_of_not_lt fun hba => Nat.lt_asymm hab (hlt hb ha hba)) fun heq => ?_
  rw [(List.idxOf_inj ha).mp heq] at hab
  exact Nat.lt_irrefl _ hab

variable {sorted : List α} {key : α → Int32}

/-- A list that is sorted, and in which members of equal keys are as before, has the members in the
lexicographic order of key and former place. -/
theorem idxOf_lt_of_stable (hl : l.Nodup) (hperm : sorted.Perm l)
    (hsorted : sorted.Pairwise fun a b => key a ≤ key b)
    (hkeep : ∀ {a b}, key a ≤ key b → [a, b] <+ l → [a, b] <+ sorted) (ha : a ∈ l) (hb : b ∈ l)
    (h : key a < key b ∨ key a = key b ∧ l.idxOf a < l.idxOf b) : sorted.idxOf a < sorted.idxOf b := by
  have ha' := hperm.mem_iff.mpr ha
  have hb' := hperm.mem_iff.mpr hb
  rw [idxOf_lt_iff (hperm.nodup_iff.mpr hl) ha' hb']
  rcases h with hlt | ⟨heq, hab⟩
  · have hne : a ≠ b := by
      rintro rfl
      exact Int32.lt_irrefl hlt
    refine (pair_sublist_or ha' hb' hne).resolve_right fun hba => Int32.not_le.mpr hlt ?_
    exact List.pairwise_iff_forall_sublist.mp hsorted hba
  · exact hkeep (Int32.le_of_eq heq) ((idxOf_lt_iff hl ha hb).mp hab)

/-- A stable sort leads to the lexicographic order of key and former place, and to no other. -/
theorem idxOf_mergeSort_lt_iff (key : α → Int32) (hl : l.Nodup) (ha : a ∈ l) (hb : b ∈ l) :
    (l.mergeSort fun a b => key a ≤ key b).idxOf a < (l.mergeSort fun a b => key a ≤ key b).idxOf b ↔
      key a < key b ∨ key a = key b ∧ l.idxOf a < l.idxOf b := by
  have htrans : ∀ a b c : α, decide (key a ≤ key b) = true → decide (key b ≤ key c) = true →
      decide (key a ≤ key c) = true := by
    intro a b c hab hbc
    exact decide_eq_true (Int32.le_trans (of_decide_eq_true hab) (of_decide_eq_true hbc))
  have htotal : ∀ a b : α, (decide (key a ≤ key b) || decide (key b ≤ key a)) = true := by
    intro a b
    rw [Bool.or_eq_true, decide_eq_true_iff, decide_eq_true_iff]
    exact Int32.le_total _ _
  have hstable : ∀ {a b}, a ∈ l → b ∈ l → key a < key b ∨ key a = key b ∧ l.idxOf a < l.idxOf b → _ :=
    fun {a b} => idxOf_lt_of_stable hl (List.mergeSort_perm l _)
      ((List.pairwise_mergeSort htrans htotal l).imp of_decide_eq_true)
      fun hkey => List.pair_sublist_mergeSort htrans htotal (decide_eq_true hkey)
  refine ⟨fun hab => ?_, hstable ha hb⟩
  -- If it were not so, the order of the two would be the other way round.
  by_contra hnot
  refine Nat.lt_asymm hab (hstable hb ha ?_)
  rcases Int32.lt_or_eq_of_le (Int32.not_lt.mp fun hlt => hnot (Or.inl hlt)) with hlt | heq
  · exact Or.inl hlt
  · refine Or.inr ⟨heq, Nat.lt_of_le_of_ne (Nat.le_of_not_lt fun hlt => hnot (Or.inr ⟨heq.symm, hlt⟩)) ?_⟩
    intro hplace
    rw [(List.idxOf_inj hb).mp hplace] at hab
    exact Nat.lt_irrefl _ hab

end Sorting

/-! ## Sums of words -/

/-- The word holds the number, if that is one that a word can hold. -/
def Holds (word : Int32) (n : Int) : Prop := -2 ^ 31 ≤ n → n < 2 ^ 31 → word.toInt = n

theorem holds_ofInt (n : Int) : Holds (.ofInt n) n := Int32.toInt_ofInt_of_le

/-- A coordinate of a sum is the word of the sum of the coordinates, whatever the sums on the way to it
are. -/
theorem coord_foldl_add {α β : Type} [Add β] {coord : β → Int32}
    (hadd : ∀ p q, coord (p + q) = coord p + coord q) (f : α → β) (l : List α) (start : β) :
    coord (l.foldl (fun sum a => sum + f a) start) =
      coord start + .ofInt (l.map fun a => (coord (f a)).toInt).sum := by
  induction l generalizing start with
  | nil => exact (Int32.add_zero _).symm
  | cons a r ih =>
    rw [List.foldl_cons, ih, hadd, List.map_cons, List.sum_cons, Int32.ofInt_add, Int32.ofInt_toInt,
      Int32.add_assoc]

namespace Scene

variable {R : Type} [Scalar R] {s : Scene R} {id : NodeId}

/-- The sum of a coordinate of the offsets and of the shakes of nodes. -/
def reach (s : Scene R) (offset : Offset → Int32) (shake : Point → Int32) (ids : List NodeId) : Int :=
  (ids.map fun i => (offset (s.node i).offset).toInt).sum +
    (ids.map fun i => (shake (s.node i).displacement).toInt).sum

theorem coord_absolutePosition (coord : Offset → Int32) (hadd : ∀ p q, coord (p + q) = coord p + coord q)
    (hzero : coord .zero = 0) : coord (s.absolutePosition id) =
      .ofInt ((s.chain id).map fun i => (coord (s.node i).offset).toInt).sum := by
  unfold absolutePosition
  rw [coord_foldl_add hadd, hzero, Int32.zero_add]

theorem coord_absoluteDisplacement (coord : Point → Int32)
    (hadd : ∀ p q, coord (p + q) = coord p + coord q) (hzero : coord .zero = 0) :
    coord (s.absoluteDisplacement id) =
      .ofInt ((s.chain id).map fun i => (coord (s.node i).displacement).toInt).sum := by
  unfold absoluteDisplacement
  rw [coord_foldl_add hadd, hzero, Int32.zero_add]

/-- Both coordinates of the position of an item are the words of what its chain adds up to. -/
theorem position_drawItem (s : Scene R) (id : NodeId) :
    (s.drawItem id).position =
      ⟨.ofInt (s.reach Offset.x Point.x (s.chain id)), .ofInt (s.reach Offset.y Point.y (s.chain id))⟩ := by
  unfold reach
  rw [Int32.ofInt_add, Int32.ofInt_add,
    ← coord_absolutePosition Offset.x (fun _ _ => rfl) rfl,
    ← coord_absolutePosition Offset.y (fun _ _ => rfl) rfl,
    ← coord_absoluteDisplacement Point.x (fun _ _ => rfl) rfl,
    ← coord_absoluteDisplacement Point.y (fun _ _ => rfl) rfl]
  rfl

end Scene

/-! ## Calls on a draw target -/

/-- A draw target that writes down every item it is asked to paint, with the answer of the target behind
it. -/
structure Overseen (R σ : Type) where
  target : σ
  calls : List (DrawItem R × Except Error Unit)

instance {R σ : Type} [DrawTarget R σ] : DrawTarget R (Overseen R σ) where
  draw item o :=
    let painted := DrawTarget.draw item o.target
    (painted.1, ⟨painted.2, o.calls ++ [(item, painted.1)]⟩)

section Paints

variable {R σ : Type} [DrawTarget R σ]

/-- Items are painted one after another, and after one that is refused no further one is asked for: the
calls made, what it comes to and what is left of the target. -/
inductive Paints : List (DrawItem R) → σ → List (DrawItem R × Except Error Unit) →
    Except Error Unit → σ → Prop
  | done {state} : Paints [] state [] (.ok ()) state
  | painted {item r state next calls outcome last}
      (hdraw : DrawTarget.draw item state = (.ok (), next)) (h : Paints r next calls outcome last) :
      Paints (item :: r) state ((item, .ok ()) :: calls) outcome last
  | refused {item r state e last} (hdraw : DrawTarget.draw item state = (.error e, last)) :
      Paints (item :: r) state [(item, .error e)] (.error e) last

/-- Writing the calls down makes no difference, and what is written down are the calls made. -/
theorem paintItems_overseen (items : List (DrawItem R)) (state : σ)
    (before : List (DrawItem R × Except Error Unit)) :
    ∃ calls, Paints items state calls (paintItems items state).1 (paintItems items state).2 ∧
      paintItems items (⟨state, before⟩ : Overseen R σ) =
        ((paintItems items state).1, ⟨(paintItems items state).2, before ++ calls⟩) := by
  induction items generalizing state before with
  | nil => exact ⟨[], .done, by rw [List.append_nil]; rfl⟩
  | cons item r ih =>
    have hover : DrawTarget.draw item (⟨state, before⟩ : Overseen R σ) =
        ((DrawTarget.draw item state).1,
          ⟨(DrawTarget.draw item state).2, before ++ [(item, (DrawTarget.draw item state).1)]⟩) := rfl
    unfold paintItems
    rw [hover]
    cases hdraw : DrawTarget.draw item state with
    | mk answer next =>
      cases answer with
      | error e => exact ⟨_, .refused hdraw, rfl⟩
      | ok _ =>
        obtain ⟨calls, hpaints, hcalls⟩ := ih next (before ++ [(item, .ok ())])
        refine ⟨_, .painted hdraw hpaints, ?_⟩
        simp only [hcalls, List.append_assoc, List.singleton_append]

end Paints

namespace Scene

variable {R : Type} [Scalar R] {s : Scene R} {id : NodeId}

/-! ## What is painted -/

/-- A node is of less depth than another one, or of equal depth and before it in the recursive order. -/
def Behind (s : Scene R) (a b : NodeId) : Prop :=
  (s.node a).offset.z < (s.node b).offset.z ∨ (s.node a).offset.z = (s.node b).offset.z ∧
    (s.subtree root).idxOf a < (s.subtree root).idxOf b

theorem Behind.asymm {a b : NodeId} (h : s.Behind a b) : ¬s.Behind b a := by
  rintro (hz | ⟨hz, hplace⟩)
  · rcases h with h | ⟨h, -⟩
    · exact Int32.lt_asymm h hz
    · exact Int32.lt_irrefl (h ▸ hz)
  · rcases h with h | ⟨-, h⟩
    · exact Int32.lt_irrefl (hz ▸ h)
    · exact Nat.lt_asymm h hplace

namespace IsTree

variable (h : s.IsTree)

include h

theorem nodup_paintOrder : s.paintOrder.Nodup :=
  (List.mergeSort_perm _ _).nodup_iff.mpr (h.nodup_descendants.filter _)

theorem mem_paintOrder_iff : id ∈ s.paintOrder ↔ id < s.size ∧ id ≠ root ∧ s.absoluteVisibility id := by
  unfold paintOrder
  rw [List.mem_mergeSort, List.mem_filter, h.mem_descendants_iff, and_assoc]

theorem idxOf_paintOrder_lt_iff {a b : NodeId} (ha : a ∈ s.paintOrder) (hb : b ∈ s.paintOrder) :
    s.paintOrder.idxOf a < s.paintOrder.idxOf b ↔
      (s.node a).offset.z < (s.node b).offset.z ∨ (s.node a).offset.z = (s.node b).offset.z ∧
        (s.subtree root).idxOf a < (s.subtree root).idxOf b := by
  have hnodup := h.nodup_subtree h.size_pos
  have hpart : (s.descendants.filter s.absoluteVisibility).Sublist (s.subtree root) := by
    rw [h.subtree_root]
    exact List.filter_sublist.trans (List.sublist_cons_self _ _)
  unfold paintOrder at ha hb ⊢
  rw [List.mem_mergeSort] at ha hb
  rw [idxOf_mergeSort_lt_iff (fun id => (s.node id).offset.z) (hpart.nodup hnodup) ha hb,
    idxOf_lt_iff_of_sublist hpart hnodup ha hb]

/-- Of two nodes painted the one behind the other comes first. -/
theorem pairwise_paintOrder : s.paintOrder.Pairwise s.Behind := by
  refine List.pairwise_iff_getElem.mpr fun i j hi hj hij => ?_
  refine (h.idxOf_paintOrder_lt_iff (List.getElem_mem hi) (List.getElem_mem hj)).mp ?_
  rwa [h.nodup_paintOrder.idxOf_getElem, h.nodup_paintOrder.idxOf_getElem]

/-- Of a list of all nodes, each one behind those after it, some are painted, in the order of the list. -/
theorem paintOrder_sublist {layers : List NodeId} (hlayers : layers.Pairwise s.Behind)
    (hall : ∀ id < s.size, id ≠ root → id ∈ layers) : s.paintOrder.Sublist layers := by
  have hantisymm : Std.Antisymm s.Behind := ⟨fun _ _ hab hba => (hab.asymm hba).elim⟩
  have hsub : s.paintOrder ⊆ layers := by
    intro id hid
    obtain ⟨hlt, hroot, -⟩ := h.mem_paintOrder_iff.mp hid
    exact hall id hlt hroot
  exact List.sublist_of_subperm_of_pairwise (h.nodup_paintOrder.subperm hsub) h.pairwise_paintOrder hlayers

end IsTree

/-- The order of painting and the items painted, told by the tree alone. -/
structure PaintLaw (s : Scene R) : Prop where
  /-- Each node is painted at most once. -/
  nodup : s.paintOrder.Nodup
  /-- Painted is every node but the root whose way up to the root is visible all along. -/
  mem_iff : ∀ id, id ∈ s.paintOrder ↔ id < s.size ∧ id ≠ root ∧
    ∃ way, s.Climbs id way ∧ way.getLast? = some root ∧ ∀ j ∈ way, (s.node j).visible = true
  /-- The recursive order of the tree: a node, and then what is below each of its children. -/
  preorder : ∀ id < s.size, s.subtree id = id :: (s.node id).children.flatMap s.subtree
  /-- Of two nodes the one of less depth is painted first, its own depth without that of its parents;
  of nodes of equal depth the one that comes first in the recursive order. -/
  before_iff : ∀ a ∈ s.paintOrder, ∀ b ∈ s.paintOrder,
    s.paintOrder.idxOf a < s.paintOrder.idxOf b ↔
      (s.node a).offset.z < (s.node b).offset.z ∨ (s.node a).offset.z = (s.node b).offset.z ∧
        (s.subtree root).idxOf a < (s.subtree root).idxOf b
  /-- An item is made of every node in this order that has anything to paint. -/
  items : s.drawItems.map DrawItem.node = s.paintOrder.filter fun id => !(s.node id).payload.isNone
  contents : ∀ item ∈ s.drawItems, item.name = (s.node item.node).name ∧
    item.payload = (s.node item.node).payload ∧ item.clock = (s.node item.node).clock
  /-- It is painted at the sum of the offsets and the shakes on the way up, if that fits. -/
  position : ∀ item ∈ s.drawItems, ∀ way, s.Climbs item.node way →
    Holds item.position.x (s.reach Offset.x Point.x way) ∧
      Holds item.position.y (s.reach Offset.y Point.y way)
  /-- Whatever paints is asked for the items in turn, until it refuses one. -/
  calls : ∀ (σ : Type) [DrawTarget R σ] (state : σ),
    ∃ calls, Paints s.drawItems state calls (s.render state).1 (s.render state).2 ∧
      s.render (⟨state, []⟩ : Overseen R σ) = ((s.render state).1, ⟨(s.render state).2, calls⟩)

/-- **Every scene that a program can make is painted by depth**, nodes of equal depth in the order of
the walk, without what is hidden, and every item where its chain puts it. -/
theorem painted_by_depth (hs : s.Reachable) : s.PaintLaw :=
  have h := hs.isTree
  { nodup := h.nodup_paintOrder
    mem_iff := by
      intro id
      rw [h.mem_paintOrder_iff]
      refine and_congr_right fun hid => and_congr_right fun _ => ?_
      unfold absoluteVisibility
      rw [List.all_eq_true]
      constructor
      · exact fun hvisible => ⟨s.chain id, h.climbs_chain hid, h.getLast?_chain id hid, hvisible⟩
      · rintro ⟨way, hway, -, hvisible⟩
        rwa [(h.climbs_chain hid).unique hway]
    preorder := fun id hid => h.subtree_eq hid
    before_iff := fun a ha b hb => h.idxOf_paintOrder_lt_iff ha hb
    items := by
      unfold drawItems
      rw [List.map_map]
      exact List.map_id _
    contents := by
      intro item hitem
      obtain ⟨id, -, rfl⟩ := List.mem_map.mp hitem
      exact ⟨rfl, rfl, rfl⟩
    position := by
      intro item hitem way hway
      obtain ⟨id, hid, rfl⟩ := List.mem_map.mp hitem
      have hlt := (h.mem_paintOrder_iff.mp (List.mem_filter.mp hid).1).1
      rw [hway.unique (h.climbs_chain hlt), position_drawItem]
      exact ⟨holds_ofInt _, holds_ofInt _⟩
    calls := fun σ _ state => paintItems_overseen s.drawItems state [] }

/-- Two groups of different depths, one of them shaken, with rectangles of equal depths in both and one
that is hidden. -/
def gallery : Scene Rat :=
  let fill (name : String) (x y z : Int32) : Node Rat :=
    (Node.make name (.fill 4 4 .white)).placed x y z
  let left := (empty.add root ((Node.group "Left").placed 10 0 1)).2
  let lamp := (left.add 1 (fill "Lamp" 1 2 0)).2
  let right := (lamp.add root (Node.group "Right")).2
  let chair := (right.add 3 (fill "Chair" 5 5 0)).2
  let ghost := (chair.add 3 (fill "Ghost" 6 6 0).hidden).2
  let desk := (ghost.add 1 (fill "Desk" 7 7 0)).2
  desk.modify 3 fun n => n.startShake 2 1

/-- The lamp is moved below the right group and comes last there. Painted first is the desk, which is
deep although it is below the left group; the left group itself is painted last, after the lamp. -/
theorem painted_by_depth_gallery : gallery.Reachable ∧ ∃ t, gallery.reparent 2 3 = .ok t ∧ t.PaintLaw ∧
    t.descendants = [1, 6, 3, 4, 5, 2] ∧ t.paintOrder = [6, 3, 4, 2, 1] ∧
    t.drawItems.map (fun item => (item.node, item.position)) =
      [(6, ⟨17, 7⟩), (4, ⟨7, 5⟩), (2, ⟨3, 2⟩)] := by
  have hgallery : gallery.Reachable :=
    ((((((Reachable.empty.add (by decide) _).add (by decide) _).add (by decide) _).add (by decide) _).add
      (by decide) _).add (by decide) _).modify _ (fun _ => ⟨rfl, rfl⟩)
  obtain ⟨t, ht, hdescendants, horder, hitems⟩ : ∃ t, gallery.reparent 2 3 = .ok t ∧
      t.descendants = [1, 6, 3, 4, 5, 2] ∧ t.paintOrder = [6, 3, 4, 2, 1] ∧
      t.drawItems.map (fun item => (item.node, item.position)) =
        [(6, ⟨17, 7⟩), (4, ⟨7, 5⟩), (2, ⟨3, 2⟩)] :=
    ⟨_, rfl, by decide, by cbv, by cbv⟩
  have hreachable := hgallery.reparent (by decide) (by decide) ht
  exact ⟨hgallery, t, ht, painted_by_depth hreachable, hdescendants, horder, hitems⟩

end Scene

end Cutscene
