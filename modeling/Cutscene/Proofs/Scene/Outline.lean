import Cutscene.Proofs.Json.Numeral
import Cutscene.Proofs.Scene.Preorder

/-!
# The outline

The outline of a scene is written by a walk of its own, which keeps the depth of every node on its stack next
to the node. It visits the nodes as the other walk does, and the depths that it keeps are how many nodes are
above. A line feed ends every line and stands nowhere else, if it is in no name.

On `SceneGraph.hierarchy` and `find` (SPEC_FULL.md, §B.9).

Results:
* `IsTree.depth_of_parent`: a node is one level below its parent.
* `IsTree.outlineFrom_eq`: the walk with depths, as lines of what the walk without them visits.
* `splitOn_flatMap_lineFeed`: lines that are each ended by a line feed are read back.
* `outline_follows_walk`: the outline, the walk and the search for a name agree.
-/

namespace Cutscene

/-- Lines that are each ended by a line feed are read back, with nothing after the last one. -/
theorem splitOn_flatMap_lineFeed {lines : List (List Char)} (h : ∀ line ∈ lines, '\n' ∉ line) :
    (lines.flatMap (· ++ ['\n'])).splitOn '\n' = lines ++ [[]] := by
  induction lines with
  | nil => rfl
  | cons line r ih =>
    rw [List.flatMap_cons, List.append_assoc, List.singleton_append, List.splitOn_append_cons_self,
      List.splitOn_eq_singleton (h line List.mem_cons_self),
      ih fun l hl => h l (List.mem_cons_of_mem _ hl), List.singleton_append, List.cons_append]

theorem lineFeed_not_mem_int (n : Int) : '\n' ∉ (toString n).toList := by
  have hdigits : '\n' ∉ Nat.toDigits 10 n.natAbs := fun hmem =>
    absurd ((Json.isDigits_toDigits n.natAbs).2 _ hmem) (by decide)
  rw [Json.toList_int, List.mem_append, not_or]
  refine ⟨?_, hdigits⟩
  split_ifs <;> decide

namespace Scene

variable {R : Type}

/-! ## Lines -/

/-- What is written of a node behind the tabs: its name in quotes, and its offset. -/
def entry (n : Node R) : String :=
  "\"" ++ n.name ++ "\" (" ++ toString n.offset.x.toInt ++ ", " ++ toString n.offset.y.toInt ++ ", " ++
    toString n.offset.z.toInt ++ ")"

theorem toList_outlineLine (depth : Nat) (n : Node R) : (outlineLine depth n).toList =
    List.replicate depth '\t' ++ ((entry n).toList ++ (if n.visible then "" else " [hidden]").toList) := by
  unfold outlineLine entry
  simp only [String.toList_append, String.toList_ofList, List.append_assoc]

theorem head?_entry (n : Node R) : (entry n).toList.head? = some '"' := by
  simp [entry]

theorem getLast?_entry (n : Node R) : (entry n).toList.getLast? = some ')' := by
  unfold entry
  rw [String.toList_append, List.getLast?_append]
  rfl

theorem lineFeed_not_mem_outlineLine {n : Node R} (h : '\n' ∉ n.name.toList) (depth : Nat) :
    '\n' ∉ (outlineLine depth n).toList := by
  have hmark : '\n' ∉ (if n.visible then "" else " [hidden]").toList := by split_ifs <;> decide
  have hentry : '\n' ∉ (entry n).toList := by
    unfold entry
    simp only [String.toList_append, List.mem_append, not_or]
    refine ⟨⟨⟨⟨⟨⟨⟨⟨?_, h⟩, ?_⟩, lineFeed_not_mem_int _⟩, ?_⟩, lineFeed_not_mem_int _⟩, ?_⟩,
      lineFeed_not_mem_int _⟩, ?_⟩ <;> decide
  rw [toList_outlineLine, List.mem_append, List.mem_append, not_or, not_or]
  exact ⟨fun hmem => absurd (List.eq_of_mem_replicate hmem) (by decide), hentry, hmark⟩

/-- The tabs at the start of a line are those of its depth. -/
theorem takeWhile_outlineLine (depth : Nat) (n : Node R) :
    (outlineLine depth n).toList.takeWhile (· = '\t') = List.replicate depth '\t' := by
  obtain ⟨r, hr⟩ := List.head?_eq_some_iff.mp (head?_entry n)
  rw [toList_outlineLine, hr, List.takeWhile_append_of_pos (by simp), List.cons_append,
    List.takeWhile_cons_of_neg (by decide), List.append_nil]

theorem dropWhile_outlineLine (depth : Nat) (n : Node R) : (outlineLine depth n).toList.dropWhile (· = '\t') =
    (entry n).toList ++ (if n.visible then "" else " [hidden]").toList := by
  refine (List.append_right_inj (List.replicate depth '\t')).mp ?_
  rw [← toList_outlineLine, ← takeWhile_outlineLine depth n]
  exact List.takeWhile_append_dropWhile

/-- A line without the mark ends with a parenthesis, whatever the name is. -/
theorem hidden_suffix_iff (depth : Nat) (n : Node R) :
    " [hidden]".toList <:+ (outlineLine depth n).toList ↔ n.visible = false := by
  rw [toList_outlineLine]
  constructor
  · rintro ⟨front, hfront⟩
    by_contra hvisible
    rw [if_pos (Bool.of_not_eq_false hvisible)] at hfront
    have hlast := congrArg List.getLast? hfront
    simp [List.getLast?_append, getLast?_entry] at hlast
  · intro hhidden
    rw [hhidden, ← List.append_assoc]
    exact List.suffix_append _ _

/-! ## The walk with depths -/

variable [Scalar R] {s : Scene R} {id p : NodeId}

/-- How many nodes are above a node. -/
def depth (s : Scene R) (id : NodeId) : Nat := (s.chain id).tail.length

/-- The line of a node, with a tab for each node above it. -/
def line (s : Scene R) (id : NodeId) : String := outlineLine (s.depth id) (s.node id)

namespace IsTree

variable (h : s.IsTree)

include h

theorem depth_root : s.depth root = 0 := by
  unfold depth
  rw [h.chain_root]
  rfl

theorem depth_of_parent (hp : (s.node id).parent = some p) : s.depth id = s.depth p + 1 := by
  have hpos := List.length_pos_of_mem (h.mem_chain_self (h.lt_size_of_parent hp).2)
  unfold depth
  rw [h.chain_eq_cons hp, List.tail_cons, List.length_tail]
  omega

/-- With the depths of the nodes next to them, the walk writes the lines of what it visits without them. -/
theorem outlineFrom_eq {stack : List (NodeId × Nat)}
    (hstack : ∀ e ∈ stack, e.2 = s.depth e.1) (fuel : Nat) :
    s.outlineFrom fuel stack = (s.walk fuel (stack.map Prod.fst)).map s.line := by
  induction fuel generalizing stack with
  | zero => rfl
  | succ fuel ih =>
    match stack with
    | [] => rfl
    | (id, depth) :: r =>
      have hdepth : depth = s.depth id := hstack (id, depth) List.mem_cons_self
      -- The children are pushed one level deeper than the node.
      have hnext : ∀ e ∈ (s.node id).children.map (·, depth + 1) ++ r, e.2 = s.depth e.1 := by
        intro e he
        rcases List.mem_append.mp he with he | he
        · obtain ⟨c, hc, rfl⟩ := List.mem_map.mp he
          rw [h.depth_of_parent (h.mem_children_iff.mp hc), hdepth]
        · exact hstack e (List.mem_cons_of_mem _ he)
      have hfirst : ((s.node id).children.map (·, depth + 1)).map Prod.fst = (s.node id).children := by
        rw [List.map_map]
        exact List.map_id _
      rw [outlineFrom, ih hnext, List.map_append, hfirst, List.map_cons, walk, List.map_cons, line, hdepth]

theorem walk_root : s.walk s.size [root] = root :: s.descendants := by
  rw [h.walk_eq_take (by simp [h.size_pos]), List.flatMap_singleton, h.subtree_root,
    List.take_of_length_le (h.subtree_root ▸ h.length_subtree_le h.size_pos)]

/-- The outline has a line for the root and for each node that the walk lists. -/
theorem toList_outline :
    s.outline.toList = ((root :: s.descendants).map fun id => (s.line id).toList).flatMap (· ++ ['\n']) := by
  have hstack : ∀ e ∈ [(root, 0)], e.2 = s.depth e.1 := by
    simp [h.depth_root]
  have hlines : s.outlineFrom s.size [(root, 0)] = (root :: s.descendants).map s.line := by
    rw [h.outlineFrom_eq hstack, List.map_singleton, h.walk_root]
  unfold outline
  rw [hlines, String.toList_join, List.flatMap_map, List.flatMap_map, List.flatMap_map]
  exact List.flatMap_congr fun id _ => String.toList_append

theorem find?_eq_none_iff (name : String) : s.find? name = none ↔ ∀ id < s.size, (s.node id).name ≠ name := by
  unfold find?
  simp only [List.find?_eq_none, decide_eq_true_eq]
  refine forall_congr' fun id => ?_
  rw [← h.subtree_root, h.mem_subtree_iff h.size_pos]
  exact ⟨fun hall hid => hall ⟨hid, List.mem_of_getLast? (h.getLast?_chain id hid)⟩, fun hall hid => hall hid.1⟩

end IsTree

theorem find?_eq_some_iff (s : Scene R) (name : String) (id : NodeId) : s.find? name = some id ↔
    (s.node id).name = name ∧ ∃ before later, root :: s.descendants = before ++ id :: later ∧
      ∀ j ∈ before, (s.node j).name ≠ name := by
  unfold find?
  simp [List.find?_eq_some_iff_append]

/-! ## The outline of any scene -/

/-- A line of the outline that is written for a node. -/
structure IsLineOf (s : Scene R) (id : NodeId) (text : List Char) : Prop where
  /-- It starts with a tab for each node that is met on the way up. -/
  tabs : ∃ above, s.Climbs id (id :: above) ∧ text.takeWhile (· = '\t') = List.replicate above.length '\t'
  entry : text.dropWhile (· = '\t') =
    (entry (s.node id)).toList ++ (if (s.node id).visible then "" else " [hidden]").toList
  /-- It is marked if the node itself is hidden, whatever is above it. -/
  hidden_iff : " [hidden]".toList <:+ text ↔ (s.node id).visible = false

theorem IsTree.isLineOf (h : s.IsTree) (hid : id < s.size) : s.IsLineOf id (s.line id).toList where
  tabs := by
    have hclimbs := h.climbs_chain hid
    obtain ⟨above, habove⟩ : ∃ above, s.chain id = id :: above := by
      generalize s.chain id = l at hclimbs
      cases hclimbs with
      | top _ => exact ⟨[], rfl⟩
      | up _ _ => exact ⟨_, rfl⟩
    refine ⟨above, habove ▸ hclimbs, ?_⟩
    rw [line, takeWhile_outlineLine, depth, habove, List.tail_cons]
  entry := dropWhile_outlineLine _ _
  hidden_iff := hidden_suffix_iff _ _

/-- How the outline of a scene and the search for a name go along with the walk. -/
structure OutlineLaw (s : Scene R) : Prop where
  /-- The root and what the walk lists are the recursive order of the tree. -/
  preorder : root :: s.descendants = s.subtree root
  /-- The outline has a line for each of them, in this order, and ends every line with a line feed. -/
  lines : ∃ lines, s.outline.toList.splitOn '\n' = lines ++ [[]] ∧
    List.Forall₂ s.IsLineOf (root :: s.descendants) lines
  /-- The first of them that has a name is found. -/
  find?_eq_some_iff : ∀ name id, s.find? name = some id ↔ (s.node id).name = name ∧
    ∃ before later, root :: s.descendants = before ++ id :: later ∧ ∀ j ∈ before, (s.node j).name ≠ name
  find?_eq_none_iff : ∀ name, s.find? name = none ↔ ∀ id < s.size, (s.node id).name ≠ name

/-- **The outline follows the walk**: in any scene that a program can make, it has the lines of the root and of
the nodes that the walk lists, in their order, and the search for a name goes through the same nodes. -/
theorem outline_follows_walk (hs : s.Reachable) (hnames : ∀ id < s.size, '\n' ∉ (s.node id).name.toList) :
    s.OutlineLaw :=
  have h := hs.isTree
  have hlt : ∀ id ∈ root :: s.descendants, id < s.size := by
    intro id hid
    rw [← h.subtree_root] at hid
    exact ((h.mem_subtree_iff h.size_pos).mp hid).1
  { preorder := h.subtree_root.symm
    lines := by
      refine ⟨(root :: s.descendants).map fun id => (s.line id).toList, ?_, ?_⟩
      · rw [h.toList_outline]
        refine splitOn_flatMap_lineFeed fun text htext => ?_
        obtain ⟨id, hid, rfl⟩ := List.mem_map.mp htext
        exact lineFeed_not_mem_outlineLine (hnames id (hlt id hid)) _
      · rw [List.forall₂_map_right_iff, List.forall₂_same]
        exact fun id hid => h.isLineOf (hlt id hid)
    find?_eq_some_iff := s.find?_eq_some_iff
    find?_eq_none_iff := h.find?_eq_none_iff }

/-- In the family the first node is moved below its copy, which has the same name, and is hidden. The one below
it is hidden with it and not marked, and the copy is what is found. -/
theorem outline_follows_walk_family : ∃ t, family.reparent 1 3 = .ok t ∧
    let u := t.modify 1 Node.hide
    u.Reachable ∧ (∀ id < u.size, '\n' ∉ (u.node id).name.toList) ∧ u.OutlineLaw ∧
      u.outline = "\"Root\" (0, 0, 0)\n" ++ "\t\"Parent\" (0, 0, 0)\n" ++
        "\t\t\"Parent\" (0, 0, 0) [hidden]\n" ++ "\t\t\t\"Child\" (0, 0, 0)\n" ∧
      u.find? "Parent" = some 3 := by
  have hfamily : family.Reachable :=
    ((Reachable.empty.add (by decide) _).add (by decide) _).add (by decide) _
  obtain ⟨t, ht, hnames, houtline, hfind⟩ : ∃ t, family.reparent 1 3 = .ok t ∧
      let u := t.modify 1 Node.hide
      (∀ id < u.size, '\n' ∉ (u.node id).name.toList) ∧
        u.outline = "\"Root\" (0, 0, 0)\n" ++ "\t\"Parent\" (0, 0, 0)\n" ++
          "\t\t\"Parent\" (0, 0, 0) [hidden]\n" ++ "\t\t\t\"Child\" (0, 0, 0)\n" ∧
        u.find? "Parent" = some 3 :=
    ⟨_, rfl, by decide, by decide, by decide⟩
  have hreachable : (t.modify 1 Node.hide).Reachable :=
    (hfamily.reparent (by decide) (by decide) ht).modify 1 fun _ => ⟨rfl, rfl⟩
  exact ⟨t, ht, hreachable, hnames, outline_follows_walk hreachable hnames, houtline, hfind⟩

end Scene

end Cutscene
