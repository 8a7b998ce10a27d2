import Cutscene.Dialogue.TextBox
import Cutscene.Proofs.Scene.Change

/-!
# Tending to a scene

Between the ticks of a scene, little is done to it from outside of directives: one node is moved, one is
shown or hidden, and sprites and texts are changed.

Results:
* `Scene.Tended`: what such changes leave alone. `Scene.tended_modify`.
* `TextBox.present_induction`, `TextBox.tended_present`: the text box changes texts alone.
-/

namespace Cutscene

variable {R : Type} [Scalar R]

/-- The second scene has the roles, the tweens and the timers of the first one. No node is elsewhere but
one, and none is shown or hidden but another. -/
structure Scene.Tended (s t : Scene R) (moved : Option NodeId) (box : NodeId) : Prop where
  roles : s.SameRoles t
  tween : ∀ j, (t.node j).tween = (s.node j).tween
  timers : ∀ j, (t.node j).timers = (s.node j).timers
  offset : ∀ j, moved ≠ some j → (t.node j).offset = (s.node j).offset
  visible : ∀ j ≠ box, (t.node j).visible = (s.node j).visible

namespace Scene

variable {s t u : Scene R} {moved : Option NodeId} {box : NodeId}

theorem Tended.links (h : s.Tended t moved box) : s.SameLinks t := h.roles.links

theorem Tended.refl (s : Scene R) (moved : Option NodeId) (box : NodeId) : s.Tended s moved box :=
  ⟨.refl s, fun _ => rfl, fun _ => rfl, fun _ _ => rfl, fun _ _ => rfl⟩

theorem Tended.trans (h : s.Tended t moved box) (h' : t.Tended u moved box) : s.Tended u moved box where
  roles := h.roles.trans h'.roles
  tween j := (h'.tween j).trans (h.tween j)
  timers j := (h'.timers j).trans (h.timers j)
  offset j hj := (h'.offset j hj).trans (h.offset j hj)
  visible j hj := (h'.visible j hj).trans (h.visible j hj)

theorem tended_modify (s : Scene R) {id : NodeId} {f : Node R → Node R} (hrole : Node.KeepsRole f)
    (htween : ∀ n, (f n).tween = n.tween) (htimers : ∀ n, (f n).timers = n.timers)
    (hoffset : moved = some id ∨ ∀ n, (f n).offset = n.offset)
    (hvisible : id = box ∨ ∀ n, (f n).visible = n.visible) : s.Tended (s.modify id f) moved box where
  roles := s.sameRoles_modify id hrole
  tween j := by
    rw [node_modify]
    split_ifs with hj
    · rw [htween, hj.1]
    · rfl
  timers j := by
    rw [node_modify]
    split_ifs with hj
    · rw [htimers, hj.1]
    · rfl
  offset j hmoved := by
    rw [node_modify]
    split_ifs with hj
    · rcases hoffset with h | h
      · exact absurd (hj.1 ▸ h) hmoved
      · rw [h, hj.1]
    · rfl
  visible j hbox := by
    rw [node_modify]
    split_ifs with hj
    · rcases hvisible with h | h
      · exact absurd (hj.1.trans h) hbox
      · rw [h, hj.1]
    · rfl

theorem tended_moveTo (s : Scene R) (id : NodeId) (p : Point) (box : NodeId) :
    s.Tended (s.modify id (·.moveTo p)) (some id) box :=
  s.tended_modify (fun _ => rfl) (fun _ => rfl) (fun _ => rfl) (.inl rfl) (.inr fun _ => rfl)

theorem tended_setSprite (s : Scene R) (id : NodeId) (sprite : Sprite R) (moved : Option NodeId)
    (box : NodeId) : s.Tended (s.modify id (·.setSprite sprite)) moved box :=
  s.tended_modify (fun _ => rfl) (fun _ => rfl) (fun _ => rfl) (.inr fun _ => rfl)
    (.inr fun _ => rfl)

theorem tended_mapRun (s : Scene R) (id : NodeId) (f : TextRun → TextRun) (moved : Option NodeId)
    (box : NodeId) : s.Tended (s.modify id (·.mapRun f)) moved box :=
  s.tended_modify (fun _ => rfl) (fun _ => rfl) (fun _ => rfl) (.inr fun _ => rfl)
    (.inr fun _ => rfl)

end Scene

omit [Scalar R] in
/-- What every change of a text keeps, the text box keeps. -/
theorem TextBox.present_induction {κ : Type} {P : Scene R → Prop} (b : TextBox) (i : Typewriter R κ)
    {s : Scene R} (hs : P s) (hmap : ∀ t id f, P t → P (t.modify id (·.mapRun f))) : P (b.present i s) := by
  unfold present
  cases b.nametag with
  | none => exact hmap _ _ _ hs
  | some tag =>
    cases i.speaker with
    | none => exact hmap _ _ _ hs
    | some name => exact hmap _ _ _ (hmap _ _ _ hs)

/-- The text box works on texts alone. -/
theorem TextBox.tended_present {κ : Type} (b : TextBox) (i : Typewriter R κ) (s : Scene R)
    (moved : Option NodeId) (box : NodeId) : s.Tended (b.present i s) moved box :=
  b.present_induction (P := fun t => s.Tended t moved box) i (.refl _ _ _)
    fun t id f ht => ht.trans (t.tended_mapRun id f moved box)

end Cutscene
