import Cutscene.Proofs.Dialogue.Bare
import Cutscene.Proofs.Dialogue.Dispatch

/-!
# What is to come

The directives of a page that the reveal has not come to are the only ones that the typewriter can still
hand out, and no step adds to them.

Results:
* `due_update`: what a step hands out was to come, and what is to come after it was to come before.
-/

namespace Cutscene.Typewriter

variable {R κ : Type}

/-- The directives that are still to come. -/
def due (i : Typewriter R κ) : List (Directive R) :=
  i.active.toList.flatMap fun a => a.pending.map Prod.snd

theorem due_of_active {i : Typewriter R κ} {a : ActivePage R κ} (h : i.active = some a) :
    i.due = a.pending.map Prod.snd := by
  unfold due
  rw [h]
  simp

theorem due_of_idle {i : Typewriter R κ} (h : i.active = none) : i.due = [] := by
  unfold due
  rw [h]
  rfl

/-- What is to come of a page is what the typewriter goes by. -/
theorem due_eq_of_bare_eq {i j : Typewriter R κ} (h : i.bare = j.bare) : i.due = j.due := by
  have hpending : ∀ k : Typewriter R κ, k.due = k.bare.due := by
    intro k
    unfold due bare
    cases k.active <;> rfl
  rw [hpending i, hpending j, h]

variable [Scalar R]

theorem due_load (i : Typewriter R κ) (p : Page) (speaker : Option String) (token : κ) :
    (i.load p speaker token).due = p.directives.map Prod.snd := by
  have hactive : (i.load p speaker token).active =
      some ⟨p, p.directives, p.total, speaker, token⟩ := rfl
  rw [due_of_active hactive]

theorem due_dispatchDue (i : Typewriter R κ) :
    i.dispatchDue.2 ⊆ i.due ∧ i.dispatchDue.1.due ⊆ i.due := by
  cases hactive : i.active with
  | none =>
    have hidle : i.dispatchDue = (i, []) := by
      unfold dispatchDue
      rw [hactive]
    rw [hidle]
    exact ⟨List.nil_subset _, List.Subset.refl _⟩
  | some a =>
    obtain ⟨done, hcut, hfired, -, -⟩ := dispatch_spec i.visible a.pending
    have hdue : i.due = done.map Prod.snd ++ (dispatch i.visible a.pending).pending.map Prod.snd := by
      rw [due_of_active hactive, ← List.map_append, ← hcut]
    have hrest : i.dispatchDue.1.due = (dispatch i.visible a.pending).pending.map Prod.snd := by
      simp [due, dispatchDue, hactive]
    have hout : i.dispatchDue.2 = effects done := by
      rw [← hfired]
      simp only [dispatchDue, hactive]
    rw [hdue, hrest, hout]
    exact ⟨List.Subset.trans List.filter_sublist.subset (List.subset_append_left _ _),
      List.subset_append_right _ _⟩

theorem due_reveal (left : Nat) (i : Typewriter R κ) :
    (i.reveal left).2 ⊆ i.due ∧ (i.reveal left).1.due ⊆ i.due := by
  induction left generalizing i with
  | zero => exact ⟨List.nil_subset _, List.Subset.refl _⟩
  | succ left ih =>
    simp only [reveal]
    obtain ⟨hfired, hdue⟩ :=
      due_dispatchDue { i with charTime := i.charTime - i.interval, visible := i.visible + 1 }
    split_ifs
    · exact ⟨hfired, hdue⟩
    · obtain ⟨hmore, hrest⟩ := ih
        (dispatchDue { i with charTime := i.charTime - i.interval, visible := i.visible + 1 }).1
      exact ⟨List.append_subset.mpr ⟨hfired, List.Subset.trans hmore hdue⟩, List.Subset.trans hrest hdue⟩
    · exact ⟨List.nil_subset _, List.Subset.refl _⟩

theorem due_updateWaiting (i : Typewriter R κ) (w : WaitWindow R) (dt : R) :
    (i.updateWaiting w dt).fired ⊆ i.due ∧ (i.updateWaiting w dt).typewriter.due ⊆ i.due := by
  unfold updateWaiting
  simp only
  split_ifs
  · exact ⟨List.nil_subset _, List.Subset.refl _⟩
  · exact due_dispatchDue { i with wait := none }

theorem due_updateHolding (i : Typewriter R κ) (a : ActivePage R κ) (dt : R) :
    (i.updateHolding a dt).fired ⊆ i.due ∧ (i.updateHolding a dt).typewriter.due ⊆ i.due := by
  unfold updateHolding
  simp only
  split_ifs
  · exact ⟨List.nil_subset _, List.nil_subset _⟩
  · exact ⟨List.nil_subset _, List.Subset.refl _⟩

theorem due_updateRevealing (i : Typewriter R κ) (a : ActivePage R κ) (dt : R) :
    (i.updateRevealing a dt).fired ⊆ i.due ∧ (i.updateRevealing a dt).typewriter.due ⊆ i.due := by
  have hreveal := due_reveal (a.total - i.visible) { i with charTime := i.charTime + dt }
  unfold updateRevealing
  simp only
  split_ifs <;> exact hreveal

/-- A step hands out what was to come, and adds nothing to it. -/
theorem due_update (i : Typewriter R κ) (dt : R) :
    (i.update dt).fired ⊆ i.due ∧ (i.update dt).typewriter.due ⊆ i.due := by
  unfold update
  cases hactive : i.active with
  | none => exact ⟨List.nil_subset _, List.Subset.refl _⟩
  | some a =>
    cases hwait : i.wait with
    | some w => exact i.due_updateWaiting w dt
    | none =>
      obtain ⟨hfired, hdue⟩ := i.due_dispatchDue
      simp only
      split_ifs
      · exact ⟨hfired, hdue⟩
      · obtain ⟨hmore, hrest⟩ := i.dispatchDue.1.due_updateHolding a dt
        exact ⟨List.append_subset.mpr ⟨hfired, List.Subset.trans hmore hdue⟩, List.Subset.trans hrest hdue⟩
      · obtain ⟨hmore, hrest⟩ := i.dispatchDue.1.due_updateRevealing a dt
        exact ⟨List.append_subset.mpr ⟨hfired, List.Subset.trans hmore hdue⟩, List.Subset.trans hrest hdue⟩

end Cutscene.Typewriter
