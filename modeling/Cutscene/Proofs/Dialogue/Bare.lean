import Cutscene.Proofs.Dialogue.Alike

/-!
# What the typewriter goes by

A step of the typewriter reads its clocks, its pace, and where the directives of the page stand. The
commands of the page, the name of the speaker and the token are carried along unread: `bare` forgets
them, and a step commutes with it.

Results:
* `bare_update`: a step of the bare typewriter is the bare step.
* `reset_update`: a step keeps the pace.
* `update_eq_reset`: a typewriter that has completed its page is as it was when it was created.
* `rest_update`: a typewriter is at rest whenever it is idle.
-/

namespace Cutscene

variable {R κ : Type}

/-- An active page without its commands, the name of the speaker and the token. -/
def ActivePage.bare (a : ActivePage R κ) : ActivePage R Unit := ⟨⟨[]⟩, a.pending, a.total, none, ()⟩

namespace Typewriter

/-- The typewriter without the commands of its page, the name of the speaker and the token. -/
def bare (i : Typewriter R κ) : Typewriter R Unit := { i with active := i.active.map ActivePage.bare }

/-- What a step gives, without what it has carried along unread. -/
def Update.bare (u : Update R κ) : Update R Unit :=
  ⟨u.typewriter.bare, u.fired, u.completed.map fun _ => ()⟩

theorem bare_active_eq_none_iff {i : Typewriter R κ} : i.bare.active = none ↔ i.active = none := by
  unfold bare
  rw [Option.map_eq_none_iff]

theorem loaded_eq_none_iff {i : Typewriter R κ} : i.loaded = none ↔ i.active = none := by
  unfold loaded
  rw [Option.map_eq_none_iff]

/-- An idle typewriter has nothing to forget. -/
theorem eq_of_bare_eq {i j : Typewriter R κ} (h : i.bare = j.bare) (hj : j.active = none) : i = j := by
  have hi : i.active = none := by rw [← bare_active_eq_none_iff, h, bare_active_eq_none_iff, hj]
  obtain ⟨_, _, _, _, _, _, _⟩ := i
  obtain ⟨_, _, _, _, _, _, _⟩ := j
  simp only [bare, mk.injEq] at h hi hj ⊢
  exact ⟨h.1, h.2.1, hi.trans hj.symm, h.2.2.2⟩

theorem bare_setSpeaker (i : Typewriter R κ) (name : String) : (i.setSpeaker name).bare = i.bare := by
  unfold setSpeaker bare
  rw [Option.map_map]
  rfl

theorem loaded_setSpeaker (i : Typewriter R κ) (name : String) :
    (i.setSpeaker name).loaded = i.loaded := by
  unfold setSpeaker loaded
  rw [Option.map_map]
  rfl

/-! ## Steps -/

variable [Scalar R]

/-- The typewriter without its page, and with all clocks at zero. -/
def reset (i : Typewriter R κ) : Typewriter R κ :=
  { i with active := none, visible := 0, charTime := 0, wait := none, holdElapsed := 0 }

/-- The pace is not among what is forgotten. -/
theorem reset_eq_of_bare_eq {i j : Typewriter R κ} (h : i.bare = j.bare) : i.reset = j.reset := by
  have hpace : i.pace = j.pace := congrArg (·.pace) h
  have hinterval : i.interval = j.interval := congrArg (·.interval) h
  unfold reset
  rw [hpace, hinterval]

omit [Scalar R] in
/-- Dispatching finds the same in a page without what it does not read. -/
theorem matches_bare : Matches fun (a : ActivePage R κ) b => b = a.bare where
  total := by
    rintro a b rfl
    rfl
  fired := by
    rintro a b rfl position
    rfl
  opened := by
    rintro a b rfl position
    rfl
  pending := by
    rintro a b rfl position
    rfl

omit [Scalar R] in
theorem alike_bare_iff {i : Typewriter R κ} {j : Typewriter R Unit} :
    Alike (fun a b => b = a.bare) i j ↔ j = i.bare := by
  constructor
  · rintro ⟨hactive⟩
    cases hactive with
    | none => rfl
    | some hab =>
      rw [hab]
      rfl
  · rintro rfl
    obtain ⟨_, _, active, _, _, _, _⟩ := i
    refine .mk ?_
    cases active with
    | none => exact .none
    | some a => exact .some rfl

/-- A step commutes with forgetting what it does not read. -/
theorem bare_update (i : Typewriter R κ) (dt : R) : i.bare.update dt = (i.update dt).bare := by
  obtain ⟨hfired, hcompleted, htypewriter⟩ := (alike_bare_iff.mpr rfl).update matches_bare dt
  have hunit : (i.bare.update dt).completed = (i.update dt).completed.map fun _ => () := by
    revert hcompleted
    cases (i.update dt).completed <;> cases (i.bare.update dt).completed <;> simp
  unfold Update.bare
  rw [← alike_bare_iff.mp htypewriter, hfired, ← hunit]

/-! ## Rest -/

theorem reset_dispatchDue (i : Typewriter R κ) : i.dispatchDue.1.reset = i.reset := by
  unfold dispatchDue
  cases i.active <;> rfl

theorem reset_reveal (left : Nat) (i : Typewriter R κ) : (i.reveal left).1.reset = i.reset := by
  induction left generalizing i with
  | zero => rfl
  | succ left ih =>
    simp only [reveal]
    split_ifs
    · exact reset_dispatchDue _
    · exact (ih _).trans (reset_dispatchDue _)
    · rfl

/-- A step keeps the pace. -/
theorem reset_update (i : Typewriter R κ) (dt : R) : (i.update dt).typewriter.reset = i.reset := by
  unfold update
  cases i.active with
  | none => rfl
  | some a =>
    cases i.wait with
    | some w =>
      simp only [updateWaiting]
      split_ifs
      · rfl
      · exact reset_dispatchDue { i with wait := none }
    | none =>
      have hdue := reset_dispatchDue i
      simp only
      split_ifs
      · exact hdue
      · simp only [updateHolding]
        split_ifs
        · exact hdue
        · exact hdue
      · simp only [updateRevealing]
        split_ifs
        · exact (reset_reveal _ _).trans hdue
        · exact (reset_reveal _ _).trans hdue

/-- A typewriter that has completed its page is as it was when it was created. -/
theorem update_eq_reset {i : Typewriter R κ} {dt : R} {token : κ}
    (h : (i.update dt).completed = some token) : (i.update dt).typewriter = i.reset := by
  revert h
  unfold update
  cases i.active with
  | none => rintro ⟨⟩
  | some a =>
    cases i.wait with
    | some w =>
      simp only [updateWaiting]
      split_ifs <;> rintro ⟨⟩
    | none =>
      have hdue := reset_dispatchDue i
      simp only
      split_ifs with hopen
      · rintro ⟨⟩
      · simp only [updateHolding]
        split_ifs
        · intro _
          have hclosed : i.dispatchDue.1.wait = none := by simpa using hopen
          rw [← hdue]
          simp only [cleared, reset, hclosed]
        · rintro ⟨⟩
      · simp only [updateRevealing]
        split_ifs <;> rintro ⟨⟩

/-- A typewriter that is at rest whenever it is idle stays such a one. -/
theorem rest_update {i : Typewriter R κ} (h : i.active = none → i = i.reset) (dt : R) :
    (i.update dt).typewriter.active = none →
      (i.update dt).typewriter = (i.update dt).typewriter.reset := by
  intro hafter
  rw [reset_update]
  rcases i.update_loaded dt with ⟨-, hloaded⟩ | ⟨a, -, hsome, -⟩
  · have hidle : i.active = none := by
      rw [← loaded_eq_none_iff, ← hloaded, loaded_eq_none_iff, hafter]
    rw [update_of_idle hidle]
    exact h hidle
  · exact update_eq_reset hsome

end Typewriter

end Cutscene
