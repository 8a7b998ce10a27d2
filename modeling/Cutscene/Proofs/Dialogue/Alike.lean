import Cutscene.Proofs.Dialogue.Run

/-!
# Typewriters side by side

All that a step of the typewriter asks of a page is how many characters it has and what dispatching
finds in it. So two typewriters of one pace stay side by side, whatever else their pages and tokens are.

Results:
* `Alike`: two typewriters that differ in nothing but their pages, which are in a relation.
* `Alike.update`: if dispatching cannot tell the pages apart, a step of both gives the same and leaves
  them alike.
* `Alike.seen_updates`: so does a run.
-/

namespace Cutscene.Typewriter

variable {R κ κ' : Type}

/-- Pages in the relation have the same number of characters, dispatching finds the same in them, and
what it leaves of them is in the relation again. -/
structure Matches (rel : ActivePage R κ → ActivePage R κ' → Prop) : Prop where
  total {a b} (h : rel a b) : a.total = b.total
  fired {a b} (h : rel a b) (position : Nat) :
    (dispatch position a.pending).fired = (dispatch position b.pending).fired
  opened {a b} (h : rel a b) (position : Nat) :
    (dispatch position a.pending).opened = (dispatch position b.pending).opened
  pending {a b} (h : rel a b) (position : Nat) :
    rel { a with pending := (dispatch position a.pending).pending }
      { b with pending := (dispatch position b.pending).pending }

/-- Two typewriters that differ in nothing but their pages, which are in a relation. -/
inductive Alike (rel : ActivePage R κ → ActivePage R κ' → Prop) :
    Typewriter R κ → Typewriter R κ' → Prop
  | mk {pace interval active active' visible charTime wait holdElapsed}
    (hactive : Option.Rel rel active active') :
    Alike rel ⟨pace, interval, active, visible, charTime, wait, holdElapsed⟩
      ⟨pace, interval, active', visible, charTime, wait, holdElapsed⟩

variable {rel : ActivePage R κ → ActivePage R κ' → Prop} {i : Typewriter R κ} {j : Typewriter R κ'}

theorem Alike.phase_eq (hrel : Matches rel) (h : Alike rel i j) : i.phase = j.phase := by
  obtain ⟨hactive⟩ := h
  cases hactive with
  | none => rfl
  | some hab => simp only [phase, hrel.total hab]

theorem Alike.visible_eq (h : Alike rel i j) : i.visible = j.visible := by
  cases h
  rfl

theorem Alike.charTime_eq (h : Alike rel i j) : i.charTime = j.charTime := by
  cases h
  rfl

theorem Alike.wait_eq (h : Alike rel i j) : i.wait = j.wait := by
  cases h
  rfl

/-- What a step of two typewriters gives is alike: the same directives, a completion of both or of
neither, and typewriters that are alike again. -/
structure Update.Alike (rel : ActivePage R κ → ActivePage R κ' → Prop) (u : Update R κ)
    (v : Update R κ') : Prop where
  fired : u.fired = v.fired
  completed : u.completed.isSome = v.completed.isSome
  typewriter : Typewriter.Alike rel u.typewriter v.typewriter

/-! ## Steps -/

variable [Scalar R]

theorem Alike.dispatchDue (hrel : Matches rel) (h : Alike rel i j) :
    i.dispatchDue.2 = j.dispatchDue.2 ∧ Alike rel i.dispatchDue.1 j.dispatchDue.1 := by
  obtain ⟨hactive⟩ := h
  cases hactive with
  | none => exact ⟨rfl, .mk .none⟩
  | some hab =>
    simp only [Typewriter.dispatchDue, hrel.fired hab, hrel.opened hab]
    exact ⟨trivial, .mk (.some (hrel.pending hab _))⟩

theorem Alike.reveal (hrel : Matches rel) (h : Alike rel i j) (left : Nat) :
    (i.reveal left).2 = (j.reveal left).2 ∧ Alike rel (i.reveal left).1 (j.reveal left).1 := by
  induction left generalizing i j with
  | zero => exact ⟨rfl, h⟩
  | succ left ih =>
    obtain @⟨pace, interval, active, active', visible, charTime, wait, held, hactive⟩ := h
    have hnext : Alike rel
        ⟨pace, interval, active, visible + 1, charTime - interval, wait, held⟩
        ⟨pace, interval, active', visible + 1, charTime - interval, wait, held⟩ := .mk hactive
    obtain ⟨hfired, hdue⟩ := hnext.dispatchDue hrel
    obtain ⟨hmore, hrest⟩ := ih hdue
    simp only [Typewriter.reveal, hfired, hdue.wait_eq, hmore]
    split_ifs
    · exact ⟨rfl, hdue⟩
    · exact ⟨rfl, hrest⟩
    · exact ⟨rfl, .mk hactive⟩

theorem Alike.updateWaiting (hrel : Matches rel) (h : Alike rel i j) (w : WaitWindow R) (dt : R) :
    (i.updateWaiting w dt).Alike rel (j.updateWaiting w dt) := by
  obtain @⟨pace, interval, active, active', visible, charTime, wait, held, hactive⟩ := h
  have hclosed : Alike rel ⟨pace, interval, active, visible, charTime, none, held⟩
      ⟨pace, interval, active', visible, charTime, none, held⟩ := .mk hactive
  obtain ⟨hfired, hdue⟩ := hclosed.dispatchDue hrel
  unfold Typewriter.updateWaiting
  simp only
  split_ifs
  · exact ⟨rfl, rfl, .mk hactive⟩
  · exact ⟨hfired, rfl, hdue⟩

theorem Alike.updateHolding (h : Alike rel i j) (a : ActivePage R κ) (b : ActivePage R κ') (dt : R) :
    (i.updateHolding a dt).Alike rel (j.updateHolding b dt) := by
  obtain ⟨hactive⟩ := h
  unfold Typewriter.updateHolding
  simp only
  split_ifs
  · exact ⟨rfl, rfl, .mk .none⟩
  · exact ⟨rfl, rfl, .mk hactive⟩

theorem Alike.updateRevealing (hrel : Matches rel) (h : Alike rel i j) {a : ActivePage R κ}
    {b : ActivePage R κ'} (hab : rel a b) (dt : R) :
    (i.updateRevealing a dt).Alike rel (j.updateRevealing b dt) := by
  obtain @⟨pace, interval, active, active', visible, charTime, wait, held, hactive⟩ := h
  have hstart : Alike rel ⟨pace, interval, active, visible, charTime + dt, wait, held⟩
      ⟨pace, interval, active', visible, charTime + dt, wait, held⟩ := .mk hactive
  have hboth := hstart.reveal hrel (b.total - visible)
  unfold Typewriter.updateRevealing
  rw [hrel.total hab]
  generalize Typewriter.reveal _ ⟨pace, interval, active, visible, _, wait, held⟩ = shown at hboth ⊢
  generalize Typewriter.reveal _ ⟨pace, interval, active', visible, _, wait, held⟩ = shown' at hboth ⊢
  obtain ⟨i, fired⟩ := shown
  obtain ⟨j, fired'⟩ := shown'
  obtain ⟨rfl, ⟨hactive⟩⟩ := hboth
  simp only
  split_ifs
  · exact ⟨rfl, rfl, .mk hactive⟩
  · exact ⟨rfl, rfl, .mk hactive⟩

/-- A step of both gives the same, and leaves them alike. -/
theorem Alike.update (hrel : Matches rel) (h : Alike rel i j) (dt : R) :
    (i.update dt).Alike rel (j.update dt) := by
  obtain ⟨hfired, hdue⟩ := h.dispatchDue hrel
  unfold Typewriter.update
  cases h with
  | @mk pace interval active active' visible charTime wait held hactive =>
    cases hactive with
    | none => exact ⟨rfl, rfl, .mk .none⟩
    | @some a b hab =>
      cases wait with
      | some w => exact Alike.updateWaiting hrel (.mk (.some hab)) w dt
      | none =>
        simp only [hfired, hdue.wait_eq, hdue.visible_eq, hrel.total hab]
        split_ifs
        · exact ⟨rfl, rfl, hdue⟩
        · obtain ⟨hmore, hcompleted, hrest⟩ := hdue.updateHolding a b dt
          exact ⟨congrArg _ hmore, hcompleted, hrest⟩
        · obtain ⟨hmore, hcompleted, hrest⟩ := hdue.updateRevealing hrel hab dt
          exact ⟨congrArg _ hmore, hcompleted, hrest⟩

/-! ## Runs -/

/-- What shows of a step: the directives handed out, what the typewriter does then, and whether the page
has been completed. -/
structure Seen (R : Type) where
  fired : List (Directive R)
  phase : Phase
  visible : Nat
  charTime : R
  completed : Bool
deriving DecidableEq

omit [Scalar R] in
def Update.seen (u : Update R κ) : Seen R :=
  ⟨u.fired, u.typewriter.phase, u.typewriter.visible, u.typewriter.charTime, u.completed.isSome⟩

omit [Scalar R] in
theorem Update.Alike.seen_eq (hrel : Matches rel) {u : Update R κ} {v : Update R κ'}
    (h : u.Alike rel v) : u.seen = v.seen := by
  unfold seen
  rw [h.fired, h.typewriter.phase_eq hrel, h.typewriter.visible_eq, h.typewriter.charTime_eq, h.completed]

/-- Of runs of typewriters that are alike the same shows at every step. -/
theorem Alike.seen_updates (hrel : Matches rel) (h : Alike rel i j) (dts : List R) :
    (i.updates dts).map Update.seen = (j.updates dts).map Update.seen := by
  induction dts generalizing i j with
  | nil => rfl
  | cons dt r ih =>
    have hstep := h.update hrel dt
    simp only [updates, List.map_cons, hstep.seen_eq hrel, ih hstep.typewriter]

end Cutscene.Typewriter
