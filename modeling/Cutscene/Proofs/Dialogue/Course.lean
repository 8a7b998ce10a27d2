import Mathlib.Algebra.Order.Field.Rat
import Mathlib.Tactic.Linarith
import Mathlib.Tactic.Ring
import Cutscene.Proofs.Dialogue.Run

/-!
# The course of a step

A step of a typewriter that shows a page takes one of six courses. Here they are spelled out once, with
exact numbers and with what becomes of each clock and of the waits that are still to come, so that laws
about time need not look into the step again.

Results:
* `waitTimes_dispatch`: dispatching passes at most one wait, which it opens.
* `reveal_eq`: what the reveal spends and shows.
* `update_course`: every step takes one of the courses.
-/

namespace Cutscene

/-- The times of the waits of a stream, in order. -/
def waitTimes {R : Type} (stream : List (Nat × Directive R)) : List R :=
  stream.filterMap fun e => match e.2 with
    | .wait secs => some secs
    | _ => none

theorem mem_waitTimes_iff {R : Type} {stream : List (Nat × Directive R)} {secs : R} :
    secs ∈ waitTimes stream ↔ ∃ position, (position, .wait secs) ∈ stream := by
  unfold waitTimes
  rw [List.mem_filterMap]
  constructor
  · rintro ⟨⟨position, d⟩, he, hd⟩
    cases d <;> cases hd
    exact ⟨position, he⟩
  · rintro ⟨position, he⟩
    exact ⟨(position, .wait secs), he, rfl⟩

namespace Typewriter

variable {R κ : Type}

/-- A dispatch passes the waits of a stream up to one that it opens. -/
theorem waitTimes_dispatch (cursor : Nat) (stream : List (Nat × Directive R)) :
    waitTimes stream =
      (dispatch cursor stream).opened.toList ++ waitTimes (dispatch cursor stream).pending := by
  induction stream with
  | nil => rfl
  | cons e r ih =>
    obtain ⟨at', d⟩ := e
    by_cases hat : cursor < at'
    · simp [dispatch, hat]
    · cases d with
      | wait secs => simp [dispatch, hat, waitTimes]
      | _ =>
        simp only [dispatch, if_neg hat]
        exact ih

variable [Scalar R]

/-- The window of a wait that has just been opened. -/
def window (opened : Option R) : Option (WaitWindow R) := opened.map fun secs => ⟨secs, 0⟩

theorem dispatchDue_eq {i : Typewriter R κ} {a : ActivePage R κ} (h : i.active = some a)
    (hw : i.wait = none) : ∃ pending opened,
      i.dispatchDue.1 =
        { i with active := some { a with pending }, wait := window opened } ∧
      waitTimes a.pending = opened.toList ++ waitTimes pending := by
  refine ⟨(dispatch i.visible a.pending).pending, (dispatch i.visible a.pending).opened, ?_,
    waitTimes_dispatch _ _⟩
  unfold dispatchDue window
  rw [h]
  simp only
  cases (dispatch i.visible a.pending).opened with
  | none => rw [hw]; rfl
  | some secs => rfl

/-- Whether a step lets the reveal clock run: characters are left, no wait is open and none opens first. -/
def advances (i : Typewriter R κ) : Bool :=
  match i.active with
  | none => false
  | some a => i.wait.isNone && i.dispatchDue.1.wait.isNone && decide (i.visible < a.total)

/-- The typewriter with the next character shown and its time spent. -/
def shownNext (i : Typewriter R κ) : Typewriter R κ :=
  { i with charTime := i.charTime - i.interval, visible := i.visible + 1 }

theorem reveal_succ (left : Nat) (i : Typewriter R κ) :
    (i.reveal (left + 1)).1 =
      if i.interval ≤ i.charTime then
        if i.shownNext.dispatchDue.1.wait.isSome then i.shownNext.dispatchDue.1
        else (reveal left i.shownNext.dispatchDue.1).1
      else i := by
  simp only [reveal]
  by_cases htime : i.interval ≤ i.charTime
  · simp only [if_pos htime]
    exact apply_ite Prod.fst _ _ _
  · simp only [if_neg htime]

theorem updateRevealing_eq (i : Typewriter R κ) (a : ActivePage R κ) (dt : R) :
    let j := (reveal (a.total - i.visible) { i with charTime := i.charTime + dt }).1
    (i.updateRevealing a dt).typewriter =
        (if a.total ≤ j.visible ∧ j.wait.isNone then { j with charTime := 0 } else j) ∧
      (i.updateRevealing a dt).completed = none := by
  intro j
  unfold updateRevealing
  by_cases hall : a.total ≤ j.visible ∧ j.wait.isNone
  · simp only [j] at hall ⊢
    simp only [if_pos hall]
    exact ⟨trivial, trivial⟩
  · simp only [j] at hall ⊢
    simp only [if_neg hall]
    exact ⟨trivial, trivial⟩

/-! ## Exact numbers -/

/-- The typewriter after some characters, up to a stage of the stream of directives. -/
def spent (i : Typewriter Rat κ) (a : ActivePage Rat κ) (k : Nat)
    (pending : List (Nat × Directive Rat)) (opened : Option Rat) : Typewriter Rat κ :=
  { i with
    active := some { a with pending }
    visible := i.visible + k
    charTime := i.charTime - k * i.interval
    wait := window opened }

theorem spent_zero {i : Typewriter Rat κ} {a : ActivePage Rat κ} (h : i.active = some a)
    (hw : i.wait = none) : i.spent a 0 a.pending none = i := by
  unfold spent
  rw [Nat.cast_zero, zero_mul, sub_zero, ← h]
  obtain ⟨_, _, _, _, _, _, _⟩ := i
  cases hw
  rfl

theorem charTime_shownNext (i : Typewriter Rat κ) (k : Nat) :
    i.shownNext.charTime - k * i.shownNext.interval =
      i.charTime - ((k + 1 : Nat) : Rat) * i.interval := by
  change i.charTime - i.interval - k * i.interval = _
  rw [Nat.cast_succ]
  ring

/-- Characters are shown one by one. -/
theorem spent_succ (i : Typewriter Rat κ) (a : ActivePage Rat κ) (k : Nat)
    (pending pending' : List (Nat × Directive Rat)) (opened : Option Rat) :
    ({ i.shownNext with active := some { a with pending }, wait := none } : Typewriter Rat κ).spent
      { a with pending } k pending' opened = i.spent a (k + 1) pending' opened := by
  have hvisible : i.visible + 1 + k = i.visible + (k + 1) := by omega
  unfold spent
  rw [← charTime_shownNext, ← hvisible]
  rfl

/--
What the reveal does: it shows characters and spends the clock on them. It ends behind a wait that it
opens, at the last character, or with less on the clock than a character takes.
-/
theorem reveal_eq (left : Nat) {i : Typewriter Rat κ} {a : ActivePage Rat κ} (h : i.active = some a)
    (hw : i.wait = none) : ∃ k pending opened, (i.reveal left).1 = i.spent a k pending opened ∧
      waitTimes a.pending = opened.toList ++ waitTimes pending ∧ k ≤ left ∧
      (0 ≤ i.charTime → 0 ≤ i.charTime - k * i.interval) ∧
      (opened = none → k = left ∨ i.charTime - k * i.interval < i.interval) := by
  induction left generalizing i a with
  | zero =>
    exact ⟨0, a.pending, none, (spent_zero h hw).symm, rfl, le_refl _, by simp, fun _ => Or.inl rfl⟩
  | succ left ih =>
    rw [reveal_succ]
    by_cases htime : i.interval ≤ i.charTime
    · obtain ⟨pending, opened, hnext, hwaits⟩ := dispatchDue_eq (i := i.shownNext) h hw
      have hnonneg : 0 ≤ i.shownNext.charTime := sub_nonneg.mpr htime
      rw [if_pos htime, hnext]
      cases opened with
      | some secs =>
        have hone : i.charTime - ((1 : Nat) : Rat) * i.interval = i.shownNext.charTime := by
          rw [Nat.cast_one, one_mul]
          rfl
        refine ⟨1, pending, some secs, ?_, hwaits, by omega, fun _ => hone ▸ hnonneg, nofun⟩
        unfold spent
        rw [hone]
        rfl
      | none =>
        obtain ⟨k, pending', opened, hrest, hwaits', hk, hclock, hstop⟩ :=
          ih (i := { i.shownNext with active := some { a with pending }, wait := none }) rfl rfl
        rw [spent_succ] at hrest
        simp only [charTime_shownNext] at hclock hstop
        refine ⟨k + 1, pending', opened, hrest, hwaits.trans hwaits', by omega,
          fun _ => hclock hnonneg, fun hopen => ?_⟩
        rcases hstop hopen with rfl | hlow
        · exact Or.inl rfl
        · exact Or.inr hlow
    · rw [if_neg htime]
      exact ⟨0, a.pending, none, (spent_zero h hw).symm, rfl, by omega, by simp,
        fun _ => Or.inr (by simpa using htime)⟩

/-- What a step of the clock does: it is spent on characters, and dropped with the last one. -/
theorem updateRevealing_spent {i : Typewriter Rat κ} {a b : ActivePage Rat κ} (h : i.active = some b)
    (hw : i.wait = none) (hle : i.visible ≤ a.total) (dt : Rat) : ∃ k pending opened,
    (i.updateRevealing a dt).typewriter =
        { i with
          active := some { b with pending }
          visible := i.visible + k
          charTime :=
            if i.visible + k = a.total ∧ opened = none then 0 else i.charTime + dt - k * i.interval
          wait := window opened } ∧
      (i.updateRevealing a dt).completed = none ∧
      waitTimes b.pending = opened.toList ++ waitTimes pending ∧ i.visible + k ≤ a.total ∧
      (0 ≤ i.charTime + dt → 0 ≤ i.charTime + dt - k * i.interval) ∧
      (opened = none →
        i.visible + k = a.total ∨ i.charTime + dt - k * i.interval < i.interval) := by
  obtain ⟨k, pending, opened, hreveal, hwaits, hk, hnonneg, hstop⟩ :=
    reveal_eq (a.total - i.visible) (i := { i with charTime := i.charTime + dt }) h hw
  obtain ⟨htypewriter, hcompleted⟩ := i.updateRevealing_eq a dt
  rw [hreveal] at htypewriter
  have hdone_iff : a.total ≤ i.visible + k ∧ (window opened).isNone ↔
      i.visible + k = a.total ∧ opened = none := by
    have hle' : i.visible + k ≤ a.total := by omega
    cases opened with
    | none => simp [window, hle'.ge_iff_eq]
    | some secs => simp [window]
  refine ⟨k, pending, opened, ?_, hcompleted, hwaits, by omega, hnonneg, fun hopen => ?_⟩
  · by_cases hdone : i.visible + k = a.total ∧ opened = none
    · rw [if_pos hdone]
      exact htypewriter.trans (if_pos (hdone_iff.mpr hdone))
    · rw [if_neg hdone]
      exact htypewriter.trans (if_neg fun h => hdone (hdone_iff.mp h))
  · rcases hstop hopen with hall | hlow
    · exact Or.inl (by omega)
    · exact Or.inr hlow

/-! ## The six courses -/

/-- What a step of a typewriter can give, with the directives that it hands out left open but in a wait. -/
inductive Course (i : Typewriter Rat κ) (a : ActivePage Rat κ) (dt : Rat) : Update Rat κ → Prop
  /-- A wait goes on. -/
  | waits {w : WaitWindow Rat} (hwait : i.wait = some w) (h : w.elapsed + dt < w.duration) :
      Course i a dt ⟨{ i with wait := some { w with elapsed := w.elapsed + dt } }, [], none⟩
  /-- A wait closes, and another one may open right away. -/
  | closes {w : WaitWindow Rat} (hwait : i.wait = some w) (h : w.duration ≤ w.elapsed + dt)
      {pending : List (Nat × Directive Rat)} {opened : Option Rat}
      (hwaits : waitTimes a.pending = opened.toList ++ waitTimes pending)
      (fired : List (Directive Rat)) :
      Course i a dt ⟨{ i with active := some { a with pending }, wait := window opened }, fired, none⟩
  /-- A wait opens before the clock runs. -/
  | opens (hwait : i.wait = none) (hstill : i.advances = false)
      {pending : List (Nat × Directive Rat)} {secs : Rat}
      (hwaits : waitTimes a.pending = secs :: waitTimes pending) (fired : List (Directive Rat)) :
      Course i a dt
        ⟨{ i with active := some { a with pending }, wait := window (some secs) }, fired, none⟩
  /-- The whole page stays. -/
  | holds (hwait : i.wait = none) (hall : a.total ≤ i.visible)
      (h : i.holdElapsed + dt < i.pace.holdSeconds) {pending : List (Nat × Directive Rat)}
      (hwaits : waitTimes a.pending = waitTimes pending) (fired : List (Directive Rat)) :
      Course i a dt
        ⟨{ i with
            active := some { a with pending }, wait := none, holdElapsed := i.holdElapsed + dt },
          fired, none⟩
  /-- The whole page has stayed for long enough. -/
  | completes (hwait : i.wait = none) (hall : a.total ≤ i.visible)
      (h : i.pace.holdSeconds ≤ i.holdElapsed + dt) {j : Typewriter Rat κ} (hidle : j.active = none)
      (fired : List (Directive Rat)) : Course i a dt ⟨j, fired, some a.token⟩
  /-- The clock runs, and characters are shown. -/
  | reveals (hwait : i.wait = none) (hadvances : i.advances = true) (hleft : i.visible < a.total)
      {k : Nat} {pending : List (Nat × Directive Rat)} {opened : Option Rat}
      (hwaits : waitTimes a.pending = opened.toList ++ waitTimes pending)
      (hk : i.visible + k ≤ a.total)
      (hnonneg : 0 ≤ i.charTime + dt → 0 ≤ i.charTime + dt - k * i.interval)
      (hstop : opened = none →
        i.visible + k = a.total ∨ i.charTime + dt - k * i.interval < i.interval)
      (fired : List (Directive Rat)) :
      Course i a dt
        ⟨{ i with
            active := some { a with pending }
            visible := i.visible + k
            charTime :=
              if i.visible + k = a.total ∧ opened = none then 0
              else i.charTime + dt - k * i.interval
            wait := window opened },
          fired, none⟩

/-- A step of a typewriter that shows a page takes one of the courses. -/
theorem update_course {i : Typewriter Rat κ} {a : ActivePage Rat κ} (h : i.active = some a)
    (dt : Rat) : Course i a dt (i.update dt) := by
  unfold update
  rw [h]
  cases hw : i.wait with
  | some w =>
    simp only [updateWaiting]
    by_cases hopen : w.elapsed + dt < w.duration
    · rw [if_pos hopen]
      exact .waits hw hopen
    · obtain ⟨pending, opened, hclosed, hwaits⟩ := dispatchDue_eq (i := { i with wait := none }) h rfl
      rw [if_neg hopen, hclosed]
      exact .closes hw (not_lt.mp hopen) hwaits _
  | none =>
    obtain ⟨pending, opened, hstart, hwaits⟩ := dispatchDue_eq h hw
    simp only
    cases opened with
    | some secs =>
      have hstill : i.advances = false := by simp [advances, h, hstart, window]
      rw [hstart]
      exact .opens hw hstill hwaits _
    | none =>
      rw [hstart]
      simp only [window, Option.map_none, Option.isSome_none, Bool.false_eq_true, if_false]
      by_cases hall : a.total ≤ i.visible
      · rw [if_pos hall]
        unfold updateHolding
        by_cases hover : i.pace.holdSeconds ≤ i.holdElapsed + dt
        · simp only [if_pos hover]
          exact .completes hw hall hover rfl _
        · simp only [if_neg hover]
          exact .holds hw hall (not_le.mp hover) hwaits _
      · have hadvances : i.advances = true := by
          simp [advances, h, hw, hstart, window, Nat.lt_of_not_le hall]
        rw [if_neg hall]
        obtain ⟨k, pending', opened, htypewriter, hcompleted, hwaits', hk, hnonneg, hstop⟩ :=
          updateRevealing_spent (i := { i with active := some { a with pending }, wait := none })
            (a := a) rfl rfl (Nat.le_of_not_le hall) dt
        rw [htypewriter, hcompleted]
        exact .reveals hw hadvances (by omega) (hwaits.trans hwaits') hk hnonneg hstop _

end Typewriter

end Cutscene
