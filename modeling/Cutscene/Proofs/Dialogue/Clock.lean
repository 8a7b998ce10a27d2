import Mathlib.Algebra.Order.Floor.Semiring
import Mathlib.Algebra.BigOperators.Group.List.Basic
import Mathlib.Data.List.Induction
import Mathlib.Data.Rat.Floor
import Cutscene.Proofs.Dialogue.Bare
import Cutscene.Proofs.Dialogue.Course
import Cutscene.Proofs.Script.Created

/-!
# The reveal clock

The time that passes while no wait is open goes into the reveal clock, and the clock is spent on
characters, each at the same price. Nothing is lost on the way as long as characters are left, however
the time is cut into steps, and a wait freezes the clock with what is on it.

On `DialogueInterpreter.update`: the reveal clock and the wait window of SPEC_FULL.md, §4.3 and §8.

Results:
* `Clocked.update`: what a step adds to the clock is spent or stays on it.
* `Clocked.run`: so it is over any run.
* `after_of_wait`: a wait that goes on changes nothing but itself.
* `reveal_clock_conserved`: the laws of the clock, for every page and run.
-/

namespace Cutscene.Typewriter

variable {κ : Type}

/-- A typewriter with a pace that was accepted, whose characters take the time that goes with it. -/
structure Paced (i : Typewriter Rat κ) : Prop where
  valid : i.pace.validate = .ok ()
  interval : i.interval = 1 / i.pace.charsPerSecond

theorem paced_create {pace : Pace Rat} {i : Typewriter Rat κ} (h : create pace = .ok i) :
    i.Paced ∧ i.pace = pace := by
  unfold create at h
  obtain ⟨_, hvalid, h⟩ := bind_eq_ok_iff.mp h
  cases h
  exact ⟨⟨hvalid, rfl⟩, rfl⟩

theorem Paced.of_reset {i j : Typewriter Rat κ} (h : i.Paced) (hreset : j.reset = i.reset) :
    j.Paced := by
  have hpace : j.reset.pace = i.reset.pace := congrArg (·.pace) hreset
  have hinterval : j.reset.interval = i.reset.interval := congrArg (·.interval) hreset
  change j.pace = i.pace at hpace
  change j.interval = i.interval at hinterval
  exact ⟨hpace ▸ h.valid, by rw [hinterval, hpace, h.interval]⟩

/-- Neither a page nor a step changes the pace. -/
theorem Paced.load {i : Typewriter Rat κ} (h : i.Paced) (p : Page) (speaker : Option String)
    (token : κ) : (i.load p speaker token).Paced := ⟨h.valid, h.interval⟩

theorem Paced.update {i : Typewriter Rat κ} (h : i.Paced) (dt : Rat) :
    (i.update dt).typewriter.Paced := h.of_reset (reset_update i dt)

theorem interval_after (i : Typewriter Rat κ) (dts : List Rat) :
    (i.after dts).interval = i.interval := by
  induction dts generalizing i with
  | nil => rfl
  | cons dt r ih =>
    have hstep : (i.update dt).typewriter.reset.interval = i.reset.interval :=
      congrArg (·.interval) (reset_update i dt)
    exact (ih (i.update dt).typewriter).trans hstep

theorem Paced.interval_pos {i : Typewriter Rat κ} (h : i.Paced) : 0 < i.interval := by
  rw [h.interval]
  exact one_div_pos.mpr (Pace.pos_of_validate h.valid).1

/-! ## The clock of a page -/

theorem advances_of_wait {R : Type} [Scalar R] {i : Typewriter R κ} {w : WaitWindow R}
    (h : i.wait = some w) : i.advances = false := by
  unfold advances
  cases i.active with
  | none => rfl
  | some a => simp [h]

theorem advances_of_all {R : Type} [Scalar R] {i : Typewriter R κ} {a : ActivePage R κ}
    (h : i.active = some a) (hall : a.total ≤ i.visible) : i.advances = false := by
  unfold advances
  rw [h]
  simp [hall]

/-- What a step adds to the clock. -/
def clockPart (i : Typewriter Rat κ) (dt : Rat) : Rat := if i.advances then dt else 0

theorem clockPart_of_still {i : Typewriter Rat κ} (h : i.advances = false) (dt : Rat) :
    i.clockPart dt = 0 := by
  unfold clockPart
  rw [if_neg (by simp [h])]

theorem clockPart_of_advances {i : Typewriter Rat κ} (h : i.advances = true) (dt : Rat) :
    i.clockPart dt = dt := if_pos h

theorem clockPart_le (i : Typewriter Rat κ) {dt : Rat} (h : 0 ≤ dt) : i.clockPart dt ≤ dt := by
  unfold clockPart
  split_ifs
  · exact le_refl dt
  · exact h

/-- The sum of the steps that let the clock run. -/
def revealTime (i : Typewriter Rat κ) : List Rat → Rat
  | [] => 0
  | dt :: r => i.clockPart dt + revealTime (i.update dt).typewriter r

theorem revealTime_snoc (i : Typewriter Rat κ) (dts : List Rat) (dt : Rat) :
    i.revealTime (dts ++ [dt]) = i.revealTime dts + (i.after dts).clockPart dt := by
  induction dts generalizing i with
  | nil =>
    change i.clockPart dt + 0 = 0 + i.clockPart dt
    ring
  | cons d r ih =>
    have hrest := ih (i.update d).typewriter
    change i.clockPart d + revealTime (i.update d).typewriter (r ++ [dt]) =
      i.clockPart d + revealTime (i.update d).typewriter r +
        ((i.update d).typewriter.after r).clockPart dt
    rw [hrest]
    ring

theorem revealTime_le (i : Typewriter Rat κ) {dts : List Rat} (h : ∀ dt ∈ dts, 0 ≤ dt) :
    i.revealTime dts ≤ dts.sum := by
  induction dts generalizing i with
  | nil => exact le_refl _
  | cons dt r ih =>
    have hrest := ih (i.update dt).typewriter fun d hd => h d (List.mem_cons_of_mem _ hd)
    have hfirst := i.clockPart_le (h dt List.mem_cons_self)
    rw [revealTime, List.sum_cons]
    exact add_le_add hfirst hrest

/--
A typewriter that shows a page some time into its reveal. The characters shown have been paid for out of
that time, and as long as there are others the rest of it is on the clock.
-/
structure Clocked (p : Page) (time : Rat) (i : Typewriter Rat κ) (a : ActivePage Rat κ) : Prop where
  active : i.active = some a
  total : a.total = p.total
  paced : i.Paced
  visible_le : i.visible ≤ p.total
  nonneg : 0 ≤ i.charTime
  paid : i.visible * i.interval ≤ time
  balance : i.visible < p.total → i.visible * i.interval + i.charTime = time
  waits : waitTimes a.pending <:+ waitTimes p.directives

theorem clocked_load {i : Typewriter Rat κ} (h : i.Paced) (p : Page) (speaker : Option String)
    (token : κ) :
    Clocked p 0 (i.load p speaker token) ⟨p, p.directives, p.total, speaker, token⟩ where
  active := rfl
  total := rfl
  paced := h.load p speaker token
  visible_le := Nat.zero_le _
  nonneg := le_refl (0 : Rat)
  paid := by simp [Typewriter.load]
  balance _ := by
    change ((0 : Nat) : Rat) * i.interval + 0 = 0
    simp
  waits := List.suffix_refl _

variable {p : Page} {time : Rat} {i : Typewriter Rat κ} {a : ActivePage Rat κ}

/-- A step that stays on the page keeps the clock, and only one that lets it run adds to it. -/
theorem Clocked.update (h : Clocked p time i a) {dt : Rat} (hdt : 0 ≤ dt) :
    (i.update dt).typewriter.active = none ∨
      ∃ a', Clocked p (time + i.clockPart dt) (i.update dt).typewriter a' := by
  have hcourse := update_course h.active dt
  have hpaced := h.paced.update dt
  generalize i.update dt = u at hcourse hpaced
  cases hcourse with
  | waits hwait hopen =>
    rw [clockPart_of_still (advances_of_wait hwait), add_zero]
    exact Or.inr ⟨a, h.active, h.total, hpaced, h.visible_le, h.nonneg, h.paid, h.balance, h.waits⟩
  | closes hwait hclosed hwaits fired =>
    rw [clockPart_of_still (advances_of_wait hwait), add_zero]
    exact Or.inr ⟨_, rfl, h.total, hpaced, h.visible_le, h.nonneg, h.paid, h.balance,
      (hwaits ▸ List.suffix_append _ _).trans h.waits⟩
  | opens hwait hstill hwaits fired =>
    rw [clockPart_of_still hstill, add_zero]
    exact Or.inr ⟨_, rfl, h.total, hpaced, h.visible_le, h.nonneg, h.paid, h.balance,
      (hwaits ▸ List.suffix_cons _ _).trans h.waits⟩
  | holds hwait hall hstays hwaits fired =>
    rw [clockPart_of_still (advances_of_all h.active hall), add_zero]
    exact Or.inr ⟨_, rfl, h.total, hpaced, h.visible_le, h.nonneg, h.paid, h.balance,
      hwaits ▸ h.waits⟩
  | completes hwait hall hover hidle fired => exact Or.inl hidle
  | @reveals hwait hadvances hleft k pending opened hwaits hk hnonneg hstop fired =>
    have hbalance := h.balance (h.total ▸ hleft)
    have hpaid : 0 ≤ i.charTime + dt - k * i.interval := hnonneg (add_nonneg h.nonneg hdt)
    have hcast : ((i.visible + k : Nat) : Rat) = i.visible + k := Nat.cast_add _ _
    rw [clockPart_of_advances hadvances]
    refine Or.inr ⟨_, rfl, h.total, hpaced, h.total ▸ hk, ?_, ?_, fun hmore => ?_,
      (hwaits ▸ List.suffix_append _ _).trans h.waits⟩
    · simp only
      split_ifs
      · exact le_refl (0 : Rat)
      · exact hpaid
    · simp only [hcast]
      linarith
    · have hgoes : ¬(i.visible + k = a.total ∧ opened = none) := by
        have := h.total
        simp only at hmore
        omega
      simp only [hcast, if_neg hgoes]
      linarith

/-- Where the clock is after any run: the page has completed, or the clock is in balance. -/
theorem Clocked.run (hi : i.Paced) (p : Page) (speaker : Option String) (token : κ)
    {dts : List Rat} (hdts : ∀ dt ∈ dts, 0 ≤ dt) :
    ((i.load p speaker token).after dts).active = none ∨
      ∃ a, Clocked p ((i.load p speaker token).revealTime dts)
        ((i.load p speaker token).after dts) a := by
  induction dts using List.reverseRecOn with
  | nil => exact Or.inr ⟨_, clocked_load hi p speaker token⟩
  | append_singleton dts dt ih =>
    rw [after_snoc, revealTime_snoc]
    rcases ih fun d hd => hdts d (List.mem_append_left _ hd) with hidle | ⟨a, h⟩
    · rw [update_of_idle hidle]
      exact Or.inl hidle
    · exact h.update (hdts dt (by simp))

theorem phase_eq_revealing_iff {R : Type} {i : Typewriter R κ} :
    i.phase = .revealing ↔
      ∃ a, i.active = some a ∧ i.wait = none ∧ i.visible < a.total := by
  unfold phase
  cases i.active with
  | none => simp
  | some a =>
    cases i.wait with
    | some w => simp
    | none =>
      simp only [Option.isSome_none, Bool.false_eq_true, if_false, Option.some.injEq,
        exists_eq_left', true_and]
      split_ifs with hall
      · simp [hall]
      · simpa using hall

/-- A step of the clock that leaves characters to reveal leaves less on the clock than one takes. -/
theorem charTime_lt_interval (ha : i.active = some a) (hadvances : i.advances = true) {dt : Rat}
    (hphase : (i.update dt).typewriter.phase = .revealing) :
    (i.update dt).typewriter.charTime < i.interval := by
  have hcourse := update_course ha dt
  generalize i.update dt = u at hcourse hphase
  obtain ⟨b, hb, hwait, hleft⟩ := phase_eq_revealing_iff.mp hphase
  have hstops : ∀ {P : Prop}, i.advances = false → P := by
    intro P hstill
    rw [hstill] at hadvances
    exact absurd hadvances Bool.false_ne_true
  cases hcourse with
  | waits hopen _ => exact hstops (advances_of_wait hopen)
  | closes hopen _ _ _ => exact hstops (advances_of_wait hopen)
  | opens _ hstill _ _ => exact hstops hstill
  | holds _ hall _ _ _ => exact hstops (advances_of_all ha hall)
  | completes _ hall _ _ _ => exact hstops (advances_of_all ha hall)
  | @reveals _ _ _ k pending opened _ hk _ hstop _ =>
    have hnone : opened = none := by
      cases opened with
      | none => rfl
      | some secs => cases hwait
    have hmore : i.visible + k ≠ a.total := by
      cases hb
      exact Nat.ne_of_lt hleft
    simp only [if_neg fun h : i.visible + k = a.total ∧ opened = none => hmore h.1]
    exact (hstop hnone).resolve_left hmore

/-! ## Frozen waits -/

/-- As long as a wait goes on, a step adds to it and does nothing else. -/
theorem update_of_wait {R : Type} [Scalar R] {i : Typewriter R κ} {a : ActivePage R κ}
    (ha : i.active = some a) {w : WaitWindow R} (hw : i.wait = some w) {dt : R}
    (h : w.elapsed + dt < w.duration) :
    i.update dt = ⟨{ i with wait := some { w with elapsed := w.elapsed + dt } }, [], none⟩ := by
  unfold update updateWaiting
  rw [ha, hw]
  simp only [if_pos h]

/-- So it is over any run that the wait outlasts. -/
theorem after_of_wait (ha : i.active = some a) {w : WaitWindow Rat} (hw : i.wait = some w)
    {dts : List Rat} (hdts : ∀ dt ∈ dts, 0 ≤ dt) (h : w.elapsed + dts.sum < w.duration) :
    i.after dts = { i with wait := some { w with elapsed := w.elapsed + dts.sum } } ∧
      i.handedOut dts = [] := by
  induction dts using List.reverseRecOn with
  | nil =>
    refine ⟨?_, rfl⟩
    rw [List.sum_nil, add_zero, after_nil, ← hw]
  | append_singleton dts dt ih =>
    have hdt : 0 ≤ dt := hdts dt (by simp)
    rw [List.sum_append, List.sum_singleton, ← add_assoc] at h ⊢
    obtain ⟨hafter, hhanded⟩ :=
      ih (fun d hd => hdts d (List.mem_append_left _ hd)) (lt_of_le_of_lt (by linarith) h)
    have hactive : (i.after dts).active = some a := by
      rw [hafter]
      exact ha
    have hwait : (i.after dts).wait = some { w with elapsed := w.elapsed + dts.sum } := by rw [hafter]
    have hstep := update_of_wait hactive hwait h
    rw [after_snoc, handedOut_snoc, hstep, hhanded, hafter]
    exact ⟨rfl, rfl⟩

/-- A step that ends a wait moves neither the cursor nor the clock. -/
theorem update_of_wait_over (ha : i.active = some a) {w : WaitWindow Rat} (hw : i.wait = some w)
    {dt : Rat} (h : w.duration ≤ w.elapsed + dt) :
    (i.update dt).typewriter.visible = i.visible ∧
      (i.update dt).typewriter.charTime = i.charTime := by
  have hcourse := update_course ha dt
  generalize i.update dt = u at hcourse
  cases hcourse with
  | closes _ _ _ _ => exact ⟨rfl, rfl⟩
  | @waits w' hwait hopen =>
    rw [hw] at hwait
    cases hwait
    exact absurd hopen (not_lt.mpr h)
  | opens hwait _ _ _ => rw [hw] at hwait; cases hwait
  | holds hwait _ _ _ _ => rw [hw] at hwait; cases hwait
  | completes hwait _ _ _ _ => rw [hw] at hwait; cases hwait
  | reveals hwait _ _ _ _ _ _ _ => rw [hw] at hwait; cases hwait

/-- A wait that is open after a step was opened in it for a wait of the page, or was open before. -/
theorem Clocked.wait_update (h : Clocked p time i a) {dt : Rat} {w : WaitWindow Rat}
    (hactive : (i.update dt).typewriter.active ≠ none)
    (hw : (i.update dt).typewriter.wait = some w) :
    (w.elapsed = 0 ∧ w.duration ∈ waitTimes p.directives) ∨
      ∃ w', i.wait = some w' ∧ w'.elapsed + dt < w'.duration ∧
        w = { w' with elapsed := w'.elapsed + dt } := by
  have hfresh : ∀ {opened : Option Rat} {pending : List (Nat × Directive Rat)},
      waitTimes a.pending = opened.toList ++ waitTimes pending → window opened = some w →
      w.elapsed = 0 ∧ w.duration ∈ waitTimes p.directives := by
    intro opened pending hwaits hopened
    cases opened with
    | none => cases hopened
    | some secs =>
      cases hopened
      exact ⟨rfl, h.waits.subset (hwaits ▸ List.mem_cons_self)⟩
  have hcourse := update_course h.active dt
  generalize i.update dt = u at hcourse hactive hw
  cases hcourse with
  | @waits w' hwait hopen =>
    cases hw
    exact Or.inr ⟨w', hwait, hopen, rfl⟩
  | closes _ _ hwaits _ => exact Or.inl (hfresh hwaits hw)
  | @opens _ _ _ secs hwaits _ => exact Or.inl (@hfresh (some secs) _ hwaits hw)
  | holds _ _ _ _ _ => cases hw
  | completes _ _ _ hidle _ => exact absurd hidle hactive
  | reveals _ _ _ hwaits _ _ _ _ => exact Or.inl (hfresh hwaits hw)

/-! ## Pages without waits -/

/-- Without waits all time goes into the clock, and the clock stays below the time of a character. -/
theorem run_of_no_waits (hi : i.Paced) (hnone : waitTimes (R := Rat) p.directives = [])
    (speaker : Option String) (token : κ) {dts : List Rat} (hdts : ∀ dt ∈ dts, 0 ≤ dt) :
    let start := i.load p speaker token
    (start.after dts).active ≠ none →
      (start.after dts).wait = none ∧
        ((start.after dts).visible < p.total →
          start.revealTime dts = dts.sum ∧ (start.after dts).charTime < i.interval) := by
  intro start
  induction dts using List.reverseRecOn with
  | nil => exact fun _ => ⟨rfl, fun _ => ⟨rfl, hi.interval_pos⟩⟩
  | append_singleton dts dt ih =>
    intro hactive
    rw [after_snoc] at hactive ⊢
    have hdts' : ∀ d ∈ dts, 0 ≤ d := fun d hd => hdts d (List.mem_append_left _ hd)
    rcases Clocked.run hi p speaker token hdts' with hidle | ⟨a, h⟩
    · rw [update_of_idle hidle] at hactive
      exact absurd hidle hactive
    have hinterval : (start.after dts).interval = i.interval := start.interval_after dts
    obtain ⟨hclosed, hcounts⟩ := ih hdts' (by rw [h.active]; simp)
    have hempty : waitTimes a.pending = [] := List.suffix_nil.mp (hnone ▸ h.waits)
    have hcourse := update_course h.active dt
    rw [revealTime_snoc]
    generalize (start.after dts).update dt = u at hcourse hactive
    cases hcourse with
    | waits hwait _ => rw [hclosed] at hwait; cases hwait
    | closes hwait _ _ _ => rw [hclosed] at hwait; cases hwait
    | opens _ _ hwaits _ => rw [hempty] at hwaits; cases hwaits
    | holds _ hall _ _ _ => exact ⟨rfl, fun hleft => absurd hleft (by simpa [← h.total] using hall)⟩
    | completes _ _ _ hidle _ => exact absurd hidle hactive
    | @reveals _ hadvances hleft k pending opened hwaits hk _ hstop _ =>
      have hopened : opened = none := by
        cases opened with
        | none => rfl
        | some secs => rw [hempty] at hwaits; cases hwaits
      subst hopened
      refine ⟨rfl, fun hmore => ?_⟩
      have hgoes : (start.after dts).visible + k ≠ a.total := Nat.ne_of_lt (h.total ▸ hmore)
      obtain ⟨hsum, -⟩ := hcounts (h.total ▸ hleft)
      rw [clockPart_of_advances hadvances, hsum, List.sum_append, List.sum_singleton]
      refine ⟨rfl, ?_⟩
      rw [if_neg fun hdone => hgoes hdone.1, ← hinterval]
      exact (hstop rfl).resolve_left hgoes

/-- Without waits the time that has passed says how many characters are shown. -/
theorem visible_of_no_waits (hi : i.Paced) (hnone : waitTimes (R := Rat) p.directives = [])
    (speaker : Option String) (token : κ) {dts : List Rat} (hdts : ∀ dt ∈ dts, 0 ≤ dt)
    (hactive : ((i.load p speaker token).after dts).active ≠ none) :
    ((i.load p speaker token).after dts).visible =
      min p.total ⌊dts.sum * i.pace.charsPerSecond⌋₊ := by
  have hcps : 0 < i.pace.charsPerSecond := (Pace.pos_of_validate hi.valid).1
  have hinterval := (i.load p speaker token).interval_after dts
  have hprice : (i.load p speaker token).interval = 1 / i.pace.charsPerSecond := hi.interval
  obtain ⟨-, hcounts⟩ := run_of_no_waits hi hnone speaker token hdts hactive
  rcases Clocked.run hi p speaker token hdts with hidle | ⟨a, h⟩
  · exact absurd hidle hactive
  have hpaid := h.paid.trans ((i.load p speaker token).revealTime_le hdts)
  rw [hinterval, hprice, mul_one_div, div_le_iff₀ hcps] at hpaid
  have hfloor : ((i.load p speaker token).after dts).visible ≤
      ⌊dts.sum * i.pace.charsPerSecond⌋₊ := Nat.le_floor hpaid
  rcases Nat.lt_or_eq_of_le h.visible_le with hleft | hall
  · obtain ⟨hsum, hlow⟩ := hcounts hleft
    have hbalance := h.balance hleft
    rw [hinterval, hprice, mul_one_div, hsum] at hbalance
    have hnext : dts.sum * i.pace.charsPerSecond <
        ((((i.load p speaker token).after dts).visible + 1 : Nat) : Rat) := by
      rw [← hbalance, add_mul, div_mul_cancel₀ _ (ne_of_gt hcps), Nat.cast_add, Nat.cast_one]
      rw [hi.interval, lt_div_iff₀ hcps] at hlow
      linarith
    have hexact := Nat.floor_lt' (Nat.succ_ne_zero _) |>.mpr hnext
    omega
  · omega

/-! ## The laws of the clock -/

/--
**The reveal clock loses nothing, and waits freeze it.** A page is loaded into a typewriter with an accepted
pace, and steps of any durations from zero on are made, the last of them `dt`.

* As long as characters are left, those shown and what is on the clock add up to the time of the steps that
  let the clock run.
* A step that lets the clock run and leaves the page revealing leaves less on the clock than a character
  takes.
* A wait that is open after a step was opened in it for a wait of the page, or has gone on. From then on,
  as long as the wait is longer than the time, steps change nothing but its time and hand out nothing;
  the step in which it is over moves neither the cursor nor the clock.
* On a page without waits the characters shown are those that the time is enough for.
-/
theorem reveal_clock_conserved {i : Typewriter Rat κ} (hi : i.Paced) (p : Page)
    (speaker : Option String) (token : κ) {dts : List Rat} (hdts : ∀ d ∈ dts, 0 ≤ d) (dt : Rat) :
    let start := i.load p speaker token
    let was := start.after dts
    let now := (was.update dt).typewriter
    let cps := i.pace.charsPerSecond
    (was.phase ≠ .idle → was.visible < p.total →
        was.visible / cps + was.charTime = start.revealTime dts) ∧
      (was.advances = true → now.phase = .revealing → now.charTime < 1 / cps) ∧
      (∀ w, now.phase = .paused → now.wait = some w →
        ((w.elapsed = 0 ∧ ∃ position, (position, .wait w.duration) ∈ p.directives) ∨
          ∃ w', was.wait = some w' ∧ w'.elapsed + dt < w'.duration ∧
            w = { w' with elapsed := w'.elapsed + dt }) ∧
        ∀ more : List Rat, (∀ d ∈ more, 0 ≤ d) → w.elapsed + more.sum < w.duration →
          now.after more = { now with wait := some { w with elapsed := w.elapsed + more.sum } } ∧
            now.handedOut more = [] ∧
            ∀ last, w.duration ≤ w.elapsed + more.sum + last →
              let closed := ((now.after more).update last).typewriter
              closed.visible = now.visible ∧ closed.charTime = now.charTime) ∧
      ((∀ position secs, (position, .wait secs) ∉ p.directives (R := Rat)) → was.phase ≠ .idle →
        was.visible = min p.total ⌊dts.sum * cps⌋₊) := by
  intro start was now cps
  have hbusy : was.phase ≠ .idle → was.active ≠ none := mt phase_eq_idle_iff.mpr
  have hinterval : was.interval = 1 / cps := (start.interval_after dts).trans hi.interval
  refine ⟨?balance, ?low, ?frozen, ?plain⟩
  case balance =>
    intro hphase hleft
    rcases Clocked.run hi p speaker token hdts with hidle | ⟨a, h⟩
    · exact absurd hidle (hbusy hphase)
    · have hbalance := h.balance hleft
      rwa [hinterval, mul_one_div] at hbalance
  case low =>
    intro hadvances hphase
    rcases Clocked.run hi p speaker token hdts with hidle | ⟨a, h⟩
    · rw [advances, hidle] at hadvances
      exact absurd hadvances Bool.false_ne_true
    · rw [← hinterval]
      exact charTime_lt_interval h.active hadvances hphase
  case frozen =>
    intro w hpaused hw
    rcases Clocked.run hi p speaker token hdts with hidle | ⟨a, h⟩
    · have hstill : now.active = none := by
        simp only [now, was, start, update_of_idle hidle]
        exact hidle
      exact absurd (phase_eq_idle_iff.mpr hstill) (by rw [hpaused]; decide)
    obtain ⟨hsome, -⟩ := phase_eq_paused_iff.mp hpaused
    obtain ⟨b, hb⟩ := Option.isSome_iff_exists.mp hsome
    refine ⟨?_, fun more hmore hopen => ?_⟩
    · rcases h.wait_update (by rw [hb]; exact Option.some_ne_none b) hw with ⟨hzero, hmem⟩ | hgoes
      · exact Or.inl ⟨hzero, mem_waitTimes_iff.mp hmem⟩
      · exact Or.inr hgoes
    · obtain ⟨hafter, hhanded⟩ := after_of_wait hb hw hmore hopen
      refine ⟨hafter, hhanded, fun last hover => ?_⟩
      simp only [hafter]
      exact update_of_wait_over (i := { now with wait := some _ }) hb rfl hover
  case plain =>
    intro hnone hphase
    have hempty : waitTimes (R := Rat) p.directives = [] := by
      rw [List.eq_nil_iff_forall_not_mem]
      intro secs hsecs
      obtain ⟨position, hmem⟩ := mem_waitTimes_iff.mp hsecs
      exact hnone position secs hmem
    exact visible_of_no_waits hi hempty speaker token hdts (hbusy hphase)

/-- Two characters a second, a wait of a second behind the second one: a quarter of a second is kept. -/
theorem reveal_clock_conserved_pause :
    let i : Typewriter Rat Unit := ⟨⟨2, 1⟩, 1 / 2, none, 0, 0, none, 0⟩
    let p : Page := ⟨[.text ⟨"ab", []⟩, .call ⟨"wait", ["1"]⟩, .text ⟨"cd", []⟩]⟩
    let was := (i.load p none ()).after [3 / 4]
    let now := (was.update (1 / 2)).typewriter
    i.Paced ∧ was.visible / 2 + was.charTime = (i.load p none ()).revealTime [3 / 4] ∧
      now.wait = some ⟨1, 0⟩ ∧ now.handedOut [1 / 2] = [] ∧
      ((now.after [1 / 2]).update (1 / 2)).typewriter.visible = 2 ∧
      ((now.after [1 / 2]).update (1 / 2)).typewriter.charTime = 1 / 4 := by
  intro i p was now
  have hvalid : i.pace.validate = .ok () := Pace.validate_of_pos (by decide +kernel) (by decide +kernel)
  have hcreate : create i.pace = .ok i := by
    unfold create
    rw [hvalid]
    rfl
  have hpaced : i.Paced := (paced_create hcreate).1
  have hdts : ∀ d ∈ [(3 / 4 : Rat)], 0 ≤ d := by decide +kernel
  obtain ⟨hbalance, -, hfrozen, -⟩ := reveal_clock_conserved hpaced p none () hdts (1 / 2)
  have hwait : now.wait = some ⟨1, 0⟩ := by decide +kernel
  obtain ⟨-, hgoes⟩ := hfrozen ⟨1, 0⟩ (by decide +kernel) hwait
  obtain ⟨-, hhanded, hover⟩ := hgoes [1 / 2] (by decide +kernel) (by decide +kernel)
  obtain ⟨hvisible, hclock⟩ := hover (1 / 2) (by decide +kernel)
  exact ⟨hpaced, hbalance (by decide +kernel) (by decide +kernel), hwait, hhanded,
    hvisible.trans (by decide +kernel), hclock.trans (by decide +kernel)⟩

end Cutscene.Typewriter
