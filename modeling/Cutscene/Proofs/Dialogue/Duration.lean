import Cutscene.Proofs.Dialogue.Clock

/-!
# How long a page takes

With steps of one length, a page has a budget of steps: some for its characters, some for each wait that is
open or still to come, and some for the time that it stays in the end. Every step spends of the budget, or
completes the page, so a page never takes more steps than it has in the beginning. Without waits every
step spends one, and the budget is what the page takes.

Results:
* `Directive.pos_of_wait`: waits last for some time.
* `Spends`: what a step does to the budget. `Underway.update`: every step does, or completes the page.
* `Underway.completes`, `Underway.completes_quiet`: from the budget to the length of the run.
* `budget_load`: the budget of a page in the beginning.
-/

namespace Cutscene

/-! ## Durations of waits -/

section Waits

variable {R : Type} [Scalar R]

theorem Directive.pos_of_seconds {s : String} {v : R} (h : Directive.seconds? s = some v) : 0 < v := by
  unfold seconds? at h
  obtain ⟨d, -, hd⟩ := Option.bind_eq_some_iff.mp h
  simp only at hd
  split_ifs at hd with hv
  cases hd
  exact hv.2

/-- A call that is not understood as a wait with a time above zero is no wait. -/
theorem Directive.pos_of_wait {c : Call} {secs : R} (h : Directive.ofCall c = .wait secs) :
    0 < secs := by
  unfold ofCall at h
  cases hc : ofCall? (R := R) c with
  | none => rw [hc] at h; cases h
  | some d =>
    rw [hc] at h
    obtain rfl : d = .wait secs := h
    unfold ofCall? at hc
    simp only at hc
    split at hc
    · obtain ⟨v, hv, hwait⟩ := Option.map_eq_some_iff.mp hc
      cases hwait
      obtain ⟨s, -, hs⟩ := Option.bind_eq_some_iff.mp hv
      exact pos_of_seconds hs
    all_goals grind [Option.map_eq_some_iff]

theorem Page.pos_of_mem_waitTimes {p : Page} {secs : R} (h : secs ∈ waitTimes p.directives) :
    0 < secs := by
  obtain ⟨position, hmem⟩ := mem_waitTimes_iff.mp h
  obtain ⟨c, -, hc⟩ := List.mem_map.mp hmem
  exact Directive.pos_of_wait (congrArg Prod.snd hc)

end Waits

/-! ## Steps of one length -/

/-- How many steps of a length a time takes. -/
def stepsFor (dt time : Rat) : Nat := ⌈time / dt⌉₊

section Steps

variable {dt time : Rat}

theorem stepsFor_pos (hdt : 0 < dt) (h : 0 < time) : 0 < stepsFor dt time :=
  Nat.ceil_pos.mpr (div_pos h hdt)

/-- A step takes one off. -/
theorem stepsFor_sub (hdt : 0 < dt) (time : Rat) : stepsFor dt (time - dt) = stepsFor dt time - 1 := by
  unfold stepsFor
  rw [sub_div, div_self (ne_of_gt hdt), Nat.ceil_sub_one]

theorem stepsFor_le_one (hdt : 0 < dt) (h : time ≤ dt) : stepsFor dt time ≤ 1 := by
  have hnone : stepsFor dt (time - dt) = 0 :=
    Nat.ceil_eq_zero.mpr (div_nonpos_of_nonpos_of_nonneg (sub_nonpos.mpr h) (le_of_lt hdt))
  rw [stepsFor_sub hdt] at hnone
  omega

theorem one_lt_stepsFor (hdt : 0 < dt) (h : dt < time) : 1 < stepsFor dt time := by
  have hmore := stepsFor_pos hdt (sub_pos.mpr h)
  rw [stepsFor_sub hdt] at hmore
  omega

end Steps

namespace Typewriter

variable {κ : Type}

/-! ## The budget -/

/-- The time that the characters to come take, less what is on the clock. -/
def timeLeft (i : Typewriter Rat κ) (a : ActivePage Rat κ) : Rat :=
  ((a.total : Rat) - i.visible) * i.interval - i.charTime

/-- The steps that the characters to come take; at least one, if there are any. -/
def revealSteps (dt : Rat) (i : Typewriter Rat κ) (a : ActivePage Rat κ) : Nat :=
  if a.total ≤ i.visible then 0 else max 1 (stepsFor dt (i.timeLeft a))

/-- The steps that waits to come take; each is opened in one. -/
def waitSteps (dt : Rat) (times : List Rat) : Nat := (times.map fun secs => stepsFor dt secs + 1).sum

/-- The steps that an open wait still takes. -/
def windowSteps (dt : Rat) (wait : Option (WaitWindow Rat)) : Nat :=
  (wait.map fun w => stepsFor dt (w.duration - w.elapsed)).getD 0

/-- The steps that a page still has. -/
def budget (dt : Rat) (i : Typewriter Rat κ) (a : ActivePage Rat κ) : Nat :=
  revealSteps dt i a + waitSteps dt (waitTimes a.pending) + windowSteps dt i.wait +
    stepsFor dt (i.pace.holdSeconds - i.holdElapsed)

/-- A page that is being shown, with no wait that is over, and not for long enough. -/
structure Underway (p : Page) (i : Typewriter Rat κ) (a : ActivePage Rat κ) : Prop where
  clocked : ∃ time, Clocked p time i a
  lasting : ∀ w, i.wait = some w → w.elapsed < w.duration
  hold : i.holdElapsed < i.pace.holdSeconds

/-- No wait is open, and none is to come. -/
def Quiet (i : Typewriter Rat κ) (a : ActivePage Rat κ) : Prop :=
  i.wait = none ∧ waitTimes a.pending = []

/-- To open a wait takes the step that has been set aside for it. -/
theorem waitSteps_opened (dt : Rat) {times rest : List Rat} {opened : Option Rat}
    (h : times = opened.toList ++ rest) :
    waitSteps dt times = waitSteps dt rest + windowSteps dt (window opened) + opened.toList.length := by
  subst h
  cases opened with
  | none => rfl
  | some secs =>
    have hfresh : windowSteps dt (window (some secs)) = stepsFor dt (secs - 0) := rfl
    rw [hfresh, sub_zero]
    simp only [waitSteps, Option.toList_some, List.singleton_append, List.map_cons, List.sum_cons,
      List.length_singleton]
    omega

variable {p : Page} {i : Typewriter Rat κ} {a : ActivePage Rat κ} {dt : Rat}

theorem Underway.hold_pos (h : Underway p i a) (hdt : 0 < dt) :
    0 < stepsFor dt (i.pace.holdSeconds - i.holdElapsed) := stepsFor_pos hdt (sub_pos.mpr h.hold)

/-- A wait that is opened lasts for some time. -/
theorem Underway.window_opened (h : Underway p i a) {opened : Option Rat}
    {pending : List (Nat × Directive Rat)}
    (hwaits : waitTimes a.pending = opened.toList ++ waitTimes pending) :
    ∀ w, window opened = some w → w.elapsed < w.duration := by
  obtain ⟨time, hclocked⟩ := h.clocked
  intro w hw
  cases opened with
  | none => cases hw
  | some secs =>
    cases hw
    exact Page.pos_of_mem_waitTimes (hclocked.waits.subset (hwaits ▸ List.mem_cons_self))

/-- A step of the clock spends what is set aside for the characters, unless it stops at a wait early. -/
theorem revealSteps_reveals (hdt : 0 < dt) (hinterval : 0 < i.interval) (hleft : i.visible < a.total)
    {j : Typewriter Rat κ} {b : ActivePage Rat κ} {k : Nat} (htotal : b.total = a.total)
    (hsame : j.interval = i.interval) (hvisible : j.visible = i.visible + k)
    (hle : i.visible + k ≤ a.total)
    (hclock : i.visible + k < a.total → j.charTime = i.charTime + dt - k * i.interval) :
    revealSteps dt j b ≤ revealSteps dt i a ∧
      (0 ≤ i.charTime + dt - k * i.interval →
        i.visible + k = a.total ∨ i.charTime + dt - k * i.interval < i.interval →
        revealSteps dt j b + 1 = revealSteps dt i a) := by
  have hbefore : revealSteps dt i a = max 1 (stepsFor dt (i.timeLeft a)) :=
    if_neg (Nat.not_le_of_lt hleft)
  rcases Nat.eq_or_lt_of_le hle with hall | hmore
  · have hafter : revealSteps dt j b = 0 := if_pos (by omega)
    refine ⟨by omega, fun hpaid _ => ?_⟩
    have hcast : (a.total : Rat) = i.visible + k := by rw [← hall, Nat.cast_add]
    have hshort : i.timeLeft a ≤ dt := by
      unfold timeLeft
      rw [hcast]
      linarith
    have hone := stepsFor_le_one hdt hshort
    omega
  · have htime : j.timeLeft b = i.timeLeft a - dt := by
      unfold timeLeft
      rw [htotal, hsame, hvisible, hclock hmore, Nat.cast_add]
      ring
    have hafter : revealSteps dt j b = max 1 (stepsFor dt (i.timeLeft a) - 1) := by
      rw [← stepsFor_sub hdt, ← htime]
      exact if_neg (by omega)
    refine ⟨by omega, fun _ hstop => ?_⟩
    have hlow := hstop.resolve_left (Nat.ne_of_lt hmore)
    have hnext : ((i.visible + k + 1 : Nat) : Rat) ≤ a.total := Nat.cast_le.mpr hmore
    have hprice := mul_le_mul_of_nonneg_right hnext (le_of_lt hinterval)
    have hlong : dt < i.timeLeft a := by
      unfold timeLeft
      push_cast at hprice
      linarith
    have hmany := one_lt_stepsFor hdt hlong
    omega

/-! ## What a step spends -/

/-- From one state of the page to another its budget is spent; by one, if no wait is open or to come. -/
structure Spends (dt : Rat) (i : Typewriter Rat κ) (a : ActivePage Rat κ) (j : Typewriter Rat κ)
    (b : ActivePage Rat κ) : Prop where
  token : b.token = a.token
  less : budget dt j b < budget dt i a
  quiet : Quiet i a → Quiet j b ∧ budget dt j b + 1 = budget dt i a

/-- A wait that goes on spends one of its own steps. -/
theorem Underway.spends_waiting (h : Underway p i a) (hdt : 0 < dt) {w : WaitWindow Rat}
    (hwait : i.wait = some w) :
    Spends dt i a { i with wait := some { w with elapsed := w.elapsed + dt } } a where
  token := rfl
  less := by
    have hbefore : windowSteps dt i.wait = stepsFor dt (w.duration - w.elapsed) := by rw [hwait]; rfl
    have hafter : windowSteps dt (some { w with elapsed := w.elapsed + dt }) =
        stepsFor dt (w.duration - w.elapsed) - 1 := by
      rw [← stepsFor_sub hdt, sub_sub]
      rfl
    have hpos := stepsFor_pos hdt (sub_pos.mpr (h.lasting w hwait))
    change revealSteps dt i a + waitSteps dt (waitTimes a.pending) + windowSteps dt (some _) +
      stepsFor dt (i.pace.holdSeconds - i.holdElapsed) < _
    rw [hafter, budget, hbefore]
    omega
  quiet hquiet := absurd (hwait.symm.trans hquiet.1) (Option.some_ne_none w)

variable {pending : List (Nat × Directive Rat)} {opened : Option Rat}

/-- A wait that closes spends its last step, also if another one is opened. -/
theorem Underway.spends_closing (h : Underway p i a) (hdt : 0 < dt) {w : WaitWindow Rat}
    (hwait : i.wait = some w)
    (hwaits : waitTimes a.pending = opened.toList ++ waitTimes pending) :
    Spends dt i a { i with active := some { a with pending }, wait := window opened }
      { a with pending } where
  token := rfl
  less := by
    have hbefore : windowSteps dt i.wait = stepsFor dt (w.duration - w.elapsed) := by rw [hwait]; rfl
    have hpos := stepsFor_pos hdt (sub_pos.mpr (h.lasting w hwait))
    have hopened := waitSteps_opened dt hwaits
    change revealSteps dt i a + waitSteps dt (waitTimes pending) + windowSteps dt (window opened) +
      stepsFor dt (i.pace.holdSeconds - i.holdElapsed) < _
    rw [budget, hbefore, hopened]
    omega
  quiet hquiet := absurd (hwait.symm.trans hquiet.1) (Option.some_ne_none w)

/-- To open a wait spends the step that has been set aside for it. -/
theorem spends_opening {secs : Rat} (hwaits : waitTimes a.pending = secs :: waitTimes pending) :
    Spends dt i a { i with active := some { a with pending }, wait := window (some secs) }
      { a with pending } where
  token := rfl
  less := by
    have hopened : waitSteps dt (waitTimes a.pending) = waitSteps dt (waitTimes pending) +
        windowSteps dt (window (some secs)) + (some secs).toList.length := waitSteps_opened dt hwaits
    change revealSteps dt i a + waitSteps dt (waitTimes pending) + windowSteps dt (window (some secs)) +
      stepsFor dt (i.pace.holdSeconds - i.holdElapsed) < _
    rw [budget, hopened, Option.toList_some, List.length_singleton]
    omega
  quiet hquiet := absurd (hwaits.symm.trans hquiet.2) (List.cons_ne_nil _ _)

/-- A whole page that stays spends one of the steps for that. -/
theorem Underway.spends_holding (h : Underway p i a) (hdt : 0 < dt) (hwait : i.wait = none)
    (hwaits : waitTimes a.pending = waitTimes pending) :
    Spends dt i a
      { i with active := some { a with pending }, wait := none, holdElapsed := i.holdElapsed + dt }
      { a with pending } := by
  have hpos := h.hold_pos hdt
  have hafter : stepsFor dt (i.pace.holdSeconds - (i.holdElapsed + dt)) =
      stepsFor dt (i.pace.holdSeconds - i.holdElapsed) - 1 := by
    rw [← stepsFor_sub hdt, sub_sub]
  have hspent : budget dt { i with
      active := some { a with pending }, wait := none, holdElapsed := i.holdElapsed + dt }
        { a with pending } + 1 = budget dt i a := by
    change revealSteps dt i a + waitSteps dt (waitTimes pending) + windowSteps dt none +
      stepsFor dt (i.pace.holdSeconds - (i.holdElapsed + dt)) + 1 = _
    rw [hafter, budget, hwait, hwaits]
    omega
  exact ⟨rfl, Nat.lt_of_succ_le (le_of_eq hspent), fun hquiet => ⟨⟨rfl, hwaits ▸ hquiet.2⟩, hspent⟩⟩

/-- A step in which the clock runs spends what is set aside for the characters, or for a wait. -/
theorem Underway.spends_revealing (h : Underway p i a) (hdt : 0 < dt) (hwait : i.wait = none)
    (hleft : i.visible < a.total) {k : Nat}
    (hwaits : waitTimes a.pending = opened.toList ++ waitTimes pending)
    (hk : i.visible + k ≤ a.total)
    (hnonneg : 0 ≤ i.charTime + dt → 0 ≤ i.charTime + dt - k * i.interval)
    (hstop : opened = none →
      i.visible + k = a.total ∨ i.charTime + dt - k * i.interval < i.interval) :
    Spends dt i a
      { i with
        active := some { a with pending }
        visible := i.visible + k
        charTime :=
          if i.visible + k = a.total ∧ opened = none then 0 else i.charTime + dt - k * i.interval
        wait := window opened }
      { a with pending } := by
  obtain ⟨time, hclocked⟩ := h.clocked
  have hopened := waitSteps_opened dt hwaits
  have hwindow : windowSteps dt i.wait = 0 := by rw [hwait]; rfl
  let j : Typewriter Rat κ := { i with
    active := some { a with pending }
    visible := i.visible + k
    charTime :=
      if i.visible + k = a.total ∧ opened = none then 0 else i.charTime + dt - k * i.interval
    wait := window opened }
  obtain ⟨hless, hone⟩ := revealSteps_reveals hdt hclocked.paced.interval_pos hleft (j := j)
    (b := { a with pending }) rfl rfl rfl hk fun hmore => if_neg fun hdone => by omega
  have hspent : opened = none →
      revealSteps dt j { a with pending } + 1 = revealSteps dt i a := fun hnone =>
    hone (hnonneg (add_nonneg hclocked.nonneg (le_of_lt hdt))) (hstop hnone)
  have hbudget : budget dt j { a with pending } = revealSteps dt j { a with pending } +
      waitSteps dt (waitTimes pending) + windowSteps dt (window opened) +
      stepsFor dt (i.pace.holdSeconds - i.holdElapsed) := rfl
  refine ⟨rfl, ?_, ?_⟩
  · refine lt_of_eq_of_lt hbudget ?_
    unfold budget
    cases opened with
    | none =>
      have hspent := hspent rfl
      omega
    | some secs =>
      simp only [Option.toList_some, List.length_singleton] at hopened
      omega
  · intro hquiet
    rw [hquiet.2, eq_comm, List.append_eq_nil_iff, Option.toList_eq_nil_iff] at hwaits
    obtain ⟨rfl, hrest⟩ := hwaits
    have hspent := hspent rfl
    refine ⟨⟨rfl, hrest⟩, (congrArg (· + 1) hbudget).trans ?_⟩
    simp only [budget, hopened, hwindow, Option.toList_none, List.length_nil]
    omega

/-- The step in which a page without waits completes is the last one of its budget. -/
theorem Underway.budget_completing (h : Underway p i a) (hdt : 0 < dt) (hall : a.total ≤ i.visible)
    (hover : i.pace.holdSeconds ≤ i.holdElapsed + dt) (hquiet : Quiet i a) : budget dt i a = 1 := by
  have hreveal : revealSteps dt i a = 0 := if_pos hall
  have hpos := h.hold_pos hdt
  have hlast : stepsFor dt (i.pace.holdSeconds - i.holdElapsed) ≤ 1 :=
    stepsFor_le_one hdt (sub_le_iff_le_add'.mpr hover)
  have hwaits : waitSteps dt (waitTimes a.pending) = 0 := by rw [hquiet.2]; rfl
  have hwindow : windowSteps dt i.wait = 0 := by rw [hquiet.1]; rfl
  unfold budget
  omega

/--
A step completes the page, or it goes on with less of its budget left. If no wait is open or to come, this is
the last step of the budget, or one less is left.
-/
theorem Underway.update (h : Underway p i a) (hdt : 0 < dt) :
    ((i.update dt).completed = some a.token ∧ 0 < budget dt i a ∧
        (Quiet i a → budget dt i a = 1)) ∨
      ((i.update dt).completed = none ∧ ∃ b,
        Underway p (i.update dt).typewriter b ∧ Spends dt i a (i.update dt).typewriter b) := by
  obtain ⟨time, hclocked⟩ := h.clocked
  have hcourse := update_course hclocked.active dt
  have hnext : ∀ b, (i.update dt).typewriter.active = some b →
      ∃ time, Clocked p time (i.update dt).typewriter b := by
    intro b hb
    rcases hclocked.update (le_of_lt hdt) with hidle | ⟨b', hb'⟩
    · rw [hidle] at hb
      cases hb
    · obtain rfl := Option.some.inj (hb'.active.symm.trans hb)
      exact ⟨_, hb'⟩
  generalize i.update dt = u at hcourse hnext
  cases hcourse with
  | @waits w hwait hopen =>
    refine Or.inr ⟨rfl, a, ⟨hnext a hclocked.active, ?_, h.hold⟩, h.spends_waiting hdt hwait⟩
    rintro _ ⟨⟩
    exact hopen
  | closes hwait hover hwaits fired =>
    exact Or.inr ⟨rfl, _, ⟨hnext _ rfl, h.window_opened hwaits, h.hold⟩,
      h.spends_closing hdt hwait hwaits⟩
  | @opens hwait _ pending secs hwaits fired =>
    have hlasting : ∀ w, window (some secs) = some w → w.elapsed < w.duration :=
      h.window_opened hwaits
    exact Or.inr ⟨rfl, _, ⟨hnext _ rfl, hlasting, h.hold⟩, spends_opening hwaits⟩
  | holds hwait hall hstays hwaits fired =>
    exact Or.inr ⟨rfl, _, ⟨hnext _ rfl, nofun, hstays⟩, h.spends_holding hdt hwait hwaits⟩
  | completes hwait hall hover hidle fired =>
    exact Or.inl ⟨rfl, Nat.lt_of_lt_of_le (h.hold_pos hdt) (Nat.le_add_left _ _),
      h.budget_completing hdt hall hover⟩
  | reveals hwait _ hleft hwaits hk hnonneg hstop fired =>
    exact Or.inr ⟨rfl, _, ⟨hnext _ rfl, h.window_opened hwaits, h.hold⟩,
      h.spends_revealing hdt hwait hleft hwaits hk hnonneg hstop⟩

/-! ## From the budget to the run -/

/-- In a run of steps of one length, a page completes in this step, and in none before. -/
def CompletesIn (i : Typewriter Rat κ) (dt : Rat) (k : Nat) (token : κ) : Prop :=
  i.completions (List.replicate k dt) = [token] ∧
    ∀ j < k, i.completions (List.replicate j dt) = []

theorem completions_cons (i : Typewriter Rat κ) (dt : Rat) (dts : List Rat) :
    i.completions (dt :: dts) =
      (i.update dt).completed.toList ++ (i.update dt).typewriter.completions dts := by
  unfold completions
  rw [updates, List.filterMap_cons]
  cases (i.update dt).completed <;> rfl

theorem completesIn_one {token : κ} (h : (i.update dt).completed = some token) :
    i.CompletesIn dt 1 token := by
  refine ⟨?_, fun j hj => ?_⟩
  · rw [List.replicate_one, completions_cons, h]
    rfl
  · obtain rfl : j = 0 := by omega
    rfl

theorem CompletesIn.succ {k : Nat} {token : κ} (hnone : (i.update dt).completed = none)
    (h : (i.update dt).typewriter.CompletesIn dt k token) : i.CompletesIn dt (k + 1) token := by
  refine ⟨?_, fun j hj => ?_⟩
  · rw [List.replicate_succ, completions_cons, hnone, h.1]
    rfl
  · cases j with
    | zero => rfl
    | succ j =>
      rw [List.replicate_succ, completions_cons, hnone, h.2 j (by omega)]
      rfl

/-- A page completes before its budget is exceeded. -/
theorem Underway.completes (h : Underway p i a) (hdt : 0 < dt) :
    ∃ k, k ≤ budget dt i a ∧ i.CompletesIn dt k a.token := by
  induction hb : budget dt i a using Nat.strong_induction_on generalizing i a with
  | _ n ih =>
    rcases h.update hdt with ⟨hdone, hpos, -⟩ | ⟨hnone, b, hb', hspends⟩
    · exact ⟨1, by omega, completesIn_one hdone⟩
    · have hless := hspends.less
      obtain ⟨k, hk, hcompletes⟩ := ih _ (by omega) hb' rfl
      exact ⟨k + 1, by omega, hspends.token ▸ hcompletes.succ hnone⟩

/-- A page without waits uses up its budget. -/
theorem Underway.completes_quiet (h : Underway p i a) (hdt : 0 < dt) (hquiet : Quiet i a) :
    i.CompletesIn dt (budget dt i a) a.token := by
  induction hb : budget dt i a using Nat.strong_induction_on generalizing i a with
  | _ n ih =>
    rcases h.update hdt with ⟨hdone, -, hone⟩ | ⟨hnone, b, hb', hspends⟩
    · rw [← hb, hone hquiet]
      exact completesIn_one hdone
    · obtain ⟨hstill, hspent⟩ := hspends.quiet hquiet
      rw [← hb, ← hspent, ← hspends.token]
      exact (ih _ (by omega) hb' hstill rfl).succ hnone

/-! ## Pages from the start -/

theorem underway_load (hi : i.Paced) (p : Page) (speaker : Option String) (token : κ) :
    Underway p (i.load p speaker token) ⟨p, p.directives, p.total, speaker, token⟩ where
  clocked := ⟨0, clocked_load hi p speaker token⟩
  lasting := nofun
  hold := (Pace.pos_of_validate hi.valid).2

/-- In the beginning there are steps for all characters, for each wait and one to open it, and for the end. -/
theorem budget_load (hi : i.Paced) (hdt : 0 < dt) (p : Page) (speaker : Option String) (token : κ) :
    budget dt (i.load p speaker token) ⟨p, p.directives, p.total, speaker, token⟩ =
      ⌈p.total / (i.pace.charsPerSecond * dt)⌉₊ +
        ((waitTimes (R := Rat) p.directives).length +
          ((waitTimes p.directives).map fun secs : Rat => ⌈secs / dt⌉₊).sum) +
        ⌈i.pace.holdSeconds / dt⌉₊ := by
  have hcps : 0 < i.pace.charsPerSecond := (Pace.pos_of_validate hi.valid).1
  have hreveal : revealSteps dt (i.load p speaker token)
      ⟨p, p.directives, p.total, speaker, token⟩ = ⌈p.total / (i.pace.charsPerSecond * dt)⌉₊ := by
    have htime : (i.load p speaker token).timeLeft ⟨p, p.directives, p.total, speaker, token⟩ =
        p.total / i.pace.charsPerSecond := by
      change ((p.total : Rat) - (0 : Nat)) * i.interval - 0 = _
      rw [hi.interval, Nat.cast_zero, sub_zero, sub_zero, mul_one_div]
    unfold revealSteps
    rw [htime]
    split_ifs with hempty
    · obtain hzero : p.total = 0 := Nat.le_zero.mp hempty
      rw [hzero, Nat.cast_zero, zero_div, Nat.ceil_zero]
    · have hsome : (0 : Rat) < p.total := Nat.cast_pos.mpr (Nat.pos_of_ne_zero fun h => hempty (h ▸ le_refl _))
      have hpos := stepsFor_pos hdt (div_pos hsome hcps)
      rw [max_eq_right (Nat.succ_le_of_lt hpos)]
      unfold stepsFor
      rw [div_div]
  have hwaits : ∀ times : List Rat,
      waitSteps dt times = times.length + (times.map fun secs => ⌈secs / dt⌉₊).sum := by
    intro times
    induction times with
    | nil => rfl
    | cons secs r ih =>
      simp only [waitSteps, stepsFor] at ih ⊢
      simp only [List.map_cons, List.sum_cons, List.length_cons, ih]
      omega
  have hhold : stepsFor dt (i.pace.holdSeconds - 0) = ⌈i.pace.holdSeconds / dt⌉₊ := by
    rw [sub_zero]
    rfl
  rw [← hreveal, ← hwaits, ← hhold]
  rfl

end Typewriter

end Cutscene
