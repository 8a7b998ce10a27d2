import Mathlib.Logic.Function.Iterate
import Cutscene.Proofs.Dialogue.Duration
import Cutscene.Proofs.Motion.Landing
import Cutscene.Proofs.Script.Aloof
import Cutscene.Proofs.Script.Created

/-!
# How long actions last

An action at the head of the queue is taken off in the step in which it finishes, unless somebody else
reports it first or its callback takes the finisher away. With steps of one length this is a known step for
pauses and for moves along curves with a name: a pause waits for more than its duration, while a move arrives
when its time is over. How many steps a page takes is known up to the waits in it.

On `MoveAction`, `WaitAction` and `DialogueInterpreter.complete` (SPEC_FULL.md, §4.2 and §8).

Results:
* `loyal_performAll`: which callbacks that are made of cues leave it to their action to report itself.
* `Action.update_loyal`: such an action reports itself in the step in which it finishes, and not before.
* `ActionQueue.poppedIn`: from the clock of an action to the step in which it is taken off.
* `Pause.lastsFor`, `Move.lastsFor`: the clocks of pauses and moves.
* `timed_actions_end`: how many steps pauses, moves and pages take.
-/

namespace Cutscene

/-- A callback that leaves it to its action to report itself. -/
def Callback.Loyal {R : Type} (f : Callback R) : Prop :=
  ∀ (c : Context R) (id : ActionId), c.finisher = some id →
    (f c).finisher = some id ∧ (id ∉ c.raised → id ∉ (f c).raised)

variable {R : Type}

/-- After a loyal callback the running action is the last to be reported, and is reported once. -/
theorem Context.complete_loyal {c : Context R} {id : ActionId} (hc : c.finisher = some id)
    (hid : id ∉ c.raised) {onComplete : Option (Callback R)}
    (h : ∀ f ∈ onComplete, Callback.Loyal f) :
    ∃ before, id ∉ before ∧ (c.complete onComplete).raised = before ++ [id] := by
  unfold complete
  cases onComplete with
  | none =>
    rw [finishAction_of_some hc]
    exact ⟨c.raised, hid, rfl⟩
  | some f =>
    obtain ⟨hfinisher, hraised⟩ := h f rfl c id hc
    rw [finishAction_of_some hfinisher]
    exact ⟨(f c).raised, hraised hid, rfl⟩

variable [Scalar R]

/-- Whether a cue uses a finisher or takes one away. -/
def Cue.dealsInFinishers : Cue R → Bool
  | finish | park _ | drop | release _ => true
  | _ => false

theorem Cue.finisher_perform {cue : Cue R} (h : cue.dealsInFinishers = false) (c : Context R) :
    (cue.perform c).finisher = c.finisher ∧ (cue.perform c).raised = c.raised := by
  cases cue with
  | finish => cases h
  | park slot => cases h
  | drop => cases h
  | release slot => cases h
  | reparent node target =>
    change (c.reparent node target).finisher = _ ∧ (c.reparent node target).raised = _
    unfold Context.reparent
    cases c.scene.reparent node target <;> exact ⟨rfl, rfl⟩
  | _ => exact ⟨rfl, rfl⟩

/-- A callback that is made of cues is loyal if none of them deals in finishers. -/
theorem loyal_performAll {cues : List (Cue R)} (h : ∀ cue ∈ cues, cue.dealsInFinishers = false) :
    Callback.Loyal (Cue.performAll cues) := by
  have hkeeps : ∀ c : Context R, (Cue.performAll cues c).finisher = c.finisher ∧
      (Cue.performAll cues c).raised = c.raised := by
    induction cues with
    | nil => exact fun c => ⟨rfl, rfl⟩
    | cons cue r ih =>
      intro c
      obtain ⟨hfinisher, hraised⟩ := Cue.finisher_perform (h cue List.mem_cons_self) c
      obtain ⟨hfinisher', hraised'⟩ := ih (fun cue hcue => h cue (List.mem_cons_of_mem _ hcue))
        (cue.perform c)
      exact ⟨hfinisher'.trans hfinisher, hraised'.trans hraised⟩
  intro c id hid
  obtain ⟨hfinisher, hraised⟩ := hkeeps c
  exact ⟨hfinisher.trans hid, fun hmem => hraised ▸ hmem⟩

namespace Action

/-- An action whose callback is loyal. -/
def Loyal (a : Action R) : Prop := ∀ f ∈ a.callback?, Callback.Loyal f

theorem Loyal.update {a : Action R} (h : a.Loyal) (dt : R) (c : Context R) :
    (a.update dt c).1.Loyal :=
  fun f hf => h f (callback?_update a dt c f hf)

/-- A loyal action reports itself in the step in which it finishes, and not before. -/
theorem update_loyal {a : Action R} (h : a.Loyal) (dt : R) {c : Context R} {id : ActionId}
    (hc : c.finisher = some id) (hid : id ∉ c.raised) :
    if a.finishes dt then ∃ before, id ∉ before ∧ (a.update dt c).2.raised = before ++ [id]
    else id ∉ (a.update dt c).2.raised := by
  obtain ⟨scene, hends⟩ := a.update_ends dt c
  rw [hends]
  split_ifs
  · exact Context.complete_loyal (c := { c with scene }) hc hid h
  · exact hid

/-- By its clock, an action that is updated again and again first finishes in this update. -/
def LastsFor (a : Action R) (dt : R) (n : Nat) : Prop :=
  0 < n ∧ ∀ k < n, ((advance dt)^[k] a.unplaced).finishes dt = decide (k + 1 = n)

end Action

/-! ## The head of the queue -/

namespace ActionQueue

/-- A step of a queue with a loyal action at its head. -/
theorem update_loyal {s : ActionQueue R} {q : Queued R} {rest : List (Queued R)}
    (hitems : s.settle.items = q :: rest) (h : q.action.Loyal) (dt : R) {c : Context R}
    (hc : q.id ∉ c.raised) :
    ∃ a, a.Loyal ∧ (q.action.finishes dt = false → a.unplaced = q.action.unplaced.advance dt) ∧
      (s.update dt c).2.1 =
        if q.action.finishes dt then
          { s.settle with
            items := rest, started := some q.id, completed := s.settle.completed + 1, signals := [] }
        else { s.settle with items := ⟨q.id, a⟩ :: rest, started := some q.id, signals := [] } := by
  rw [update_of_cons hitems]
  obtain ⟨-, hraised, -⟩ := opened_head q c (s.settle.started = some q.id)
  generalize (if s.settle.started = some q.id then c else begin q c) = c' at hraised ⊢
  have hreport := Action.update_loyal h dt (c := { c' with finisher := some q.id }) rfl
    (by rwa [hraised])
  refine ⟨(turn q dt c').1, h.update dt _, fun hfin => Action.update_unplaced hfin _, ?_⟩
  split_ifs at hreport ⊢ with hfin
  · obtain ⟨before, hbefore, hraised'⟩ := hreport
    exact settle_turned_of_raised s.settle q rest hraised' hbefore
  · exact settle_turned_of_quiet s.settle q rest hreport

/--
What can happen to a queue while nobody else reports an action: more is queued, others are reported, signals
are looked at, and steps of one length are taken, which are counted.
-/
inductive Frames (id : ActionId) (dt : R) (s : ActionQueue R) : Nat → ActionQueue R → Prop
  | refl : Frames id dt s 0 s
  | push {k t} (h : Frames id dt s k t) (a : Action R) : Frames id dt s k (t.push a).2
  | signal {k t} (h : Frames id dt s k t) {other : ActionId} (hother : other ≠ id) :
      Frames id dt s k (t.signal other)
  | settle {k t} (h : Frames id dt s k t) : Frames id dt s k t.settle
  | update {k t} (h : Frames id dt s k t) {c : Context R} (hc : id ∉ c.raised) :
      Frames id dt s (k + 1) (t.update dt c).2.1

/--
In steps of one length, an action is taken off the head of the queue in this step, and in none before,
whatever else happens to the queue meanwhile.
-/
def PoppedIn (s : ActionQueue R) (id : ActionId) (dt : R) (n : Nat) : Prop :=
  0 < n ∧ ∀ k t, k < n → Frames id dt s k t →
    ∃ now rest, t.items = ⟨id, now⟩ :: rest ∧ t.completed = s.completed ∧
      ∀ c : Context R, k + 1 = n → id ∉ c.raised →
        (t.update dt c).2.1.items = rest ∧ (t.update dt c).2.1.completed = s.completed + 1

/-- An action is at the head of the queue, and has not finished in any of so many updates. -/
structure Lasting (id : ActionId) (a : Action R) (dt : R) (completed k : Nat) (t : ActionQueue R) :
    Prop where
  head : ∃ now rest, t.items = ⟨id, now⟩ :: rest ∧ now.Loyal ∧
    now.unplaced = (Action.advance dt)^[k] a.unplaced
  unsignalled : id ∉ t.signals
  completed_eq : t.completed = completed

variable {id : ActionId} {a : Action R} {dt : R} {completed k n : Nat} {s t : ActionQueue R}

/-- In a step the action finishes and is taken off, or it lasts. -/
theorem Lasting.update (h : Lasting id a dt completed k t) (hn : a.LastsFor dt n) (hk : k < n)
    {c : Context R} (hc : id ∉ c.raised) :
    if k + 1 = n then
      (t.update dt c).2.1.items = t.items.tail ∧ (t.update dt c).2.1.completed = completed + 1
    else Lasting id a dt completed (k + 1) (t.update dt c).2.1 := by
  obtain ⟨now, rest, hitems, hloyal, hclock⟩ := h.head
  have hsettled : t.settle = { t with signals := [] } := settle_of_notMem hitems h.unsignalled
  have hfinishes : now.finishes dt = decide (k + 1 = n) := by
    rw [← Action.finishes_unplaced, hclock]
    exact hn.2 k hk
  have hhead : t.settle.items = ⟨id, now⟩ :: rest := by
    rw [hsettled]
    exact hitems
  obtain ⟨next, hnext, hadvance, hstep⟩ := update_loyal hhead hloyal dt hc
  simp only [hsettled, hfinishes, decide_eq_true_eq] at hstep
  rw [hstep, hitems]
  split_ifs with hlast
  · exact ⟨rfl, congrArg (· + 1) h.completed_eq⟩
  · refine ⟨⟨next, rest, rfl, hnext, ?_⟩, List.not_mem_nil, h.completed_eq⟩
    rw [hadvance (by simpa [hlast] using hfinishes), hclock, Function.iterate_succ_apply']

/-- What can happen to the queue before the action finishes leaves it at the head. -/
theorem Frames.lasting (h : Frames id dt s k t) (hs : Lasting id a dt completed 0 s)
    (hn : a.LastsFor dt n) (hk : k < n) : Lasting id a dt completed k t := by
  induction h with
  | refl => exact hs
  | @push _ t _ b ih =>
    obtain ⟨⟨now, rest, hitems, hnow⟩, hid, hcompleted⟩ := ih hk
    exact ⟨⟨now, rest ++ [⟨t.nextId, b⟩], congrArg (· ++ _) hitems, hnow⟩, hid, hcompleted⟩
  | signal _ hother ih =>
    obtain ⟨hhead, hid, hcompleted⟩ := ih hk
    refine ⟨hhead, ?_, hcompleted⟩
    intro hmem
    rcases List.mem_append.mp hmem with hmem | hmem
    · exact hid hmem
    · exact hother (List.mem_singleton.mp hmem).symm
  | settle _ ih =>
    obtain ⟨⟨now, rest, hitems, hnow⟩, hid, hcompleted⟩ := ih hk
    rw [settle_of_notMem hitems hid]
    exact ⟨⟨now, rest, hitems, hnow⟩, List.not_mem_nil, hcompleted⟩
  | update _ hc ih =>
    have hstep := (ih (by omega)).update hn (by omega) hc
    rwa [if_neg (by omega)] at hstep

/-- An action at the head of the queue is taken off when its clock says so. -/
theorem poppedIn {rest : List (Queued R)} (hitems : s.items = ⟨id, a⟩ :: rest) (hid : id ∉ s.signals)
    (ha : a.Loyal) (hn : a.LastsFor dt n) : s.PoppedIn id dt n := by
  refine ⟨hn.1, fun k t hk hframes => ?_⟩
  have hstart : Lasting id a dt s.completed 0 s := ⟨⟨a, rest, hitems, ha, rfl⟩, hid, rfl⟩
  have hlasting := hframes.lasting hstart hn hk
  obtain ⟨now, rest', hitems', -⟩ := hlasting.head
  refine ⟨now, rest', hitems', hlasting.completed_eq, fun c hlast hc => ?_⟩
  have hstep := hlasting.update hn hk hc
  rwa [if_pos hlast, hitems'] at hstep

end ActionQueue

/-! ## Clocks -/

section Clocks

variable {dt duration : Rat}

theorem Pause.iterate_advance (dt duration : Rat) (onComplete : Option (Callback Rat)) (k : Nat) :
    (Action.advance dt)^[k] (.pause ⟨duration, 0, onComplete, false⟩) =
      .pause ⟨duration, k * dt, onComplete, false⟩ := by
  induction k with
  | zero =>
    rw [Nat.cast_zero, zero_mul]
    rfl
  | succ k ih =>
    rw [Function.iterate_succ_apply', ih, Nat.cast_succ, add_one_mul]
    rfl

/-- A pause lasts until more than its duration has passed. -/
theorem Pause.lastsFor (hdt : 0 < dt) (hduration : 0 < duration)
    (onComplete : Option (Callback Rat)) :
    (Action.pause ⟨duration, 0, onComplete, false⟩).LastsFor dt (⌊duration / dt⌋₊ + 1) := by
  refine ⟨Nat.succ_pos _, fun k hk => ?_⟩
  have hfloor : duration / dt < (k + 1 : Nat) ↔ ⌊duration / dt⌋₊ < k + 1 :=
    (Nat.floor_lt (le_of_lt (div_pos hduration hdt))).symm
  have hpassed : duration < k * dt + dt ↔ k + 1 = ⌊duration / dt⌋₊ + 1 := by
    rw [← add_one_mul, ← Nat.cast_succ, ← div_lt_iff₀ hdt, hfloor]
    omega
  simp only [Action.unplaced, Pause.iterate_advance]
  exact decide_eq_decide.mpr hpassed

theorem Move.iterate_advance (dt duration : Rat) (node : NodeId) (target : Point) (ease : Ease Rat)
    (onComplete : Option (Callback Rat)) (k : Nat) :
    (Action.advance dt)^[k] (.move ⟨node, target, duration, ease, onComplete, none, 0, false⟩) =
      .move ⟨node, target, duration, ease, onComplete, none, k * dt, false⟩ := by
  induction k with
  | zero =>
    rw [Nat.cast_zero, zero_mul]
    rfl
  | succ k ih =>
    rw [Function.iterate_succ_apply', ih, Nat.cast_succ, add_one_mul]
    rfl

/-- A move along a curve with a name lasts until its duration has passed. -/
theorem Move.lastsFor (hdt : 0 < dt) (hduration : 0 < duration) {ease : Ease Rat}
    (hease : ease.name?.isSome) (node : NodeId) (target : Point)
    (onComplete : Option (Callback Rat)) :
    (Action.move ⟨node, target, duration, ease, onComplete, none, 0, false⟩).LastsFor dt
      ⌈duration / dt⌉₊ := by
  refine ⟨Nat.ceil_pos.mpr (div_pos hduration hdt), fun k hk => ?_⟩
  have hceil : ⌈duration / dt⌉₊ ≤ k + 1 ↔ duration / dt ≤ (k + 1 : Nat) := Nat.ceil_le
  have harrived : 1 ≤ ease.apply ((k * dt + dt) / duration) ↔ k + 1 = ⌈duration / dt⌉₊ := by
    rw [Ease.one_le_apply_iff hease, one_le_div hduration, ← add_one_mul, ← Nat.cast_succ,
      ← div_le_iff₀ hdt, ← hceil]
    omega
  simp only [Action.unplaced, Move.iterate_advance]
  exact decide_eq_decide.mpr harrived

end Clocks

/--
**Timed actions end, and after a known number of steps.** Take steps of one length, and actions whose
callbacks, if they have any, leave it to them to report themselves.

* A pause at the head of the queue is taken off in its step `⌊duration / dt⌋ + 1`: it waits for more than its
  duration.
* A move along a curve with a name is taken off in its step `⌈duration / dt⌉`.
* A page completes. Its characters take `⌈total / (cps * dt)⌉` steps, each wait takes one to be opened and
  `⌈secs / dt⌉` to be over, and the page stays for `⌈hold / dt⌉` steps. Steps may be spared where a wait is
  opened while the clock has time left; without waits none is.
-/
theorem timed_actions_end {dt : Rat} (hdt : 0 < dt) :
    (∀ {duration : Rat} {p : Pause Rat}, Pause.create duration = .ok p →
      ∀ {onComplete : Option (Callback Rat)}, (∀ f ∈ onComplete, Callback.Loyal f) →
      ∀ {s : ActionQueue Rat} {id : ActionId} {rest : List (Queued Rat)},
        s.items = ⟨id, .pause { p with onComplete }⟩ :: rest → id ∉ s.signals →
        s.PoppedIn id dt (⌊duration / dt⌋₊ + 1)) ∧
      (∀ {node : NodeId} {target : Point} {duration : Rat} {ease : Ease Rat} {m : Move Rat},
        Move.create node target duration ease = .ok m → ease.name?.isSome →
        ∀ {onComplete : Option (Callback Rat)}, (∀ f ∈ onComplete, Callback.Loyal f) →
        ∀ {s : ActionQueue Rat} {id : ActionId} {rest : List (Queued Rat)},
          s.items = ⟨id, .move { m with onComplete }⟩ :: rest → id ∉ s.signals →
          s.PoppedIn id dt ⌈duration / dt⌉₊) ∧
      ∀ {κ : Type} {i : Typewriter Rat κ}, i.Paced →
        ∀ (p : Page) (speaker : Option String) (token : κ),
          let waits : List Rat := waitTimes p.directives
          let reveal := ⌈p.total / (i.pace.charsPerSecond * dt)⌉₊
          let hold := ⌈i.pace.holdSeconds / dt⌉₊
          (∃ k, k < 1 + reveal + waits.length + (waits.map fun secs => ⌈secs / dt⌉₊).sum + hold ∧
            (i.load p speaker token).CompletesIn dt k token) ∧
          (waits = [] → (i.load p speaker token).CompletesIn dt (reveal + hold) token) := by
  refine ⟨?pause, ?move, ?page⟩
  case pause =>
    intro duration p hp onComplete hloyal s id rest hitems hid
    rw [Pause.create_eq hp] at hitems
    exact ActionQueue.poppedIn hitems hid hloyal
      (Pause.lastsFor hdt (Pause.duration_pos hp) onComplete)
  case move =>
    intro node target duration ease m hm hease onComplete hloyal s id rest hitems hid
    rw [Move.create_eq hm] at hitems
    exact ActionQueue.poppedIn hitems hid hloyal
      (Move.lastsFor hdt (Move.duration_pos hm) hease node target onComplete)
  case page =>
    intro κ i hi p speaker token waits reveal hold
    have hunderway := Typewriter.underway_load hi p speaker token
    have hbudget : Typewriter.budget dt (i.load p speaker token)
        ⟨p, p.directives, p.total, speaker, token⟩ =
          reveal + (waits.length + (waits.map fun secs => ⌈secs / dt⌉₊).sum) + hold :=
      Typewriter.budget_load hi hdt p speaker token
    refine ⟨?_, fun hnone => ?_⟩
    · obtain ⟨k, hk, hcompletes⟩ := hunderway.completes hdt
      exact ⟨k, by omega, hcompletes⟩
    · have hcompletes := hunderway.completes_quiet hdt ⟨rfl, hnone⟩
      rw [hbudget, hnone] at hcompletes
      exact hcompletes

/--
With two steps a second, a pause of a second, which takes a note in the end, is taken off in its third step
and a move of a second in its second one. At two characters a second, four characters, a wait of a second
and a second in the end take nine steps at most; two characters without a wait take four.
-/
theorem timed_actions_end_half_seconds :
    let half : Rat := 1 / 2
    let queue (a : Action Rat) : ActionQueue Rat := ⟨[⟨0, a⟩], none, 1, 0, []⟩
    let note : Callback Rat := Cue.performAll [.log "rested"]
    let i : Typewriter Rat Unit := ⟨⟨2, 1⟩, 1 / 2, none, 0, 0, none, 0⟩
    let p : Page := ⟨[.text ⟨"ab", []⟩, .call ⟨"wait", ["1"]⟩, .text ⟨"cd", []⟩]⟩
    (queue (.pause ⟨1, 0, some note, false⟩)).PoppedIn 0 half 3 ∧
      (queue (.move ⟨1, ⟨10, 0⟩, 1, .linear, none, none, 0, false⟩)).PoppedIn 0 half 2 ∧
      (∃ k, k < 10 ∧ (i.load p none ()).CompletesIn half k ()) ∧
      (i.load ⟨[.text ⟨"ab", []⟩]⟩ none ()).CompletesIn half 4 () := by
  intro half queue note i p
  have hhalf : 0 < half := by decide +kernel
  obtain ⟨hpause, hmove, hpage⟩ := timed_actions_end hhalf
  have hnote : ∀ f ∈ some note, Callback.Loyal f := by
    rintro f ⟨⟩
    exact loyal_performAll (by simp [Cue.dealsInFinishers])
  have hnone : ∀ f ∈ (none : Option (Callback Rat)), Callback.Loyal f := nofun
  have hpaced : i.Paced := ⟨Pace.validate_of_pos (by decide +kernel) (by decide +kernel), rfl⟩
  refine ⟨?_, ?_, ?_, ?_⟩
  · have hthree : ⌊1 / half⌋₊ + 1 = 3 := by decide +kernel
    exact hthree ▸ hpause (Pause.create_of_pos (by decide +kernel)) hnote rfl List.not_mem_nil
  · have htwo : ⌈1 / half⌉₊ = 2 := by decide +kernel
    exact htwo ▸ hmove (Move.create_of_pos 1 ⟨10, 0⟩ (by decide +kernel) (by decide +kernel)) rfl
      hnone rfl List.not_mem_nil
  · obtain ⟨k, hk, hcompletes⟩ := (hpage hpaced p none ()).1
    exact ⟨k, lt_of_lt_of_eq hk (by decide +kernel), hcompletes⟩
  · have hfour : ⌈((2 : Nat) : Rat) / (2 * half)⌉₊ + ⌈1 / half⌉₊ = 4 := by decide +kernel
    exact hfour ▸ (hpage hpaced ⟨[.text ⟨"ab", []⟩]⟩ none ()).2 rfl

end Cutscene
