import Mathlib.Data.List.Basic
import Cutscene.Proofs.Script.Finisher
import Cutscene.Proofs.Script.Order

/-!
# The queue is serial

A queue is worked by pushing actions, by steps, by taking the head off, by looking at signals, and by
holders of finishers who use them, in any order and as often as they like. `History` is what can have
happened to a queue: which actions were pushed, and whose turn it was in the steps that found something
to run. A finisher that can be used is one of an action that has had a turn, since only a turn hands
finishers out.

On `Sequencer`: strictly first in, first out (SPEC_FULL.md, §4.2 and §8).

Results:
* `Tracked`: the invariant. `Tracked.push`, `Tracked.pop`, `Tracked.settle`, `Tracked.signal`,
  `Tracked.update`: what one operation keeps. `History.tracked`: what every history keeps.
* `Tracked.answer_eq`: a signal that somebody could give takes off a started head or does nothing.
* `Tracked.update_finishers`: a step hands out no finisher but that of the action whose turn it is.
* `queue_serial`: actions are started, updated and taken off one at a time in the order in which they
  were pushed, whatever the signals.
-/

namespace Cutscene.ActionQueue

variable {R : Type}

/-- Every signal, when it is looked at, takes off the head if that has its number and has been
started, and changes nothing otherwise. -/
def SignalsApt (s : ActionQueue R) : Prop :=
  ∀ before id later, s.signals = before ++ id :: later →
    let now := before.foldl answer { s with signals := [] }
    now.answer id = if now.current = some id then now.pop else now

/-! ## The invariant -/

/-- What holds of a queue with its history. -/
structure Tracked (pushed : List (Action R)) (ran : List ActionId) (s : ActionQueue R) : Prop where
  ordered : s.Ordered
  /-- The last turn is that of the action started last. -/
  started : s.started = ran.getLast?
  ascending : ran.Pairwise (· ≤ ·)
  /-- Only actions that have had a turn are reported as done. -/
  signals : s.signals ⊆ ran
  honest : ∀ q ∈ s.items, q.action.Honest
  /-- An action that has had no turn is as it was pushed. -/
  fresh : ∀ q ∈ s.items, q.id ∉ ran → pushed[q.id]? = some q.action
  pushed_length : pushed.length = s.nextId

section Operations

variable {pushed : List (Action R)} {ran : List ActionId} {s : ActionQueue R}

theorem tracked_empty : Tracked [] [] (empty : ActionQueue R) where
  ordered := ordered_empty
  started := rfl
  ascending := List.Pairwise.nil
  signals := List.Subset.refl _
  honest _ hq := absurd hq List.not_mem_nil
  fresh _ hq := absurd hq List.not_mem_nil
  pushed_length := rfl

/-- Nothing behind the head has had a turn. -/
theorem Tracked.ran_le (h : Tracked pushed ran s) : ∀ id ∈ ran, id ≤ s.completed := by
  intro id hid
  cases hlast : ran.getLast? with
  | none =>
    rw [List.getLast?_eq_none_iff] at hlast
    rw [hlast] at hid
    exact absurd hid List.not_mem_nil
  | some last =>
    obtain ⟨front, hran⟩ := List.getLast?_eq_some_iff.mp hlast
    have hle : last ≤ s.completed := (h.ordered.started_le last (h.started.trans hlast)).1
    have hasc := h.ascending
    rw [hran] at hid hasc
    rcases List.mem_append.mp hid with hid | hid
    · exact Nat.le_trans ((List.pairwise_append.mp hasc).2.2 id hid last (by simp)) hle
    · rw [List.mem_singleton.mp hid]
      exact hle

/-- The head has been started just when it has had a turn. -/
theorem Tracked.started_iff (h : Tracked pushed ran s) {q : Queued R} {rest : List (Queued R)}
    (hitems : s.items = q :: rest) : s.started = some q.id ↔ q.id ∈ ran := by
  rw [h.started]
  constructor
  · intro hlast
    exact List.mem_of_getLast? hlast
  · intro hid
    cases hlast : ran.getLast? with
    | none =>
      rw [List.getLast?_eq_none_iff] at hlast
      rw [hlast] at hid
      exact absurd hid List.not_mem_nil
    | some last =>
      have hle : last ≤ q.id := by
        rw [(h.ordered.head_id hitems).1]
        exact h.ran_le last (List.mem_of_getLast? hlast)
      obtain ⟨front, hran⟩ := List.getLast?_eq_some_iff.mp hlast
      have hasc := h.ascending
      rw [hran] at hid hasc
      rcases List.mem_append.mp hid with hid | hid
      · have hge := (List.pairwise_append.mp hasc).2.2 q.id hid last (by simp)
        rw [Nat.le_antisymm hle hge]
      · rw [List.mem_singleton.mp hid]

/-! ## What one operation keeps -/

theorem Tracked.push (h : Tracked pushed ran s) {a : Action R} (ha : a.Honest) :
    Tracked (pushed ++ [a]) ran (s.push a).2 where
  ordered := h.ordered.push a
  started := h.started
  ascending := h.ascending
  signals := h.signals
  honest q hq := by
    rcases List.mem_append.mp hq with hq | hq
    · exact h.honest q hq
    · rw [List.mem_singleton.mp hq]
      exact ha
  fresh q hq hid := by
    rcases List.mem_append.mp hq with hq | hq
    · have hold := h.fresh q hq hid
      rw [List.getElem?_append_left (List.getElem?_eq_some_iff.mp hold).1]
      exact hold
    · rw [List.mem_singleton.mp hq]
      simp only
      rw [← h.pushed_length, List.getElem?_concat_length]
  pushed_length := by
    rw [List.length_append, h.pushed_length]
    rfl

theorem Tracked.pop (h : Tracked pushed ran s) : Tracked pushed ran s.pop where
  ordered := h.ordered.pop
  started := by rw [pop_started]; exact h.started
  ascending := h.ascending
  signals := by rw [pop_signals]; exact h.signals
  honest q hq := h.honest q (by rw [items_pop] at hq; exact List.mem_of_mem_tail hq)
  fresh q hq := h.fresh q (by rw [items_pop] at hq; exact List.mem_of_mem_tail hq)
  pushed_length := by rw [pop_nextId]; exact h.pushed_length

theorem Tracked.withSignals (h : Tracked pushed ran s) {signals : List ActionId}
    (hsignals : signals ⊆ ran) : Tracked pushed ran { s with signals } :=
  ⟨h.ordered.withSignals signals, h.started, h.ascending, hsignals, h.honest, h.fresh,
    h.pushed_length⟩

theorem Tracked.settle (h : Tracked pushed ran s) : Tracked pushed ran s.settle :=
  settle_induction (h.withSignals (List.nil_subset _)) fun _ ht => ht.pop

theorem Tracked.signal (h : Tracked pushed ran s) {id : ActionId} (hid : id ∈ ran) :
    Tracked pushed ran (s.signal id) :=
  h.withSignals (List.append_subset.mpr ⟨h.signals, List.cons_subset.mpr ⟨hid, List.nil_subset _⟩⟩)

/-! ## Signals -/

/-- A signal that somebody could give takes off a started head or does nothing. -/
theorem Tracked.answer_eq (h : Tracked pushed ran s) {id : ActionId} (hid : id ∈ ran) :
    s.answer id = if s.current = some id then s.pop else s := by
  rw [ActionQueue.answer_eq]
  unfold current
  cases hitems : s.items with
  | nil => simp
  | cons q rest =>
    have hstarted := h.started_iff hitems
    by_cases hq : q.id = id
    · subst hq
      simp [hstarted.mpr hid]
    · simp only [List.head?_cons, Option.map_some, Option.some.injEq, hq, if_false,
        Option.bind_some]
      split_ifs <;> simp_all

theorem Tracked.signalsApt (h : Tracked pushed ran s) : s.SignalsApt := by
  intro before id later hsignals
  have hrun : ∀ l ⊆ ran, Tracked pushed ran (l.foldl answer { s with signals := [] }) := by
    intro l hl
    induction l using List.reverseRecOn with
    | nil => exact h.withSignals (List.nil_subset _)
    | append_singleton l x ih =>
      rw [List.foldl_append]
      have hnow := ih (List.append_subset.mp hl).1
      simp only [List.foldl_cons, List.foldl_nil, ActionQueue.answer_eq]
      split_ifs
      · exact hnow.pop
      · exact hnow
  have hall : before ++ id :: later ⊆ ran := hsignals ▸ h.signals
  exact (hrun before (List.append_subset.mp hall).1).answer_eq
    (hall (List.mem_append_right _ List.mem_cons_self))

/-! ## Turns -/

variable [Scalar R]

/-- The finishers around in a turn are those from before and that of the head. -/
theorem finishers_turn {q : Queued R} (hq : q.action.Honest) {c : Context R}
    (hc : c.finishers ⊆ ran) (dt : R) (begun : Prop) [Decidable begun] :
    (turn q dt (if begun then c else begin q c)).2.finishers ⊆ ran ++ [q.id] := by
  have hgiven : ∀ c' : Context R, c'.finishers ⊆ ran ++ [q.id] →
      ({ c' with finisher := some q.id } : Context R).finishers ⊆ ran ++ [q.id] := by
    intro c' hc' id hid
    rcases Context.mem_finishers.mp hid with hid | hid | hid | hid
    · exact hc' (Context.mem_finishers.mpr (Or.inl hid))
    · exact List.mem_append_right _ (List.mem_singleton.mpr (Option.some.inj hid).symm)
    · exact hc' (Context.mem_finishers.mpr (Or.inr (Or.inr (Or.inl hid))))
    · exact hc' (Context.mem_finishers.mpr (Or.inr (Or.inr (Or.inr hid))))
  have hstart : (if begun then c else begin q c).finishers ⊆ ran ++ [q.id] := by
    split_ifs
    · exact List.subset_append_of_subset_left _ hc
    · refine List.Subset.trans (Action.finishers_start _ _) (hgiven c ?_)
      exact List.subset_append_of_subset_left _ hc
  exact List.Subset.trans (Action.finishers_update hq dt _) (hgiven _ hstart)

/-- A turn of the head, before the signals it has given are looked at. -/
theorem Tracked.turned (h : Tracked pushed ran s) {q : Queued R} {rest : List (Queued R)}
    (hitems : s.items = q :: rest) (dt : R) {c : Context R} (hc : c.finishers ⊆ ran)
    (begun : Prop) [Decidable begun] :
    Tracked pushed (ran ++ [q.id])
      (ActionQueue.turned s q rest (turn q dt (if begun then c else begin q c))) where
  ordered := h.ordered.turned hitems _
  started := by rw [List.getLast?_concat]; rfl
  ascending := by
    refine List.pairwise_append.mpr ⟨h.ascending, List.pairwise_singleton _ _, ?_⟩
    intro id hid last hlast
    rw [List.mem_singleton.mp hlast, (h.ordered.head_id hitems).1]
    exact h.ran_le id hid
  signals id hid := finishers_turn (h.honest q (by rw [hitems]; exact List.mem_cons_self)) hc dt
    begun (Context.mem_finishers.mpr (Or.inl hid))
  honest q' hq' := by
    rcases List.mem_cons.mp hq' with rfl | hq'
    · intro f hf
      exact h.honest q (by rw [hitems]; exact List.mem_cons_self) f
        (Action.callback?_update _ _ _ f hf)
    · exact h.honest q' (by rw [hitems]; exact List.mem_cons_of_mem _ hq')
  fresh q' hq' hid := by
    rcases List.mem_cons.mp hq' with rfl | hq'
    · exact absurd (List.mem_append_right _ (List.mem_singleton.mpr rfl)) hid
    · exact h.fresh q' (by rw [hitems]; exact List.mem_cons_of_mem _ hq')
        fun hran => hid (List.mem_append_left _ hran)
  pushed_length := h.pushed_length

theorem Tracked.update (h : Tracked pushed ran s) (dt : R) {c : Context R}
    (hc : c.finishers ⊆ ran) :
    Tracked pushed (ran ++ s.settle.ids.head?.toList) (s.update dt c).2.1 := by
  unfold ids
  cases hitems : s.settle.items with
  | nil =>
    rw [update_of_nil hitems, List.map_nil, List.head?_nil, Option.toList_none, List.append_nil]
    exact h.settle
  | cons q rest =>
    rw [update_of_cons hitems, List.map_cons, List.head?_cons, Option.toList_some]
    exact (h.settle.turned hitems dt hc _).settle

/-- A step hands out no finisher but that of the action whose turn it is. -/
theorem Tracked.update_finishers (h : Tracked pushed ran s) (dt : R) {c : Context R}
    (hc : c.finishers ⊆ ran) :
    (s.update dt c).2.2.finishers ⊆ ran ++ s.settle.ids.head?.toList := by
  unfold ids
  cases hitems : s.settle.items with
  | nil =>
    rw [update_of_nil hitems]
    exact List.subset_append_of_subset_left _ hc
  | cons q rest =>
    rw [update_of_cons hitems, List.map_cons, List.head?_cons, Option.toList_some]
    have hq : q.action.Honest := h.settle.honest q (by rw [hitems]; exact List.mem_cons_self)
    refine List.Subset.trans ?_ (finishers_turn hq hc dt (s.settle.started = some q.id))
    intro id hid
    rw [Context.mem_finishers] at hid ⊢
    simp only [Context.released, List.not_mem_nil, reduceCtorEq, false_or] at hid
    exact Or.inr (Or.inr hid)

end Operations

/-! ## Histories -/

variable [Scalar R]

/-- A queue with its history: the actions pushed, and the actions that had a turn, step by step. -/
inductive History : List (Action R) → List ActionId → ActionQueue R → Prop
  | empty : History [] [] .empty
  | push {pushed ran s} {a : Action R} (h : History pushed ran s) (ha : a.Honest) :
      History (pushed ++ [a]) ran (s.push a).2
  | update {pushed ran s} (dt : R) {c : Context R} (h : History pushed ran s)
      (hc : c.finishers ⊆ ran) :
      History pushed (ran ++ s.settle.ids.head?.toList) (s.update dt c).2.1
  | pop {pushed ran s} (h : History pushed ran s) : History pushed ran s.pop
  | settle {pushed ran s} (h : History pushed ran s) : History pushed ran s.settle
  | signal {pushed ran s} {id : ActionId} (h : History pushed ran s) (hid : id ∈ ran) :
      History pushed ran (s.signal id)

variable {pushed : List (Action R)} {ran : List ActionId} {s : ActionQueue R}

/-- What holds of every queue with its history. -/
theorem History.tracked (h : History pushed ran s) : Tracked pushed ran s := by
  induction h with
  | empty => exact tracked_empty
  | push _ ha ih => exact ih.push ha
  | update dt _ hc ih => exact ih.update dt hc
  | pop _ ih => exact ih.pop
  | settle _ ih => exact ih.settle
  | signal _ hid ih => exact ih.signal hid

/-- Actions are run one at a time in the order in which they were pushed. -/
structure Serial (pushed : List (Action R)) (ran : List ActionId) (s : ActionQueue R) : Prop where
  /-- The queue holds the numbers from the first that was not taken off to the last that was given. -/
  ids_eq : s.completed ≤ s.nextId ∧ s.ids = List.range' s.completed (s.nextId - s.completed)
  /-- Numbers are given in the order of pushing, and an action waits for its turn unchanged. -/
  waiting : pushed.length = s.nextId ∧ ∀ q ∈ s.items, q.id ∉ ran → pushed[q.id]? = some q.action
  /-- Turns were had in the order of the numbers, and nobody behind the head has had one. -/
  turns : ran.Pairwise (· ≤ ·) ∧ (∀ id ∈ ran, id ≤ s.completed) ∧ s.started = ran.getLast?
  /-- A step does nothing, or it is the turn of the head: it is started if this is its first one,
  then it is updated, and then the signals that this has brought are looked at. -/
  step : ∀ (dt : R) (c : Context R), c.finishers ⊆ ran →
    match s.settle.items with
    | [] => s.update dt c = (false, s.settle, c)
    | q :: rest =>
      let r := turn q dt (if q.id ∈ ran then c else begin q c)
      q.id = s.settle.completed ∧
        s.update dt c = (true, (turned s.settle q rest r).settle, r.2.released) ∧
        (turned s.settle q rest r).SignalsApt ∧ r.2.released.finishers ⊆ ran ++ [q.id]
  /-- A signal takes off the head that has its number and has been started, or does nothing. -/
  signals : s.SignalsApt

/-- **The queue is serial.** Whatever was done to it, in whatever order, and whenever the finishers
that it has handed out were used. -/
theorem queue_serial (h : History pushed ran s) : Serial pushed ran s where
  ids_eq := ⟨h.tracked.ordered.completed_le, h.tracked.ordered.ids_eq⟩
  waiting := ⟨h.tracked.pushed_length, h.tracked.fresh⟩
  turns := ⟨h.tracked.ascending, h.tracked.ran_le, h.tracked.started⟩
  step dt c hc := by
    have hs := h.tracked.settle
    have hfinishers := h.tracked.update_finishers dt hc
    unfold ids at hfinishers
    cases hitems : s.settle.items with
    | nil => exact update_of_nil hitems dt c
    | cons q rest =>
      rw [update_of_cons hitems, hitems] at hfinishers
      have hturned := hs.turned hitems dt hc (s.settle.started = some q.id)
      have hstep := update_of_cons hitems dt c
      simp only [hs.started_iff hitems] at hfinishers hturned hstep
      exact ⟨(hs.ordered.head_id hitems).1, hstep, hturned.signalsApt, hfinishers⟩
  signals := h.tracked.signalsApt

/-- A callback keeps its finisher and the finisher is used twice: the second signal does nothing. -/
theorem queue_serial_kept_finisher :
    let keep : Action Rat := .run (some (Cue.performAll [.park "door"]))
    let jump : Action Rat := .jump (.create 0 ⟨0, 0⟩)
    let c : Context Rat := ⟨.empty, ⟨.standard, 1 / 30, none, 0, 0, none, 0⟩, .empty, 0, none, [], [], []⟩
    let s := (((((empty.push keep).2.push jump).2.update 1 c).2.1.signal 0).signal 0)
    History [keep, jump] [0] s ∧ Serial [keep, jump] [0] s ∧
      s.ids = [0, 1] ∧ s.current = some 0 ∧ s.settle.ids = [1] ∧ s.settle.current = none := by
  intro keep jump c s
  have hkeep : keep.Honest := by
    rintro f ⟨⟩
    exact honest_performAll _
  have hjump : jump.Honest := by
    rintro f ⟨⟩
  have hupdate : History [keep, jump] [0] (((empty.push keep).2.push jump).2.update 1 c).2.1 :=
    .update 1 (.push (.push .empty hkeep) hjump) (List.nil_subset [])
  have h : History [keep, jump] [0] s := (hupdate.signal (by decide)).signal (by decide)
  exact ⟨h, queue_serial h, rfl, rfl, rfl, rfl⟩

end Cutscene.ActionQueue
