import Mathlib.Data.List.Basic
import Cutscene.Script.Queue

/-!
# The order of the queue

The numbers in the queue are consecutive: they begin at the number of actions that have been taken off
and end before the number of the next action to be queued. The action that was started last is the
head or has been taken off.

Results:
* `Ordered.push`, `Ordered.pop`, `Ordered.settle`, `Ordered.update`: every operation keeps the order.
* `settle_induction`: what taking off the head keeps, `settle` keeps.
* `update_of_nil`, `update_of_cons`: a step does nothing, or it is the turn of the head.
-/

namespace Cutscene

variable {R : Type}

/-- The context after a turn: nobody is running, and what was reported has been handed on. -/
def Context.released (c : Context R) : Context R := { c with finisher := none, raised := [] }

namespace ActionQueue

/-- The numbers of the queued actions. -/
def ids (s : ActionQueue R) : List ActionId := s.items.map Queued.id

/-- The numbers in the queue are consecutive, and nothing behind the head has been started. -/
structure Ordered (s : ActionQueue R) : Prop where
  completed_le : s.completed ≤ s.nextId
  ids_eq : s.ids = List.range' s.completed (s.nextId - s.completed)
  started_le : ∀ id, s.started = some id → id ≤ s.completed ∧ id < s.nextId

variable {s : ActionQueue R}

theorem ordered_empty : (empty : ActionQueue R).Ordered where
  completed_le := Nat.le_refl _
  ids_eq := rfl
  started_le _ h := nomatch h

/-- The head has the number of the next action to be taken off. -/
theorem Ordered.head_id (h : s.Ordered) {q : Queued R} {rest : List (Queued R)}
    (hitems : s.items = q :: rest) : q.id = s.completed ∧ s.completed < s.nextId := by
  have hids := h.ids_eq
  unfold ids at hids
  rw [hitems, List.map_cons, eq_comm, List.range'_eq_cons_iff] at hids
  lia

theorem Ordered.push (h : s.Ordered) (a : Action R) : (s.push a).2.Ordered where
  completed_le := Nat.le_succ_of_le h.completed_le
  ids_eq := by
    have hle := h.completed_le
    have hids := h.ids_eq
    unfold ids at hids
    simp only [ids, ActionQueue.push, List.map_append, List.map_singleton, hids]
    rw [Nat.sub_add_comm hle, List.range'_concat, Nat.one_mul, Nat.add_sub_of_le hle]
  started_le id hid := by
    have := h.started_le id hid
    simp only [ActionQueue.push]
    lia

/-- Queues actions in order. -/
def pushAll (s : ActionQueue R) (actions : List (Action R)) : ActionQueue R :=
  actions.foldl (fun s a => (s.push a).2) s

/-- What queueing one action keeps, queueing many keeps. -/
theorem pushAll_induction {P : ActionQueue R → Prop} {actions : List (Action R)} (hs : P s)
    (hpush : ∀ t, P t → ∀ a ∈ actions, P (t.push a).2) : P (s.pushAll actions) := by
  unfold pushAll
  induction actions generalizing s with
  | nil => exact hs
  | cons a r ih =>
    rw [List.foldl_cons]
    exact ih (hpush s hs a List.mem_cons_self) fun t ht b hb => hpush t ht b (List.mem_cons_of_mem _ hb)

theorem Ordered.pushAll (h : s.Ordered) (actions : List (Action R)) : (s.pushAll actions).Ordered :=
  pushAll_induction h fun _ ht a _ => ht.push a

theorem pushAll_signals (s : ActionQueue R) (actions : List (Action R)) :
    (s.pushAll actions).signals = s.signals :=
  pushAll_induction (P := fun t => t.signals = s.signals) rfl fun _ ht _ _ => ht

/-- Actions are queued behind those that are there. -/
theorem prefix_pushAll (s : ActionQueue R) (actions : List (Action R)) :
    s.items <+: (s.pushAll actions).items :=
  pushAll_induction (P := fun t => s.items <+: t.items) (List.prefix_refl _)
    fun _ ht _ _ => ht.trans (List.prefix_append _ _)

theorem pushAll_actions (s : ActionQueue R) (actions : List (Action R)) :
    (s.pushAll actions).items.map Queued.action = s.items.map Queued.action ++ actions := by
  unfold pushAll
  induction actions generalizing s with
  | nil => exact (List.append_nil _).symm
  | cons a r ih =>
    rw [List.foldl_cons, ih]
    simp [push]

theorem pushAll_nextId (s : ActionQueue R) (actions : List (Action R)) :
    (s.pushAll actions).nextId = s.nextId + actions.length := by
  unfold pushAll
  induction actions generalizing s with
  | nil => rfl
  | cons a r ih =>
    rw [List.foldl_cons, ih, List.length_cons]
    simp only [push]
    lia

theorem pushAll_started (s : ActionQueue R) (actions : List (Action R)) :
    (s.pushAll actions).started = s.started :=
  pushAll_induction (P := fun t => t.started = s.started) rfl fun _ ht _ _ => ht

theorem mem_pushAll {actions : List (Action R)} {q : Queued R} (h : q ∈ (s.pushAll actions).items) :
    q ∈ s.items ∨ q.action ∈ actions := by
  revert h
  refine pushAll_induction (P := fun t => q ∈ t.items → q ∈ s.items ∨ q.action ∈ actions) Or.inl ?_
  intro t ht a ha hq
  rcases List.mem_append.mp hq with hq | hq
  · exact ht hq
  · rw [List.mem_singleton.mp hq]
    exact Or.inr ha

/-- Signals do not bear on the order. -/
theorem Ordered.withSignals (h : s.Ordered) (signals : List ActionId) :
    ({ s with signals } : ActionQueue R).Ordered :=
  ⟨h.completed_le, h.ids_eq, h.started_le⟩

theorem Ordered.pop (h : s.Ordered) : s.pop.Ordered := by
  unfold ActionQueue.pop
  cases hitems : s.items with
  | nil => exact h
  | cons q rest =>
    have hlt := (h.head_id hitems).2
    have hids := h.ids_eq
    unfold ids at hids
    rw [hitems, List.map_cons, eq_comm, List.range'_eq_cons_iff] at hids
    refine ⟨hlt, ?_, fun id hid => ?_⟩
    · simp only [ids, hids.2.2, ← hids.1]
      rw [Nat.sub_sub]
    · have := h.started_le id hid
      simp only
      lia

/-! ## Signals -/

/-- A signal takes off the head if it has its number, and does nothing else. -/
theorem answer_eq (s : ActionQueue R) (id : ActionId) :
    s.answer id = if s.items.head?.map Queued.id = some id then s.pop else s := by
  unfold answer
  cases s.items with
  | nil => simp
  | cons q rest => simp

/-- Signals of others do nothing to the head. -/
theorem foldl_answer_of_notMem {q : Queued R} {rest : List (Queued R)} {ids : List ActionId}
    (hitems : s.items = q :: rest) (h : q.id ∉ ids) : ids.foldl answer s = s := by
  induction ids with
  | nil => rfl
  | cons id r ih =>
    rw [List.mem_cons, not_or] at h
    have hsame : s.answer id = s := by
      rw [answer_eq, hitems]
      exact if_neg fun hid => h.1 (Option.some.inj hid)
    rw [List.foldl_cons, hsame, ih h.2]

theorem settle_of_notMem {q : Queued R} {rest : List (Queued R)} (hitems : s.items = q :: rest)
    (h : q.id ∉ s.signals) : s.settle = { s with signals := [] } :=
  foldl_answer_of_notMem (s := { s with signals := [] }) hitems h

/-- What taking off the head keeps, looking at all signals keeps. -/
theorem settle_induction {P : ActionQueue R → Prop} (hstart : P { s with signals := [] })
    (hpop : ∀ t, P t → P t.pop) : P s.settle := by
  unfold settle
  generalize s.signals = signals
  revert hstart
  generalize ({ s with signals := [] } : ActionQueue R) = t
  intro ht
  induction signals generalizing t with
  | nil => exact ht
  | cons id r ih =>
    rw [List.foldl_cons]
    apply ih
    rw [answer_eq]
    split_ifs
    · exact hpop t ht
    · exact ht

theorem pop_signals (s : ActionQueue R) : s.pop.signals = s.signals := by
  unfold pop
  cases s.items <;> rfl

theorem pop_started (s : ActionQueue R) : s.pop.started = s.started := by
  unfold pop
  cases s.items <;> rfl

theorem pop_nextId (s : ActionQueue R) : s.pop.nextId = s.nextId := by
  unfold pop
  cases s.items <;> rfl

theorem items_pop (s : ActionQueue R) : s.pop.items = s.items.tail := by
  unfold pop
  cases h : s.items
  · exact h
  · rfl

theorem settle_signals (s : ActionQueue R) : s.settle.signals = [] :=
  settle_induction (P := fun t => t.signals = []) rfl fun t ht => (pop_signals t).trans ht

theorem settle_nextId (s : ActionQueue R) : s.settle.nextId = s.nextId :=
  settle_induction (P := fun t => t.nextId = s.nextId) rfl fun t ht => (pop_nextId t).trans ht

theorem Ordered.settle (h : s.Ordered) : s.settle.Ordered :=
  settle_induction (h.withSignals []) fun _ ht => ht.pop

/-! ## Turns -/

/-- The queue once its head has been updated, before its signals are looked at. -/
def turned (s : ActionQueue R) (q : Queued R) (rest : List (Queued R)) (r : Action R × Context R) :
    ActionQueue R :=
  { s with items := { q with action := r.1 } :: rest, started := some q.id, signals := r.2.raised }

theorem Ordered.turned (h : s.Ordered) {q : Queued R} {rest : List (Queued R)}
    (hitems : s.items = q :: rest) (r : Action R × Context R) :
    (ActionQueue.turned s q rest r).Ordered where
  completed_le := h.completed_le
  ids_eq := by
    have hids := h.ids_eq
    unfold ids at hids ⊢
    rw [hitems] at hids
    exact hids
  started_le id hid := by
    obtain rfl := Option.some.inj hid
    have := h.head_id hitems
    simp only [ActionQueue.turned]
    lia

/-- A head that has reported itself in its turn, and been the last to be reported, is taken off. -/
theorem settle_turned_of_raised (s : ActionQueue R) (q : Queued R) (rest : List (Queued R))
    {r : Action R × Context R} {before : List ActionId} (h : r.2.raised = before ++ [q.id])
    (hbefore : q.id ∉ before) :
    (turned s q rest r).settle =
      { s with items := rest, started := some q.id, completed := s.completed + 1, signals := [] } := by
  unfold settle turned
  simp only [h, List.foldl_append, List.foldl_cons, List.foldl_nil]
  rw [foldl_answer_of_notMem (q := ⟨q.id, r.1⟩) rfl hbefore]
  simp only [answer, pop, if_true]

/-- A head that has not been reported in its turn stays. -/
theorem settle_turned_of_quiet (s : ActionQueue R) (q : Queued R) (rest : List (Queued R))
    {r : Action R × Context R} (h : q.id ∉ r.2.raised) :
    (turned s q rest r).settle =
      { s with items := ⟨q.id, r.1⟩ :: rest, started := some q.id, signals := [] } :=
  settle_of_notMem (q := ⟨q.id, r.1⟩) rfl h

section Turns

variable [Scalar R]

/-- The context once an action has been started at the head of the queue. -/
def begin (q : Queued R) (c : Context R) : Context R := q.action.start { c with finisher := some q.id }

/-- The action at the head and the context once it has been updated. -/
def turn (q : Queued R) (dt : R) (c : Context R) : Action R × Context R :=
  q.action.update dt { c with finisher := some q.id }

theorem update_of_nil (h : s.settle.items = []) (dt : R) (c : Context R) :
    s.update dt c = (false, s.settle, c) := by
  unfold update
  simp only [h]

/-- With something to run, a step is one turn of the head, which is started if it has not been. -/
theorem update_of_cons {q : Queued R} {rest : List (Queued R)} (h : s.settle.items = q :: rest)
    (dt : R) (c : Context R) :
    s.update dt c =
      let r := turn q dt (if s.settle.started = some q.id then c else begin q c)
      (true, (turned s.settle q rest r).settle, r.2.released) := by
  unfold update
  simp only [h]
  unfold startHead updateHead turned turn begin Context.released
  split_ifs with hstarted
  · simp only [settle_signals, List.nil_append, ← hstarted]
  · simp only [settle_signals, List.nil_append]

/-- A step gives out no numbers. -/
theorem update_nextId (s : ActionQueue R) (dt : R) (c : Context R) :
    (s.update dt c).2.1.nextId = s.nextId := by
  cases hitems : s.settle.items with
  | nil => rw [update_of_nil hitems, settle_nextId]
  | cons q rest =>
    rw [update_of_cons hitems]
    exact (settle_nextId _).trans (settle_nextId s)

/-- A step keeps the order. -/
theorem Ordered.update (h : s.Ordered) (dt : R) (c : Context R) : (s.update dt c).2.1.Ordered := by
  cases hitems : s.settle.items with
  | nil =>
    rw [update_of_nil hitems]
    exact h.settle
  | cons q rest =>
    rw [update_of_cons hitems]
    exact (h.settle.turned hitems _).settle

end Turns

end ActionQueue

end Cutscene
