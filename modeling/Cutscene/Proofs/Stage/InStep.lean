import Mathlib.Data.List.Nodup
import Cutscene.Proofs.Stage.Effects
import Cutscene.Proofs.Script.Aloof

/-!
# The queue and the typewriter are in step

A page is shown by two machines: the queue, which holds the action, and the typewriter, which holds the
page and the finisher of the action. Between steps they agree, except after a step that failed once
the typewriter had completed the page: then the signal is still to be looked at.

Results:
* `InStep`: the typewriter shows the page of the started head. `Linked`: the invariant.
* `Linked.settled`, `Linked.stepQueue_cases`, `InStep.stepDialogue`: the phases of a step.
* `InStep.page_eq_some_iff`: what that says of the page that is shown.
* `Linked.step_spec`: what a step does to the page actions in the queue.
-/

namespace Cutscene

variable {R : Type}

namespace ActionQueue

/-- The page of the started head, with the finisher of that action. -/
def shown (s : ActionQueue R) : Option (Page × Completion) :=
  s.items.head?.bind fun q =>
    if s.started = some q.id then q.action.page?.map fun p => (p, .finish q.id) else none

variable {s : ActionQueue R} {q : Queued R} {rest : List (Queued R)}

theorem shown_of_nil (h : s.items = []) : s.shown = none := by
  unfold shown
  rw [h]
  rfl

theorem shown_of_started (hitems : s.items = q :: rest) (hstarted : s.started = some q.id) :
    s.shown = q.action.page?.map fun p => (p, .finish q.id) := by
  unfold shown
  rw [hitems, List.head?_cons, Option.bind_some, if_pos hstarted]

theorem shown_of_waiting (hitems : s.items = q :: rest) (hstarted : s.started ≠ some q.id) :
    s.shown = none := by
  unfold shown
  rw [hitems, List.head?_cons, Option.bind_some, if_neg hstarted]

theorem shown_eq_some_iff {l : Page × Completion} :
    s.shown = some l ↔ ∃ q rest speaker, s.items = q :: rest ∧ s.started = some q.id ∧
      q.action = .page l.1 speaker ∧ l.2 = .finish q.id := by
  cases hitems : s.items with
  | nil => simp [shown_of_nil hitems]
  | cons q rest =>
    by_cases hstarted : s.started = some q.id
    · rw [shown_of_started hitems hstarted, Option.map_eq_some_iff]
      constructor
      · rintro ⟨p, hp, rfl⟩
        obtain ⟨speaker, hq⟩ := Action.page?_eq_some_iff.mp hp
        exact ⟨q, rest, speaker, rfl, hstarted, hq, rfl⟩
      · rintro ⟨q', rest', speaker, heq, -, hq, hl⟩
        cases heq
        exact ⟨l.1, by rw [hq]; rfl, by rw [← hl]⟩
    · rw [shown_of_waiting hitems hstarted]
      constructor
      · intro h
        cases h
      · rintro ⟨q', rest', speaker, heq, hst, -, -⟩
        cases heq
        exact absurd hst hstarted

/-- A number stands in the queue once. -/
theorem Ordered.nodup (h : s.Ordered) : s.ids.Nodup := by
  rw [h.ids_eq]
  exact List.nodup_range'

theorem Ordered.not_mem_tail (h : s.Ordered) (hitems : s.items = q :: rest) :
    q.id ∉ rest.map Queued.id := by
  have hnodup := h.nodup
  unfold ids at hnodup
  rw [hitems, List.map_cons, List.nodup_cons] at hnodup
  exact hnodup.1

/-- What is behind a started head has not been started. -/
theorem Ordered.shown_tail (h : s.Ordered) (hitems : s.items = q :: rest) {t : ActionQueue R}
    (ht : t.items = rest) (hstarted : t.started = some q.id) : t.shown = none := by
  cases hrest : rest with
  | nil => exact shown_of_nil (ht.trans hrest)
  | cons q' r =>
    refine shown_of_waiting (ht.trans hrest) fun hq' => ?_
    have hmem := h.not_mem_tail hitems
    rw [hstarted] at hq'
    rw [hrest, List.map_cons, ← Option.some.inj hq'] at hmem
    exact hmem List.mem_cons_self

/-- An action that is queued is not shown before its turn. -/
theorem Ordered.shown_push (h : s.Ordered) (a : Action R) : (s.push a).2.shown = s.shown := by
  unfold ActionQueue.push shown
  cases hitems : s.items with
  | nil =>
    have hwaiting : s.started ≠ some s.nextId := by
      intro hstarted
      exact Nat.lt_irrefl _ (h.started_le _ hstarted).2
    simp [hwaiting]
  | cons q rest => simp

theorem Ordered.shown_pushAll (h : s.Ordered) (actions : List (Action R)) :
    (s.pushAll actions).shown = s.shown :=
  (pushAll_induction (P := fun t => t.Ordered ∧ t.shown = s.shown) ⟨h, rfl⟩
    fun _ ht a _ => ⟨ht.1.push a, (ht.1.shown_push a).trans ht.2⟩).2

theorem settle_of_quiet (h : s.signals = []) : s.settle = s := by
  unfold settle
  rw [h, List.foldl_nil, ← h]

theorem settle_of_reported (hitems : s.items = q :: rest) (h : s.signals = [q.id]) :
    s.settle = { s with items := rest, completed := s.completed + 1, signals := [] } := by
  unfold settle
  rw [h]
  simp only [List.foldl_cons, List.foldl_nil, answer, pop, hitems, if_true]

/-- Looking at signals only takes actions off. -/
theorem mem_of_mem_settle {q : Queued R} (h : q ∈ s.settle.items) : q ∈ s.items := by
  revert h
  refine settle_induction (P := fun t => q ∈ t.items → q ∈ s.items) (fun hq => hq) ?_
  intro t ht hq
  rw [items_pop] at hq
  exact ht (List.mem_of_mem_tail hq)

end ActionQueue

namespace Stage

/-- The typewriter shows the page of the started head, and no signal is left to be looked at. -/
structure InStep (s : Stage R) : Prop where
  signals : s.queue.signals = []
  loaded : s.dialogue.loaded = s.queue.shown

/-- What holds between events. After a failed step the page of the head may have completed already. -/
structure Linked (s : Stage R) : Prop where
  ordered : s.queue.Ordered
  aloof : ∀ q ∈ s.queue.items, q.action.Aloof
  parked : s.parked = []
  link : s.InStep ∨ ∃ p id, s.queue.shown = some (p, .finish id) ∧ s.queue.signals = [id] ∧
    s.dialogue.loaded = none

variable {s t : Stage R}

theorem InStep.congr (h : s.InStep) (hqueue : t.queue = s.queue)
    (hloaded : t.dialogue.loaded = s.dialogue.loaded) : t.InStep where
  signals := hqueue ▸ h.signals
  loaded := by rw [hloaded, hqueue, h.loaded]

theorem Linked.congr (h : s.Linked) (hqueue : t.queue = s.queue)
    (hloaded : t.dialogue.loaded = s.dialogue.loaded) (hparked : t.parked = s.parked) :
    t.Linked where
  ordered := hqueue ▸ h.ordered
  aloof := hqueue ▸ h.aloof
  parked := hparked.trans h.parked
  link := by
    rcases h.link with hs | hreported
    · exact Or.inl (hs.congr hqueue hloaded)
    · rw [← hqueue, ← hloaded] at hreported
      exact Or.inr hreported

/-! ## The phases of a step -/

/-- Looking at the signals puts the queue in step and takes off what was reported. -/
theorem Linked.settled (h : s.Linked) :
    s.queue.settle.signals = [] ∧ s.dialogue.loaded = s.queue.settle.shown ∧
      ∀ id, id ∈ s.queue.settle.ids ↔ id ∈ s.queue.ids ∧ id ∉ s.queue.signals := by
  rcases h.link with hs | ⟨p, id, hshown, hsignals, hloaded⟩
  · rw [ActionQueue.settle_of_quiet hs.signals]
    refine ⟨hs.signals, hs.loaded, fun id => ?_⟩
    rw [hs.signals]
    simp
  · obtain ⟨q, rest, speaker, hitems, hstarted, hq, hid⟩ := ActionQueue.shown_eq_some_iff.mp hshown
    cases hid
    have hrest : s.queue.settle.shown = none := by
      rw [ActionQueue.settle_of_reported hitems hsignals]
      exact h.ordered.shown_tail hitems rfl hstarted
    refine ⟨ActionQueue.settle_signals _, hloaded.trans hrest.symm, fun id => ?_⟩
    have htail := h.ordered.not_mem_tail hitems
    rw [ActionQueue.settle_of_reported hitems hsignals]
    rw [hsignals]
    unfold ActionQueue.ids
    simp only [hitems, List.map_cons, List.mem_cons, List.not_mem_nil, or_false]
    constructor
    · intro hid
      exact ⟨Or.inr hid, fun heq => htail (heq ▸ hid)⟩
    · rintro ⟨hid | hid, hne⟩
      · exact absurd hid hne
      · exact hid

/-- Queueing actions keeps queue and typewriter in step. -/
theorem InStep.pushAll (h : s.InStep) (ho : s.queue.Ordered) {actions : List (Action R)}
    (hqueue : t.queue = s.queue.pushAll actions) (hdialogue : t.dialogue = s.dialogue) :
    t.InStep where
  signals := by rw [hqueue, ActionQueue.pushAll_signals, h.signals]
  loaded := by rw [hqueue, hdialogue, ho.shown_pushAll, h.loaded]

/-- Queueing actions keeps queue and typewriter linked. -/
theorem Linked.pushAll (h : s.Linked) {actions : List (Action R)} (ha : ∀ a ∈ actions, a.Aloof)
    (hqueue : t.queue = s.queue.pushAll actions) (hdialogue : t.dialogue = s.dialogue)
    (hparked : t.parked = s.parked) : t.Linked where
  ordered := hqueue ▸ h.ordered.pushAll actions
  aloof q hq := by
    rw [hqueue] at hq
    rcases ActionQueue.mem_pushAll hq with hq | hq
    · exact h.aloof q hq
    · exact ha _ hq
  parked := hparked.trans h.parked
  link := by
    rw [hqueue, hdialogue, h.ordered.shown_pushAll, ActionQueue.pushAll_signals]
    rcases h.link with hs | hreported
    · exact Or.inl (hs.pushAll h.ordered hqueue hdialogue)
    · exact Or.inr hreported

/-- A typewriter in step shows a page just when that is the page of the started head. -/
theorem InStep.page_eq_some_iff (h : s.InStep) {p : Page} :
    s.dialogue.page = some p ↔ ∃ q rest speaker, s.queue.items = q :: rest ∧
      s.queue.current = some q.id ∧ q.action = .page p speaker := by
  have hpage : s.dialogue.page = s.queue.shown.map Prod.fst := by
    rw [← h.loaded]
    unfold Typewriter.page Typewriter.loaded
    rw [Option.map_map]
    rfl
  rw [hpage, Option.map_eq_some_iff]
  constructor
  · rintro ⟨l, hl, rfl⟩
    obtain ⟨q, rest, speaker, hitems, hstarted, hq, -⟩ := ActionQueue.shown_eq_some_iff.mp hl
    refine ⟨q, rest, speaker, hitems, ?_, hq⟩
    unfold ActionQueue.current
    rw [hitems, List.head?_cons, Option.bind_some, if_pos hstarted]
  · rintro ⟨q, rest, speaker, hitems, hcurrent, hq⟩
    refine ⟨(p, .finish q.id), ?_, rfl⟩
    refine ActionQueue.shown_eq_some_iff.mpr ⟨q, rest, speaker, hitems, ?_, hq, rfl⟩
    unfold ActionQueue.current at hcurrent
    rw [hitems, List.head?_cons, Option.bind_some] at hcurrent
    by_contra hwaiting
    rw [if_neg hwaiting] at hcurrent
    cases hcurrent

/-- The page that a typewriter in step shows is that of the head, and its token finishes the head. -/
theorem InStep.head_of_active (h : s.InStep) {a : ActivePage R Completion}
    (hactive : s.dialogue.active = some a) :
    ∃ q rest speaker, s.queue.items = q :: rest ∧ s.queue.started = some q.id ∧
      q.action = .page a.page speaker ∧ a.token = .finish q.id := by
  have hshown : s.queue.shown = some (a.page, a.token) := by
    rw [← h.loaded]
    unfold Typewriter.loaded
    rw [hactive, Option.map_some]
  exact ActionQueue.shown_eq_some_iff.mp hshown

section Steps

variable [Scalar R]

/-- The typewriter once the head has been started: it shows the page of the head, if that is one. -/
theorem loaded_opened {u : ActionQueue R} {q : Queued R} {rest : List (Queued R)}
    (hitems : u.items = q :: rest) {i : Typewriter R Completion} (hi : i.loaded = u.shown) :
    (if u.started = some q.id then i else q.action.opening q.id i).loaded =
      q.action.page?.map fun p => (p, .finish q.id) := by
  by_cases hstarted : u.started = some q.id
  · rw [if_pos hstarted, hi, ActionQueue.shown_of_started hitems hstarted]
  · rw [if_neg hstarted]
    rw [ActionQueue.shown_of_waiting hitems hstarted] at hi
    cases q.action with
    | page p speaker => rfl
    | _ => exact hi

/-- The phase of the queue: nothing is queued, or the head has its turn. Then it is done, which no page
is in this phase, or it stays at the head. -/
theorem Linked.stepQueue_cases (h : s.Linked) (dt : R) :
    (s.queue.settle.items = [] ∧ (s.stepQueue dt).queue = s.queue.settle ∧
        (s.stepQueue dt).dialogue = s.dialogue ∧ (s.stepQueue dt).parked = []) ∨
      ∃ q rest a, s.queue.settle.items = q :: rest ∧ a.Aloof ∧ a.page? = q.action.page? ∧
        (s.stepQueue dt).dialogue.loaded = (a.page?.map fun p => (p, .finish q.id)) ∧
        (s.stepQueue dt).parked = [] ∧ (s.stepQueue dt).queue.signals = [] ∧
        (s.stepQueue dt).queue.started = some q.id ∧
        (a.page? = none ∧ (s.stepQueue dt).queue.items = rest ∨
          (s.stepQueue dt).queue.items = ⟨q.id, a⟩ :: rest) := by
  have hqueue : (s.stepQueue dt).queue = (s.queue.update dt s.context).2.1 := rfl
  have hdialogue : (s.stepQueue dt).dialogue = (s.queue.update dt s.context).2.2.dialogue := rfl
  cases hitems : s.queue.settle.items with
  | nil =>
    have hparked : (s.stepQueue dt).parked = [] := by
      unfold Stage.stepQueue
      rw [ActionQueue.update_of_nil hitems]
      exact h.parked
    rw [ActionQueue.update_of_nil hitems] at hqueue hdialogue
    exact Or.inl ⟨rfl, hqueue, hdialogue, hparked⟩
  | cons q rest =>
    have hq : q ∈ s.queue.settle.items := by
      rw [hitems]
      exact List.mem_cons_self
    obtain ⟨hopened, hparked, a, ha, hpage, -, hafter⟩ :=
      ActionQueue.update_aloof hitems (h.aloof q (ActionQueue.mem_of_mem_settle hq)) dt
        (c := s.context) rfl h.parked
    have hshows := loaded_opened hitems h.settled.2.1
    rw [← hpage] at hshows
    rw [← hdialogue] at hopened
    rw [← hqueue] at hafter
    refine Or.inr ⟨q, rest, a, rfl, ha, hpage, hopened ▸ hshows, hparked, ?_⟩
    rw [hafter]
    by_cases hfin : q.action.finishes dt
    · rw [if_pos hfin]
      refine ⟨rfl, rfl, Or.inl ⟨?_, rfl⟩⟩
      rw [hpage, Option.eq_none_iff_forall_ne_some]
      intro p hp
      rw [Action.finishes_of_page? hp] at hfin
      cases hfin
    · rw [if_neg hfin]
      exact ⟨rfl, rfl, Or.inr rfl⟩

/-- The phase of the queue leaves queue and typewriter in step. -/
theorem Linked.inStep_stepQueue (h : s.Linked) (dt : R) : (s.stepQueue dt).InStep := by
  obtain ⟨hsignals, hloaded, -⟩ := h.settled
  rcases h.stepQueue_cases dt with ⟨-, hqueue, hdialogue, -⟩ |
    ⟨q, rest, a, hitems, -, -, hshows, -, hquiet, hstarted, ⟨hnone, hafter⟩ | hafter⟩
  · refine ⟨by rw [hqueue, hsignals], ?_⟩
    rw [hqueue, hdialogue, hloaded]
  · refine ⟨hquiet, ?_⟩
    rw [hshows, hnone, h.ordered.settle.shown_tail hitems hafter hstarted]
    rfl
  · refine ⟨hquiet, ?_⟩
    rw [hshows, ActionQueue.shown_of_started hafter hstarted]

theorem Linked.stepQueue (h : s.Linked) (dt : R) : (s.stepQueue dt).Linked := by
  have hordered : (s.stepQueue dt).queue.Ordered := h.ordered.update dt s.context
  have hold : ∀ q ∈ s.queue.settle.items, q.action.Aloof :=
    fun q hq => h.aloof q (ActionQueue.mem_of_mem_settle hq)
  rcases h.stepQueue_cases dt with ⟨-, hqueue, -, hparked⟩ |
    ⟨q, rest, a, hitems, ha, -, -, hparked, -, -, hafter⟩
  · exact ⟨hordered, hqueue ▸ hold, hparked, Or.inl (h.inStep_stepQueue dt)⟩
  · rw [hitems, List.forall_mem_cons] at hold
    refine ⟨hordered, ?_, hparked, Or.inl (h.inStep_stepQueue dt)⟩
    rcases hafter with ⟨-, hafter⟩ | hafter
    · rw [hafter]
      exact hold.2
    · rw [hafter, List.forall_mem_cons]
      exact ⟨ha, hold.2⟩

/-- The phase of the queue takes no page off. -/
theorem Linked.mem_ids_stepQueue (h : s.Linked) (dt : R) {q : Queued R} (hq : q ∈ s.queue.items)
    (hpage : q.action.page?.isSome) :
    q.id ∈ (s.stepQueue dt).queue.ids ↔ q.id ∈ s.queue.settle.ids := by
  unfold ActionQueue.ids
  rcases h.stepQueue_cases dt with ⟨-, hqueue, -⟩ |
    ⟨head, rest, a, hitems, -, hsame, -, -, -, -, ⟨hnone, hafter⟩ | hafter⟩
  · rw [hqueue]
  · have hhead : head ∈ s.queue.items := by
      apply ActionQueue.mem_of_mem_settle
      rw [hitems]
      exact List.mem_cons_self
    have hne : q.id ≠ head.id := by
      intro hid
      have heq := List.inj_on_of_nodup_map h.ordered.nodup hq hhead hid
      rw [heq, ← hsame, hnone] at hpage
      cases hpage
    rw [hafter, hitems, List.map_cons, List.mem_cons, or_iff_right hne]
  · rw [hafter, hitems, List.map_cons, List.map_cons]

/-- The phase of the typewriter: queue and typewriter stay in step, or the page of the head has
completed and its action is reported. -/
theorem InStep.stepDialogue (h : s.InStep) (hs : s.Linked) (dt : R) :
    (s.stepDialogue dt).2.Linked ∧ (s.stepDialogue dt).2.queue.ids = s.queue.ids ∧
      ∀ id, id ∈ (s.stepDialogue dt).2.queue.signals ↔
        (s.dialogue.update dt).completed = some (.finish id) := by
  unfold Stage.stepDialogue
  rcases s.dialogue.update_loaded dt with ⟨hnone, hloaded⟩ | ⟨a, hactive, hsome, hidle⟩
  · simp only [hnone, complete]
    refine ⟨?_, trivial, fun id => ?_⟩
    · exact hs.congr rfl hloaded rfl
    · rw [h.signals]
      simp
  · obtain ⟨q, rest, speaker, hitems, hstarted, hq, htoken⟩ := h.head_of_active hactive
    simp only [hsome, htoken, complete]
    refine ⟨⟨hs.ordered.withSignals _, hs.aloof, hs.parked, Or.inr ⟨a.page, q.id, ?_, ?_, ?_⟩⟩, rfl,
      fun id => ?_⟩
    · exact ActionQueue.shown_eq_some_iff.mpr ⟨q, rest, speaker, hitems, hstarted, hq, rfl⟩
    · simp only [ActionQueue.signal, h.signals, List.nil_append]
    · exact Typewriter.loaded_eq_none_iff.mpr hidle
    · simp [ActionQueue.signal, h.signals, eq_comm]

/-- The end of a step leaves queue and typewriter in step. -/
theorem Linked.finishStep (h : s.Linked) (dt : R) :
    (s.finishStep dt).Linked ∧ (s.finishStep dt).InStep := by
  obtain ⟨hsignals, hloaded, -⟩ := h.settled
  have hstep : (s.finishStep dt).InStep := ⟨hsignals, hloaded⟩
  refine ⟨⟨h.ordered.settle, fun q hq => ?_, h.parked, Or.inl hstep⟩, hstep⟩
  exact h.aloof q (ActionQueue.mem_of_mem_settle hq)

/-- What the typewriter hands back in the next step. -/
def completion (s : Stage R) : Option Completion :=
  (s.cued.dialogue.update s.config.rate.frameSeconds).completed

/-- What a step does to queue and typewriter. A page leaves the queue in the step that completes it,
or in the next one if that step fails. -/
theorem Linked.step_spec (h : s.Linked) (disk : Disk) :
    (s.step disk).2.Linked ∧ ((s.step disk).1 = .ok () → (s.step disk).2.InStep) ∧
      (∀ id, id ∈ (s.step disk).2.queue.signals ↔
        (s.step disk).1 ≠ .ok () ∧ s.completion = some (.finish id)) ∧
      ∀ q ∈ s.queue.items, q.action.page?.isSome →
        (q.id ∉ (s.step disk).2.queue.ids ↔
          q.id ∈ s.queue.signals ∨ (s.step disk).1 = .ok () ∧ s.completion = some (.finish q.id)) := by
  obtain ⟨-, -, hsettle⟩ := h.settled
  have hclocked : ({ s with time := s.config.rate.seconds s.frame } : Stage R).Linked :=
    h.congr rfl rfl rfl
  obtain ⟨hplayed, hplayedIds, hsignals⟩ :=
    (hclocked.inStep_stepQueue s.config.rate.frameSeconds).stepDialogue
      (hclocked.stepQueue s.config.rate.frameSeconds) s.config.rate.frameSeconds
  have hcompletion : ∀ id, s.completion = some (.finish id) ↔ id ∈ s.played.2.queue.signals :=
    fun id => (hsignals id).symm
  have hids : ∀ q ∈ s.queue.items, q.action.page?.isSome →
      (q.id ∈ s.played.2.queue.ids ↔ q.id ∉ s.queue.signals) := by
    intro q hq hp
    have hmem : q.id ∈ s.queue.ids := List.mem_map_of_mem hq
    have hkept := (hclocked.mem_ids_stepQueue s.config.rate.frameSeconds hq hp).trans (hsettle q.id)
    rw [← hplayedIds] at hkept
    exact hkept.trans (and_iff_right hmem)
  rcases s.step_cases disk with ⟨e, t, ht, hstep⟩ | ⟨t, ht, hstep⟩
  · rw [hstep]
    refine ⟨hplayed.congr ht.queue ht.loaded ht.parked, fun he => ?_, fun id => ?_, fun q hq hp => ?_⟩
    · cases he
    · simp [ht.queue, hcompletion]
    · rw [ht.queue, hids q hq hp, not_not]
      simp
  · have hlinked : t.Linked := hplayed.congr ht.queue ht.loaded ht.parked
    obtain ⟨hfinished, hin⟩ := hlinked.finishStep s.config.rate.frameSeconds
    rw [hstep]
    refine ⟨hfinished, fun _ => hin, fun id => ?_, fun q hq hp => ?_⟩
    · rw [hin.signals]
      simp
    · have hqueue' : (t.finishStep s.config.rate.frameSeconds).queue = t.queue.settle := rfl
      rw [hqueue', hlinked.settled.2.2, ht.queue, hids q hq hp, hcompletion]
      simp only [true_and]
      tauto

end Steps

end Stage

end Cutscene
