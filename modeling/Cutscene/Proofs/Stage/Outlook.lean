import Cutscene.Proofs.Stage.InStep

/-!
# What decides how long an action takes

How many steps an action still takes is decided by its own clock and, for a page, by the typewriter
that shows it. An `Outlook` is just that, and it is stepped by itself: nothing of the scene, of the
time, of other actions or of the names on the page is in it.

Results:
* `Steady.step`: a step that goes well keeps the machinery steady.
* `Steady.step_of_cons`: it is a step of the outlook of the head.
-/

namespace Cutscene

/-- What decides how many steps an action still takes. -/
structure Outlook (R : Type) where
  action : Action R
  /-- Whether the action has been started. -/
  begun : Bool
  dialogue : Typewriter R Unit

namespace Outlook

variable {R : Type} [Scalar R]

/-- The typewriter once the action has been started. -/
def opened (o : Outlook R) : Typewriter R Unit :=
  if o.begun then o.dialogue
  else match o.action with
    | .page p _ => (o.dialogue.load p none ()).bare
    | _ => o.dialogue

/-- A step; `none` says that the action is done. -/
def step (dt : R) (o : Outlook R) : Option (Outlook R) :=
  let u := o.opened.update dt
  if o.action.finishes dt || u.completed.isSome then none
  else some ⟨o.action.advance dt, true, u.typewriter⟩

/-- The action is done in this many steps. -/
def Takes (dt : R) : Nat → Outlook R → Prop
  | 0, _ => False
  | n + 1, o =>
    match o.step dt with
    | none => n = 0
    | some o => Takes dt n o

end Outlook

namespace Stage

variable {R : Type}

/-- The machinery between two steps of a run in which no step has failed. -/
structure Steady (s : Stage R) [Scalar R] : Prop where
  linked : s.Linked
  inStep : s.InStep
  rest : s.dialogue.active = none → s.dialogue = s.dialogue.reset

variable [Scalar R] {s t : Stage R}

theorem Steady.congr (h : s.Steady) (hqueue : t.queue = s.queue) (hdialogue : t.dialogue = s.dialogue)
    (hparked : t.parked = s.parked) : t.Steady where
  linked := h.linked.congr hqueue (by rw [hdialogue]) hparked
  inStep := h.inStep.congr hqueue (by rw [hdialogue])
  rest := hdialogue ▸ h.rest

/-- The outlook of an action in the queue. The typewriter is at rest before the turn of an action. -/
def outlook (s : Stage R) (q : Queued R) : Outlook R :=
  if s.queue.started = some q.id then ⟨q.action.unplaced, true, s.dialogue.bare⟩
  else ⟨q.action.unplaced, false, s.dialogue.reset.bare⟩

/-- Before the first turn of all, the outlook of an action is that of the action alone. -/
theorem outlook_of_started_eq_none (h : s.queue.started = none) (q : Queued R) :
    s.outlook q = ⟨q.action.unplaced, false, s.dialogue.reset.bare⟩ := by
  unfold outlook
  rw [h, if_neg (by simp)]

/-- The outlook of the head is that of the typewriter as it stands. -/
theorem Steady.outlook_head (h : s.Steady) {q : Queued R} {rest : List (Queued R)}
    (hitems : s.queue.items = q :: rest) :
    s.outlook q = ⟨q.action.unplaced, s.queue.started = some q.id, s.dialogue.bare⟩ := by
  unfold outlook
  by_cases hstarted : s.queue.started = some q.id
  · rw [if_pos hstarted, decide_eq_true hstarted]
  · rw [if_neg hstarted, decide_eq_false hstarted]
    have hidle : s.dialogue.active = none := by
      rw [← Typewriter.loaded_eq_none_iff, h.inStep.loaded,
        ActionQueue.shown_of_waiting hitems hstarted]
    rw [← h.rest hidle]

/-- The typewriter once the head has been started, as the outlook has it. -/
theorem Steady.outlook_opened (h : s.Steady) {q : Queued R} {rest : List (Queued R)}
    (hitems : s.queue.items = q :: rest) :
    (s.outlook q).opened =
      (if s.queue.started = some q.id then s.dialogue
        else q.action.opening q.id s.dialogue).bare := by
  rw [h.outlook_head hitems]
  unfold Outlook.opened
  by_cases hstarted : s.queue.started = some q.id
  · rw [if_pos hstarted, decide_eq_true hstarted]
    rfl
  · rw [if_neg hstarted, decide_eq_false hstarted]
    cases q.action <;> rfl

/-! ## The phases of a step -/

/-- The phase of the queue, with an action to run. -/
theorem Steady.cued_of_cons (h : s.Steady) {q : Queued R} {rest : List (Queued R)}
    (hitems : s.queue.items = q :: rest) :
    s.cued.dialogue =
        (if s.queue.started = some q.id then s.dialogue else q.action.opening q.id s.dialogue) ∧
      s.cued.queue.started = some q.id ∧
      ∃ a, (q.action.finishes s.config.rate.frameSeconds = false →
          a.unplaced = q.action.unplaced.advance s.config.rate.frameSeconds) ∧
        s.cued.queue.items =
          if q.action.finishes s.config.rate.frameSeconds then rest else ⟨q.id, a⟩ :: rest := by
  have hquiet : s.queue.settle = s.queue := ActionQueue.settle_of_quiet h.inStep.signals
  have hsettled : s.queue.settle.items = q :: rest := by rw [hquiet, hitems]
  have haloof : q.action.Aloof := h.linked.aloof q (by rw [hitems]; exact List.mem_cons_self)
  obtain ⟨hdialogue, -, a, -, -, hadvance, hqueue⟩ :=
    ActionQueue.update_aloof hsettled haloof s.config.rate.frameSeconds (c := s.cueing) rfl
      h.linked.parked
  rw [hquiet] at hdialogue hqueue
  rw [cued_queue, cued_dialogue, hqueue]
  refine ⟨hdialogue, ?_, a, hadvance, ?_⟩
  · split_ifs <;> rfl
  · split_ifs <;> rfl

/-- The phase of the queue, with nothing to run. -/
theorem Steady.cued_of_nil (h : s.Steady) (hitems : s.queue.items = []) :
    s.cued.queue.items = [] ∧ s.cued.dialogue = s.dialogue := by
  have hsettled : s.queue.settle.items = [] := by
    rw [ActionQueue.settle_of_quiet h.inStep.signals, hitems]
  rw [cued_queue, cued_dialogue, ActionQueue.update_of_nil hsettled]
  exact ⟨hsettled, rfl⟩

/-- The typewriter is at rest after the phase of the queue if it is idle then. -/
theorem Steady.rest_cued (h : s.Steady) :
    s.cued.dialogue.reset = s.dialogue.reset ∧
      (s.cued.dialogue.active = none → s.cued.dialogue = s.cued.dialogue.reset) := by
  cases hitems : s.queue.items with
  | nil =>
    rw [(h.cued_of_nil hitems).2]
    exact ⟨rfl, h.rest⟩
  | cons q rest =>
    rw [(h.cued_of_cons hitems).1]
    split_ifs
    · exact ⟨rfl, h.rest⟩
    · cases q.action with
      | page p speaker => exact ⟨rfl, fun hidle => nomatch hidle⟩
      | _ => exact ⟨rfl, h.rest⟩

/-- After the phase of the queue the typewriter is in step. -/
theorem Steady.inStep_cued (h : s.Steady) : s.cued.InStep := by
  have hclocked : ({ s with time := s.config.rate.seconds s.frame } : Stage R).Linked :=
    h.linked.congr rfl rfl rfl
  exact hclocked.inStep_stepQueue s.config.rate.frameSeconds

/-- The phase of the typewriter, and what its signal does to the queue: the head is taken off just
when its page has completed. -/
theorem InStep.settle_played (h : s.cued.InStep) :
    s.played.2.config = s.config ∧
      s.played.2.dialogue = (s.cued.dialogue.update s.config.rate.frameSeconds).typewriter ∧
      s.played.2.queue.settle.started = s.cued.queue.started ∧
      s.played.2.queue.settle.items =
        if (s.cued.dialogue.update s.config.rate.frameSeconds).completed.isSome then
          s.cued.queue.items.tail
        else s.cued.queue.items := by
  unfold played Stage.stepDialogue
  rcases s.cued.dialogue.update_loaded s.config.rate.frameSeconds with
    ⟨hnone, -⟩ | ⟨a, hactive, hsome, -⟩
  · simp only [hnone, complete]
    rw [ActionQueue.settle_of_quiet h.signals]
    exact ⟨rfl, trivial, rfl, rfl⟩
  · obtain ⟨q, rest, speaker, hitems, -, -, htoken⟩ := h.head_of_active hactive
    simp only [hsome, htoken, complete]
    have hsettle : (s.cued.queue.signal q.id).settle =
        { s.cued.queue.signal q.id with
          items := rest, completed := s.cued.queue.completed + 1, signals := [] } :=
      ActionQueue.settle_of_reported hitems (by simp [ActionQueue.signal, h.signals])
    rw [hsettle, hitems]
    exact ⟨rfl, trivial, rfl, rfl⟩

/-! ## Steps -/

/-- A step that goes well keeps the machinery steady, and the pace of the typewriter. -/
theorem Steady.step (h : s.Steady) {disk : Disk} (hok : s.step disk = (.ok (), t)) :
    t.Steady ∧ t.config = s.config ∧ t.dialogue.reset = s.dialogue.reset := by
  have hspec := h.linked.step_spec disk
  rw [hok] at hspec
  obtain ⟨u, hu, rfl⟩ := exists_of_step_ok hok
  obtain ⟨hreset, hrest⟩ := h.rest_cued
  obtain ⟨hconfig, hdialogue, -⟩ := h.inStep_cued.settle_played
  refine ⟨⟨hspec.1, hspec.2.1 rfl, fun hidle => ?_⟩, hu.config.trans hconfig, ?_⟩
  · have hidle' : s.played.2.dialogue.active = none := by
      rw [← Typewriter.bare_active_eq_none_iff, ← hu.bare, Typewriter.bare_active_eq_none_iff]
      exact hidle
    have heq : u.dialogue = s.played.2.dialogue := Typewriter.eq_of_bare_eq hu.bare hidle'
    rw [hdialogue] at hidle' heq
    exact heq ▸ Typewriter.rest_update hrest _ hidle'
  · refine (Typewriter.reset_eq_of_bare_eq hu.bare).trans ?_
    rw [hdialogue, Typewriter.reset_update, hreset]

/-- With nothing queued, a step that goes well leaves nothing queued. -/
theorem Steady.step_of_nil (h : s.Steady) {disk : Disk} (hok : s.step disk = (.ok (), t))
    (hitems : s.queue.items = []) : t.queue.items = [] := by
  obtain ⟨u, hu, rfl⟩ := exists_of_step_ok hok
  obtain ⟨-, -, -, hplayed⟩ := h.inStep_cued.settle_played
  have hqueue : (u.finishStep s.config.rate.frameSeconds).queue = s.played.2.queue.settle :=
    congrArg ActionQueue.settle hu.queue
  rw [hqueue, hplayed, (h.cued_of_nil hitems).1, List.tail_nil, ite_self]

/-- **A step that goes well is a step of the outlook of the head**, which is taken off just when its
outlook says that it is done. -/
theorem Steady.step_of_cons (h : s.Steady) {disk : Disk} (hok : s.step disk = (.ok (), t))
    {q : Queued R} {rest : List (Queued R)} (hitems : s.queue.items = q :: rest) :
    t.queue.started = some q.id ∧
      match (s.outlook q).step s.config.rate.frameSeconds with
      | none => t.queue.items = rest
      | some o => ∃ a, t.queue.items = ⟨q.id, a⟩ :: rest ∧ t.outlook ⟨q.id, a⟩ = o := by
  obtain ⟨u, hu, rfl⟩ := exists_of_step_ok hok
  obtain ⟨hdialogue', hstarted, a, hadvance, hcued⟩ := h.cued_of_cons hitems
  have hopened : s.cued.dialogue.bare = (s.outlook q).opened := by
    rw [hdialogue', h.outlook_opened hitems]
  obtain ⟨-, hdialogue, hstarted', hplayed⟩ := h.inStep_cued.settle_played
  have hqueue : (u.finishStep s.config.rate.frameSeconds).queue = s.played.2.queue.settle :=
    congrArg ActionQueue.settle hu.queue
  have hbare : (u.finishStep s.config.rate.frameSeconds).dialogue.bare =
      (s.cued.dialogue.update s.config.rate.frameSeconds).typewriter.bare :=
    hu.bare.trans (congrArg Typewriter.bare hdialogue)
  have hstart : (u.finishStep s.config.rate.frameSeconds).queue.started = some q.id := by
    rw [hqueue, hstarted', hstarted]
  have haction : (s.outlook q).action = q.action.unplaced := by
    unfold outlook
    split_ifs <;> rfl
  refine ⟨hstart, ?_⟩
  unfold Outlook.step
  simp only [← hopened, Typewriter.bare_update, haction, Action.finishes_unplaced,
    Typewriter.Update.bare, Option.isSome_map]
  rw [hqueue, hplayed]
  by_cases hfin : q.action.finishes s.config.rate.frameSeconds
  · -- the head is no page, and the typewriter is idle
    rw [if_pos hfin] at hcued
    have hidle : s.cued.dialogue.active = none := by
      rw [← Typewriter.loaded_eq_none_iff, h.inStep_cued.loaded]
      exact h.linked.ordered.shown_tail hitems hcued hstarted
    rw [Typewriter.update_of_idle hidle]
    simp [hfin, hcued]
  · rw [if_neg hfin] at hcued
    cases hcompleted : (s.cued.dialogue.update s.config.rate.frameSeconds).completed with
    | some token => simp [hcued]
    | none =>
      simp only [hfin, hcued, Option.isSome_none, Bool.or_false, Bool.false_eq_true, if_false]
      refine ⟨a, rfl, ?_⟩
      unfold outlook
      rw [if_pos hstart, hadvance (by simpa using hfin), hbare]

end Stage

end Cutscene
