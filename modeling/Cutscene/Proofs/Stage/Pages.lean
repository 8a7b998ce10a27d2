import Cutscene.Proofs.Stage.InStep
import Cutscene.Proofs.Stage.Run

/-!
# Pages in every run

Every run of a stage whose callbacks are aloof keeps the queue and the typewriter linked. So after a
step that went well, a page is shown if and only if the head of the queue is a page action that has
been started.

On `Director.step`, `Sequencer.settle` and `DialogueInterpreter.load` (SPEC_FULL.md, §4.2 and §4.3).

Results:
* `linked_create`, `Linked.handle`, `Linked.after`: the link holds in every run.
* `pages_in_step`: what holds after every step of every run.
* `page_outlives_failed_step`: a step that fails can leave a started page behind an idle typewriter.
-/

namespace Cutscene.Stage

variable {R : Type} [Scalar R] {s : Stage R}

/-- A stage has nothing to do at first, and its typewriter is at rest. -/
theorem create_spec {disk : Disk} {config : Config R} (h : create disk config = .ok s) :
    s.config = config ∧ s.queue = .empty ∧ s.parked = [] ∧ s.dialogue.active = none ∧
      s.dialogue = s.dialogue.reset := by
  obtain ⟨_, -, h⟩ := bind_eq_ok_iff.mp h
  obtain ⟨⟨cast, textBox, hand⟩, -, h⟩ := bind_eq_ok_iff.mp h
  obtain ⟨i, hi, h⟩ := bind_eq_ok_iff.mp h
  obtain ⟨painter, -, h⟩ := bind_eq_ok_iff.mp h
  obtain ⟨_, -, hi⟩ := bind_eq_ok_iff.mp hi
  cases hi
  cases h
  exact ⟨rfl, rfl, rfl, rfl, rfl⟩

/-- Every event leaves the config alone. -/
theorem handle_config (s : Stage R) (e : StageEvent R) : (s.handle e).config = s.config := by
  rcases e.eq_step_or with ⟨disk, rfl⟩ | hother
  · exact s.step_config disk
  · obtain ⟨assets, actions, scene, sounds, painter, hhandle, -⟩ := s.handle_eq hother
    rw [hhandle]

theorem after_config (s : Stage R) (es : List (StageEvent R)) : (s.after es).config = s.config :=
  after_induction (P := fun t => t.config = s.config) rfl fun t ht e _ => (t.handle_config e).trans ht

theorem linked_create {disk : Disk} {config : Config R} (h : create disk config = .ok s) :
    s.Linked ∧ s.InStep := by
  obtain ⟨-, hqueue, hparked, hidle, -⟩ := create_spec h
  have hin : s.InStep := by
    refine ⟨by rw [hqueue]; rfl, ?_⟩
    rw [Typewriter.loaded_eq_none_iff.mpr hidle, hqueue]
    rfl
  refine ⟨⟨?_, ?_, hparked, Or.inl hin⟩, hin⟩
  · rw [hqueue]
    exact ActionQueue.ordered_empty
  · rw [hqueue]
    exact fun q hq => absurd hq List.not_mem_nil

/-- Every event keeps queue and typewriter linked. -/
theorem Linked.handle (h : s.Linked) {e : StageEvent R} (he : e.Aloof) : (s.handle e).Linked := by
  rcases e.eq_step_or with ⟨disk, rfl⟩ | hother
  · exact (h.step_spec disk).1
  · obtain ⟨actions, hqueue, hdialogue, hparked, haloof⟩ := s.handle_queues hother
    exact h.pushAll (haloof he) hqueue hdialogue hparked

theorem Linked.after (h : s.Linked) {es : List (StageEvent R)} (hes : ∀ e ∈ es, e.Aloof) :
    (s.after es).Linked :=
  after_induction h fun _ ht e he => ht.handle (hes e he)

/-- What holds of the pages of a stage, whatever is done next. -/
structure PagesInStep (t : Stage R) : Prop where
  /-- After a step that went well no signal is left to be looked at, and the typewriter shows a page
  just when the head of the queue is a page action that has been started: then it shows its page. -/
  shown : ∀ disk, (t.step disk).1 = .ok () → (t.step disk).2.queue.signals = [] ∧
    ∀ p, (t.step disk).2.dialogue.page = some p ↔
      ∃ q rest speaker, (t.step disk).2.queue.items = q :: rest ∧
        (t.step disk).2.queue.current = some q.id ∧ q.action = .page p speaker
  /-- A step takes a page action off if it completes its page and goes well, or if a failed step has
  left its signal. -/
  taken_off : ∀ disk, ∀ q ∈ t.queue.items, q.action.page?.isSome →
    (q.id ∉ (t.step disk).2.queue.ids ↔
      (t.step disk).1 = .ok () ∧ t.completion = some (.finish q.id) ∨ q.id ∈ t.queue.signals)
  /-- A step leaves a signal only if it completes a page and fails. -/
  reported : ∀ disk id, id ∈ (t.step disk).2.queue.signals ↔
    (t.step disk).1 ≠ .ok () ∧ t.completion = some (.finish id)
  /-- Nothing but a step takes an action off or gives a signal. -/
  unmoved : ∀ e, (∀ disk, e ≠ .step disk) → t.queue.items <+: (t.handle e).queue.items ∧
    (t.handle e).queue.signals = t.queue.signals

/-- **Queue and typewriter are in step after every step that goes well**, in every run. A page action
is taken off in the step that completes its page or, if that step fails, in the next one. -/
theorem pages_in_step {disk : Disk} {config : Config R} (h : create disk config = .ok s)
    {es : List (StageEvent R)} (hes : ∀ e ∈ es, e.Aloof) : PagesInStep (s.after es) where
  shown disk hok := by
    have hin := (((linked_create h).1.after hes).step_spec disk).2.1 hok
    exact ⟨hin.signals, fun p => hin.page_eq_some_iff⟩
  taken_off disk q hq hp := by
    rw [(((linked_create h).1.after hes).step_spec disk).2.2.2 q hq hp]
    exact or_comm
  reported disk := (((linked_create h).1.after hes).step_spec disk).2.2.1
  unmoved e he := by
    obtain ⟨actions, hqueue, -⟩ := (s.after es).handle_queues he
    rw [hqueue]
    exact ⟨ActionQueue.prefix_pushAll _ _, ActionQueue.pushAll_signals _ _⟩

/-! ## A stage of one pixel -/

/-- A disk with one picture of one pixel. -/
def pixelDisk : Disk :=
  ⟨[(["assets"], .directory), (["assets", "a.png"], .file (.still 1 1 ⟨#[1, 2, 3, 255]⟩))]⟩

/-- The picture in every place, and a frame every half a second. -/
def pixelConfig : Config Rat :=
  { Config.standard with
    canvas := ⟨1, 1⟩
    rate := ⟨2, 1⟩
    holdSeconds := 1 / 2
    stage :=
      { StageArt.standard with
        background := "a.png"
        leftSprite := "a.png"
        rightSprite := "a.png"
        leftSlamSprite := "a.png"
        rightSlamSprite := "a.png"
        dialogueBox := "a.png"
        arrow := "a.png" } }

/-- What is decided of a stage once it has been made. -/
theorem exists_create (disk : Disk) (config : Config R) (P : Stage R → Prop) [DecidablePred P]
    (h : (match create disk config with
      | .ok s => decide (P s)
      | .error _ => false) = true) : ∃ s, create disk config = .ok s ∧ P s := by
  cases hs : create disk config with
  | error e =>
    rw [hs] at h
    cases h
  | ok s =>
    rw [hs] at h
    exact ⟨s, rfl, of_decide_eq_true h⟩

/-- Two characters and a wait. -/
def pixelPage : Page := ⟨[.text ⟨"ab", []⟩, .call ⟨"wait", ["0.5"]⟩]⟩

/-- The page is queued and two steps are made. -/
def pixelRun : List (StageEvent Rat) :=
  .write pixelDisk (.push (.page pixelPage none)) :: List.replicate 2 (.step pixelDisk)

/-- The page is shown for two steps and taken off in the third. -/
theorem pages_in_step_pixelRun : ∃ s, create pixelDisk pixelConfig = .ok s ∧
    (∀ e ∈ pixelRun, e.Aloof) ∧ PagesInStep (s.after pixelRun) ∧
    (s.after pixelRun).dialogue.page = some pixelPage ∧
    (s.after pixelRun).completion = some (.finish 0) ∧
    ((s.after pixelRun).step pixelDisk).1.isOk ∧
    ((s.after pixelRun).step pixelDisk).2.queue.ids = [] := by
  have haloof : ∀ e ∈ pixelRun, e.Aloof := by
    intro e he
    rcases List.mem_cons.mp he with rfl | he
    · exact fun f hf => nomatch hf
    · rw [(List.mem_replicate.mp he).2]
      trivial
  obtain ⟨s, hs, hrun⟩ := exists_create pixelDisk pixelConfig
    (fun s => (s.after pixelRun).dialogue.page = some pixelPage ∧
      (s.after pixelRun).completion = some (.finish 0) ∧
      ((s.after pixelRun).step pixelDisk).1.isOk ∧
      ((s.after pixelRun).step pixelDisk).2.queue.ids = []) (by decide +kernel)
  exact ⟨s, hs, haloof, pages_in_step hs haloof, hrun⟩

/-- A page without text completes in the step that fails to find its sprite. The typewriter is idle
then, and the page action is taken off in the next step, which completes nothing. -/
theorem page_outlives_failed_step : ∃ s, create pixelDisk pixelConfig = .ok s ∧
    let t := s.push (.page ⟨[.call ⟨"sprite", ["left", "b.png"]⟩]⟩ none)
    let u := (t.step pixelDisk).2
    (t.step pixelDisk).1.isOk = false ∧ u.queue.current = some 0 ∧ u.dialogue.isIdle ∧
      (u.step pixelDisk).1.isOk ∧ u.completion = none ∧ (u.step pixelDisk).2.queue.ids = [] := by
  refine exists_create _ _ _ ?_
  decide +kernel

end Cutscene.Stage
