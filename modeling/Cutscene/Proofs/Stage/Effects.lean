import Cutscene.Proofs.Dialogue.Bare
import Cutscene.Proofs.Script.Order
import Cutscene.Stage.Step

/-!
# What directives leave alone

Directives work on the scene, the sounds, the assets and the name of the speaker. The machinery of the
stage, which decides what happens when, is not theirs to touch.

Results:
* `undisturbed_apply`, `undisturbed_applyAll`: directives leave the machinery alone, also when one of
  them fails.
* `step_cases`: so a step is the turn of the queue and that of the typewriter, with an end to it unless
  a directive fails.
-/

namespace Cutscene.Stage

variable {R : Type}

/-- The machinery of the second stage is that of the first. -/
structure Undisturbed (s s' : Stage R) : Prop where
  config : s'.config = s.config
  cast : s'.cast = s.cast
  textBox : s'.textBox = s.textBox
  queue : s'.queue = s.queue
  loaded : s'.dialogue.loaded = s.dialogue.loaded
  bare : s'.dialogue.bare = s.dialogue.bare
  painter : s'.painter = s.painter
  frame : s'.frame = s.frame
  time : s'.time = s.time
  notes : s'.notes = s.notes
  parked : s'.parked = s.parked

/-- What is worked on by directives may change. -/
theorem undisturbed_of_dialogue (s : Stage R) {scene : Scene R} {sounds : SoundLog R}
    {assets : AssetLibrary R} {dialogue : Typewriter R Completion}
    (hloaded : dialogue.loaded = s.dialogue.loaded) (hbare : dialogue.bare = s.dialogue.bare) :
    s.Undisturbed { s with scene, sounds, assets, dialogue } :=
  ⟨rfl, rfl, rfl, rfl, hloaded, hbare, rfl, rfl, rfl, rfl, rfl⟩

theorem Undisturbed.refl (s : Stage R) : s.Undisturbed s := s.undisturbed_of_dialogue rfl rfl

theorem Undisturbed.trans {s t u : Stage R} (h : s.Undisturbed t) (h' : t.Undisturbed u) :
    s.Undisturbed u where
  config := h'.config.trans h.config
  cast := h'.cast.trans h.cast
  textBox := h'.textBox.trans h.textBox
  queue := h'.queue.trans h.queue
  loaded := h'.loaded.trans h.loaded
  bare := h'.bare.trans h.bare
  painter := h'.painter.trans h.painter
  frame := h'.frame.trans h.frame
  time := h'.time.trans h.time
  notes := h'.notes.trans h.notes
  parked := h'.parked.trans h.parked

theorem undisturbed_modifyNode (s : Stage R) (id : NodeId) (f : Node R → Node R) :
    s.Undisturbed (s.modifyNode id f) := s.undisturbed_of_dialogue rfl rfl

theorem undisturbed_withSound (s : Stage R) (path : Except Error String)
    (log : String → SoundLog R → SoundLog R) : s.Undisturbed (s.withSound path log).2 := by
  unfold withSound
  cases path with
  | error e => exact .refl s
  | ok path => exact s.undisturbed_of_dialogue rfl rfl

theorem complete_nextId (s : Stage R) (completed : Option Completion) :
    (s.complete completed).queue.nextId = s.queue.nextId := by
  cases completed with
  | none => rfl
  | some token => cases token <;> rfl

theorem complete_config (s : Stage R) (completed : Option Completion) :
    (s.complete completed).config = s.config := by
  cases completed with
  | none => rfl
  | some token => cases token <;> rfl

variable [Scalar R]

theorem undisturbed_withSprite (s : Stage R) (disk : Disk) (path : String)
    {next : Sprite R → Stage R → Except Error Unit × Stage R}
    (h : ∀ sprite (t : Stage R), t.Undisturbed (next sprite t).2) :
    s.Undisturbed (s.withSprite disk path next).2 := by
  unfold withSprite
  cases s.assets.loadSprite disk path with
  | error e => exact .refl s
  | ok r => exact (s.undisturbed_of_dialogue rfl rfl).trans (h r.1 _)

/-- A directive leaves the machinery alone, also when it fails. -/
theorem undisturbed_apply (s : Stage R) (disk : Disk) (d : Directive R) :
    s.Undisturbed (s.apply disk d).2 := by
  cases d with
  | sprite side path =>
    exact s.undisturbed_withSprite disk path fun sprite t => t.undisturbed_modifyNode _ _
  | playSound name => exact s.undisturbed_withSound _ _
  | startBlip voice => exact s.undisturbed_withSound _ _
  | musicStart name => exact s.undisturbed_withSound _ _
  | nametag text =>
    exact s.undisturbed_of_dialogue (Typewriter.loaded_setSpeaker _ _)
      (Typewriter.bare_setSpeaker _ _)
  | exclamation kind speaker =>
    simp only [apply]
    refine s.undisturbed_withSprite disk _ fun sprite t => ?_
    exact (t.undisturbed_modifyNode _ _).trans (undisturbed_withSound _ _ _)
  | deskSlam side =>
    simp only [apply]
    refine s.undisturbed_withSprite disk _ fun sprite t => ?_
    exact (t.undisturbed_modifyNode _ _).trans (undisturbed_of_dialogue _ rfl rfl)
  | stopBlip => exact s.undisturbed_of_dialogue rfl rfl
  | musicStop => exact s.undisturbed_of_dialogue rfl rfl
  | wait secs => exact .refl s
  | unknown name => exact .refl s
  | _ => exact s.undisturbed_modifyNode _ _

/-- Directives leave the machinery alone, whether or not one of them fails. -/
theorem undisturbed_applyAll (s : Stage R) (disk : Disk) (ds : List (Directive R)) :
    s.Undisturbed (s.applyAll disk ds).2 := by
  induction ds generalizing s with
  | nil => exact .refl s
  | cons d r ih =>
    have hd := s.undisturbed_apply disk d
    unfold applyAll
    cases hs : s.apply disk d with
    | mk result t =>
      rw [hs] at hd
      cases result with
      | error e => exact hd
      | ok _ => exact hd.trans (ih t)

/-! ## Steps -/

/-- The stage once the queue has had its turn in a step. -/
def cued (s : Stage R) : Stage R :=
  ({ s with time := s.config.rate.seconds s.frame } : Stage R).stepQueue s.config.rate.frameSeconds

/-- The context in which the queue has its turn in a step. -/
def cueing (s : Stage R) : Context R := { s.context with time := s.config.rate.seconds s.frame }

theorem cued_queue (s : Stage R) :
    s.cued.queue = (s.queue.update s.config.rate.frameSeconds s.cueing).2.1 := rfl

theorem cued_dialogue (s : Stage R) :
    s.cued.dialogue = (s.queue.update s.config.rate.frameSeconds s.cueing).2.2.dialogue := rfl

/-- The directives handed out in a step, and the stage before they are carried out. -/
def played (s : Stage R) : List (Directive R) × Stage R :=
  s.cued.stepDialogue s.config.rate.frameSeconds

theorem step_eq (s : Stage R) (disk : Disk) :
    s.step disk = match s.played.2.applyAll disk s.played.1 with
      | (.ok (), t) => (.ok (), t.finishStep s.config.rate.frameSeconds)
      | (.error e, t) => (.error e, t) := rfl

/-- Once queue and typewriter have had their turn, a step leaves the machinery alone until its end. -/
theorem step_cases (s : Stage R) (disk : Disk) :
    (∃ e t, s.played.2.Undisturbed t ∧ s.step disk = (.error e, t)) ∨
      ∃ t, s.played.2.Undisturbed t ∧
        s.step disk = (.ok (), t.finishStep s.config.rate.frameSeconds) := by
  have ht := s.played.2.undisturbed_applyAll disk s.played.1
  rw [step_eq]
  cases happly : s.played.2.applyAll disk s.played.1 with
  | mk r t =>
    rw [happly] at ht
    cases r with
    | error e => exact Or.inl ⟨e, t, ht, rfl⟩
    | ok _ => exact Or.inr ⟨t, ht, rfl⟩

theorem exists_of_step_ok {s t : Stage R} {disk : Disk} (h : s.step disk = (.ok (), t)) :
    ∃ u, s.played.2.Undisturbed u ∧ t = u.finishStep s.config.rate.frameSeconds := by
  rcases s.step_cases disk with ⟨e, u, -, hstep⟩ | ⟨u, hu, hstep⟩
  · rw [h] at hstep
    cases hstep
  · rw [h] at hstep
    cases hstep
    exact ⟨u, hu, rfl⟩

/-- A step leaves the config alone. -/
theorem step_config (s : Stage R) (disk : Disk) : (s.step disk).2.config = s.config := by
  have hplayed : s.played.2.config = s.config := complete_config _ _
  rcases s.step_cases disk with ⟨e, t, ht, hstep⟩ | ⟨t, ht, hstep⟩
  · rw [hstep, ht.config, hplayed]
  · rw [hstep, ← hplayed]
    exact ht.config

/-- A step queues nothing. -/
theorem step_nextId (s : Stage R) (disk : Disk) :
    (s.step disk).2.queue.nextId = s.queue.nextId := by
  have hcued : s.cued.queue.nextId = s.queue.nextId := by
    rw [cued_queue, ActionQueue.update_nextId]
  have hplayed : s.played.2.queue.nextId = s.queue.nextId := by
    rw [← hcued]
    exact complete_nextId _ _
  rcases s.step_cases disk with ⟨e, t, ht, hstep⟩ | ⟨t, ht, hstep⟩
  · rw [hstep, ht.queue, hplayed]
  · rw [hstep]
    refine (ActionQueue.settle_nextId t.queue).trans ?_
    rw [ht.queue, hplayed]

end Cutscene.Stage
