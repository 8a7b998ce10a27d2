import Cutscene.Movie.Render
import Cutscene.Proofs.Script.Aloof
import Cutscene.Proofs.Script.Created
import Cutscene.Stage.Scripting

/-!
# Runs of the stage

A run is any list of events: lines of the script are written, steps are made, with whatever the disk
holds by then, and pictures are taken. A step that fails is an event like the others, and the run goes
on after it. A movie is such a run as well.

Results:
* `write_eq`: what a line of the script does, from the actions that it is for. `write_queues`.
* `after_induction`: what every event keeps, a run keeps.
* `handle_eq`: what an event that is no step can change.
-/

namespace Cutscene

/-- A line of the script. -/
inductive ScriptLine (R : Type) where
  | panTo (side : Side)
  | cutTo (side : Side)
  | say (speaker : String) (pages : List Page)
  | showTextBox
  | hideTextBox
  | wait (secs : R)
  | setSprite (side : Side) (path : String)
  | startMusic (name : String)
  | stopMusic
  | startBlips (voice : String)
  | stopBlips
  | playSound (name : String)
  | run (f : Callback R)
  | push (a : Action R)

/-- What happens to a stage. -/
inductive StageEvent (R : Type) where
  | write (disk : Disk) (line : ScriptLine R)
  | step (disk : Disk)
  /-- A frame is painted. -/
  | picture
  /-- The assets are worked on directly. -/
  | assets (l : AssetLibrary R)
  /-- The whole scene is shifted down, as at the start of a movie. -/
  | shift (y : Int32)
  /-- The sounds that are still open are closed, as at the end of a movie. -/
  | closeSounds

variable {R : Type}

theorem StageEvent.eq_step_or (e : StageEvent R) : (∃ disk, e = .step disk) ∨ ∀ disk, e ≠ .step disk := by
  cases e <;> simp

/-- A line whose callbacks are aloof. -/
def ScriptLine.Aloof : ScriptLine R → Prop
  | run f => f.Aloof
  | push a => a.Aloof
  | _ => True

/-- An event that queues aloof callbacks only. -/
def StageEvent.Aloof : StageEvent R → Prop
  | write _ line => line.Aloof
  | _ => True

/-- The action that a line is handed from outside. -/
def ScriptLine.own? : ScriptLine R → Option (Action R)
  | .run f => some (.run (some f))
  | .push a => some a
  | _ => none

/-- The action that an event is handed from outside. -/
def StageEvent.own? : StageEvent R → Option (Action R)
  | .write _ line => line.own?
  | _ => none

/-- An event that is aloof is handed nothing but aloof actions. -/
theorem StageEvent.aloof_of_own? {e : StageEvent R} (h : e.Aloof) {a : Action R} (ha : e.own? = some a) :
    a.Aloof := by
  cases e with
  | write disk line =>
    cases line with
    | run f =>
      cases ha
      rintro g ⟨⟩
      exact h
    | push b =>
      cases ha
      exact h
    | _ => cases ha
  | _ => cases ha

/-- A mapped result is good if the result is. -/
theorem map_eq_ok_iff {α β : Type} {x : Except Error α} {f : α → β} {b : β} :
    x.map f = .ok b ↔ ∃ a, x = .ok a ∧ f a = b := by
  cases x with
  | error e =>
    constructor
    · intro h
      cases h
    · rintro ⟨a, h, -⟩
      cases h
  | ok a =>
    constructor
    · rintro ⟨⟩
      exact ⟨a, rfl, rfl⟩
    · rintro ⟨_, ⟨⟩, rfl⟩
      rfl

namespace Stage

/-- The second stage is the first one with some assets loaded and some actions of a kind queued. -/
def Queues (s s' : Stage R) (kind : Action R → Prop) : Prop :=
  ∃ assets actions, s' = { s with assets, queue := s.queue.pushAll actions } ∧ ∀ a ∈ actions, kind a

/-- A call that leaves the stage as it was if it fails. -/
def attempt (s : Stage R) : Except Error (Stage R) → Except Error Unit × Stage R
  | .ok s => (.ok (), s)
  | .error e => (.error e, s)

/-- Queueing actions one by one queues them in order. -/
theorem foldl_push (s : Stage R) (actions : List (Action R)) :
    actions.foldl push s = { s with queue := s.queue.pushAll actions } := by
  induction actions generalizing s with
  | nil => rfl
  | cons a r ih =>
    rw [List.foldl_cons, ih]
    rfl

variable [Scalar R]

/-- Writes a line of the script. -/
def write (s : Stage R) (disk : Disk) : ScriptLine R → Except Error Unit × Stage R
  | .panTo side => s.attempt (s.panTo side)
  | .cutTo side => (.ok (), s.cutTo side)
  | .say speaker pages => s.say disk speaker pages
  | .showTextBox => (.ok (), s.showTextBox)
  | .hideTextBox => (.ok (), s.hideTextBox)
  | .wait secs => s.attempt (s.wait secs)
  | .setSprite side path => s.attempt (s.setSprite disk side path)
  | .startMusic name => s.attempt (s.startMusic disk name)
  | .stopMusic => (.ok (), s.stopMusic)
  | .startBlips voice => s.attempt (s.startBlips disk voice)
  | .stopBlips => (.ok (), s.stopBlips)
  | .playSound name => s.attempt (s.playSound disk name)
  | .run f => (.ok (), s.run f)
  | .push a => (.ok (), s.push a)

/-- The stage after an event. -/
def handle (s : Stage R) : StageEvent R → Stage R
  | .write disk line => (s.write disk line).2
  | .step disk => (s.step disk).2
  | .picture => s.renderFrame.2
  | .assets l => { s with assets := l }
  | .shift y => s.modifyNode Scene.root (·.setY y)
  | .closeSounds => s.closeSounds

/-- The stage after some events. -/
def after (s : Stage R) (es : List (StageEvent R)) : Stage R := es.foldl handle s

theorem after_append (s : Stage R) (es es' : List (StageEvent R)) :
    s.after (es ++ es') = (s.after es).after es' := List.foldl_append

/-- What every event keeps, a run keeps. -/
theorem after_induction {P : Stage R → Prop} {s : Stage R} {es : List (StageEvent R)} (hs : P s)
    (hhandle : ∀ t, P t → ∀ e ∈ es, P (t.handle e)) : P (s.after es) := by
  induction es generalizing s with
  | nil => exact hs
  | cons e r ih =>
    exact ih (hhandle s hs e List.mem_cons_self) fun t ht e' he' => hhandle t ht e' (List.mem_cons_of_mem _ he')

/-! ## Lines -/

/-- The action of a single cue. -/
def cueAction (cue : Cue R) : Action R := .run (some cue.perform)

/-- All directives of some pages, in the order of the pages. -/
def directives (pages : List Page) : List (Directive R) :=
  pages.flatMap fun p => p.directives.map Prod.snd

/-- The actions that a line is for, or why it is refused. -/
def actions (s : Stage R) (disk : Disk) : ScriptLine R → Except Error (List (Action R))
  | .panTo side =>
    (Move.create s.cast.background ⟨s.config.cameraX side, 0⟩ s.config.panSeconds cameraEase).map
      fun m => [.move m]
  | .cutTo side => .ok [.jump (.create s.cast.background ⟨s.config.cameraX side, 0⟩)]
  | .say speaker pages =>
    (preloadAll s.config.stage disk s.assets (directives pages)).1.map fun _ =>
      cueAction (.show s.cast.dialogueBox) :: pages.map fun p => .page p (some speaker)
  | .showTextBox => .ok [cueAction (.show s.cast.dialogueBox)]
  | .hideTextBox => .ok [cueAction (.hide s.cast.dialogueBox)]
  | .wait secs => (Pause.create secs).map fun p => [.pause p]
  | .setSprite side path =>
    (s.assets.loadSprite disk path).map fun loaded => [.setSprite (s.cast.stand side) loaded.1]
  | .startMusic name =>
    (s.assets.resolveAudio disk (musicPath name)).map fun path =>
      [cueAction (.startChannel .music path none .untilTruncated)]
  | .stopMusic => .ok [cueAction (.stopChannel .music)]
  | .startBlips voice =>
    (s.assets.resolveAudio disk (blipPath voice)).map fun path =>
      [cueAction (.startChannel .voiceBlip path (some s.config.blipDelay) .completeOnly)]
  | .stopBlips => .ok [cueAction (.stopChannel .voiceBlip)]
  | .playSound name =>
    (s.assets.resolveAudio disk (soundPath name)).map fun path => [cueAction (.play path)]
  | .run f => .ok [.run (some f)]
  | .push a => .ok [a]

/-- The assets after a line. -/
def stocked (s : Stage R) (disk : Disk) : ScriptLine R → AssetLibrary R
  | .say _ pages => (preloadAll s.config.stage disk s.assets (directives pages)).2
  | .setSprite _ path => (preloadSprite s.assets disk path).2
  | _ => s.assets

/-- A line that is not refused queues its actions; one that is refused queues nothing. -/
theorem write_eq (s : Stage R) (disk : Disk) (line : ScriptLine R) :
    s.write disk line = ((s.actions disk line).map fun _ => (),
      { s with
        assets := s.stocked disk line
        queue := s.queue.pushAll ((s.actions disk line).toOption.getD []) }) := by
  cases line with
  | panTo side =>
    simp only [write, panTo, actions]
    cases Move.create s.cast.background ⟨s.config.cameraX side, 0⟩ s.config.panSeconds cameraEase <;> rfl
  | say speaker pages =>
    simp only [write, say, actions, stocked, directives]
    cases preloadAll s.config.stage disk s.assets (pages.flatMap fun p => p.directives.map Prod.snd) with
    | mk answer loaded =>
      cases answer with
      | error e => rfl
      | ok _ =>
        simp only
        rw [← List.foldl_map, foldl_push]
        rfl
  | wait secs =>
    simp only [write, wait, actions]
    cases Pause.create secs <;> rfl
  | setSprite side path =>
    simp only [write, setSprite, actions, stocked, preloadSprite]
    cases s.assets.loadSprite disk path <;> rfl
  | startMusic name =>
    simp only [write, startMusic, actions]
    cases s.assets.resolveAudio disk (musicPath name) <;> rfl
  | startBlips voice =>
    simp only [write, startBlips, actions]
    cases s.assets.resolveAudio disk (blipPath voice) <;> rfl
  | playSound name =>
    simp only [write, playSound, actions]
    cases s.assets.resolveAudio disk (soundPath name) <;> rfl
  | _ => rfl

/-- A cue of the scripting calls: the text box is shown or hidden, or a sound is logged. -/
inductive HouseCue (box : NodeId) : Cue R → Prop
  | showBox : HouseCue box (.show box)
  | hideBox : HouseCue box (.hide box)
  | play (path) : HouseCue box (.play path)
  | startChannel (channel path delay repetition) :
    HouseCue box (.startChannel channel path delay repetition)
  | stopChannel (channel) : HouseCue box (.stopChannel channel)

/-- The actions that the scripting calls make up by themselves. -/
inductive Scripted (s : Stage R) : Action R → Prop
  | pan {side m}
    (h : Move.create s.cast.background ⟨s.config.cameraX side, 0⟩ s.config.panSeconds cameraEase = .ok m) :
    Scripted s (.move m)
  | cut (side) : Scripted s (.jump (.create s.cast.background ⟨s.config.cameraX side, 0⟩))
  | pause {secs p} (h : Pause.create secs = .ok p) : Scripted s (.pause p)
  | setSprite (side sprite) : Scripted s (.setSprite (s.cast.stand side) sprite)
  | cue {cue} (h : HouseCue s.cast.dialogueBox cue) : Scripted s (.run (some cue.perform))
  | page (page speaker) : Scripted s (.page page speaker)

/-- A line is for actions of the scripting calls, with no pages but its own, or for the action that it is
handed. -/
theorem mem_actions {s : Stage R} {disk : Disk} {line : ScriptLine R}
    {actions : List (Action R)} (h : s.actions disk line = .ok actions) {a : Action R} (ha : a ∈ actions) :
    (s.Scripted a ∧ ∀ p, a.page? = some p → ∃ speaker pages, line = .say speaker pages ∧ p ∈ pages) ∨
      line.own? = some a := by
  have hone : ∀ {b : Action R}, Except.ok [b] = (.ok actions : Except Error _) → a = b := by
    rintro b ⟨⟩
    exact List.mem_singleton.mp ha
  unfold Stage.actions at h
  cases line with
  | panTo side =>
    obtain ⟨m, hm, rfl⟩ := map_eq_ok_iff.mp h
    rw [List.mem_singleton.mp ha]
    exact .inl ⟨.pan hm, nofun⟩
  | cutTo side =>
    rw [hone h]
    exact .inl ⟨.cut side, nofun⟩
  | say speaker pages =>
    obtain ⟨_, -, rfl⟩ := map_eq_ok_iff.mp h
    rcases List.mem_cons.mp ha with rfl | ha
    · exact .inl ⟨.cue .showBox, nofun⟩
    · obtain ⟨p, hp, rfl⟩ := List.mem_map.mp ha
      refine .inl ⟨.page p _, ?_⟩
      rintro _ ⟨⟩
      exact ⟨speaker, pages, rfl, hp⟩
  | showTextBox =>
    rw [hone h]
    exact .inl ⟨.cue .showBox, nofun⟩
  | hideTextBox =>
    rw [hone h]
    exact .inl ⟨.cue .hideBox, nofun⟩
  | wait secs =>
    obtain ⟨p, hp, rfl⟩ := map_eq_ok_iff.mp h
    rw [List.mem_singleton.mp ha]
    exact .inl ⟨.pause hp, nofun⟩
  | setSprite side path =>
    obtain ⟨loaded, -, rfl⟩ := map_eq_ok_iff.mp h
    rw [List.mem_singleton.mp ha]
    exact .inl ⟨.setSprite side _, nofun⟩
  | startMusic name =>
    obtain ⟨path, -, rfl⟩ := map_eq_ok_iff.mp h
    rw [List.mem_singleton.mp ha]
    exact .inl ⟨.cue (.startChannel ..), nofun⟩
  | stopMusic =>
    rw [hone h]
    exact .inl ⟨.cue (.stopChannel _), nofun⟩
  | startBlips voice =>
    obtain ⟨path, -, rfl⟩ := map_eq_ok_iff.mp h
    rw [List.mem_singleton.mp ha]
    exact .inl ⟨.cue (.startChannel ..), nofun⟩
  | stopBlips =>
    rw [hone h]
    exact .inl ⟨.cue (.stopChannel _), nofun⟩
  | playSound name =>
    obtain ⟨path, -, rfl⟩ := map_eq_ok_iff.mp h
    rw [List.mem_singleton.mp ha]
    exact .inl ⟨.cue (.play path), nofun⟩
  | run f =>
    rw [hone h]
    exact .inr rfl
  | push b =>
    rw [hone h]
    exact .inr rfl

/-- A line of the script queues actions, and changes nothing but the assets besides. -/
theorem write_queues (s : Stage R) (disk : Disk) (line : ScriptLine R) :
    s.Queues (s.write disk line).2 fun a => s.Scripted a ∨ line.own? = some a := by
  refine ⟨s.stocked disk line, (s.actions disk line).toOption.getD [], ?_, ?_⟩
  · rw [s.write_eq disk line]
  · intro a ha
    cases hactions : s.actions disk line with
    | error e =>
      rw [hactions] at ha
      exact absurd ha List.not_mem_nil
    | ok actions =>
      rw [hactions] at ha
      exact (mem_actions hactions ha).imp_left And.left

/-- A cue of the scripting calls leaves the typewriter and the finishers alone. -/
theorem HouseCue.aloof {box : NodeId} {cue : Cue R} (h : HouseCue box cue) :
    Callback.Aloof cue.perform := by
  refine Callback.aloof_of_eq fun c => ?_
  cases h <;> exact ⟨rfl, rfl, rfl, rfl⟩

/-- A scripted action has no callback but a cue of the scripting calls. -/
theorem Scripted.callback {s : Stage R} {a : Action R} (h : s.Scripted a) {f : Callback R}
    (hf : f ∈ a.callback?) : ∃ cue, HouseCue s.cast.dialogueBox cue ∧ f = cue.perform := by
  cases h with
  | pan h =>
    rw [Move.create_eq h] at hf
    cases hf
  | pause h =>
    rw [Pause.create_eq h] at hf
    cases hf
  | cue h =>
    cases hf
    exact ⟨_, h, rfl⟩
  | _ => cases hf

theorem Scripted.aloof {s : Stage R} {a : Action R} (h : s.Scripted a) : a.Aloof := by
  intro f hf
  obtain ⟨cue, hcue, rfl⟩ := h.callback hf
  exact hcue.aloof

/-! ## Events -/

/-- An event that is no step queues actions at most, or moves the whole scene; what the stage is made
of besides stays. -/
theorem handle_eq (s : Stage R) {e : StageEvent R} (he : ∀ disk, e ≠ .step disk) :
    ∃ assets actions scene sounds painter,
      s.handle e = { s with assets, queue := s.queue.pushAll actions, scene, sounds, painter } ∧
      (∀ a ∈ actions, s.Scripted a ∨ e.own? = some a) ∧
      (scene = s.scene ∨ ∃ y, scene = s.scene.modify Scene.root (·.setY y)) := by
  have hnone : ∀ a ∈ ([] : List (Action R)), s.Scripted a ∨ e.own? = some a :=
    fun a ha => absurd ha List.not_mem_nil
  cases e with
  | write disk line =>
    obtain ⟨assets, actions, hwrite, hactions⟩ := s.write_queues disk line
    exact ⟨assets, actions, s.scene, s.sounds, s.painter, hwrite, hactions, .inl rfl⟩
  | step disk => exact absurd rfl (he disk)
  | picture => exact ⟨s.assets, [], s.scene, s.sounds, _, rfl, hnone, .inl rfl⟩
  | assets l => exact ⟨l, [], s.scene, s.sounds, s.painter, rfl, hnone, .inl rfl⟩
  | shift y => exact ⟨s.assets, [], _, s.sounds, s.painter, rfl, hnone, .inr ⟨y, rfl⟩⟩
  | closeSounds => exact ⟨s.assets, [], s.scene, _, s.painter, rfl, hnone, .inl rfl⟩

/-- An event that is no step at most queues actions. -/
theorem handle_queues (s : Stage R) {e : StageEvent R} (he : ∀ disk, e ≠ .step disk) :
    ∃ actions, (s.handle e).queue = s.queue.pushAll actions ∧ (s.handle e).dialogue = s.dialogue ∧
      (s.handle e).parked = s.parked ∧ (e.Aloof → ∀ a ∈ actions, a.Aloof) := by
  obtain ⟨assets, actions, scene, sounds, painter, hhandle, hactions, -⟩ := s.handle_eq he
  rw [hhandle]
  refine ⟨actions, rfl, rfl, rfl, fun haloof a ha => ?_⟩
  rcases hactions a ha with hscripted | hown
  · exact hscripted.aloof
  · exact StageEvent.aloof_of_own? haloof hown

end Stage

end Cutscene
