import Cutscene.Proofs.Movie.Runs
import Cutscene.Proofs.Script.Turn
import Cutscene.Proofs.Sound.Channels
import Cutscene.Proofs.Stage.Fleeting

/-!
# The sounds of a run

The clock of a stage is the number of its frame. All that the queue and the directives log in a step is
logged at the time of that frame, and a failed step is taken again at the same time. So the log of a stage
is kept by its clock, as long as the callbacks from outside do not write it. A movie is a run as well, and
so are several of them.

On `AudioLog` and the operations of `Director` that write it (SPEC_FULL.md, §3 and §B.11).

Results:
* `Scored`: the log is kept by the clock of the stage, and so it will be by what is queued.
* `Scored.step`, `Scored.handle`, `Scored.after`: every event of a run leaves it so.
* `sounds_in_order`: the channels of any log, and the times of loops in every run.
-/

namespace Cutscene

open SoundLog (Timed)

variable {R : Type} {clock : Nat → R} {n : Nat}

/-- The frames of a movie come at times that never go back, as exact numbers and rounded ones do. -/
def FrameRate.Forward (R : Type) [Scalar R] (f : FrameRate) : Prop :=
  ∀ m n, m ≤ n → (f.seconds m : R) ≤ f.seconds n

theorem FrameRate.forward_rat (f : FrameRate) : f.Forward Rat := by
  intro m n hmn
  have hcast : ((m : Int) : Rat) ≤ ((n : Int) : Rat) := by exact_mod_cast hmn
  exact mul_le_mul_of_nonneg_right hcast (Stage.frameSeconds_nonneg f)

/-- A callback that does not write the log. -/
def Callback.Silent (f : Callback R) : Prop := ∀ c, (f c).sounds = c.sounds

/-- An event that queues no callback from outside that writes the log. -/
def StageEvent.Silent (e : StageEvent R) : Prop :=
  ∀ a, e.own? = some a → ∀ f ∈ a.callback?, Callback.Silent f

namespace Context

/-- The log has been kept by the clock. -/
def Kept (clock : Nat → R) (n : Nat) (c : Context R) : Prop := Timed clock n c.sounds

/-- The log has been kept by the clock, which is the clock of the context. -/
def OnTime (clock : Nat → R) (n : Nat) (c : Context R) : Prop := c.time = clock n ∧ c.Kept clock n

theorem blind_kept (clock : Nat → R) (n : Nat) : Blind (Kept clock n) := ⟨fun _ _ h => h, fun _ _ _ h => h⟩

theorem blind_onTime (clock : Nat → R) (n : Nat) : Blind (OnTime clock n) :=
  ⟨fun _ _ h => h, fun _ _ _ h => h⟩

end Context

/-- A callback that writes the log at its own time, if at all. -/
def Callback.Punctual (f : Callback R) : Prop :=
  ∀ clock n, f.Leads (Context.OnTime clock n) (Context.Kept clock n)

theorem Callback.Silent.punctual {f : Callback R} (h : f.Silent) : f.Punctual := by
  intro clock n c hc
  unfold Context.Kept
  rw [h c]
  exact hc.2

variable [Scalar R]

theorem Stage.HouseCue.punctual {box : NodeId} {cue : Cue R} (h : Stage.HouseCue box cue) :
    Callback.Punctual cue.perform := by
  rintro clock n c ⟨htime, hkept⟩
  cases h with
  | showBox => exact hkept
  | hideBox => exact hkept
  | play path => exact hkept.event (.play path c.time) trivial
  | startChannel channel path delay repetition =>
    exact hkept.event (.start channel path c.time delay repetition) htime
  | stopChannel channel => exact hkept.event (.stop channel c.time) htime

/-- The start of an action is nothing to the log. -/
theorem Action.start_onTime (a : Action R) (clock : Nat → R) (n : Nat) :
    Callback.Leads (Context.OnTime clock n) (Context.OnTime clock n) a.start := by
  intro c hc
  cases a with
  | page p speaker =>
    unfold start Context.takeFinisher
    cases c.finisher <;> exact hc
  | _ => exact hc

namespace Stage

variable {s t : Stage R} {disk : Disk}

/-- The log is kept by the clock of the stage, and so it will be by what is queued. -/
structure Scored (s : Stage R) : Prop where
  timed : Timed s.config.rate.seconds s.frame s.sounds
  queued : ∀ q ∈ s.queue.items, ∀ f ∈ q.action.callback?, Callback.Punctual f

/-! ## Directives -/

omit [Scalar R] in
theorem timed_withSound (h : Timed clock n s.sounds) (path : Except Error String)
    {write : String → SoundLog R → SoundLog R} (hwrite : ∀ path, Timed clock n (write path s.sounds)) :
    Timed clock n (s.withSound path write).2.sounds := by
  unfold withSound
  cases path with
  | error e => exact h
  | ok path => exact hwrite path

theorem timed_withSprite (h : Timed clock n s.sounds) (path : String)
    {next : Sprite R → Stage R → Except Error Unit × Stage R}
    (hnext : ∀ sprite assets, Timed clock n (next sprite { s with assets }).2.sounds) :
    Timed clock n (s.withSprite disk path next).2.sounds := by
  unfold withSprite
  cases s.assets.loadSprite disk path with
  | error e => exact h
  | ok loaded => exact hnext loaded.1 loaded.2

/-- A directive writes the log at the time of the stage. -/
theorem timed_apply (htime : s.time = clock n) (h : Timed clock n s.sounds) (d : Directive R) :
    Timed clock n (s.apply disk d).2.sounds := by
  cases d with
  | sprite side path => exact timed_withSprite h _ fun _ _ => h
  | playSound name => exact timed_withSound h _ fun path => h.event (.play path s.time) trivial
  | startBlip voice =>
    exact timed_withSound h _ fun path =>
      h.event (.start .voiceBlip path s.time (some s.config.blipDelay) .completeOnly) htime
  | stopBlip => exact h.event (.stop .voiceBlip s.time) htime
  | musicStart name =>
    exact timed_withSound h _ fun path => h.event (.start .music path s.time none .untilTruncated) htime
  | musicStop => exact h.event (.stop .music s.time) htime
  | exclamation kind speaker =>
    simp only [apply]
    refine timed_withSprite h _ fun sprite assets => ?_
    have hshown : Timed clock n (showBubble { s with assets } sprite).sounds := h
    exact timed_withSound hshown _ fun path => hshown.event (.play path s.time) trivial
  | deskSlam side =>
    simp only [apply]
    refine timed_withSprite h _ fun sprite assets => ?_
    exact h.event (.play slamSound (s.time + slamSoundDelay)) trivial
  | _ => exact h

/-! ## Steps -/

/-- The turn of the queue writes the log at the time of the frame. -/
theorem Scored.cued (h : s.Scored) : Timed s.config.rate.seconds s.frame s.cued.sounds := by
  have hitems : ∀ q ∈ s.queue.settle.items, ∀ f ∈ q.action.callback?, Callback.Punctual f :=
    fun q hq => h.queued q (ActionQueue.mem_of_mem_settle hq)
  have hstart : s.cueing.OnTime s.config.rate.seconds s.frame := ⟨rfl, h.timed⟩
  exact ActionQueue.update_leads (Context.blind_onTime _ _) (Context.blind_kept _ _) (fun _ hc => hc.2)
    (fun q _ => q.action.start_onTime _ _) (fun q hq f hf => hitems q hq f hf _ _)
    s.config.rate.frameSeconds hstart

/-- So do the directives. -/
theorem Scored.applied (h : s.Scored) (disk : Disk) :
    Timed s.config.rate.seconds s.frame (s.applied disk).sounds := by
  have hplayed : s.played.2.time = s.config.rate.seconds s.frame ∧
      Timed s.config.rate.seconds s.frame s.played.2.sounds := by
    obtain ⟨dialogue, signals, notes, hs⟩ := s.played_eq
    rw [hs]
    exact ⟨rfl, h.cued⟩
  unfold Stage.applied
  refine (applyAll_induction (P := fun t => t.time = s.config.rate.seconds s.frame ∧
    Timed s.config.rate.seconds s.frame t.sounds) hplayed fun t ht d _ => ?_).2
  exact ⟨(t.undisturbed_apply disk d).time.trans ht.1, timed_apply ht.1 ht.2 d⟩

/-- The clock ticks at the end of a step that goes well. -/
theorem Scored.step (h : s.Scored) (disk : Disk) : (s.step disk).2.Scored where
  timed := by
    rw [s.step_config disk, s.step_frame disk, s.step_snd disk]
    split_ifs
    · exact (h.applied disk).tick
    · exact h.applied disk
  queued := forall_step (P := fun a => ∀ f ∈ a.callback?, Callback.Punctual f)
    (fun a dt c ha f hf => ha f (a.callback?_update dt c f hf)) h.queued disk

/-! ## Runs -/

theorem scored_create {config : Config R} (h : create disk config = .ok s) : s.Scored := by
  obtain ⟨_, -, h⟩ := bind_eq_ok_iff.mp h
  obtain ⟨⟨cast, textBox, hand⟩, -, h⟩ := bind_eq_ok_iff.mp h
  obtain ⟨i, -, h⟩ := bind_eq_ok_iff.mp h
  obtain ⟨painter, -, h⟩ := bind_eq_ok_iff.mp h
  cases h
  exact ⟨.start, fun q hq => absurd hq List.not_mem_nil⟩

/-- Every event leaves the log to the clock. -/
theorem Scored.handle (h : s.Scored) {e : StageEvent R} (he : e.Silent) : (s.handle e).Scored := by
  cases e with
  | write disk line =>
    obtain ⟨assets, actions, hwrite, hactions⟩ := s.write_queues disk line
    change (s.write disk line).2.Scored
    rw [hwrite]
    refine ⟨h.timed, fun q hq f hf => ?_⟩
    rcases ActionQueue.mem_pushAll hq with hq | hq
    · exact h.queued q hq f hf
    · rcases hactions _ hq with hscripted | hown
      · obtain ⟨cue, hcue, rfl⟩ := hscripted.callback hf
        exact hcue.punctual
      · exact (he _ hown f hf).punctual
  | step disk => exact h.step disk
  | picture => exact ⟨h.timed, h.queued⟩
  | assets l => exact ⟨h.timed, h.queued⟩
  | shift y => exact ⟨h.timed, h.queued⟩
  | closeSounds => exact ⟨h.timed.event (.closeAll _) rfl, h.queued⟩

theorem Scored.after (h : s.Scored) {es : List (StageEvent R)} (hes : ∀ e ∈ es, e.Silent) :
    (s.after es).Scored :=
  after_induction h fun _ ht e he => ht.handle (hes e he)

theorem Scored.runsTo (h : s.Scored) (ht : s.RunsTo t) : t.Scored := by
  obtain ⟨es, hes, rfl⟩ := ht
  refine h.after fun e he a ha => ?_
  rw [hes e he] at ha
  cases ha

/-! ## The sounds of a run -/

/-- A loop that has an end starts before it, or at the same time, and ends by the time of the last frame. -/
theorem Scored.stop_spec (h : s.Scored) (hclock : s.config.rate.Forward R) {e : SoundEntry R}
    (he : e ∈ s.sounds.entries) (hloop : e.repetition.isSome) {stop : R} (hstop : e.stop = some stop) :
    e.offset ≤ stop ∧ stop ≤ s.config.rate.seconds s.frame := by
  obtain ⟨m, -, hoffset, hends⟩ := h.timed.within e he hloop
  obtain ⟨k, hmk, hk, rfl⟩ := hends stop hstop
  rw [hoffset]
  exact ⟨hclock m k hmk, hclock k s.frame hk⟩

/-- What holds of the sounds of a stage. Loops are the entries that are opened on channels. -/
structure SoundsInOrder (t : Stage R) : Prop where
  /-- The log is one that has come about by events. -/
  log : ∃ story, t.sounds = SoundLog.log story
  /-- A loop that has an end does not end before it starts. -/
  order : ∀ e ∈ t.sounds.entries, e.repetition.isSome → ∀ stop, e.stop = some stop → e.offset ≤ stop
  /-- After a movie that goes well all loops have an end, no later than the end of the movie. -/
  movie : ∀ {σ : Type} [Sink σ] (recording : Recording σ) (y : Int32) (stats : MovieStats R)
    (last : Production R σ), renderMovie ⟨t, recording⟩ y = (.ok stats, last) →
    ∀ e ∈ last.stage.sounds.entries, e.repetition.isSome → ∃ stop, e.stop = some stop ∧
      e.offset ≤ stop ∧ stop ≤ last.stage.config.rate.seconds last.stage.frame

theorem Scored.soundsInOrder (h : s.Scored) (hclock : s.config.rate.Forward R) : s.SoundsInOrder where
  log := h.timed.exists_log
  order e he hloop stop hstop := (h.stop_spec hclock he hloop hstop).1
  movie recording y stats last hmovie e he hloop := by
    obtain ⟨t, hrun, hlast⟩ := exists_closeSounds hmovie
    have ht : t.Scored := h.runsTo hrun
    have hclosed : last.stage.Scored := by
      rw [hlast]
      exact ht.handle (e := .closeSounds) nofun
    have hconfig : last.stage.config = s.config := by
      obtain ⟨es, -, rfl⟩ := hrun
      rw [hlast]
      exact after_config _ es
    have hend : e.stop.isSome := by
      obtain ⟨story, hstory⟩ := ht.timed.exists_log
      rw [hlast, closeSounds, hstory] at he
      exact SoundLog.isSome_stop_of_closeAll story _ e he hloop
    obtain ⟨stop, hstop⟩ := Option.isSome_iff_exists.mp hend
    exact ⟨stop, hstop, hclosed.stop_spec (hconfig ▸ hclock) he hloop hstop⟩

/-- **Sounds in order.** In every log, entries stay where they are and get an end at most, once and only if
they were opened on a channel; and a channel has one entry without an end if it is open, and none if it is
not. In every run whose callbacks do not write the log, no loop ends before it starts, and a movie that goes
well leaves no loop open. -/
theorem sounds_in_order {disk : Disk} {config : Config R} (hclock : config.rate.Forward R)
    (h : create disk config = .ok s) {es : List (StageEvent R)} (hes : ∀ e ∈ es, e.Silent) :
    (∀ story : List (SoundEvent R), SoundLog.ChannelLaw story) ∧ (s.after es).SoundsInOrder := by
  refine ⟨SoundLog.channelLaw, ((scored_create h).after hes).soundsInOrder ?_⟩
  rw [s.after_config es, (create_spec h).1]
  exact hclock

/-- A disk with one picture and two tracks. -/
def tuneDisk : Disk :=
  ⟨[(["assets"], .directory), (["assets", "a.png"], .file (.still 1 1 ⟨#[1, 2, 3, 255]⟩)),
    (["assets", "music"], .directory), (["assets", "music", "a.mp3"], .file (.raw "")),
    (["assets", "music", "b.mp3"], .file (.raw ""))]⟩

/-- One track and then another. -/
def tuneRun : List (StageEvent Rat) :=
  [.write tuneDisk (.startMusic "a"), .write tuneDisk (.startMusic "b"), .step tuneDisk, .step tuneDisk]

/-- The first track ends where the second begins. The second is open until a movie that goes well. -/
theorem sounds_in_order_tuneRun : ∃ s, create tuneDisk pixelConfig = .ok s ∧
    (∀ e ∈ tuneRun, e.Silent) ∧
    (s.after tuneRun).sounds.entries.map (fun e : SoundEntry Rat => (e.path, e.offset, e.stop)) =
      [("music/a.mp3", 0, some (1 / 2)), ("music/b.mp3", 1 / 2, none)] ∧
    ∃ stats last, renderMovie ⟨s.after tuneRun, ⟨MemorySink.empty, tuneDisk⟩⟩ 0 = (.ok stats, last) ∧
      ∀ e ∈ last.stage.sounds.entries, e.repetition.isSome → ∃ stop, e.stop = some stop ∧
        e.offset ≤ stop ∧ stop ≤ last.stage.config.rate.seconds last.stage.frame := by
  have hsilent : ∀ e ∈ tuneRun, e.Silent := by
    simp only [tuneRun, List.forall_mem_cons]
    exact ⟨nofun, nofun, nofun, nofun, nofun⟩
  obtain ⟨s, hs, hsounds, hcanvas, hplays, hsettled⟩ := exists_create tuneDisk pixelConfig
    (fun s => (s.after tuneRun).sounds.entries.map
        (fun e : SoundEntry Rat => (e.path, e.offset, e.stop)) =
      [("music/a.mp3", 0, some (1 / 2)), ("music/b.mp3", 1 / 2, none)] ∧
      (s.after tuneRun).painter.canvas = pixelConfig.canvas ∧
      ((s.after tuneRun).shifted 0).Plays tuneDisk 1 ∧
      (((s.after tuneRun).shifted 0).step tuneDisk).2.isSettled) (by decide +kernel)
  have hconfig : (s.after tuneRun).config = pixelConfig := (s.after_config tuneRun).trans (create_spec hs).1
  have hvalid : (s.after tuneRun).config.canvas.validate = .ok () := by
    rw [hconfig]
    rfl
  have hroom : (s.after tuneRun).config.maxFrames.toNat ≠ 0 := by
    rw [hconfig]
    decide
  obtain ⟨stats, last, hmovie⟩ :=
    exists_renderMovie (s := s.after tuneRun) (hconfig ▸ hcanvas) hvalid hroom hplays hsettled
  have horder := (sounds_in_order (FrameRate.forward_rat _) hs hsilent).2
  exact ⟨s, hs, hsilent, hsounds, stats, last, hmovie, horder.movie _ 0 stats last hmovie⟩

end Stage

end Cutscene
