import Cutscene.Proofs.Movie.Recorded
import Cutscene.Proofs.Stage.Agenda
import Cutscene.Proofs.Stage.Pages

/-!
# The number of frames of a movie

The frames of a movie are those of its actions, one after another. An action takes as many of them as
it takes steps on a stage that has just been made and has nothing else to do: nothing that an action
leaves behind makes a later one longer or shorter.

On `Director.run_frames` and `step` (SPEC_FULL.md, §B.11).

Results:
* `Steady.recorded`: what the actions in the queue have ahead of them after a number of frames.
* `Steady.mem_ids_iff`, `Steady.isSettled_recorded_iff`: which actions these are, and when none is left.
* `due_foldl_push`: each action of a script takes the steps that it takes alone.
* `frames_add_up`: the number of frames is the sum of the numbers of the actions.
-/

namespace Cutscene.Stage

variable {R σ : Type} [Scalar R] [Sink σ] {p q last : Production R σ}

/-- What the actions in the queue have ahead of them after a number of frames. -/
theorem Steady.recorded (h : p.stage.Steady) {costs : List Nat} (hdue : p.stage.Due costs) {k : Nat}
    (hq : recorded p k = .ok q) :
    q.stage.Steady ∧ q.stage.Due (ahead costs k) ∧ q.stage.config = p.stage.config ∧
      q.stage.queue.nextId = p.stage.queue.nextId := by
  induction k generalizing q with
  | zero =>
    cases hq
    rw [ahead_zero hdue.pos]
    exact ⟨h, hdue, rfl, rfl⟩
  | succ k ih =>
    obtain ⟨q', hq', hframe⟩ := recorded_succ_eq_ok_iff.mp hq
    obtain ⟨hsteady, hdue', hconfig, hnext⟩ := ih hq'
    obtain ⟨t, painter, _, hok, hstage, -⟩ := recordFrame_eq_ok hframe
    obtain ⟨ht, htconfig, -⟩ := hsteady.step hok
    have hspent := hsteady.due_step hok hdue'
    rw [spend_ahead hdue.pos] at hspent
    have hstepNext := q'.stage.step_nextId q'.recording.disk
    rw [hok] at hstepNext
    rw [hstage]
    exact ⟨ht.congr rfl rfl rfl, hspent, htconfig.trans hconfig, hstepNext.trans hnext⟩

/-! ## Scripts -/

/-- A stage that has just been made is steady, and stays so when actions are queued. -/
theorem steady_foldl_push {disk : Disk} {config : Config R} {s : Stage R}
    (h : create disk config = .ok s) {actions : List (Action R)} (ha : ∀ a ∈ actions, a.Aloof) :
    (actions.foldl push s).Steady := by
  obtain ⟨hlinked, hin⟩ := linked_create h
  rw [foldl_push]
  refine ⟨hlinked.pushAll ha rfl rfl rfl, hin.pushAll hlinked.ordered rfl rfl, fun _ => ?_⟩
  exact (create_spec h).2.2.2.2

/-- Each of the queued actions takes the steps that it takes alone. -/
theorem due_foldl_push {disk : Disk} {config : Config R} {s : Stage R}
    (h : create disk config = .ok s) {actions : List (Action R)} (ha : ∀ a ∈ actions, a.Aloof)
    {costs : List Nat}
    (hcosts : List.Forall₂ (fun a c => (s.push a).settlesIn disk c) actions costs) :
    (actions.foldl push s).Due costs := by
  have hqueue : s.queue = .empty := (create_spec h).2.1
  have hitems : s.queue.items = [] := by rw [hqueue]; rfl
  have hstarted : s.queue.started = none := by rw [hqueue]; rfl
  have halone : List.Forall₂ (fun a c => (⟨a.unplaced, false, s.dialogue.reset.bare⟩ :
      Outlook R).Takes s.config.rate.frameSeconds c) actions costs := by
    refine ((List.forall₂_and_left actions costs).mpr ⟨ha, hcosts⟩).imp ?_
    rintro a c ⟨haloof, hsettles⟩
    have hone : (s.push a).Steady := by
      have hmem : ∀ b ∈ [a], b.Aloof := fun b hb => List.mem_singleton.mp hb ▸ haloof
      exact steady_foldl_push h hmem
    have hhead : (s.push a).queue.items = [⟨s.queue.nextId, a⟩] := by
      simp [push, ActionQueue.push, hitems]
    have hfresh : (s.push a).queue.started = none := hstarted
    have htakes := hone.takes_of_settlesIn hsettles hhead
    rw [outlook_of_started_eq_none hfresh] at htakes
    exact htakes
  have hactions : (s.queue.pushAll actions).items.map Queued.action = actions := by
    rw [ActionQueue.pushAll_actions, hitems]
    rfl
  rw [← hactions, List.forall₂_map_left_iff] at halone
  rw [foldl_push]
  refine halone.imp fun q c htakes => ?_
  rw [outlook_of_started_eq_none ((ActionQueue.pushAll_started _ _).trans hstarted)]
  exact htakes

/-- The actions are numbered from zero. -/
theorem nextId_foldl_push {disk : Disk} {config : Config R} {s : Stage R}
    (h : create disk config = .ok s) (actions : List (Action R)) :
    (actions.foldl push s).queue.nextId = actions.length := by
  rw [foldl_push]
  refine (ActionQueue.pushAll_nextId _ _).trans ?_
  rw [(create_spec h).2.1]
  exact Nat.zero_add _

/-- Which actions are in the queue after a number of frames. -/
theorem Steady.mem_ids_iff (h : p.stage.Steady) {costs : List Nat} (hdue : p.stage.Due costs)
    (hnext : p.stage.queue.nextId = costs.length) {k : Nat} (hq : Stage.recorded p k = .ok q) {i : Nat}
    (hi : i < costs.length) : i ∈ q.stage.queue.ids ↔ k < (costs.take (i + 1)).sum := by
  obtain ⟨hsteady, hleft, -, hnext'⟩ := h.recorded hdue hq
  have hlength : q.stage.queue.items.length = (ahead costs k).length := hleft.length_eq
  have hids := hsteady.linked.ordered.ids_eq
  have hle := hsteady.linked.ordered.completed_le
  have hcount : q.stage.queue.ids.length = q.stage.queue.items.length := List.length_map _
  rw [hids, List.length_range'] at hcount
  rw [← length_le_add_ahead_iff hi k, hids, List.mem_range'_1]
  rw [hnext', hnext] at hle hcount ⊢
  lia

/-- When the stage is settled: once the frames of all actions have been recorded. -/
theorem Steady.isSettled_recorded_iff (h : p.stage.Steady) {costs : List Nat}
    (hdue : p.stage.Due costs) {k : Nat} (hk : 0 < k) (hq : Stage.recorded p k = .ok q) :
    q.stage.isSettled ↔ max 1 costs.sum ≤ k := by
  obtain ⟨hsteady, hleft, -⟩ := h.recorded hdue hq
  have hnil : q.stage.queue.items = [] ↔ ahead costs k = [] := by
    rw [← List.length_eq_zero_iff, hleft.length_eq, List.length_eq_zero_iff]
  rw [hsteady.isSettled_iff, hnil, ahead_eq_nil_iff]
  omega

/-- **Frame counts add up.** A movie has as many frames as its actions take one by one, and at least
one; when it may have that many, the movie goes well. Otherwise it ends with an error after as many
frames as it may have. An action is in the queue until the frames of those before it and its own have
been recorded. -/
theorem frames_add_up {disk : Disk} {config : Config R} {s : Stage R}
    (h : create disk config = .ok s) {actions : List (Action R)} (ha : ∀ a ∈ actions, a.Aloof)
    {costs : List Nat} (hcosts : List.Forall₂ (fun a c => (s.push a).settlesIn disk c) actions costs)
    {recording opened : Recording σ} {shiftY : Int32}
    (hstart : Sink.start s.sinkConfig recording = (.ok (), opened))
    (hlast : recorded ⟨(actions.foldl push s).shifted shiftY, opened⟩
      (min (max 1 costs.sum) config.maxFrames.toNat) = .ok last)
    (hfinish : (Sink.finish last.recording).1 = .ok ()) :
    (renderMovie ⟨actions.foldl push s, recording⟩ shiftY).1 =
        (if max 1 costs.sum ≤ config.maxFrames.toNat then
          .ok ⟨max 1 costs.sum, config.rate.seconds (max 1 costs.sum)⟩
        else .error (.scriptTooLong config.maxFrames.toNat last.stage.queued)) ∧
      (∀ e, (renderMovie ⟨actions.foldl push s, recording⟩ shiftY).1 = .error e →
        e.kind = .evaluation) ∧
      (renderMovie ⟨actions.foldl push s, recording⟩ shiftY).2.recording =
        (Sink.finish last.recording).2 ∧
      (∃ frames, opened.Took frames last.recording ∧
        frames.length = min (max 1 costs.sum) config.maxFrames.toNat) ∧
      ∀ k ≤ min (max 1 costs.sum) config.maxFrames.toNat, ∃ q,
        recorded ⟨(actions.foldl push s).shifted shiftY, opened⟩ k = .ok q ∧
        ∀ i < actions.length, i ∈ q.stage.queue.ids ↔ k < (costs.take (i + 1)).sum := by
  have hsteady : ((actions.foldl push s).shifted shiftY).Steady :=
    (steady_foldl_push h ha).congr rfl rfl rfl
  have hdue : ((actions.foldl push s).shifted shiftY).Due costs := due_foldl_push h ha hcosts
  have hnext : ((actions.foldl push s).shifted shiftY).queue.nextId = costs.length :=
    (nextId_foldl_push h actions).trans hcosts.length_eq
  have hconfig : (actions.foldl push s).config = config := by
    rw [foldl_push]
    exact (create_spec h).1
  have hopen : Sink.start (actions.foldl push s).sinkConfig recording = (.ok (), opened) := by
    rw [foldl_push]
    exact hstart
  have hkept : last.stage.config = config :=
    (hsteady.recorded (p := ⟨_, opened⟩) hdue hlast).2.2.1.trans hconfig
  have hloop := recordFrames_eq (p := ⟨_, opened⟩) (q := ⟨_, opened⟩) (k := 0)
    (fun k q hk hq => hsteady.isSettled_recorded_iff hdue hk hq) (by omega) rfl
    (by rw [Nat.zero_add]; exact hlast)
  rw [Nat.zero_add, hkept] at hloop
  obtain ⟨hmovie, hrecording⟩ := renderMovie_eq (p := ⟨actions.foldl push s, recording⟩) hopen
    (by rw [hconfig]; exact hloop) hfinish
  rw [hkept] at hmovie
  refine ⟨?_, fun e he => ?_, hrecording, took_of_recorded hlast, fun k hk => ?_⟩
  · rw [hmovie]
    split_ifs <;> rfl
  · rw [hmovie] at he
    split_ifs at he
    · cases he
    · cases he
      rfl
  · obtain ⟨q, hq⟩ := recorded_of_le hk hlast
    refine ⟨q, hq, fun i hi => ?_⟩
    rw [hcosts.length_eq] at hi
    exact hsteady.mem_ids_iff hdue hnext hq hi

/-- A jump, a page and a pause. -/
def pixelScript : List (Action Rat) :=
  [.jump (.create 1 ⟨3, 4⟩), .page pixelPage none, .pause ⟨1 / 2, 0, none, false⟩]

/-- One, three and two frames are six. -/
theorem frames_add_up_pixelScript : ∃ s last, create pixelDisk pixelConfig = .ok s ∧
    (∀ a ∈ pixelScript, a.Aloof) ∧
    List.Forall₂ (fun a c => (s.push a).settlesIn pixelDisk c) pixelScript [1, 3, 2] ∧
    recorded ⟨(pixelScript.foldl push s).shifted 0,
      (MemorySink.start s.sinkConfig ⟨.empty, pixelDisk⟩).2⟩ 6 = .ok last ∧
    (renderMovie ⟨pixelScript.foldl push s, ⟨MemorySink.empty, pixelDisk⟩⟩ 0).1 = .ok ⟨6, 3⟩ := by
  have haloof : ∀ a ∈ pixelScript, a.Aloof := by
    unfold pixelScript
    rintro a (_ | ⟨_, _ | ⟨_, _ | ⟨_, ⟨⟩⟩⟩⟩) <;> exact fun f hf => nomatch hf
  obtain ⟨s, hs, ⟨hjump, hpage, hpause⟩, hcanvas, hplays⟩ := exists_create pixelDisk pixelConfig
    (fun s => ((s.push pixelScript[0]).settlesIn pixelDisk 1 ∧
        (s.push pixelScript[1]).settlesIn pixelDisk 3 ∧
        (s.push pixelScript[2]).settlesIn pixelDisk 2) ∧
      s.painter.canvas = s.config.canvas ∧
      ((pixelScript.foldl push s).shifted 0).Plays pixelDisk 6) (by decide +kernel)
  have hcosts : List.Forall₂ (fun a c => (s.push a).settlesIn pixelDisk c) pixelScript [1, 3, 2] :=
    .cons hjump (.cons hpage (.cons hpause .nil))
  have hconfig : s.config = pixelConfig := (create_spec hs).1
  let p : Production Rat MemorySink :=
    ⟨(pixelScript.foldl push s).shifted 0, (MemorySink.start s.sinkConfig ⟨.empty, pixelDisk⟩).2⟩
  have hfilmed : Filmed pixelDisk p.stage p := by
    unfold p
    rw [foldl_push]
    exact ⟨⟨s.painter, hcanvas, rfl⟩, rfl, rfl⟩
  have hvalid : p.stage.config.canvas.validate = .ok () := by
    unfold p
    rw [foldl_push]
    change s.config.canvas.validate = .ok ()
    rw [hconfig]
    rfl
  obtain ⟨last, hlast⟩ : ∃ q, recorded p 6 = .ok q := hfilmed.exists_recorded hvalid hplays
  have htotal : min (max 1 [1, 3, 2].sum) pixelConfig.maxFrames.toNat = 6 := by decide
  have hopen : Sink.start s.sinkConfig ⟨MemorySink.empty, pixelDisk⟩ = (.ok (), p.recording) := rfl
  obtain ⟨hmovie, -⟩ := frames_add_up hs haloof hcosts hopen (by rw [htotal]; exact hlast) rfl
  have hfits : max 1 [1, 3, 2].sum ≤ pixelConfig.maxFrames.toNat := by decide
  have hseconds : pixelConfig.rate.seconds (max 1 [1, 3, 2].sum) = (3 : Rat) := by decide +kernel
  rw [if_pos hfits, hseconds] at hmovie
  exact ⟨s, last, hs, haloof, hcosts, hlast, hmovie⟩

end Cutscene.Stage
