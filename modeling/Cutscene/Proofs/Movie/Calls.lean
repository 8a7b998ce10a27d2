import Mathlib.Data.List.Basic
import Cutscene.Proofs.Movie.Recorded

/-!
# The calls on a sink

What a movie asks of its sink is seen by a sink that writes down every call, with the answer that the
sink behind it gives. Such a sink makes no difference to the movie, whatever the sink behind it answers.

On `Director.render_movie` and `run_frames` before any `FrameSink` (SPEC_FULL.md, §B.11 and §B.12).

Results:
* `renderMovie_behind`: writing the calls down makes no difference.
* `recordFrames_ends`: the recording loop, as frames that are good and a way to end after them.
* `sink_protocol`: the calls of a movie, for every sink, every stage and every script.
-/

namespace Cutscene

/-- A call on a sink, with its answer. -/
inductive SinkCall where
  | start (config : SinkConfig) (answer : Except Error Unit)
  | push (index : FrameIndex) (frame : Frame) (answer : Except Error Unit)
  | finish (answer : Except Error Unit)

/-- The number under which a frame is pushed. -/
def SinkCall.index? : SinkCall → Option FrameIndex
  | push i _ _ => some i
  | _ => none

/-- A sink that writes down every call on the sink behind it. -/
structure Watched (σ : Type) where
  sink : σ
  calls : List SinkCall

namespace Recording

variable {σ : Type}

/-- The recording of the sink behind. -/
def behind (r : Recording (Watched σ)) : Recording σ := ⟨r.sink.sink, r.disk⟩

/-- A call that the sink behind has answered. -/
def noted (r : Recording (Watched σ)) (call : Except Error Unit → SinkCall) (o : Outcome σ) :
    Outcome (Watched σ) :=
  (o.1, ⟨⟨o.2.sink, r.sink.calls ++ [call o.1]⟩, o.2.disk⟩)

end Recording

instance {σ : Type} [Sink σ] : Sink (Watched σ) where
  start c r := r.noted (.start c) (Sink.start c r.behind)
  push i f r := r.noted (.push i f) (Sink.push i f r.behind)
  finish r := r.noted .finish (Sink.finish r.behind)

namespace Stage

variable {R σ : Type} [Scalar R] [Sink σ]

/-! ## A sink that is watched -/

/-- The production with the sink behind. -/
def Production.behind (p : Production R (Watched σ)) : Production R σ := ⟨p.stage, p.recording.behind⟩

theorem recordFrame_behind (p : Production R (Watched σ)) (i : Nat) :
    recordFrame p.behind i = ((recordFrame p i).1, (recordFrame p i).2.behind) := by
  have hdisk : p.behind.recording.disk = p.recording.disk := rfl
  have hstage : p.behind.stage = p.stage := rfl
  unfold recordFrame
  rw [hdisk, hstage]
  cases p.stage.step p.recording.disk with
  | mk r t =>
    cases r with
    | error e => rfl
    | ok _ =>
      simp only
      cases t.renderFrame with
      | mk r u => cases r <;> rfl

theorem recordFrames_behind (left taken : Nat) (p : Production R (Watched σ)) :
    recordFrames left taken p.behind =
      ((recordFrames left taken p).1, (recordFrames left taken p).2.behind) := by
  induction left generalizing taken p with
  | zero => rfl
  | succ left ih =>
    unfold recordFrames
    rw [recordFrame_behind]
    cases recordFrame p taken with
    | mk r q =>
      cases r with
      | error e => rfl
      | ok _ =>
        have hstage : q.behind.stage = q.stage := rfl
        simp only [hstage]
        split_ifs
        · rfl
        · exact ih (taken + 1) q

/-- Writing down the calls makes no difference to a movie. -/
theorem renderMovie_behind (p : Production R (Watched σ)) (y : Int32) :
    renderMovie p.behind y = ((renderMovie p y).1, (renderMovie p y).2.behind) := by
  have hstart : ∀ c, Sink.start c p.behind.recording =
      ((Sink.start c p.recording).1, (Sink.start c p.recording).2.behind) := fun _ => rfl
  have hfinish : ∀ q : Production R (Watched σ),
      Sink.finish q.behind.recording = ((Sink.finish q.recording).1, (Sink.finish q.recording).2.behind) :=
    fun _ => rfl
  have hstage : p.behind.stage = p.stage := rfl
  unfold renderMovie
  rw [hstage]
  generalize p.stage.modifyNode Scene.root (·.setY y) = stage
  simp only [hstart]
  cases Sink.start stage.sinkConfig p.recording with
  | mk r opened =>
    cases r with
    | error e => rfl
    | ok _ =>
      have hopened : (⟨stage, opened.behind⟩ : Production R σ) =
          Production.behind ⟨stage, opened⟩ := rfl
      simp only [hopened, recordFrames_behind]
      cases recordFrames stage.config.maxFrames.toNat 0 ⟨stage, opened⟩ with
      | mk r q =>
        cases r with
        | error e => rfl
        | ok frames =>
          simp only [hfinish]
          cases Sink.finish q.recording with
          | mk r closed => cases r <;> rfl

/-! ## Frames that are good, and what comes after them -/

/-- Frames that are recorded without fail. Each is a step of the stage, the picture of it, and a push of
the picture under the next number; each but the first is recorded since the stage is not settled. -/
inductive Films (p : Production R σ) : List Frame → Production R σ → Prop
  | start : Films p [] p
  | frame {frames q t frame u r} (h : Films p frames q)
      (hgoing : frames ≠ [] → q.stage.isSettled = false)
      (hstep : q.stage.step q.recording.disk = (.ok (), t)) (hpicture : t.renderFrame = (.ok frame, u))
      (hpush : Sink.push frames.length.toUInt64 frame q.recording = (.ok (), r)) :
      Films p (frames ++ [frame]) ⟨u, r⟩

/-- What comes after the frames that are good: the outcome, the production that is left behind, and the
push that was refused. Of a step, its picture and its push the first that fails is the last. -/
inductive Ends (max : Nat) (frames : List Frame) (q : Production R σ) :
    Except Error Unit → Production R σ → List SinkCall → Prop
  /-- The stage is settled. -/
  | settled (hframes : frames ≠ []) (hcount : frames.length ≤ max) (h : q.stage.isSettled) :
      Ends max frames q (.ok ()) q []
  /-- There may be no more frames. -/
  | tooLong (hfull : frames.length = max) (hgoing : frames ≠ [] → q.stage.isSettled = false) :
      Ends max frames q (.error (.scriptTooLong max q.stage.queued)) q []
  | step {e t} (hroom : frames.length < max) (hgoing : frames ≠ [] → q.stage.isSettled = false)
      (hstep : q.stage.step q.recording.disk = (.error e, t)) :
      Ends max frames q (.error e) { q with stage := t } []
  | picture {t e u} (hroom : frames.length < max) (hgoing : frames ≠ [] → q.stage.isSettled = false)
      (hstep : q.stage.step q.recording.disk = (.ok (), t)) (hpicture : t.renderFrame = (.error e, u)) :
      Ends max frames q (.error e) { q with stage := u } []
  | push {t frame u e r} (hroom : frames.length < max)
      (hgoing : frames ≠ [] → q.stage.isSettled = false)
      (hstep : q.stage.step q.recording.disk = (.ok (), t)) (hpicture : t.renderFrame = (.ok frame, u))
      (hpush : Sink.push frames.length.toUInt64 frame q.recording = (.error e, r)) :
      Ends max frames q (.error e) ⟨u, r⟩ [.push frames.length.toUInt64 frame (.error e)]

variable {p q last after : Production R σ} {frames : List Frame}

theorem renderFrame_config (s : Stage R) : s.renderFrame.2.config = s.config := rfl

/-- The recording loop records good frames, and ends after them in one of the ways there are. -/
theorem recordFrames_ends {max : Nat} {left : Nat} (hq : Films p frames q)
    (hgoing : frames ≠ [] → q.stage.isSettled = false)
    (hconfig : q.stage.config.maxFrames.toNat = max) (hleft : frames.length + left = max) :
    ∃ good last outcome after refused, Films p good last ∧ Ends max good last outcome after refused ∧
      recordFrames left frames.length q = (outcome.map fun _ => good.length, after) := by
  induction left generalizing q frames with
  | zero => exact ⟨frames, q, _, q, [], hq, .tooLong hleft hgoing, by rw [← hconfig]; rfl⟩
  | succ left ih =>
    have hroom : frames.length < max := by omega
    unfold recordFrames recordFrame
    cases hstep : q.stage.step q.recording.disk with
    | mk r t =>
      have htconfig : t.config = q.stage.config := by rw [← q.stage.step_config q.recording.disk, hstep]
      cases r with
      | error e => exact ⟨frames, q, _, _, [], hq, .step hroom hgoing hstep, rfl⟩
      | ok _ =>
        simp only
        cases hpicture : t.renderFrame with
        | mk r u =>
          have huconfig : u.config = t.config := by rw [← t.renderFrame_config, hpicture]
          cases r with
          | error e => exact ⟨frames, q, _, _, [], hq, .picture hroom hgoing hstep hpicture, rfl⟩
          | ok frame =>
            simp only
            cases hpush : Sink.push frames.length.toUInt64 frame q.recording with
            | mk r recording =>
              cases r with
              | error e => exact ⟨frames, q, _, _, _, hq, .push hroom hgoing hstep hpicture hpush, rfl⟩
              | ok _ =>
                have hnext := hq.frame hgoing hstep hpicture hpush
                have hcount : frames.length + 1 = (frames ++ [frame]).length := by simp
                simp only
                split_ifs with hsettled
                · have hframes : frames ++ [frame] ≠ [] := by simp
                  refine ⟨_, _, _, _, _, hnext, .settled hframes (hcount ▸ hroom) hsettled, ?_⟩
                  rw [hcount]
                  rfl
                · rw [hcount]
                  refine ih hnext (fun _ => by simpa using hsettled) ?_ (by omega)
                  rw [huconfig, htconfig, hconfig]

/-! ## The calls that have been written down -/

/-- The pushes of frames that the sink has taken. -/
def takenPushes (frames : List Frame) : List SinkCall :=
  frames.mapIdx fun i f => .push i.toUInt64 f (.ok ())

section Watched

variable {p q last after : Production R (Watched σ)} {max : Nat} {outcome : Except Error Unit}
  {refused : List SinkCall}

theorem calls_start {c : SinkConfig} {r s : Recording (Watched σ)} {answer : Except Error Unit}
    (h : Sink.start c r = (answer, s)) :
    s.sink.calls = r.sink.calls ++ [.start c answer] ∧ Sink.start c r.behind = (answer, s.behind) := by
  cases h
  exact ⟨rfl, rfl⟩

theorem calls_push {i : FrameIndex} {frame : Frame} {r s : Recording (Watched σ)}
    {answer : Except Error Unit} (h : Sink.push i frame r = (answer, s)) :
    s.sink.calls = r.sink.calls ++ [.push i frame answer] ∧
      Sink.push i frame r.behind = (answer, s.behind) := by
  cases h
  exact ⟨rfl, rfl⟩

/-- Frames that are good behind a sink that is watched are written down as taken, and are good as well
for the sink itself. -/
theorem Films.behind (h : Films p frames q) :
    q.recording.sink.calls = p.recording.sink.calls ++ takenPushes frames ∧
      Films p.behind frames q.behind := by
  induction h with
  | start => exact ⟨(List.append_nil _).symm, .start⟩
  | frame _ hgoing hstep hpicture hpush ih =>
    obtain ⟨hcalls, hfilms⟩ := ih
    obtain ⟨hcall, hpush'⟩ := calls_push hpush
    refine ⟨?_, hfilms.frame hgoing hstep hpicture hpush'⟩
    rw [hcall, hcalls, takenPushes, takenPushes, List.mapIdx_concat, List.append_assoc]

theorem Ends.behind (h : Ends max frames q outcome after refused) :
    after.recording.sink.calls = q.recording.sink.calls ++ refused ∧
      Ends max frames q.behind outcome after.behind refused := by
  cases h with
  | settled hframes hcount h => exact ⟨(List.append_nil _).symm, .settled hframes hcount h⟩
  | tooLong hfull hgoing => exact ⟨(List.append_nil _).symm, .tooLong hfull hgoing⟩
  | step hroom hgoing hstep => exact ⟨(List.append_nil _).symm, .step hroom hgoing hstep⟩
  | picture hroom hgoing hstep hpicture =>
    exact ⟨(List.append_nil _).symm, .picture hroom hgoing hstep hpicture⟩
  | push hroom hgoing hstep hpicture hpush =>
    obtain ⟨hcall, hpush'⟩ := calls_push hpush
    exact ⟨hcall, .push hroom hgoing hstep hpicture hpush'⟩

end Watched

/-! ## A movie -/

/-- The production as a movie starts, with nothing written down. -/
def Production.watched (p : Production R σ) : Production R (Watched σ) :=
  ⟨p.stage, ⟨p.recording.sink, []⟩, p.recording.disk⟩

/-- The courses that a movie can take: the calls on its sink, what it comes to and what it leaves
behind. The first thing to fail is what it comes to. -/
inductive Course (p : Production R σ) (y : Int32) :
    List SinkCall → Except Error (MovieStats R) → Production R σ → Prop
  /-- The sink does not start, and no step is made. -/
  | unopened {e opened} (hstart : Sink.start p.stage.sinkConfig p.recording = (.error e, opened)) :
      Course p y [.start p.stage.sinkConfig (.error e)] (.error e) ⟨p.stage.shifted y, opened⟩
  /-- The recording fails. The sink is finished, and its answer is of no importance. -/
  | failed {opened frames last e after refused answer closed}
      (hstart : Sink.start p.stage.sinkConfig p.recording = (.ok (), opened))
      (hfilms : Films ⟨p.stage.shifted y, opened⟩ frames last)
      (hends : Ends p.stage.config.maxFrames.toNat frames last (.error e) after refused)
      (hfinish : Sink.finish after.recording = (answer, closed)) :
      Course p y (.start p.stage.sinkConfig (.ok ()) :: (takenPushes frames ++ refused ++ [.finish answer]))
        (.error e) ⟨after.stage, closed⟩
  /-- All goes well until the sink is finished. -/
  | unclosed {opened frames last e closed}
      (hstart : Sink.start p.stage.sinkConfig p.recording = (.ok (), opened))
      (hfilms : Films ⟨p.stage.shifted y, opened⟩ frames last)
      (hends : Ends p.stage.config.maxFrames.toNat frames last (.ok ()) last [])
      (hfinish : Sink.finish last.recording = (.error e, closed)) :
      Course p y (.start p.stage.sinkConfig (.ok ()) :: (takenPushes frames ++ [.finish (.error e)]))
        (.error e) ⟨last.stage, closed⟩
  /-- All goes well. -/
  | done {opened frames last closed}
      (hstart : Sink.start p.stage.sinkConfig p.recording = (.ok (), opened))
      (hfilms : Films ⟨p.stage.shifted y, opened⟩ frames last)
      (hends : Ends p.stage.config.maxFrames.toNat frames last (.ok ()) last [])
      (hfinish : Sink.finish last.recording = (.ok (), closed)) :
      Course p y (.start p.stage.sinkConfig (.ok ()) :: (takenPushes frames ++ [.finish (.ok ())]))
        (.ok ⟨frames.length, last.stage.config.rate.seconds frames.length⟩)
        ⟨last.stage.closeSounds, closed⟩

/-- A movie takes one of its courses. -/
theorem exists_course (p : Production R σ) (y : Int32) :
    ∃ calls, Course p y calls (renderMovie p y).1 (renderMovie p y).2 := by
  unfold renderMovie
  have hstage : p.stage.modifyNode Scene.root (·.setY y) = p.stage.shifted y := rfl
  have hconfig : (p.stage.shifted y).sinkConfig = p.stage.sinkConfig := rfl
  simp only [hstage, hconfig]
  cases hstart : Sink.start p.stage.sinkConfig p.recording with
  | mk r opened =>
    cases r with
    | error e => exact ⟨_, .unopened hstart⟩
    | ok _ =>
      obtain ⟨frames, last, outcome, after, refused, hfilms, hends, hloop⟩ :=
        recordFrames_ends (p := ⟨p.stage.shifted y, opened⟩) .start (absurd rfl) rfl (Nat.zero_add _)
      rw [List.length_nil] at hloop
      simp only [hloop]
      cases outcome with
      | error e => exact ⟨_, .failed hstart hfilms hends rfl⟩
      | ok _ =>
        cases hends
        simp only [Except.map]
        cases hfinish : Sink.finish last.recording with
        | mk answer closed =>
          cases answer with
          | error e => exact ⟨_, .unclosed hstart hfilms (.settled ‹_› ‹_› ‹_›) hfinish⟩
          | ok _ => exact ⟨_, .done hstart hfilms (.settled ‹_› ‹_› ‹_›) hfinish⟩

section Watched

variable {p last : Production R (Watched σ)} {y : Int32} {calls : List SinkCall}
  {result : Except Error (MovieStats R)}

omit [Scalar R] in
theorem calls_finish {q : Production R (Watched σ)} {s : Recording (Watched σ)}
    {answer : Except Error Unit} (h : Sink.finish q.recording = (answer, s)) :
    s.sink.calls = q.recording.sink.calls ++ [.finish answer] ∧
      Sink.finish q.behind.recording = (answer, s.behind) := by
  cases h
  exact ⟨rfl, rfl⟩

/-- The course that a movie takes with a sink that is watched is written down, and is the course that it
takes with the sink itself. -/
theorem Course.behind (h : Course p y calls result last) :
    last.recording.sink.calls = p.recording.sink.calls ++ calls ∧
      Course p.behind y calls result last.behind := by
  cases h with
  | unopened hstart =>
    obtain ⟨hopen, hstart'⟩ := calls_start hstart
    exact ⟨hopen, .unopened hstart'⟩
  | failed hstart hfilms hends hfinish =>
    obtain ⟨hopen, hstart'⟩ := calls_start hstart
    obtain ⟨htaken, hfilms'⟩ := hfilms.behind
    obtain ⟨hrefused, hends'⟩ := hends.behind
    obtain ⟨hclose, hfinish'⟩ := calls_finish hfinish
    have hcourse := Course.failed (p := p.behind) hstart' hfilms' hends' hfinish'
    refine ⟨?_, hcourse⟩
    rw [hclose, hrefused, htaken, hopen]
    simp
  | unclosed hstart hfilms hends hfinish =>
    obtain ⟨hopen, hstart'⟩ := calls_start hstart
    obtain ⟨htaken, hfilms'⟩ := hfilms.behind
    obtain ⟨hclose, hfinish'⟩ := calls_finish hfinish
    have hcourse := Course.unclosed (p := p.behind) hstart' hfilms' hends.behind.2 hfinish'
    refine ⟨?_, hcourse⟩
    rw [hclose, htaken, hopen]
    simp
  | done hstart hfilms hends hfinish =>
    obtain ⟨hopen, hstart'⟩ := calls_start hstart
    obtain ⟨htaken, hfilms'⟩ := hfilms.behind
    obtain ⟨hclose, hfinish'⟩ := calls_finish hfinish
    have hcourse := Course.done (p := p.behind) hstart' hfilms' hends.behind.2 hfinish'
    refine ⟨?_, hcourse⟩
    rw [hclose, htaken, hopen]
    simp

end Watched

/-- The numbers under which frames are pushed, in the order of the calls. -/
def pushed (calls : List SinkCall) : List Nat := (calls.filterMap SinkCall.index?).map UInt64.toNat

theorem pushed_append (calls more : List SinkCall) :
    pushed (calls ++ more) = pushed calls ++ pushed more := by
  simp [pushed]

/-- Numbers of frames do not wrap around before the limit on the number of frames is reached. -/
theorem toNat_toUInt64 {n : Nat} {max : UInt64} (h : n < max.toNat) : n.toUInt64.toNat = n :=
  UInt64.toNat_ofNat_of_lt' (Nat.lt_trans h max.toNat_lt)

theorem pushed_takenPushes {max : UInt64} (h : frames.length ≤ max.toNat) :
    pushed (takenPushes frames) = List.range frames.length := by
  induction frames using List.reverseRecOn with
  | nil => rfl
  | append_singleton frames frame ih =>
    rw [List.length_append, List.length_singleton] at h ⊢
    rw [takenPushes, List.mapIdx_concat, pushed_append, List.range_succ]
    rw [takenPushes] at ih
    rw [ih (by omega)]
    change _ ++ [frames.length.toUInt64.toNat] = _
    rw [toNat_toUInt64 h]

/-- How many frames are good is known from how it ends. -/
theorem Ends.pushed_eq {max : UInt64} {outcome : Except Error Unit} {refused : List SinkCall}
    (h : Ends max.toNat frames q outcome after refused) :
    ∃ n ≤ max.toNat, pushed (takenPushes frames ++ refused) = List.range n ∧
      (outcome = .ok () → n = frames.length) := by
  have hnone (h : frames.length ≤ max.toNat) :
      pushed (takenPushes frames ++ []) = List.range frames.length := by
    rw [List.append_nil, pushed_takenPushes h]
  cases h with
  | settled _ hcount => exact ⟨_, hcount, hnone hcount, fun _ => rfl⟩
  | tooLong hfull => exact ⟨_, Nat.le_of_eq hfull, hnone (Nat.le_of_eq hfull), nofun⟩
  | step hroom => exact ⟨_, Nat.le_of_lt hroom, hnone (Nat.le_of_lt hroom), nofun⟩
  | picture hroom => exact ⟨_, Nat.le_of_lt hroom, hnone (Nat.le_of_lt hroom), nofun⟩
  | push hroom =>
    refine ⟨frames.length + 1, hroom, ?_, nofun⟩
    rw [pushed_append, pushed_takenPushes (Nat.le_of_lt hroom), List.range_succ]
    change _ ++ [frames.length.toUInt64.toNat] = _
    rw [toNat_toUInt64 hroom]

theorem pushed_start {c : SinkConfig} {answer : Except Error Unit} (calls : List SinkCall) :
    pushed (.start c answer :: calls) = pushed calls := rfl

theorem pushed_finish (answer : Except Error Unit) : pushed [.finish answer] = [] := rfl

/-- The frames that are pushed are numbered from zero without a gap, and stay below the limit. -/
theorem Course.pushed_eq {y : Int32} {calls : List SinkCall} {result : Except Error (MovieStats R)}
    (h : Course p y calls result last) :
    ∃ n ≤ p.stage.config.maxFrames.toNat, pushed calls = List.range n ∧
      ∀ stats, result = .ok stats → stats.frames = n ∧ last.stage.isSettled := by
  cases h with
  | unopened => exact ⟨0, Nat.zero_le _, rfl, nofun⟩
  | failed _ _ hends =>
    obtain ⟨n, hn, hpushed, -⟩ := hends.pushed_eq
    refine ⟨n, hn, ?_, nofun⟩
    rw [pushed_start, pushed_append, pushed_finish, List.append_nil, hpushed]
  | unclosed _ _ hends =>
    obtain ⟨n, hn, hpushed, -⟩ := hends.pushed_eq
    refine ⟨n, hn, ?_, nofun⟩
    rw [List.append_nil] at hpushed
    rw [pushed_start, pushed_append, pushed_finish, List.append_nil, hpushed]
  | done _ _ hends =>
    obtain ⟨n, hn, hpushed, hcount⟩ := hends.pushed_eq
    refine ⟨n, hn, ?_, ?_⟩
    · rw [List.append_nil] at hpushed
      rw [pushed_start, pushed_append, pushed_finish, List.append_nil, hpushed]
    · rintro _ ⟨⟩
      cases hends with
      | settled _ _ hsettled => exact ⟨(hcount rfl).symm, hsettled⟩

/-- **What a movie asks of its sink.** For every sink, stage and script, the calls on the sink are those of
one of the courses that a movie can take; frames are pushed under the numbers from zero on, without a gap
and within the limit; and a movie that goes well has as many frames as were pushed, and ends when the
stage is settled for the first time. -/
theorem sink_protocol (p : Production R σ) (y : Int32) :
    renderMovie p y = ((renderMovie p.watched y).1, (renderMovie p.watched y).2.behind) ∧
      Course p y (renderMovie p.watched y).2.recording.sink.calls (renderMovie p y).1 (renderMovie p y).2 ∧
      ∃ n ≤ p.stage.config.maxFrames.toNat,
        pushed (renderMovie p.watched y).2.recording.sink.calls = List.range n ∧
        ∀ stats, (renderMovie p y).1 = .ok stats →
          stats.frames = n ∧ (renderMovie p y).2.stage.isSettled := by
  have hsame : renderMovie p y = ((renderMovie p.watched y).1, (renderMovie p.watched y).2.behind) :=
    renderMovie_behind p.watched y
  obtain ⟨calls, hwatched⟩ := exists_course p.watched y
  obtain ⟨hcalls, hcourse⟩ := hwatched.behind
  have hlog : (renderMovie p.watched y).2.recording.sink.calls = calls := hcalls
  rw [hlog, hsame]
  exact ⟨rfl, hcourse, hcourse.pushed_eq⟩

end Stage

end Cutscene
