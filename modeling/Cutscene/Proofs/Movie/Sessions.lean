import Mathlib.Data.List.Basic
import Cutscene.Movie.Video
import Cutscene.Proofs.Movie.Calls

/-!
# Sessions of sinks

A sink is used in sessions: it is started, takes frames, and is finished. The calls on a sink with their
answers tell which session is open and which frames have been taken in it. The sinks that write files
remember less than that, and what they remember is tied to the session here, whatever becomes of the disk
and of the encoder between two calls.

On `begin`, `push_frame` and `end` of `PngSequenceSink` and `FfmpegSink` (SPEC_FULL.md, §B.12).

Results:
* `lastSession?`: the session that some calls have come to.
* `FileSink.follows_after`: what every call keeps holds after any calls.
* `PngSink.push_cases`, `VideoSink.push_cases`: all that a push can come to.
* `PngSink.Follows.next`, `VideoSink.Follows.next`: a sink follows its session through every call.
* `PngSink.Follows.answer_push_iff`: which frames are written as pictures.
* `file_sinks_in_order`: the frames that are taken, for any calls.
-/

namespace Cutscene

/-! ## Requests -/

/-- What a sink is asked to do. -/
inductive SinkRequest where
  | start (config : SinkConfig)
  | push (index : FrameIndex) (frame : Frame)
  | finish

namespace SinkRequest

/-- What comes of a request. -/
def outcome {σ : Type} [Sink σ] (r : Recording σ) : SinkRequest → Recording.Outcome σ
  | start c => Sink.start c r
  | push i f => Sink.push i f r
  | finish => Sink.finish r

/-- The call that a request is, with its answer. -/
def answered : SinkRequest → Except Error Unit → SinkCall
  | start c => .start c
  | push i f => .push i f
  | finish => .finish

end SinkRequest

namespace SinkCall

def answer : SinkCall → Except Error Unit
  | start _ a => a
  | push _ _ a => a
  | finish a => a

/-- The frame that was taken with a call. -/
def taken? : SinkCall → Option (FrameIndex × Frame)
  | push i f (.ok _) => some (i, f)
  | _ => none

end SinkCall

/-- The frames that were taken with some calls. -/
def takenFrames (calls : List SinkCall) : List (FrameIndex × Frame) := calls.filterMap SinkCall.taken?

namespace Recording

variable {σ : Type} [Sink σ]

/-- The recording after some requests. -/
def after (r : Recording σ) (requests : List SinkRequest) : Recording σ :=
  requests.foldl (fun r q => (q.outcome r).2) r

/-- The calls that some requests come to. -/
def calls (r : Recording σ) : List SinkRequest → List SinkCall
  | [] => []
  | q :: rest => q.answered (q.outcome r).1 :: calls (q.outcome r).2 rest

end Recording

/-! ## Sessions -/

/-- What a sink was started for, and the frames that it has taken after that. -/
structure Session where
  config : SinkConfig
  frames : List (FrameIndex × Frame)
  /-- Whether the sink was not asked to finish since. -/
  isOpen : Bool

/-- The session after a call. A start that goes well opens a new one, and nothing but that. -/
def SinkCall.follow (t : Option Session) : SinkCall → Option Session
  | start c (.ok _) => some ⟨c, [], true⟩
  | push i f (.ok _) => t.map fun t => { t with frames := t.frames ++ [(i, f)] }
  | finish _ => t.map fun t => { t with isOpen := false }
  | _ => t

/-- The last session that some calls have opened. -/
def lastSession? (calls : List SinkCall) : Option Session := calls.foldl SinkCall.follow none

namespace Session

/-- The configuration of a session that is open. -/
def openConfig? (t : Session) : Option SinkConfig := if t.isOpen then some t.config else none

/-- A frame comes in order: the session is open, the frame has the size that was announced, and its index is
above those of all frames that have been taken. -/
structure Admits (t : Session) (i : FrameIndex) (f : Frame) : Prop where
  isOpen : t.isOpen
  width : f.width = t.config.width
  height : f.height = t.config.height
  above : ∀ e ∈ t.frames, e.1 < i

end Session

/-- Indices that ascend are all below another one if the last of them is. -/
theorem forall_lt_iff_of_ascending {frames : List (FrameIndex × Frame)}
    (h : frames.Pairwise fun a b => a.1 < b.1) (i : FrameIndex) :
    (∀ l, frames.getLast?.map Prod.fst = some l → l < i) ↔ ∀ e ∈ frames, e.1 < i := by
  induction frames using List.reverseRecOn with
  | nil => simp
  | append_singleton r e _ =>
    simp only [List.getLast?_concat, Option.map_some, Option.some.injEq, forall_eq', List.mem_append,
      List.mem_singleton]
    constructor
    · rintro hlast a (ha | rfl)
      · exact UInt64.lt_trans ((List.pairwise_append.mp h).2.2 a ha e (List.mem_singleton_self e)) hlast
      · exact hlast
    · exact fun hall => hall e (.inr rfl)

/-- A frame with an index above the others can follow them. -/
theorem ascending_append {frames : List (FrameIndex × Frame)} {i : FrameIndex}
    (h : frames.Pairwise fun a b => a.1 < b.1) (habove : ∀ e ∈ frames, e.1 < i) (f : Frame) :
    (frames ++ [(i, f)]).Pairwise fun a b => a.1 < b.1 := by
  refine List.pairwise_append.mpr ⟨h, List.pairwise_singleton _ _, fun e he e' he' => ?_⟩
  rw [List.mem_singleton.mp he']
  exact habove e he

/-- A frame has the size that was announced, and the data for it. Four bytes for each pixel are counted in a
64-bit word. -/
def SinkConfig.Fits (c : SinkConfig) (f : Frame) : Prop :=
  f.width = c.width ∧ f.height = c.height ∧ f.data.size = c.width.toNat * c.height.toNat * 4 % UInt64.size

instance (c : SinkConfig) (f : Frame) : Decidable (c.Fits f) := inferInstanceAs (Decidable (_ ∧ _))

theorem SinkConfig.checkFrame_eq_ok_iff_fits {c : SinkConfig} {f : Frame} : c.checkFrame f = .ok () ↔ c.Fits f := by
  rw [checkFrame_eq_ok_iff, toNat_dataLength]
  rfl

/-- The frames that have been taken, after one that is taken just if it fits and its index is above theirs. -/
def SinkConfig.takeNext (c : SinkConfig) (taken : List (FrameIndex × Frame)) (e : FrameIndex × Frame) :
    List (FrameIndex × Frame) :=
  if (∀ d ∈ taken, d.1 < e.1) ∧ c.Fits e.2 then taken ++ [e] else taken

/-- The frames that come in order among those that are pushed. -/
def SinkConfig.inOrder (c : SinkConfig) (pushed : List (FrameIndex × Frame)) : List (FrameIndex × Frame) :=
  pushed.foldl c.takeNext []

/-! ## Sinks that write files -/

/-- What a sink finds outside when it is called. -/
structure Surroundings where
  disk : Disk
  encoder : Encoder
  /-- How many bytes of a run the encoder reads, if it does not read to the end. -/
  reads : Option Nat

/-- A sink that is called in surroundings which change. -/
class FileSink (σ : Type) extends Sink σ where
  facing : Surroundings → σ → σ

instance : FileSink PngSink where
  facing _ s := s

instance : FileSink VideoSink where
  facing w s := { s with encoder := w.encoder, reads := w.reads }

/-- A request, and the surroundings in which it is made. -/
structure Visit where
  surroundings : Surroundings
  request : SinkRequest

namespace FileSink

variable {σ : Type} [FileSink σ]

/-- The sink and the disk as a call finds them. -/
def recording (s : σ) (w : Surroundings) : Recording σ := ⟨facing w s, w.disk⟩

/-- What a request is answered. -/
def answer (s : σ) (v : Visit) : Except Error Unit := (v.request.outcome (recording s v.surroundings)).1

/-- The sink after a request. -/
def next (s : σ) (v : Visit) : σ := (v.request.outcome (recording s v.surroundings)).2.sink

theorem answer_next_eq (s : σ) (v : Visit) {a : Except Error Unit} {r : Recording σ}
    (h : v.request.outcome (recording s v.surroundings) = (a, r)) : answer s v = a ∧ next s v = r.sink :=
  ⟨congrArg Prod.fst h, congrArg (·.2.sink) h⟩

/-- What ties a sink to its session after a request is told by what comes of it. -/
theorem follows_of_eq {P : σ → Option Session → Prop} {s : σ} {t : Option Session} {v : Visit}
    {a : Except Error Unit} {r : Recording σ} (h : v.request.outcome (recording s v.surroundings) = (a, r))
    (hr : P r.sink ((v.request.answered a).follow t)) :
    P (next s v) ((v.request.answered (answer s v)).follow t) := by
  obtain ⟨hanswer, hnext⟩ := answer_next_eq s v h
  rw [hanswer, hnext]
  exact hr

/-- The sink after some requests. -/
def after (s : σ) (history : List Visit) : σ := history.foldl next s

/-- The calls that some requests come to. -/
def calls (s : σ) : List Visit → List SinkCall
  | [] => []
  | v :: r => v.request.answered (answer s v) :: calls (next s v) r

/-- What ties a sink to its session, and is kept by every call, holds after any calls. -/
theorem follows_after {P : σ → Option Session → Prop}
    (hnext : ∀ s t v, P s t → P (next s v) ((v.request.answered (answer s v)).follow t)) {s : σ}
    (h : P s none) (history : List Visit) : P (after s history) (lastSession? (calls s history)) := by
  suffices ∀ t, P s t → P (after s history) ((calls s history).foldl SinkCall.follow t) from this none h
  clear h
  induction history generalizing s with
  | nil => exact fun t h => h
  | cons v r ih => exact fun t h => ih _ (hnext s t v h)

end FileSink

open FileSink

/-! ## Numbered pictures -/

namespace PngSink

variable {dir : String} {s : PngSink} {t : Option Session} {i : FrameIndex} {f : Frame}

theorem start_cases (c : SinkConfig) (r : Recording PngSink) :
    ((c.width = 0 ∨ c.height = 0) ∧ start c r = (.error (.sinkSizeZero .pngSequence), r)) ∨
      start c r = (.error (.frameDirectory r.sink.dir), r) ∨
      ∃ disk, r.disk.makeDirectories r.sink.dir = some disk ∧
        start c r = (.ok (), ⟨{ r.sink with config := some c, last := none, written := 0 }, disk⟩) := by
  unfold start
  split_ifs with hzero
  · exact .inl ⟨hzero, rfl⟩
  · cases hdisk : r.disk.makeDirectories r.sink.dir with
    | none => exact .inr (.inl rfl)
    | some disk => exact .inr (.inr ⟨disk, rfl, rfl⟩)

/-- The sink takes a frame that has all the data which the size of the session asks for. -/
theorem accept_eq_ok_iff {picture : Content} : s.accept i f = .ok picture ↔
    ∃ c, s.config = some c ∧ (∀ l, s.last = some l → l < i) ∧ f.width = c.width ∧ f.height = c.height ∧
      f.data.size = c.width.toNat * c.height.toNat * 4 ∧ f.data.size < UInt64.size ∧
      picture = .still f.width f.height f.straight := by
  unfold accept
  cases s.config with
  | none => simp
  | some c =>
    simp only [bind_eq_ok_iff, Option.some.injEq, exists_eq_left', picture?]
    constructor
    · rintro ⟨⟨⟩, horder, ⟨⟩, hcheck, hpicture⟩
      obtain ⟨hwidth, hheight, hlength⟩ := SinkConfig.checkFrame_eq_ok_iff.mp hcheck
      rw [SinkConfig.toNat_dataLength] at hlength
      rw [hwidth, hheight] at hpicture
      split_ifs at hpicture with hwhole
      · cases hpicture
        have hle := Nat.mod_le (c.width.toNat * c.height.toNat * 4) UInt64.size
        have hword : f.data.size < UInt64.size := hlength ▸ Nat.mod_lt _ (by decide)
        exact ⟨checkOrder_eq_ok_iff.mp horder, hwidth, hheight, by omega, hword, by rw [hwidth, hheight]⟩
    · rintro ⟨horder, hwidth, hheight, hlength, hword, rfl⟩
      have hcheck : c.checkFrame f = .ok () := by
        refine SinkConfig.checkFrame_eq_ok_iff.mpr ⟨hwidth, hheight, ?_⟩
        rw [SinkConfig.toNat_dataLength, ← hlength, Nat.mod_eq_of_lt hword]
      refine ⟨(), checkOrder_eq_ok_iff.mpr horder, (), hcheck, ?_⟩
      rw [hwidth, hheight, if_pos (Nat.le_of_eq hlength.symm)]

/-- A push that is refused changes nothing. -/
theorem push_cases (i : FrameIndex) (f : Frame) (r : Recording PngSink) :
    (∃ e, r.sink.accept i f = .error e ∧ push i f r = (.error e, r)) ∨
      ∃ picture, r.sink.accept i f = .ok picture ∧
        (push i f r = (.error (.frameFile (r.sink.framePath i)), r) ∨
          ∃ disk, r.disk.write? (r.sink.framePath i) picture = some disk ∧
            push i f r = (.ok (), ⟨{ r.sink with last := some i, written := r.sink.written + 1 }, disk⟩)) := by
  unfold push
  cases r.sink.accept i f with
  | error e => exact .inl ⟨e, rfl, rfl⟩
  | ok picture =>
    refine .inr ⟨picture, rfl, ?_⟩
    simp only
    cases r.disk.write? (r.sink.framePath i) picture with
    | none => exact .inl rfl
    | some disk => exact .inr ⟨disk, rfl, rfl⟩

theorem finish_cases (r : Recording PngSink) :
    (∃ e, r.sink.config = none ∧ finish r = (.error e, r)) ∨
      ∃ c, r.sink.config = some c ∧ finish r = (.ok (), ⟨{ r.sink with config := none }, r.disk⟩) := by
  unfold finish
  cases r.sink.config with
  | none => exact .inl ⟨_, rfl, rfl⟩
  | some c => exact .inr ⟨c, rfl, rfl⟩

/-- What the sink remembers of its session. -/
structure Follows (dir : String) (s : PngSink) (t : Option Session) : Prop where
  dir : s.dir = dir
  config : s.config = t.bind Session.openConfig?
  ascending : ∀ u, t = some u → u.frames.Pairwise fun a b => a.1 < b.1
  last : ∀ u, t = some u → s.last = u.frames.getLast?.map Prod.fst
  written : s.written = t.elim 0 fun u => u.frames.length

theorem follows_create (dir : String) : (create dir).Follows dir none where
  dir := rfl
  config := rfl
  ascending := nofun
  last := nofun
  written := rfl

theorem Follows.start (h : s.Follows dir t) (c : SinkConfig) :
    { s with config := some c, last := none, written := 0 : PngSink }.Follows dir (some ⟨c, [], true⟩) where
  dir := h.dir
  config := rfl
  ascending := by
    rintro _ ⟨⟩
    exact .nil
  last := by
    rintro _ ⟨⟩
    rfl
  written := rfl

/-- The sink takes just what comes in order, if it can be written. -/
theorem Follows.accept_iff (h : s.Follows dir t) {picture : Content} : s.accept i f = .ok picture ↔
    ∃ u, t = some u ∧ u.Admits i f ∧ f.data.size = u.config.width.toNat * u.config.height.toNat * 4 ∧
      f.data.size < UInt64.size ∧ picture = .still f.width f.height f.straight := by
  rw [accept_eq_ok_iff, h.config]
  cases t with
  | none => simp
  | some u =>
    rw [h.last u rfl]
    simp only [Option.bind_some, Session.openConfig?, Option.some.injEq, exists_eq_left',
      forall_lt_iff_of_ascending (h.ascending u rfl)]
    constructor
    · rintro ⟨c, hc, habove, hwidth, hheight, hrest⟩
      split_ifs at hc with hopen
      cases hc
      exact ⟨⟨hopen, hwidth, hheight, habove⟩, hrest⟩
    · rintro ⟨⟨hopen, hwidth, hheight, habove⟩, hrest⟩
      exact ⟨u.config, if_pos hopen, habove, hwidth, hheight, hrest⟩

theorem Follows.push {u : Session} (h : s.Follows dir (some u)) (habove : ∀ e ∈ u.frames, e.1 < i)
    (f : Frame) : { s with last := some i, written := s.written + 1 : PngSink }.Follows dir
      (some { u with frames := u.frames ++ [(i, f)] }) where
  dir := h.dir
  config := h.config
  ascending := by
    rintro _ ⟨⟩
    exact ascending_append (h.ascending u rfl) habove f
  last := by
    rintro _ ⟨⟩
    rw [List.getLast?_concat]
    rfl
  written := by
    rw [h.written]
    simp

theorem Follows.finish (h : s.Follows dir t) :
    { s with config := none : PngSink }.Follows dir (t.map fun u => { u with isOpen := false }) where
  dir := h.dir
  config := by cases t <;> rfl
  ascending := by
    rintro _ hu
    obtain ⟨u, rfl, rfl⟩ := Option.map_eq_some_iff.mp hu
    exact h.ascending u rfl
  last := by
    rintro _ hu
    obtain ⟨u, rfl, rfl⟩ := Option.map_eq_some_iff.mp hu
    exact h.last u rfl
  written := by
    rw [h.written]
    cases t <;> rfl

/-- The sink follows its session through every call. -/
theorem Follows.next (h : s.Follows dir t) (v : Visit) :
    (FileSink.next s v).Follows dir ((v.request.answered (answer s v)).follow t) := by
  obtain ⟨w, request⟩ := v
  cases request with
  | start c =>
    rcases start_cases c (recording s w) with ⟨-, hstart⟩ | hstart | ⟨disk, -, hstart⟩
    · exact follows_of_eq (P := Follows dir) hstart h
    · exact follows_of_eq (P := Follows dir) hstart h
    · exact follows_of_eq (P := Follows dir) hstart (h.start c)
  | push i f =>
    rcases push_cases i f (recording s w) with ⟨e, -, hpush⟩ | ⟨picture, haccept, hpush | ⟨disk, -, hpush⟩⟩
    · exact follows_of_eq (P := Follows dir) hpush h
    · exact follows_of_eq (P := Follows dir) hpush h
    · obtain ⟨u, rfl, hadmits, -⟩ := h.accept_iff.mp haccept
      exact follows_of_eq (P := Follows dir) hpush (h.push hadmits.above f)
  | finish =>
    rcases finish_cases (recording s w) with ⟨e, hconfig, hfinish⟩ | ⟨c, -, hfinish⟩
    · -- Nothing is open, so nothing has to be closed.
      have hsame : { s with config := none } = s := by
        cases s
        cases hconfig
        rfl
      exact follows_of_eq (P := Follows dir) hfinish (hsame ▸ h.finish)
    · exact follows_of_eq (P := Follows dir) hfinish h.finish

/-- What is pushed is written just if it comes in order with four bytes for each pixel, and its file can be
written. -/
theorem Follows.answer_push_iff (h : s.Follows dir t) (w : Surroundings) :
    answer s ⟨w, .push i f⟩ = .ok () ↔
      ∃ u, t = some u ∧ u.Admits i f ∧ f.data.size = u.config.width.toNat * u.config.height.toNat * 4 ∧
        f.data.size < UInt64.size ∧
        (w.disk.write? ((create dir).framePath i) (.still f.width f.height f.straight)).isSome := by
  have hpath : (create dir).framePath i = s.framePath i := by
    unfold framePath
    rw [h.dir]
    rfl
  rw [hpath]
  constructor
  · intro hok
    rcases push_cases i f (recording s w) with ⟨e, -, hpush⟩ | ⟨picture, haccept, hpush | ⟨disk, hwrite, -⟩⟩
    · cases hok.symm.trans (answer_next_eq s ⟨w, .push i f⟩ hpush).1
    · cases hok.symm.trans (answer_next_eq s ⟨w, .push i f⟩ hpush).1
    · obtain ⟨u, rfl, hadmits, hlength, hword, rfl⟩ := h.accept_iff.mp haccept
      exact ⟨u, rfl, hadmits, hlength, hword, Option.isSome_iff_exists.mpr ⟨disk, hwrite⟩⟩
  · rintro ⟨u, rfl, hadmits, hlength, hword, hwrite⟩
    obtain ⟨disk, hdisk⟩ := Option.isSome_iff_exists.mp hwrite
    have haccept := h.accept_iff.mpr ⟨u, rfl, hadmits, hlength, hword, rfl⟩
    have hpush : PngSink.push i f (recording s w) =
        (.ok (), ⟨{ s with last := some i, written := s.written + 1 }, disk⟩) := by
      unfold PngSink.push
      have hsink : (recording s w).sink = s := rfl
      have houtside : (recording s w).disk = w.disk := rfl
      simp only [hsink, houtside, haccept, hdisk]
      rfl
    exact (answer_next_eq s ⟨w, .push i f⟩ hpush).1

/-- A push that fails leaves the sink as it is. -/
theorem next_of_refused {w : Surroundings} {e : Error} (h : answer s ⟨w, .push i f⟩ = .error e) :
    FileSink.next s ⟨w, .push i f⟩ = s := by
  rcases push_cases i f (recording s w) with ⟨_, -, hpush⟩ | ⟨_, -, hpush | ⟨_, -, hpush⟩⟩
  · exact (answer_next_eq s ⟨w, .push i f⟩ hpush).2
  · exact (answer_next_eq s ⟨w, .push i f⟩ hpush).2
  · cases h.symm.trans (answer_next_eq s ⟨w, .push i f⟩ hpush).1

end PngSink

/-! ## Videos -/

/-- What is written is read whole, or breaks the pipe. -/
theorem EncoderRun.write_cases (run : EncoderRun) (reads : Option Nat) (data : ByteArray) :
    run.write reads data = (.ok (), { run with input := run.input ++ data }) ∨
      ∃ broken, run.write reads data = (.error .pipeBroken, broken) := by
  unfold write
  simp only
  split_ifs
  · exact .inl rfl
  · exact .inr ⟨_, rfl⟩

namespace VideoSink

variable {s : VideoSink} {t : Option Session} {i : FrameIndex} {f : Frame}

theorem start_cases (c : SinkConfig) (r : Recording VideoSink) :
    (∃ e disk, start c r = (.error e, ⟨r.sink, disk⟩)) ∨
      ∃ disk, checkSize c = .ok () ∧ start c r = (.ok (),
        ⟨{ r.sink with
            buffer := zeroBytes c.dataLength.toNat, config := some c, last := none
            running := some ⟨args r.sink.options c, .empty⟩
            finished := r.sink.running <|> r.sink.finished }, disk⟩) := by
  unfold start
  cases c.rate.validate with
  | error e => exact .inl ⟨e, r.disk, rfl⟩
  | ok _ =>
    cases checkSize c with
    | error e => exact .inl ⟨e, r.disk, rfl⟩
    | ok _ =>
      cases ensureParent r.disk r.sink.options.path with
      | error e => exact .inl ⟨e, r.disk, rfl⟩
      | ok disk =>
        simp only
        cases checkOutput r.sink.options disk with
        | error e => exact .inl ⟨e, disk, rfl⟩
        | ok _ =>
          simp only
          split_ifs
          · exact .inr ⟨disk, trivial, rfl⟩
          · exact .inl ⟨_, disk, rfl⟩

theorem accept_eq_ok_iff : s.accept i f = .ok () ↔ ∃ c, s.config = some c ∧ (∀ l, s.last = some l → l < i) ∧
    f.width = c.width ∧ f.height = c.height ∧ f.data.size = c.dataLength.toNat := by
  unfold accept
  cases s.config with
  | none => simp
  | some c =>
    simp only [bind_eq_ok_iff, Option.some.injEq, exists_eq_left']
    constructor
    · rintro ⟨⟨⟩, horder, hcheck⟩
      exact ⟨checkOrder_eq_ok_iff.mp horder, SinkConfig.checkFrame_eq_ok_iff.mp hcheck⟩
    · rintro ⟨horder, hsize⟩
      exact ⟨(), checkOrder_eq_ok_iff.mpr horder, SinkConfig.checkFrame_eq_ok_iff.mpr hsize⟩

/-- A push that goes well sends the flattened frame. One that fails after the frame was accepted leaves its
index behind. -/
theorem push_cases (i : FrameIndex) (f : Frame) (r : Recording VideoSink) :
    (∃ e, r.sink.accept i f = .error e ∧ push i f r = (.error e, r)) ∨
      r.sink.accept i f = .ok () ∧
        ((∃ e, f.flattenInto r.sink.buffer r.sink.options.background = .error e ∧
            push i f r = (.error e, { r with sink := { r.sink with last := some i } })) ∨
          ∃ buffer, f.flattenInto r.sink.buffer r.sink.options.background = .ok buffer ∧
            ((r.sink.running = none ∧ push i f r =
                (.error .alreadyFinalized, { r with sink := { r.sink with last := some i, buffer } })) ∨
              ∃ run, r.sink.running = some run ∧
                ((∃ broken, push i f r = (.error .pipeBroken, { r with sink :=
                    { r.sink with last := some i, buffer, running := some broken } })) ∨
                  push i f r = (.ok (), { r with sink := { r.sink with
                    last := some i, buffer
                    running := some { run with input := run.input ++ buffer } } })))) := by
  unfold push
  cases r.sink.accept i f with
  | error e => exact .inl ⟨e, rfl, rfl⟩
  | ok _ =>
    refine .inr ⟨rfl, ?_⟩
    simp only
    cases f.flattenInto r.sink.buffer r.sink.options.background with
    | error e => exact .inl ⟨e, rfl, rfl⟩
    | ok buffer =>
      refine .inr ⟨buffer, rfl, ?_⟩
      simp only
      cases r.sink.running with
      | none => exact .inl ⟨rfl, rfl⟩
      | some run =>
        refine .inr ⟨run, rfl, ?_⟩
        simp only
        rcases run.write_cases r.sink.reads buffer with hwrite | ⟨broken, hwrite⟩
        · rw [hwrite]
          exact .inr rfl
        · rw [hwrite]
          exact .inl ⟨broken, rfl⟩

/-- What a push that goes well comes to. -/
theorem push_eq_ok {r : Recording VideoSink} (h : (push i f r).1 = .ok ()) :
    r.sink.accept i f = .ok () ∧ ∃ run buffer, r.sink.running = some run ∧
      f.flattenInto r.sink.buffer r.sink.options.background = .ok buffer ∧
      push i f r = (.ok (), { r with sink := { r.sink with
        last := some i, buffer, running := some { run with input := run.input ++ buffer } } }) := by
  rcases push_cases i f r with ⟨e, -, hpush⟩ | ⟨haccept, ⟨e, -, hpush⟩ | ⟨buffer, hbuffer, ⟨-, hpush⟩ |
    ⟨run, hrun, ⟨broken, hpush⟩ | hpush⟩⟩⟩
  · cases h.symm.trans (congrArg Prod.fst hpush)
  · cases h.symm.trans (congrArg Prod.fst hpush)
  · cases h.symm.trans (congrArg Prod.fst hpush)
  · cases h.symm.trans (congrArg Prod.fst hpush)
  · exact ⟨haccept, run, buffer, hrun, hbuffer, hpush⟩

theorem finish_cases (r : Recording VideoSink) :
    (∃ e, r.sink.running = none ∧ finish r = (.error e, r)) ∨
      ∃ run a config, r.sink.running = some run ∧
        finish r = (a, ⟨{ r.sink with running := none, config, finished := some run }, r.disk⟩) := by
  unfold finish
  cases r.sink.running with
  | none => exact .inl ⟨_, rfl, rfl⟩
  | some run =>
    refine .inr ⟨run, ?_⟩
    simp only
    cases r.sink.encoder.result with
    | error e => exact ⟨_, _, trivial, rfl⟩
    | ok _ => exact ⟨_, _, trivial, rfl⟩

/-- What the sink remembers of its session. As long as there is a run the session is open, but indices count
as taken that are not of its frames. -/
structure Follows (s : VideoSink) (t : Option Session) : Prop where
  running : s.running.isSome → ∃ u, t = some u ∧ u.isOpen ∧ s.config = some u.config
  last : ∀ u, t = some u → ∀ e ∈ u.frames, ∃ l, s.last = some l ∧ e.1 ≤ l

theorem follows_create (options : VideoOptions) (encoder : Encoder) :
    (create options encoder).Follows none where
  running := nofun
  last := nofun

/-- An index that is accepted is above those of the frames that have been taken. -/
theorem Follows.above (h : s.Follows t) (haccept : s.accept i f = .ok ()) :
    ∀ u, t = some u → ∀ e ∈ u.frames, e.1 < i := by
  intro u hu e he
  obtain ⟨c, -, horder, -⟩ := accept_eq_ok_iff.mp haccept
  obtain ⟨l, hl, hle⟩ := h.last u hu e he
  exact UInt64.lt_of_le_of_lt hle (horder l hl)

/-- The index of a frame that fails may be left behind, and a run that is broken. -/
theorem Follows.failed (h : s.Follows t) (haccept : s.accept i f = .ok ()) (buffer : ByteArray)
    {running : Option EncoderRun} (hrunning : running.isSome → s.running.isSome) :
    { s with last := some i, buffer, running : VideoSink }.Follows t where
  running hrun := h.running (hrunning hrun)
  last u hu e he := ⟨i, rfl, UInt64.le_of_lt (h.above haccept u hu e he)⟩

/-- A frame that is sent is taken. -/
theorem Follows.push (h : s.Follows t) (haccept : s.accept i f = .ok ()) (buffer : ByteArray)
    {running : Option EncoderRun} (hrunning : s.running.isSome) :
    { s with last := some i, buffer, running : VideoSink }.Follows
      (t.map fun u => { u with frames := u.frames ++ [(i, f)] }) := by
  obtain ⟨u, rfl, hopen, hconfig⟩ := h.running hrunning
  refine ⟨fun _ => ⟨_, rfl, hopen, hconfig⟩, ?_⟩
  rintro _ ⟨⟩ e he
  rcases List.mem_append.mp he with he | he
  · exact ⟨i, rfl, UInt64.le_of_lt (h.above haccept u rfl e he)⟩
  · exact ⟨i, rfl, UInt64.le_of_eq (congrArg Prod.fst (List.mem_singleton.mp he))⟩

/-- Without a run, the sink says nothing on the session but which indices were taken. -/
theorem Follows.close (h : s.Follows t) {s' : VideoSink} (hrunning : s'.running = none)
    (hlast : s'.last = s.last) : s'.Follows (t.map fun u => { u with isOpen := false }) where
  running hrun := by
    rw [hrunning] at hrun
    cases hrun
  last u hu := by
    obtain ⟨u', ht, rfl⟩ := Option.map_eq_some_iff.mp hu
    rw [hlast]
    exact h.last u' ht

/-- The sink follows its session through every call. -/
theorem Follows.next (h : s.Follows t) (v : Visit) :
    (FileSink.next s v).Follows ((v.request.answered (answer s v)).follow t) := by
  obtain ⟨w, request⟩ := v
  have hfacing : (facing w s).Follows t := ⟨h.running, h.last⟩
  cases request with
  | start c =>
    rcases start_cases c (recording s w) with ⟨e, disk, hstart⟩ | ⟨disk, -, hstart⟩
    · exact follows_of_eq (P := Follows) hstart hfacing
    · refine follows_of_eq (P := Follows) hstart ⟨fun _ => ⟨_, rfl, rfl, rfl⟩, ?_⟩
      rintro _ ⟨⟩ e he
      cases he
  | push i f =>
    rcases push_cases i f (recording s w) with ⟨e, -, hpush⟩ | ⟨haccept, ⟨e, -, hpush⟩ | ⟨buffer, -,
      ⟨-, hpush⟩ | ⟨run, hrun, ⟨broken, hpush⟩ | hpush⟩⟩⟩
    · exact follows_of_eq (P := Follows) hpush hfacing
    · exact follows_of_eq (P := Follows) hpush (hfacing.failed haccept _ id)
    · exact follows_of_eq (P := Follows) hpush (hfacing.failed haccept _ id)
    · have hrunning := Option.isSome_iff_exists.mpr ⟨run, hrun⟩
      exact follows_of_eq (P := Follows) hpush (hfacing.failed haccept _ fun _ => hrunning)
    · have hrunning := Option.isSome_iff_exists.mpr ⟨run, hrun⟩
      exact follows_of_eq (P := Follows) hpush (hfacing.push haccept _ hrunning)
  | finish =>
    rcases finish_cases (recording s w) with ⟨e, hrunning, hfinish⟩ | ⟨run, a, config, -, hfinish⟩
    · exact follows_of_eq (P := Follows) hfinish (hfacing.close hrunning rfl)
    · exact follows_of_eq (P := Follows) hfinish (hfacing.close rfl rfl)

/-- A frame that is taken comes in order. -/
theorem Follows.admits (h : s.Follows t) {w : Surroundings} (hok : answer s ⟨w, .push i f⟩ = .ok ()) :
    ∃ u, t = some u ∧ u.Admits i f ∧ f.data.size = u.config.dataLength.toNat := by
  have hfacing : (facing w s).Follows t := ⟨h.running, h.last⟩
  obtain ⟨haccept, run, -, hrun, -, -⟩ := push_eq_ok (r := recording s w) hok
  obtain ⟨u, rfl, hopen, hconfig⟩ := hfacing.running (Option.isSome_iff_exists.mpr ⟨run, hrun⟩)
  obtain ⟨c, hc, -, hwidth, hheight, hlength⟩ := accept_eq_ok_iff.mp haccept
  cases hconfig.symm.trans hc
  exact ⟨u, rfl, ⟨hopen, hwidth, hheight, hfacing.above haccept u rfl⟩, hlength⟩

end VideoSink

/-! ## Any calls -/

/-- How the sinks that write files keep to their sessions, after any calls. -/
structure SessionsKept (dir : String) (options : VideoOptions) (encoder : Encoder) (history : List Visit) :
    Prop where
  /-- A picture is written just of a frame that comes in order with four bytes for each pixel, if its file
  can be written. Pushes that have failed before are of no importance. -/
  picture : ∀ w i f, answer (after (PngSink.create dir) history) ⟨w, .push i f⟩ = .ok () ↔
    ∃ t, lastSession? (calls (PngSink.create dir) history) = some t ∧ t.Admits i f ∧
      f.data.size = t.config.width.toNat * t.config.height.toNat * 4 ∧ f.data.size < UInt64.size ∧
      (w.disk.write? ((PngSink.create dir).framePath i) (.still f.width f.height f.straight)).isSome
  refused : ∀ w i f e, answer (after (PngSink.create dir) history) ⟨w, .push i f⟩ = .error e →
    next (after (PngSink.create dir) history) ⟨w, .push i f⟩ = after (PngSink.create dir) history
  written : (after (PngSink.create dir) history).written =
    (lastSession? (calls (PngSink.create dir) history)).elim 0 fun t => t.frames.length
  /-- A video takes only frames that come in order. Four bytes for each pixel are counted in a 64-bit word. -/
  video : ∀ w i f, answer (after (VideoSink.create options encoder) history) ⟨w, .push i f⟩ = .ok () →
    ∃ t, lastSession? (calls (VideoSink.create options encoder) history) = some t ∧ t.Admits i f ∧
      f.data.size = t.config.width.toNat * t.config.height.toNat * 4 % UInt64.size

/-- **The sinks that write files take only frames that come in order**, whatever they are asked, and whatever
becomes of the disk and of the encoder meanwhile. -/
theorem file_sinks_in_order (dir : String) (options : VideoOptions) (encoder : Encoder)
    (history : List Visit) : SessionsKept dir options encoder history := by
  have hpictures := follows_after (P := PngSink.Follows dir) (fun _ _ v h => h.next v)
    (PngSink.follows_create dir) history
  have hvideo := follows_after (P := VideoSink.Follows) (fun _ _ v h => h.next v)
    (VideoSink.follows_create options encoder) history
  refine ⟨fun w i f => hpictures.answer_push_iff w, fun w i f e => PngSink.next_of_refused,
    hpictures.written, fun w i f hok => ?_⟩
  obtain ⟨t, ht, hadmits, hlength⟩ := hvideo.admits hok
  exact ⟨t, ht, hadmits, hlength.trans t.config.toNat_dataLength⟩

/-- A video of 2 ^ 31 by 2 ^ 31 pixels takes a frame without any data: four bytes for each pixel are none in
a 64-bit word. -/
theorem video_takes_empty_frame :
    let w : Surroundings := ⟨.empty, .working, none⟩
    let c : SinkConfig := ⟨2147483648, 2147483648, .standard⟩
    let f : Frame := ⟨2147483648, 2147483648, .empty, true⟩
    let sink := after (VideoSink.create ⟨"movie.mp4", true, .black⟩ .working) [⟨w, .start c⟩]
    sink.config = some c ∧ (answer sink ⟨w, .push 0 f⟩).isOk ∧
      f.data.size ≠ c.width.toNat * c.height.toNat * 4 := by
  decide +kernel

end Cutscene
