import Cutscene.Movie.Render
import Cutscene.Proofs.Movie.Painting
import Cutscene.Proofs.Stage.Run

/-!
# Movies frame by frame

`recorded` is the production after a number of frames, none of which has failed.

Results:
* `recordFrame_eq_ok`, `took_of_recorded`: what a frame is, and what the sink has taken.
* `recordFrames_eq`, `renderMovie_eq`: what the recording loop comes to, and the movie.
* `Filmed.exists_recorded`, `exists_renderMovie`: what can be painted is recorded in memory.
-/

namespace Cutscene

namespace Recording

variable {σ : Type} [Sink σ]

/-- A sink has taken some frames, numbered from zero. -/
inductive Took (r : Recording σ) : List Frame → Recording σ → Prop
  | start : Took r [] r
  | push {frames t u frame} (h : Took r frames t)
      (hpush : Sink.push frames.length.toUInt64 frame t = (.ok (), u)) : Took r (frames ++ [frame]) u

end Recording

namespace Stage

variable {R σ : Type} [Scalar R] [Sink σ]

/-- The production after a number of frames, if none of them has failed. -/
def recorded (p : Production R σ) : Nat → Except Error (Production R σ)
  | 0 => .ok p
  | k + 1 => do
    let q ← recorded p k
    match recordFrame q k with
    | (.ok (), r) => .ok r
    | (.error e, _) => .error e

variable {p q r last : Production R σ}

theorem recorded_succ_eq_ok_iff {k : Nat} :
    recorded p (k + 1) = .ok r ↔ ∃ q, recorded p k = .ok q ∧ recordFrame q k = (.ok (), r) := by
  refine bind_eq_ok_iff.trans ?_
  refine exists_congr fun q => and_congr_right fun _ => ?_
  cases recordFrame q k with
  | mk result r' =>
    cases result with
    | error e => simp
    | ok _ => simp

theorem recorded_of_le {k n : Nat} (hkn : k ≤ n) (h : recorded p n = .ok r) :
    ∃ q, recorded p k = .ok q := by
  induction hkn generalizing r with
  | refl => exact ⟨r, h⟩
  | step _ ih =>
    obtain ⟨q, hq, -⟩ := recorded_succ_eq_ok_iff.mp h
    exact ih hq

/-- A frame that does not fail is a step, a picture and a frame for the sink. -/
theorem recordFrame_eq_ok {i : Nat} (h : recordFrame q i = (.ok (), r)) :
    ∃ t painter frame, q.stage.step q.recording.disk = (.ok (), t) ∧ r.stage = { t with painter } ∧
      Sink.push i.toUInt64 frame q.recording = (.ok (), r.recording) := by
  unfold recordFrame at h
  cases hstep : q.stage.step q.recording.disk with
  | mk result t =>
    rw [hstep] at h
    cases result with
    | error e => cases h
    | ok _ =>
      simp only [renderFrame] at h
      cases hrender : t.painter.renderFrame t.scene with
      | mk result painter =>
        rw [hrender] at h
        cases result with
        | error e => cases h
        | ok frame =>
          simp only at h
          cases hpush : Sink.push i.toUInt64 frame q.recording with
          | mk result recording =>
            rw [hpush] at h
            cases h
            exact ⟨t, painter, frame, rfl, rfl, hpush⟩

/-- The sink has taken one frame for each that was recorded. -/
theorem took_of_recorded {k : Nat} (h : recorded p k = .ok r) :
    ∃ frames, p.recording.Took frames r.recording ∧ frames.length = k := by
  induction k generalizing r with
  | zero =>
    cases h
    exact ⟨[], .start, rfl⟩
  | succ k ih =>
    obtain ⟨q, hq, hframe⟩ := recorded_succ_eq_ok_iff.mp h
    obtain ⟨frames, htook, hlength⟩ := ih hq
    obtain ⟨_, _, frame, -, -, hpush⟩ := recordFrame_eq_ok hframe
    refine ⟨frames ++ [frame], htook.push (hlength ▸ hpush), ?_⟩
    rw [List.length_append, hlength]
    rfl

/-- What the recording loop comes to, when it is known after how many frames the stage is settled. -/
theorem recordFrames_eq {total : Nat}
    (hsettled : ∀ k q, 0 < k → recorded p k = .ok q → (q.stage.isSettled ↔ total ≤ k))
    {left k : Nat} (hk : k < total) (hq : recorded p k = .ok q)
    (hlast : recorded p (min total (k + left)) = .ok last) :
    recordFrames left k q =
      (if total ≤ k + left then .ok total
        else .error (.scriptTooLong last.stage.config.maxFrames.toNat last.stage.queued), last) := by
  induction left generalizing k q with
  | zero =>
    rw [Nat.add_zero, Nat.min_eq_right (Nat.le_of_lt hk), hq] at hlast
    cases hlast
    rw [if_neg (by omega)]
    rfl
  | succ left ih =>
    obtain ⟨r, hr⟩ := recorded_of_le (k := k + 1) (by omega) hlast
    obtain ⟨q', hq', hframe⟩ := recorded_succ_eq_ok_iff.mp hr
    rw [hq] at hq'
    cases hq'
    have hdone := hsettled (k + 1) r (Nat.succ_pos k) hr
    unfold recordFrames
    rw [hframe]
    simp only
    by_cases htotal : total ≤ k + 1
    · obtain rfl : total = k + 1 := by omega
      rw [Nat.min_eq_left (by omega), hr] at hlast
      cases hlast
      rw [if_pos (hdone.mpr htotal), if_pos (by omega)]
    · have hgoing : ¬r.stage.isSettled = true := fun hs => htotal (hdone.mp hs)
      have hcount : k + 1 + left = k + (left + 1) := by omega
      rw [if_neg hgoing, ih (by omega) hr (by rw [hcount]; exact hlast), hcount]

/-- The stage as a movie starts. -/
def shifted (s : Stage R) (y : Int32) : Stage R := s.modifyNode Scene.root (·.setY y)

/-- What a movie comes to, when its sink starts and finishes well. -/
theorem renderMovie_eq {shiftY : Int32} {opened : Recording σ} {result : Except Error Nat}
    (hstart : Sink.start p.stage.sinkConfig p.recording = (.ok (), opened))
    (hloop : recordFrames p.stage.config.maxFrames.toNat 0 ⟨p.stage.shifted shiftY, opened⟩ =
      (result, last))
    (hfinish : (Sink.finish last.recording).1 = .ok ()) :
    (renderMovie p shiftY).1 = result.map (fun n => ⟨n, last.stage.config.rate.seconds n⟩) ∧
      (renderMovie p shiftY).2.recording = (Sink.finish last.recording).2 := by
  have hopen : Sink.start (p.stage.modifyNode Scene.root (·.setY shiftY)).sinkConfig p.recording =
      (.ok (), opened) := hstart
  have hframes : recordFrames (p.stage.modifyNode Scene.root (·.setY shiftY)).config.maxFrames.toNat 0
      ⟨p.stage.modifyNode Scene.root (·.setY shiftY), opened⟩ = (result, last) := hloop
  unfold renderMovie
  simp only [hopen, hframes]
  cases result with
  | error e => exact ⟨rfl, rfl⟩
  | ok n =>
    simp only
    cases hclose : Sink.finish last.recording with
    | mk closed recording =>
      rw [hclose] at hfinish
      cases hfinish
      exact ⟨rfl, rfl⟩

/-! ## Frames in memory -/

/-- A stage that is recorded in memory, whatever has been painted. -/
structure Filmed (disk : Disk) (s : Stage R) (q : Production R MemorySink) : Prop where
  stage : ∃ painter : Painter, painter.canvas = s.config.canvas ∧ q.stage = s.repaint painter
  sink : q.recording.sink.config = some s.sinkConfig
  disk : q.recording.disk = disk

/-- A step that goes well is a frame, if it can be painted. -/
theorem Filmed.frame {disk : Disk} {s t : Stage R} {q : Production R MemorySink} (h : Filmed disk s q)
    (hvalid : s.config.canvas.validate = .ok ()) (hok : s.step disk = (.ok (), t))
    (hpaintable : t.scene.isPaintable) (i : Nat) :
    ∃ r, recordFrame q i = (.ok (), r) ∧ Filmed disk t r := by
  obtain ⟨painter, hcanvas, hstage⟩ := h.stage
  obtain ⟨painter', hframe, hcanvas'⟩ := painter.renderFrame_of_isPaintable hpaintable
  rw [hcanvas] at hcanvas'
  have hconfig : t.config = s.config := by
    rw [← s.step_config disk, hok]
  have hcheck : s.sinkConfig.checkFrame painter'.frame = .ok () := by
    have hsize := painter'.checkFrame_frame (r := s.config.rate) (by rw [hcanvas', hvalid])
    rw [hcanvas'] at hsize
    exact hsize
  have hstep : q.stage.step q.recording.disk = (.ok (), t.repaint painter) := by
    rw [hstage, h.disk, step_repaint, hok]
  have hrender : (t.repaint painter).renderFrame = (.ok painter'.frame, t.repaint painter') := by
    rw [renderFrame_repaint, hframe]
  have hpush : Sink.push i.toUInt64 painter'.frame q.recording = (.ok (),
      ⟨{ q.recording.sink with
        frames := q.recording.sink.frames ++ [(i.toUInt64, painter'.frame)] }, q.recording.disk⟩) := by
    change MemorySink.push i.toUInt64 painter'.frame q.recording = _
    unfold MemorySink.push
    rw [h.sink]
    simp only [hcheck]
    rfl
  unfold recordFrame
  rw [hstep]
  simp only [hrender, hpush]
  refine ⟨_, rfl, ⟨painter', hconfig ▸ hcanvas', rfl⟩, ?_, h.disk⟩
  unfold sinkConfig
  rw [hconfig]
  exact h.sink

/-- The next steps go well, and what they show can be painted. -/
def Plays (disk : Disk) (n : Nat) (s : Stage R) : Prop :=
  ∀ k < n, ((s.after (List.replicate k (.step disk))).step disk).1.isOk ∧
    ((s.after (List.replicate k (.step disk))).step disk).2.scene.isPaintable

instance (disk : Disk) (n : Nat) (s : Stage R) : Decidable (s.Plays disk n) :=
  inferInstanceAs (Decidable (∀ k < n, _ ∧ _))

/-- What can be painted is recorded in memory, one frame for each step that goes well. -/
theorem Filmed.exists_recorded {disk : Disk} {p : Production R MemorySink}
    (h : Filmed disk p.stage p) (hvalid : p.stage.config.canvas.validate = .ok ()) {n : Nat}
    (hplays : p.stage.Plays disk n) : ∃ q, recorded p n = .ok q := by
  suffices ∃ q, recorded p n = .ok q ∧
      (p.stage.after (List.replicate n (.step disk))).config = p.stage.config ∧
      Filmed disk (p.stage.after (List.replicate n (.step disk))) q by
    obtain ⟨q, hq, -⟩ := this
    exact ⟨q, hq⟩
  induction n with
  | zero => exact ⟨p, rfl, rfl, h⟩
  | succ n ih =>
    obtain ⟨q, hq, hconfig, hfilmed⟩ := ih fun k hk => hplays k (Nat.lt_succ_of_lt hk)
    obtain ⟨hgood, hpaintable⟩ := hplays n (Nat.lt_succ_self n)
    have hkept := (p.stage.after (List.replicate n (.step disk))).step_config disk
    have hafter : p.stage.after (List.replicate (n + 1) (.step disk)) =
        ((p.stage.after (List.replicate n (.step disk))).step disk).2 := by
      rw [List.replicate_succ', after_append]
      rfl
    rw [hafter]
    cases hstep : (p.stage.after (List.replicate n (.step disk))).step disk with
    | mk result t =>
      rw [hstep] at hgood hpaintable hkept
      cases result with
      | error e => cases hgood
      | ok _ =>
        obtain ⟨r, hr, hfilmed'⟩ := hfilmed.frame (hconfig ▸ hvalid) hstep hpaintable n
        exact ⟨r, recorded_succ_eq_ok_iff.mpr ⟨q, hq, hr⟩, hkept.trans hconfig, hfilmed'⟩

/-- A stage that is settled by its next step makes a movie of one frame. -/
theorem exists_renderMovie {disk : Disk} {s : Stage R} {y : Int32} (hcanvas : s.painter.canvas = s.config.canvas)
    (hvalid : s.config.canvas.validate = .ok ()) (hroom : s.config.maxFrames.toNat ≠ 0)
    (hplays : (s.shifted y).Plays disk 1) (hsettled : ((s.shifted y).step disk).2.isSettled) :
    ∃ stats last, renderMovie ⟨s, ⟨MemorySink.empty, disk⟩⟩ y = (.ok stats, last) := by
  let p : Production R MemorySink :=
    ⟨s.shifted y, (MemorySink.start s.sinkConfig ⟨.empty, disk⟩).2⟩
  have hfilmed : Filmed disk (s.shifted y) p := ⟨⟨s.painter, hcanvas, rfl⟩, rfl, rfl⟩
  obtain ⟨hgood, hpaintable⟩ := hplays 0 Nat.one_pos
  cases hstep : (s.shifted y).step disk with
  | mk result t =>
    rw [List.replicate_zero, after, List.foldl_nil, hstep] at hgood hpaintable
    rw [hstep] at hsettled
    cases result with
    | error e => cases hgood
    | ok _ =>
      obtain ⟨r, hframe, hrecorded⟩ := hfilmed.frame hvalid hstep hpaintable 0
      have hdone : r.stage.isSettled := by
        obtain ⟨painter, -, hstage⟩ := hrecorded.stage
        rw [hstage]
        exact hsettled
      obtain ⟨left, hleft⟩ := Nat.exists_eq_succ_of_ne_zero hroom
      have hloop : recordFrames s.config.maxFrames.toNat 0 p = (.ok 1, r) := by
        rw [hleft, recordFrames, hframe]
        exact if_pos hdone
      have hopen : Sink.start s.sinkConfig ⟨MemorySink.empty, disk⟩ = (.ok (), p.recording) := rfl
      obtain ⟨hmovie, -⟩ := renderMovie_eq (p := ⟨s, ⟨MemorySink.empty, disk⟩⟩) hopen hloop rfl
      exact ⟨_, _, Prod.ext hmovie rfl⟩

end Stage

end Cutscene
