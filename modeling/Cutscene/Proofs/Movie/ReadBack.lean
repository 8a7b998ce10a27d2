import Mathlib.Data.List.Basic
import Cutscene.Proofs.Movie.Painting
import Cutscene.Proofs.Movie.Reading
import Cutscene.Proofs.Movie.Runs
import Cutscene.Proofs.Picture.Straight

/-!
# Frames that come back

The frames of a movie are written as pictures with straight colors, and a picture that is loaded is scaled by
its alpha again. A sink of pictures keeps what it has taken, and a movie does nothing to its sink but ask it;
what it asks it to take is painted over black and opaque everywhere. So the frames come back as they were
rendered.

On `FrameRGBA.to_straight_rgba`, `premultiply_rgba8_in_place` and `PngSequenceSink.push_frame`.

Results:
* `Stage.Course.asked`: a movie makes requests of its sink and does nothing else to what is recorded.
* `Stage.Course.exists_films`: the frames that were taken are numbered from zero.
* `Painter.isSolid_frame`, `Stage.isSolid_picture`: over an opaque ground every pixel is opaque.
* `Stage.background_after`: the ground stays what it was.
* `unscaling_loses_nothing`: frames come back as they were, and those of a movie do so out of their files.
-/

namespace Cutscene

/-! ## Requests of a movie -/

/-- Calls that some requests come to, and the recording after them. -/
def Recording.Asked {σ : Type} [Sink σ] (r : Recording σ) (calls : List SinkCall) (r' : Recording σ) : Prop :=
  ∃ requests, calls = r.calls requests ∧ r' = r.after requests

namespace Recording.Asked

variable {σ : Type} [Sink σ] {r r' r'' : Recording σ} {calls : List SinkCall}

theorem nothing (r : Recording σ) : r.Asked [] r := ⟨[], rfl, rfl⟩

/-- One more request is one more call. -/
theorem concat (h : r.Asked calls r') {q : SinkRequest} {answer : Except Error Unit}
    (hq : q.outcome r' = (answer, r'')) : r.Asked (calls ++ [q.answered answer]) r'' := by
  obtain ⟨requests, rfl, rfl⟩ := h
  refine ⟨requests ++ [q], ?_, ?_⟩
  · rw [Recording.calls_concat, hq]
  · rw [Recording.after_concat, hq]

end Recording.Asked

namespace Stage

variable {R σ : Type} [Scalar R] [Sink σ] {p q last after : Production R σ} {frames : List Frame}
  {calls refused : List SinkCall} {max : Nat} {outcome : Except Error Unit} {y : Int32}
  {result : Except Error (MovieStats R)} {r : Recording σ}

theorem takenPushes_concat (frames : List Frame) (f : Frame) :
    takenPushes (frames ++ [f]) = takenPushes frames ++ [.push frames.length.toUInt64 f (.ok ())] :=
  List.mapIdx_concat

theorem Films.asked (h : Films p frames q) (hp : r.Asked calls p.recording) :
    r.Asked (calls ++ takenPushes frames) q.recording := by
  induction h with
  | start => exact (List.append_nil calls).symm ▸ hp
  | @frame frames _ _ frame _ _ _ _ _ _ hpush ih =>
    rw [takenPushes_concat, ← List.append_assoc]
    exact ih.concat (q := .push frames.length.toUInt64 frame) hpush

theorem Ends.asked (h : Ends max frames q outcome after refused) (hq : r.Asked calls q.recording) :
    r.Asked (calls ++ refused) after.recording := by
  have hnone : r.Asked (calls ++ []) q.recording := (List.append_nil calls).symm ▸ hq
  cases h with
  | settled => exact hnone
  | tooLong => exact hnone
  | step => exact hnone
  | picture => exact hnone
  | @push _ frame _ _ _ _ _ _ _ hpush => exact hq.concat (q := .push frames.length.toUInt64 frame) hpush

/-- A movie makes requests of its sink and does nothing else to what is recorded. -/
theorem Course.asked (h : Course p y calls result last) : p.recording.Asked calls last.recording := by
  have hstarted {answer opened} (hstart : Sink.start p.stage.sinkConfig p.recording = (answer, opened)) :
      p.recording.Asked [.start p.stage.sinkConfig answer] opened :=
    (Recording.Asked.nothing p.recording).concat (q := .start p.stage.sinkConfig) hstart
  cases h with
  | unopened hstart => exact hstarted hstart
  | failed hstart hfilms hends hfinish =>
    exact (hends.asked (hfilms.asked (hstarted hstart))).concat (q := .finish) hfinish
  | unclosed hstart hfilms _ hfinish =>
    exact (hfilms.asked (hstarted hstart)).concat (q := .finish) hfinish
  | done hstart hfilms _ hfinish =>
    exact (hfilms.asked (hstarted hstart)).concat (q := .finish) hfinish

/-! ## Frames of a movie -/

theorem takenFrames_takenPushes (frames : List Frame) :
    takenFrames (takenPushes frames) = frames.mapIdx fun i f => (i.toUInt64, f) := by
  induction frames using List.reverseRecOn with
  | nil => rfl
  | append_singleton r f ih =>
    rw [takenPushes_concat, takenFrames_concat, ih, List.mapIdx_concat]
    rfl

theorem Ends.length_le (h : Ends max frames q outcome after refused) : frames.length ≤ max := by
  cases h with
  | settled _ hcount => exact hcount
  | tooLong hfull => exact Nat.le_of_eq hfull
  | step hroom => exact Nat.le_of_lt hroom
  | picture hroom => exact Nat.le_of_lt hroom
  | push hroom => exact Nat.le_of_lt hroom

theorem Ends.takenFrames_refused (h : Ends max frames q outcome after refused) : takenFrames refused = [] := by
  cases h <;> rfl

/-- The frames that a movie has taken are good ones, numbered from zero. -/
theorem Course.exists_films (h : Course p y calls result last) :
    ∃ (opened : Recording σ) (frames : List Frame) (q : Production R σ),
      Films ⟨p.stage.shifted y, opened⟩ frames q ∧
      frames.length ≤ p.stage.config.maxFrames.toNat ∧
      (takenFrames calls = frames.mapIdx fun i f => (i.toUInt64, f)) ∧
      ∀ stats, result = .ok stats → stats.frames = frames.length := by
  have htaken : ∀ frames : List Frame, ∀ refused answer, takenFrames refused = [] →
      takenFrames (.start p.stage.sinkConfig (.ok ()) :: (takenPushes frames ++ refused ++ [.finish answer])) =
        frames.mapIdx fun i f => (i.toUInt64, f) := by
    intro frames refused answer hrefused
    rw [← takenFrames_takenPushes]
    unfold takenFrames at hrefused ⊢
    rw [List.filterMap_cons, List.filterMap_append, List.filterMap_append, hrefused]
    simp [SinkCall.taken?]
  have hnone : ∀ frames : List Frame, takenPushes frames = takenPushes frames ++ [] :=
    fun _ => (List.append_nil _).symm
  cases h with
  | @unopened e opened => exact ⟨opened, [], _, .start, Nat.zero_le _, rfl, nofun⟩
  | failed _ hfilms hends =>
    exact ⟨_, _, _, hfilms, hends.length_le, htaken _ _ _ hends.takenFrames_refused, nofun⟩
  | @unclosed _ frames _ _ _ _ hfilms hends =>
    rw [hnone frames]
    exact ⟨_, _, _, hfilms, hends.length_le, htaken _ _ _ rfl, nofun⟩
  | @done _ frames _ _ _ hfilms hends =>
    rw [hnone frames]
    refine ⟨_, _, _, hfilms, hends.length_le, htaken _ _ _ rfl, ?_⟩
    rintro _ ⟨⟩
    rfl

end Stage

/-! ## Opaque pictures -/

/-- Opaque colors are valid, whatever they look like. -/
theorem IsSolid.isValid {f : Frame} (h : IsSolid f.data) : f.IsValid := by
  intro k hk
  exact Color.isValid_of_full (h.full (4 * k + 3) (by omega) (by omega))

namespace Color

/-- Whatever is painted over a full alpha, it stays full. -/
theorem overByte_full (a : UInt8) : overByte a 255 a = 255 := by
  have ha := a.toNat_lt
  have hfull : (255 : UInt8).toNat = 255 := rfl
  have hunder : (255 * (255 - a.toNat) + 255) / 256 = 255 - a.toNat :=
    Nat.div_eq_of_lt_le (by omega) (by omega)
  refine UInt8.toNat_inj.mp ?_
  unfold overByte
  rw [Nat.toUInt8_eq, UInt8.toNat_ofNat', hfull, hunder]
  omega

theorem paintedOver_a {under : Color} (h : under.a = 255) (top : Color) : (top.paintedOver under).a = 255 := by
  have ha : (top.paintedOver under).a = overByte top.a under.a top.a := rfl
  rw [ha, h, overByte_full]

end Color

namespace Painter

variable {p q : Painter}

theorem colorAt_a (h : p.ground.a = 255) (x y : Nat) : (p.colorAt x y).a = 255 := by
  unfold colorAt
  induction p.layers with
  | nil => exact h
  | cons l r ih =>
    rw [List.foldr_cons]
    split
    · exact Color.paintedOver_a ih _
    · exact ih

/-- Over an opaque ground every pixel of a frame is opaque. -/
theorem isSolid_frame (h : p.ground.a = 255) : IsSolid p.frame.data where
  whole := by
    rw [size_frame]
    exact Nat.mul_mod_right 4 _
  full k hk hplace := by
    rw [size_frame] at hk
    have hpixel : k / 4 < p.canvas.width.toNat * p.canvas.height.toNat := by omega
    unfold frame
    simp only
    rw [byteAt_bytesOfFn _ hk, hplace, Array.getElem?_ofFn, dif_pos hpixel]
    exact p.colorAt_a h _ _

variable {R : Type} [Scalar R]

theorem background_prepare {key : String × Nat} {f : SpriteFrame} (h : p.prepare key f = .ok q) :
    q.background = p.background := by
  unfold prepare at h
  split_ifs at h <;> cases h <;> rfl

theorem background_draw (item : DrawItem R) (p : Painter) : (draw item p).2.background = p.background := by
  unfold draw
  cases item.payload with
  | none => rfl
  | fill w h c => rfl
  | sprite s width height =>
    simp only
    split
    · rfl
    · next hready =>
      have hback := background_prepare hready
      exact hback
  | text run =>
    obtain ⟨faces, layers, hkept⟩ := p.exists_drawText run item.position.x.toInt item.position.y.toInt
    have hback := congrArg Painter.background hkept
    exact hback

theorem background_paintItems (items : List (DrawItem R)) (p : Painter) :
    (paintItems items p).2.background = p.background := by
  induction items generalizing p with
  | nil => rfl
  | cons item r ih =>
    have hdraw := background_draw item p
    unfold paintItems
    simp only [DrawTarget.draw]
    cases h : draw item p with
    | mk result q =>
      rw [h] at hdraw
      cases result with
      | error e => exact hdraw
      | ok _ => exact (ih q).trans hdraw

/-- What a frame starts from is not changed by painting. -/
theorem background_renderFrame (s : Scene R) (p : Painter) : (p.renderFrame s).2.background = p.background := by
  have hitems := background_paintItems s.drawItems { p with layers := [] }
  unfold renderFrame Scene.render
  cases h : paintItems s.drawItems { p with layers := [] } with
  | mk result q =>
    rw [h] at hitems
    cases result <;> exact hitems

theorem eq_frame_of_renderFrame {s : Scene R} {f : Frame} (h : p.renderFrame s = (.ok f, q)) : f = q.frame := by
  unfold renderFrame at h
  split at h
  · cases h
    rfl
  · cases h

end Painter

namespace Stage

variable {R : Type} [Scalar R] {s t u : Stage R}

theorem painter_step (s : Stage R) (disk : Disk) : (s.step disk).2.painter = s.painter :=
  congrArg (fun o => o.2.painter) (s.step_repaint s.painter disk)

theorem background_create {disk : Disk} {config : Config R} (h : create disk config = .ok s) :
    s.painter.background = some .black := by
  obtain ⟨_, -, h⟩ := bind_eq_ok_iff.mp h
  obtain ⟨⟨cast, textBox, hand⟩, -, h⟩ := bind_eq_ok_iff.mp h
  obtain ⟨dialogue, -, h⟩ := bind_eq_ok_iff.mp h
  obtain ⟨painter, hpainter, h⟩ := bind_eq_ok_iff.mp h
  obtain ⟨_, -, hpainter⟩ := bind_eq_ok_iff.mp hpainter
  cases hpainter
  cases h
  rfl

/-- Every event leaves the color alone that frames start from. -/
theorem background_handle (s : Stage R) (e : StageEvent R) :
    (s.handle e).painter.background = s.painter.background := by
  cases e with
  | write disk line =>
    obtain ⟨assets, actions, hwrite, -⟩ := s.write_queues disk line
    rw [handle, hwrite]
  | step disk => exact congrArg Painter.background (s.painter_step disk)
  | picture => exact s.painter.background_renderFrame s.scene
  | assets l => rfl
  | shift y => rfl
  | closeSounds => rfl

theorem background_after (s : Stage R) (es : List (StageEvent R)) :
    (s.after es).painter.background = s.painter.background :=
  after_induction (P := fun t => t.painter.background = s.painter.background) rfl
    fun t ht e _ => (t.background_handle e).trans ht

/-- A picture of a stage before black is premultiplied and opaque everywhere. -/
theorem isSolid_picture (h : t.painter.background = some .black) {f : Frame}
    (hpicture : t.renderFrame = (.ok f, u)) : f.premultiplied = true ∧ IsSolid f.data := by
  have hback := t.painter.background_renderFrame t.scene
  unfold renderFrame at hpicture
  cases hpaint : t.painter.renderFrame t.scene with
  | mk result painter =>
    rw [hpaint] at hback hpicture
    cases hpicture
    obtain rfl := Painter.eq_frame_of_renderFrame hpaint
    refine ⟨rfl, Painter.isSolid_frame ?_⟩
    rw [Painter.ground, hback, h]
    rfl

section Movie

variable {σ : Type} [Sink σ] {p q : Production R σ} {frames : List Frame}

/-- So are all frames that a movie records without fail. -/
theorem Films.isSolid (h : Films p frames q) (hp : p.stage.painter.background = some .black) :
    q.stage.painter.background = some .black ∧ ∀ f ∈ frames, f.premultiplied = true ∧ IsSolid f.data := by
  induction h with
  | start => exact ⟨hp, nofun⟩
  | @frame frames q t f u _ _ _ hstep hpicture _ ih =>
    obtain ⟨hback, hframes⟩ := ih
    have ht : t.painter.background = some .black := by
      rw [← hback, ← q.stage.painter_step q.recording.disk, hstep]
    have hu := t.background_handle .picture
    rw [handle, hpicture] at hu
    refine ⟨hu.trans ht, fun g hg => ?_⟩
    rcases List.mem_append.mp hg with hg | hg
    · exact hframes g hg
    · rw [List.mem_singleton.mp hg]
      exact isSolid_picture ht hpicture

/-- Numbers of frames ascend, as long as there are no more than a word can count. -/
theorem pairwise_numbered {max : UInt64} (h : frames.length ≤ max.toNat) :
    (frames.mapIdx fun i f => (i.toUInt64, f)).Pairwise fun a b => a.1 < b.1 := by
  have hword : ∀ n < frames.length, n.toUInt64.toNat = n := fun n hn =>
    toNat_toUInt64 (Nat.lt_of_lt_of_le hn h)
  refine List.pairwise_iff_getElem.mpr fun i j hi hj hij => ?_
  rw [List.length_mapIdx] at hi hj
  rw [List.getElem_mapIdx, List.getElem_mapIdx, UInt64.lt_iff_toNat_lt, hword i hi, hword j hj]
  exact hij

theorem map_toNat_numbered {max : UInt64} (h : frames.length ≤ max.toNat) :
    (frames.mapIdx fun i f => (i.toUInt64, f)).map (fun e => e.1.toNat) = List.range frames.length := by
  refine List.ext_getElem (by simp) fun i hi hi' => ?_
  rw [List.length_range] at hi'
  rw [List.getElem_map, List.getElem_mapIdx, List.getElem_range]
  exact toNat_toUInt64 (Nat.lt_of_lt_of_le hi' h)

end Movie

end Stage

/-! ## Frames that come back -/

/-- The file of a frame holds its straight colors, and a frame is loaded from there that is the same. -/
structure ComesBack (R : Type) [Scalar R] (disk : Disk) (dir : String) (i : FrameIndex) (f : Frame) : Prop where
  written : disk.read (joinPath dir (PngSink.fileName i)) = .ok (.still f.width f.height f.straight)
  loaded : ∃ (sprite : Sprite R) (library : AssetLibrary R),
    (AssetLibrary.create dir).loadSprite disk (PngSink.fileName i) = .ok (sprite, library) ∧
      sprite.frames = [⟨f.width, f.height, f.data⟩]

theorem comesBack_of_read (R : Type) [Scalar R] {disk : Disk} {dir : String} {i : FrameIndex} {f : Frame}
    (h : disk.read (joinPath dir (PngSink.fileName i)) = .ok f.still) (hpremultiplied : f.premultiplied = true)
    (hvalid : f.IsValid) : ComesBack R disk dir i f := by
  obtain ⟨sprite, library, hload, hframes⟩ := exists_loadSprite (R := R) h
  rw [(hvalid.returns hpremultiplied).back] at hframes
  exact ⟨h, sprite, library, hload, hframes⟩

/-- What a movie leaves behind of the frames that its sink has taken. -/
structure MovieComesBack (R : Type) [Scalar R] (dir : String) (taken : List (FrameIndex × Frame))
    (result : Except Error (MovieStats R)) (disk : Disk) : Prop where
  /-- A movie that goes well leaves all its frames behind. -/
  numbered : ∀ stats, result = .ok stats → taken.map (fun e => e.1.toNat) = List.range stats.frames
  valid : ∀ e ∈ taken, e.2.premultiplied = true ∧ e.2.IsValid
  back : ∀ e ∈ taken, ComesBack R disk dir e.1 e.2

/-- Straight colors are as good as premultiplied ones. -/
structure UnscalingLaw (R : Type) [Scalar R] : Prop where
  /-- Frames of any size whose colors are valid come back. -/
  frames : ∀ f : Frame, f.premultiplied = true → f.IsValid → f.Returns
  /-- No other frames do. -/
  valid : ∀ f : Frame, f.premultiplied = true → premultiplyBytes f.straight = f.data → f.IsValid
  /-- Whatever a sink of pictures is asked, the last frame that it took for an index can be read back. -/
  pictures : ∀ (r : Recording PngSink) (requests : List SinkRequest) (i : FrameIndex) (e : FrameIndex × Frame),
    latest? (takenFrames (r.calls requests)) i = some e → e.2.premultiplied = true → e.2.IsValid →
    ComesBack R (r.after requests).disk r.sink.dir i e.2
  /-- So can all frames of a movie, whatever has happened to the stage before: the frames that are rendered
  are valid as they are. -/
  movie : ∀ (disk : Disk) (config : Config R) (s : Stage R), Stage.create disk config = .ok s →
    ∀ (es : List (StageEvent R)) (r : Recording PngSink) (y : Int32),
      let p : Stage.Production R PngSink := ⟨s.after es, r⟩
      MovieComesBack R r.sink.dir (takenFrames (Stage.renderMovie p.watched y).2.recording.sink.calls)
        (Stage.renderMovie p y).1 (Stage.renderMovie p y).2.recording.disk

/-- All frames that a movie has taken come back, since black is behind everything that is painted. -/
theorem movie_comesBack {R : Type} [Scalar R] {p : Stage.Production R PngSink}
    (hblack : p.stage.painter.background = some .black) (y : Int32) :
    MovieComesBack R p.recording.sink.dir
      (takenFrames (Stage.renderMovie p.watched y).2.recording.sink.calls)
      (Stage.renderMovie p y).1 (Stage.renderMovie p y).2.recording.disk := by
  obtain ⟨-, hcourse, -⟩ := Stage.sink_protocol p y
  obtain ⟨requests, hcalls, hlast⟩ := hcourse.asked
  obtain ⟨opened, frames, q, hfilms, hcount, htaken, hstats⟩ := hcourse.exists_films
  obtain ⟨-, hsolid⟩ := hfilms.isSolid hblack
  have hkept := PngSink.kept_after p.recording requests
  rw [← hcalls, ← hlast, htaken] at hkept
  rw [htaken]
  have hvalid : ∀ e ∈ frames.mapIdx fun i f => (i.toUInt64, f), e.2.premultiplied = true ∧ e.2.IsValid := by
    intro e he
    obtain ⟨i, hi, rfl⟩ := List.mem_mapIdx.mp he
    obtain ⟨hpremultiplied, hopaque⟩ := hsolid _ (List.getElem_mem hi)
    exact ⟨hpremultiplied, hopaque.isValid⟩
  refine ⟨fun stats hok => ?_, hvalid, fun e he => ?_⟩
  · rw [hstats stats hok]
    exact Stage.map_toNat_numbered hcount
  · have hlatest : latest? ([] ++ frames.mapIdx fun i f => (i.toUInt64, f)) e.1 = some e :=
      (latest?_append_of_ascending (Stage.pairwise_numbered hcount)).mpr (.inl ⟨he, rfl⟩)
    obtain ⟨hpremultiplied, hframe⟩ := hvalid e he
    exact comesBack_of_read R (hkept.read e.1 e hlatest) hpremultiplied hframe

/-- **Making colors straight loses nothing.** Dividing by the alpha and scaling by it again cancel for every
color that is valid, so that premultiplied frames come back as they were; and so do the frames of a movie, out
of the files that they are written to. -/
theorem unscaling_loses_nothing (R : Type) [Scalar R] : UnscalingLaw R where
  frames _ hpremultiplied hvalid := hvalid.returns hpremultiplied
  valid _ hpremultiplied := (Frame.premultiplyBytes_straight_iff hpremultiplied).mp
  pictures r requests i e hlatest hpremultiplied hvalid :=
    comesBack_of_read R ((PngSink.kept_after r requests).read i e hlatest) hpremultiplied hvalid
  movie _ _ s hs es r y :=
    movie_comesBack (p := ⟨s.after es, r⟩) ((s.background_after es).trans (Stage.background_create hs)) y

/-- Frames can be compared, which makes small recordings easy to check. -/
instance : DecidableEq Frame := fun f g =>
  decidable_of_iff
    (f.width = g.width ∧ f.height = g.height ∧ f.data.data = g.data.data ∧ f.premultiplied = g.premultiplied)
    (by
      obtain ⟨width, height, ⟨bytes⟩, premultiplied⟩ := f
      obtain ⟨width', height', ⟨bytes'⟩, premultiplied'⟩ := g
      simp)

/-- A pixel that lets half of the light through, and one without any color. -/
theorem unscaling_loses_nothing_twoPixels :
    let f : Frame := ⟨2, 1, ⟨#[100, 50, 0, 128, 0, 0, 0, 0]⟩, true⟩
    let requests : List SinkRequest := [.start ⟨2, 1, .standard⟩, .push 0 f, .finish]
    let r : Recording PngSink := ⟨.create "o", .empty⟩
    f.straight = ⟨#[199, 100, 0, 128, 0, 0, 0, 0]⟩ ∧ f.IsValid ∧ f.Returns ∧
      latest? (takenFrames (r.calls requests)) 0 = some (0, f) ∧
      ComesBack Rat (r.after requests).disk "o" 0 f := by
  intro f requests r
  have hlaw := unscaling_loses_nothing Rat
  have hvalid : f.IsValid := hlaw.valid f rfl (by decide +kernel)
  have hlatest : latest? (takenFrames (r.calls requests)) 0 = some (0, f) := by decide +kernel
  exact ⟨by decide +kernel, hvalid, hlaw.frames f rfl hvalid, hlatest,
    hlaw.pictures r requests 0 (0, f) hlatest rfl hvalid⟩

end Cutscene
