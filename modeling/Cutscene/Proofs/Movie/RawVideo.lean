import Cutscene.Proofs.Movie.Sessions
import Cutscene.Proofs.Picture.Pixels

/-!
# What the encoder reads

The encoder reads bytes that nothing divides into frames, so one byte too many or too few would shift all
that follows. What a session sends is told from what is pushed alone: the frames that come in order, each as a
block of bytes without any transparency.

On `FfmpegSink.push_frame` and `flatten_over_bg` (SPEC_FULL.md, §B.12).

Results:
* `toNat_flattenByte`: valid premultiplied colors need no clamp over a background.
* `Frame.flattened_premultiply`: scaling the colors by their alpha beforehand makes no difference.
* `IsSolid.concat`: blocks without transparency give a stream without transparency.
* `VideoSink.Streams.push`: what a push adds to what the encoder reads.
* `raw_video_faithful`: what the encoder reads in a session.
-/

namespace Cutscene

/-! ## Frames over a background -/

/-- A premultiplied color that a straight color can be scaled to. -/
structure Color.IsValid (c : Color) : Prop where
  r : c.r ≤ c.a
  g : c.g ≤ c.a
  b : c.b ≤ c.a

/-- What is scaled by an alpha and what shows through behind it do not exceed a byte, so nothing is clamped. -/
theorem toNat_flattenByte {c a : UInt8} (h : c ≤ a) (background : UInt8) :
    (flattenByte true c a background).toNat = c.toNat + (scaleByte background (255 - a)).toNat := by
  have hc := UInt8.le_iff_toNat_le.mp h
  have ha := a.toNat_lt
  have hrest : (255 - a).toNat = 255 - a.toNat :=
    UInt8.toNat_sub_of_le 255 a (UInt8.le_iff_toNat_le.mpr (Nat.le_of_lt_succ ha))
  have hunder := scaleByte_le background (255 - a)
  unfold flattenByte
  simp only [if_true]
  rw [Nat.toUInt8_eq, UInt8.toNat_ofNat']
  omega

@[simp] theorem flattenColor_a (premultiplied : Bool) (background c : Color) :
    (flattenColor premultiplied background c).a = 255 := by
  unfold flattenColor
  split_ifs with hfull
  · exact hfull
  · rfl

theorem flattenColor_of_full {c : Color} (h : c.a = 255) (premultiplied : Bool) (background : Color) :
    flattenColor premultiplied background c = c := if_pos h

/-- A valid premultiplied color over a background. -/
theorem toNat_flattenColor {c : Color} (h : c.IsValid) (background : Color) :
    let flat := flattenColor true background c
    flat.r.toNat = c.r.toNat + (scaleByte background.r (255 - c.a)).toNat ∧
      flat.g.toNat = c.g.toNat + (scaleByte background.g (255 - c.a)).toNat ∧
      flat.b.toNat = c.b.toNat + (scaleByte background.b (255 - c.a)).toNat := by
  by_cases hfull : c.a = 255
  · -- Nothing shows through.
    have hunder : ∀ x, (scaleByte x (255 - c.a)).toNat = 0 := by
      intro x
      have hrest : (255 - c.a).toNat = 0 := by rw [hfull]; rfl
      have hle := scaleByte_le x (255 - c.a)
      omega
    rw [flattenColor_of_full hfull, hunder, hunder, hunder]
    exact ⟨rfl, rfl, rfl⟩
  · unfold flattenColor
    rw [if_neg hfull]
    exact ⟨toNat_flattenByte h.r _, toNat_flattenByte h.g _, toNat_flattenByte h.b _⟩

/-- Over a background, a straight color and what it is scaled to are the same. -/
theorem flattenColor_premultiplied (background c : Color) :
    flattenColor true background c.premultiplied = flattenColor false background c := by
  unfold flattenColor
  have ha : c.premultiplied.a = c.a := rfl
  rw [ha]
  split_ifs with hfull
  · exact Color.premultiplied_of_full hfull
  · rfl

namespace Frame

/-- A frame over a background: the bytes that the encoder is sent. -/
def flattened (f : Frame) (background : Color) : ByteArray :=
  mapPixels (flattenColor f.premultiplied background) f.data

/-- A frame with its straight colors scaled by their alpha. -/
def premultiply (f : Frame) : Frame := { f with data := premultiplyBytes f.data, premultiplied := true }

variable {f : Frame} {k : Nat}

@[simp] theorem size_flattened (f : Frame) (background : Color) :
    (f.flattened background).size = f.data.size := size_mapPixels

theorem colorAt_flattened (background : Color) (h : 4 * k + 4 ≤ f.data.size) :
    colorAt (f.flattened background) (4 * k) =
      flattenColor f.premultiplied background (colorAt f.data (4 * k)) := colorAt_mapPixels h

/-- The encoder is sent the same whether the colors were scaled beforehand or not. -/
theorem flattened_premultiply (h : f.premultiplied = false) (background : Color) :
    f.premultiply.flattened background = f.flattened background := by
  calc
    f.premultiply.flattened background
        = mapPixels (flattenColor true background) (mapPixels Color.premultiplied f.data) := rfl
    _ = mapPixels (fun c => flattenColor true background c.premultiplied) f.data := mapPixels_mapPixels ..
    _ = mapPixels (flattenColor false background) f.data :=
      mapPixels_congr fun _ _ => flattenColor_premultiplied ..
    _ = f.flattened background := by rw [flattened, h]

/-- A buffer of the right length takes the frame, whatever was in it before. -/
theorem flattenInto_eq_ok {buffer : ByteArray} (hsize : buffer.size = f.data.size)
    (hwhole : f.data.size % 4 = 0) (background : Color) :
    f.flattenInto buffer background = .ok (f.flattened background) := by
  unfold flattenInto flattened
  rw [if_neg (by omega), writePixels_eq_mapPixels hsize hwhole]

end Frame

/-! ## Streams -/

/-- Blocks of bytes one after another. -/
def concatBytes (blocks : List ByteArray) : ByteArray := blocks.foldl (· ++ ·) .empty

theorem concatBytes_append (blocks : List ByteArray) (b : ByteArray) :
    concatBytes (blocks ++ [b]) = concatBytes blocks ++ b := List.foldl_concat ..

/-- Whole pixels, none of them transparent in the least. -/
structure IsSolid (data : ByteArray) : Prop where
  whole : data.size % 4 = 0
  full : ∀ k < data.size, k % 4 = 3 → byteAt data k = 255

namespace IsSolid

theorem append {a b : ByteArray} (ha : IsSolid a) (hb : IsSolid b) : IsSolid (a ++ b) where
  whole := by
    have := ha.whole
    have := hb.whole
    rw [ByteArray.size_append]
    omega
  full k hk hplace := by
    have hwhole := ha.whole
    rw [ByteArray.size_append] at hk
    rw [byteAt_append]
    split_ifs with hleft
    · exact ha.full k hleft hplace
    · exact hb.full (k - a.size) (by omega) (by omega)

/-- Every alpha of a stream stands where it stands in a block: the blocks before it are of whole pixels. -/
theorem concat {blocks : List ByteArray} (h : ∀ b ∈ blocks, IsSolid b) : IsSolid (concatBytes blocks) := by
  induction blocks using List.reverseRecOn with
  | nil => exact ⟨rfl, fun k hk => absurd hk (Nat.not_lt_zero k)⟩
  | append_singleton r b ih =>
    rw [concatBytes_append]
    exact (ih fun b hb => h b (List.mem_append_left _ hb)).append (h b List.mem_concat_self)

theorem flattened {f : Frame} (hwhole : f.data.size % 4 = 0) (background : Color) :
    IsSolid (f.flattened background) where
  whole := by rwa [Frame.size_flattened]
  full k hk hplace := by
    rw [Frame.size_flattened] at hk
    unfold Frame.flattened
    rw [byteAt_mapPixels hk, if_pos (by omega), hplace]
    exact flattenColor_a _ _ _

end IsSolid

/-! ## Pushing frames -/

/-- The data of frames is as long as the size of the session asks for, counted in a 64-bit word: whole pixels
in any case. -/
theorem SinkConfig.dataLength_whole (c : SinkConfig) : c.dataLength.toNat % 4 = 0 := by
  have hword : 4 ∣ UInt64.size := by decide
  rw [c.toNat_dataLength, Nat.mod_mod_of_dvd _ hword, Nat.mul_mod_left]

/-- Frames that come in order are as long as the frames of the session. -/
theorem SinkConfig.fits_of_mem_inOrder {c : SinkConfig} {pushed : List (FrameIndex × Frame)}
    {e : FrameIndex × Frame} (h : e ∈ c.inOrder pushed) : c.Fits e.2 := by
  unfold inOrder at h
  induction pushed using List.reverseRecOn with
  | nil => cases h
  | append_singleton r d ih =>
    rw [List.foldl_concat, takeNext] at h
    split_ifs at h with htaken
    · rcases List.mem_append.mp h with h | h
      · exact ih h
      · rw [List.mem_singleton.mp h]
        exact htaken.2
    · exact ih h

/-- Requests to push some frames. -/
def pushing (frames : List (FrameIndex × Frame)) : List SinkRequest :=
  frames.map fun e => .push e.1 e.2

namespace VideoSink

/-- A sink in a session that has sent some frames. -/
structure Streams (o : VideoOptions) (c : SinkConfig) (frames : List (FrameIndex × Frame))
    (s : VideoSink) : Prop where
  options : s.options = o
  config : s.config = some c
  buffer : s.buffer.size = c.dataLength.toNat
  ascending : frames.Pairwise fun a b => a.1 < b.1
  last : s.last = frames.getLast?.map Prod.fst
  running : s.running =
    some ⟨args o c, concatBytes (frames.map fun e => e.2.flattened o.background)⟩

variable {o : VideoOptions} {c : SinkConfig} {frames : List (FrameIndex × Frame)}
  {r : Recording VideoSink} {i : FrameIndex} {f : Frame}

theorem Streams.start (h : (Sink.start c r).1 = .ok ()) :
    (Sink.start c r).2.sink.Streams r.sink.options c [] := by
  rcases start_cases c r with ⟨e, disk, hstart⟩ | ⟨disk, -, hstart⟩
  · cases h.symm.trans (congrArg Prod.fst hstart)
  · have hnext : Sink.start c r = _ := hstart
    rw [hnext]
    refine ⟨rfl, rfl, ?_, .nil, rfl, rfl⟩
    exact size_zeroBytes _

/-- What is accepted comes in order. -/
theorem Streams.accept_iff (h : r.sink.Streams o c frames) :
    r.sink.accept i f = .ok () ↔ (∀ d ∈ frames, d.1 < i) ∧ c.Fits f := by
  rw [accept_eq_ok_iff, h.config, h.last, forall_lt_iff_of_ascending h.ascending]
  simp [SinkConfig.Fits, SinkConfig.toNat_dataLength]

/-- A frame that is accepted is sent whole, unless the pipe breaks. -/
theorem Streams.push (h : r.sink.Streams o c frames) (haccept : r.sink.accept i f = .ok ())
    (hpipe : (push i f r).1 ≠ .error .pipeBroken) :
    (VideoSink.push i f r).1 = .ok () ∧
      (VideoSink.push i f r).2.sink.Streams o c (frames ++ [(i, f)]) := by
  obtain ⟨habove, -, -, hlength⟩ := h.accept_iff.mp haccept
  rw [← c.toNat_dataLength] at hlength
  have hflat : f.flattenInto r.sink.buffer r.sink.options.background = .ok (f.flattened o.background) := by
    rw [h.options]
    exact f.flattenInto_eq_ok (h.buffer.trans hlength.symm) (hlength ▸ c.dataLength_whole) _
  rcases push_cases i f r with ⟨e, hrefused, -⟩ | ⟨-, ⟨e, herror, -⟩ | ⟨buffer, hbuffer, ⟨hnone, -⟩ |
    ⟨run, hrun, ⟨broken, hpush⟩ | hpush⟩⟩⟩
  · cases haccept.symm.trans hrefused
  · cases hflat.symm.trans herror
  · cases h.running.symm.trans hnone
  · exact absurd (congrArg Prod.fst hpush) hpipe
  · cases hflat.symm.trans hbuffer
    cases h.running.symm.trans hrun
    rw [hpush]
    refine ⟨rfl, h.options, h.config, ?_, ascending_append h.ascending habove f, ?_, ?_⟩
    · exact (Frame.size_flattened f _).trans hlength
    · rw [List.getLast?_concat]
      rfl
    · rw [List.map_append, List.map_singleton, concatBytes_append]

/-- What is pushed in a session is taken if it comes in order, and only that is sent. -/
theorem Streams.after (h : r.sink.Streams o c frames) (pushes : List (FrameIndex × Frame))
    (hpipe : ∀ call ∈ r.calls (pushing pushes), call.answer ≠ .error .pipeBroken) :
    frames ++ takenFrames (r.calls (pushing pushes)) = pushes.foldl c.takeNext frames ∧
      (r.after (pushing pushes)).sink.Streams o c (pushes.foldl c.takeNext frames) := by
  induction pushes generalizing r frames with
  | nil => exact ⟨List.append_nil frames, h⟩
  | cons e rest ih =>
    obtain ⟨i, f⟩ := e
    have hcalls : r.calls (pushing ((i, f) :: rest)) =
        .push i f (VideoSink.push i f r).1 :: (VideoSink.push i f r).2.calls (pushing rest) := rfl
    have hafter : r.after (pushing ((i, f) :: rest)) =
        (VideoSink.push i f r).2.after (pushing rest) := rfl
    rw [hcalls] at hpipe ⊢
    rw [hafter, List.foldl_cons, SinkConfig.takeNext]
    obtain ⟨hpush, hrest⟩ := List.forall_mem_cons.mp hpipe
    cases haccept : r.sink.accept i f with
    | error e =>
      have hrefused : VideoSink.push i f r = (.error e, r) := by
        unfold VideoSink.push
        rw [haccept]
        rfl
      rw [hrefused] at hrest
      rw [hrefused, if_neg fun htaken => nomatch haccept.symm.trans (h.accept_iff.mpr htaken)]
      exact ih h hrest
    | ok _ =>
      obtain ⟨hok, hstreams⟩ := h.push haccept hpush
      obtain ⟨htaken, hafter⟩ := ih hstreams hrest
      rw [if_pos (h.accept_iff.mp haccept), hok]
      exact ⟨(List.append_cons frames (i, f) _).trans htaken, hafter⟩

end VideoSink

/-! ## Sessions -/

/-- What the encoder is sent of the frames that are pushed in a session, when some of them are taken. -/
structure RawStream (c : SinkConfig) (background : Color) (pushed taken : List (FrameIndex × Frame))
    (sent : ByteArray) : Prop where
  inOrder : taken = c.inOrder pushed
  blocks : sent = concatBytes (taken.map fun e => e.2.flattened background)
  /-- Four bytes for each pixel are counted in a 64-bit word. -/
  length : ∀ e ∈ taken, (e.2.flattened background).size = c.width.toNat * c.height.toNat * 4 % UInt64.size
  solid : ∀ k < sent.size, k % 4 = 3 → byteAt sent k = 255
  unchanged : ∀ e ∈ taken, ∀ k, 4 * k + 4 ≤ e.2.data.size → (colorAt e.2.data (4 * k)).a = 255 →
    colorAt (e.2.flattened background) (4 * k) = colorAt e.2.data (4 * k)
  premultiplied : ∀ e ∈ taken, e.2.premultiplied = false →
    e.2.premultiply.flattened background = e.2.flattened background
  /-- The bytes sent for valid colors are sums as they are, without a clamp. -/
  unclamped : ∀ e ∈ taken, e.2.premultiplied = true → ∀ k, 4 * k + 4 ≤ e.2.data.size →
    (colorAt e.2.data (4 * k)).IsValid →
    let c := colorAt e.2.data (4 * k)
    let flat := colorAt (e.2.flattened background) (4 * k)
    flat.r.toNat = c.r.toNat + (scaleByte background.r (255 - c.a)).toNat ∧
      flat.g.toNat = c.g.toNat + (scaleByte background.g (255 - c.a)).toNat ∧
      flat.b.toNat = c.b.toNat + (scaleByte background.b (255 - c.a)).toNat

/-- **What the encoder reads in a session** whose pipe does not break: the frames that come in order, one block
after another, and nothing for the others. -/
theorem raw_video_faithful (c : SinkConfig) (r₀ : Recording VideoSink)
    (hstart : (Sink.start c r₀).1 = .ok ()) (pushes : List (FrameIndex × Frame))
    (hpipe : ∀ call ∈ (Sink.start c r₀).2.calls (pushing pushes), call.answer ≠ .error .pipeBroken) :
    let r := (Sink.start c r₀).2
    ∃ run : EncoderRun, run.args = VideoSink.args r₀.sink.options c ∧
      (r.after (pushing pushes)).sink.running = some run ∧
      (Sink.finish (r.after (pushing pushes))).2.sink.finished = some run ∧
      RawStream c r₀.sink.options.background pushes (takenFrames (r.calls (pushing pushes))) run.input := by
  intro r
  obtain ⟨htaken, hafter⟩ := (VideoSink.Streams.start hstart).after pushes hpipe
  rw [List.nil_append] at htaken
  have hfits : ∀ e ∈ pushes.foldl c.takeNext [], c.Fits e.2 := fun e he => c.fits_of_mem_inOrder he
  refine ⟨_, rfl, hafter.running, ?_, ?_⟩
  · rcases VideoSink.finish_cases (r.after (pushing pushes)) with ⟨e, hnone, -⟩ | ⟨run, a, config, hrun, hfinish⟩
    · cases hafter.running.symm.trans hnone
    · have hfinish : Sink.finish (r.after (pushing pushes)) = _ := hfinish
      rw [hfinish]
      exact hrun.symm.trans hafter.running
  · rw [htaken]
    refine ⟨rfl, rfl, fun e he => ?_, ?_, fun e he k hk hfull => ?_, fun e _ hstraight => ?_,
      fun e _ hscaled k hk hvalid => ?_⟩
    · rw [Frame.size_flattened, (hfits e he).2.2]
    · refine (IsSolid.concat fun b hb => ?_).full
      obtain ⟨e, he, rfl⟩ := List.mem_map.mp hb
      refine IsSolid.flattened ?_ _
      rw [(hfits e he).2.2, ← c.toNat_dataLength]
      exact c.dataLength_whole
    · rw [Frame.colorAt_flattened _ hk, flattenColor_of_full hfull]
    · exact Frame.flattened_premultiply hstraight _
    · rw [Frame.colorAt_flattened _ hk, hscaled]
      exact toNat_flattenColor hvalid _

/-- Two frames of 2 by 2 pixels, and between them one that comes with an index that was taken. -/
theorem raw_video_faithful_twoFrames :
    let c : SinkConfig := ⟨2, 2, .standard⟩
    let r₀ : Recording VideoSink := ⟨.create ⟨"movie.mp4", true, .white⟩ .working, .empty⟩
    let clear : Frame := ⟨2, 2, zeroBytes 16, true⟩
    let mixed : Frame := ⟨2, 2, bytesOfFn 16 fun i => (i * 16).toUInt8, false⟩
    let r := (Sink.start c r₀).2
    let requests := pushing [(0, mixed), (0, clear), (1, clear)]
    (Sink.start c r₀).1 = .ok () ∧ (∀ call ∈ r.calls requests, call.answer ≠ .error .pipeBroken) ∧
      ∃ run : EncoderRun, run.args = VideoSink.args r₀.sink.options c ∧
        (r.after requests).sink.running = some run ∧
        (Sink.finish (r.after requests)).2.sink.finished = some run ∧
        RawStream c .white [(0, mixed), (0, clear), (1, clear)] (takenFrames (r.calls requests)) run.input := by
  refine ⟨by decide +kernel, by decide +kernel, ?_⟩
  exact raw_video_faithful _ _ (by decide +kernel) _ (by decide +kernel)

/-- A frame of 2 ^ 31 by 2 ^ 31 pixels is taken without any data, and nothing is sent for it. -/
theorem empty_frame_sent :
    let c : SinkConfig := ⟨2147483648, 2147483648, .standard⟩
    let f : Frame := ⟨2147483648, 2147483648, .empty, true⟩
    let start := Sink.start c (⟨.create ⟨"movie.mp4", true, .black⟩ .working, .empty⟩ : Recording VideoSink)
    let push := Sink.push 0 f start.2
    start.1 = .ok () ∧ push.1 = .ok () ∧ push.2.sink.running.map (fun run => run.input.size) = some 0 ∧
      0 ≠ c.width.toNat * c.height.toNat * 4 := by
  decide +kernel

end Cutscene
