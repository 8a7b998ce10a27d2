import Cutscene.Movie.Memory
import Cutscene.Proofs.Movie.Pictures

/-!
# Memory in place of the disk

The sink that keeps frames in memory does not look at the order of what it is asked: it takes frames with any
index, and can be finished at any time. Where the order is kept, it answers as the sink of numbered pictures
does, and its frames are what is found on the disk. Pictures of earlier sessions stay there, and memory forgets
them.

On `InMemorySink` beside `PngSequenceSink` (SPEC_FULL.md, §B.5 and §B.12).

Results:
* `MemorySink.push_cases`: all that a push in memory can come to.
* `Twins.start`, `Twins.push`, `Twins.finish`: both sinks, asked the same.
* `memory_stands_in`: both sinks after any requests.
-/

namespace Cutscene

namespace Recording

variable {σ : Type} [Sink σ]

theorem after_concat (r : Recording σ) (requests : List SinkRequest) (q : SinkRequest) :
    r.after (requests ++ [q]) = (q.outcome (r.after requests)).2 := List.foldl_concat ..

theorem calls_concat (r : Recording σ) (requests : List SinkRequest) (q : SinkRequest) :
    r.calls (requests ++ [q]) = r.calls requests ++ [q.answered (q.outcome (r.after requests)).1] := by
  induction requests generalizing r with
  | nil => rfl
  | cons q' rest ih => exact congrArg (_ :: ·) (ih (q'.outcome r).2)

end Recording

theorem lastSession?_concat (calls : List SinkCall) (call : SinkCall) :
    lastSession? (calls ++ [call]) = call.follow (lastSession? calls) := List.foldl_concat ..

theorem takenFrames_concat (calls : List SinkCall) (call : SinkCall) :
    takenFrames (calls ++ [call]) = takenFrames calls ++ call.taken?.toList := by
  unfold takenFrames
  rw [List.filterMap_append]
  cases h : call.taken? <;> simp [h]

/-! ## The order of requests -/

/-- A sink is started for frames of some size, whose bytes can be counted in a 64-bit word. -/
def SinkRequest.IsSized : SinkRequest → Prop
  | .start c => c.width ≠ 0 ∧ c.height ≠ 0 ∧ c.width.toNat * c.height.toNat * 4 < UInt64.size
  | _ => True

instance : DecidablePred SinkRequest.IsSized
  | .start _ => inferInstanceAs (Decidable (_ ∧ _))
  | .push _ _ => .isTrue trivial
  | .finish => .isTrue trivial

/-- A request keeps the order of a session: frames come while it is open, each with an index above those of
the frames that have been taken, and only an open session is finished. -/
def SinkRequest.KeepsOrder (t : Option Session) : SinkRequest → Prop
  | .start _ => True
  | .push i _ => ∃ u, t = some u ∧ u.isOpen ∧ ∀ e ∈ u.frames, e.1 < i
  | .finish => ∃ u, t = some u ∧ u.isOpen

/-- A call fails because the disk does. -/
def SinkCall.failsToWrite (call : SinkCall) : Bool :=
  match call.answer with
  | .error (.frameFile _) => true
  | .error (.frameDirectory _) => true
  | _ => false

/-! ## Memory -/

/-- Memory takes every frame that fits the configuration of the last start, whatever its index is. -/
theorem MemorySink.push_cases (i : FrameIndex) (f : Frame) (r : Recording MemorySink) :
    (∃ e, (∀ c, r.sink.config = some c → ¬c.Fits f) ∧ push i f r = (.error e, r)) ∨
      ∃ c, r.sink.config = some c ∧ c.Fits f ∧
        push i f r = (.ok (), ⟨{ r.sink with frames := r.sink.frames ++ [(i, f)] }, r.disk⟩) := by
  unfold push
  cases r.sink.config with
  | none => exact .inl ⟨_, nofun, rfl⟩
  | some c =>
    simp only
    cases hcheck : c.checkFrame f with
    | error e =>
      refine .inl ⟨e, ?_, rfl⟩
      rintro _ ⟨⟩ hfits
      cases hcheck.symm.trans (c.checkFrame_eq_ok_iff_fits.mpr hfits)
    | ok _ => exact .inr ⟨c, rfl, c.checkFrame_eq_ok_iff_fits.mp hcheck, rfl⟩

theorem SinkConfig.inOrder_concat (c : SinkConfig) (pushed : List (FrameIndex × Frame))
    (e : FrameIndex × Frame) : c.inOrder (pushed ++ [e]) = c.takeNext (c.inOrder pushed) e :=
  List.foldl_concat ..

/-- Frames that come in order are all taken. -/
theorem SinkConfig.inOrder_of_ascending {c : SinkConfig} {pushed : List (FrameIndex × Frame)}
    (h : pushed.Pairwise fun a b => a.1 < b.1) (hfits : ∀ e ∈ pushed, c.Fits e.2) :
    c.inOrder pushed = pushed := by
  induction pushed using List.reverseRecOn with
  | nil => rfl
  | append_singleton r e ih =>
    obtain ⟨hr, -, hlast⟩ := List.pairwise_append.mp h
    rw [inOrder_concat, ih hr fun d hd => hfits d (List.mem_append_left _ hd), takeNext, if_pos]
    exact ⟨fun d hd => hlast d hd e (List.mem_singleton_self e), hfits e List.mem_concat_self⟩

/-! ## Both sinks -/

/-- A sink in memory and a sink of pictures that have been asked the same. The session is that of the
pictures, of which some have been written in all. -/
structure Twins (dir : String) (m : MemorySink) (p : Recording PngSink) (t : Option Session)
    (written : List (FrameIndex × Frame)) : Prop where
  follows : p.sink.Follows dir t
  config : m.config = t.map Session.config
  word : ∀ u, t = some u → u.config.width.toNat * u.config.height.toNat * 4 < UInt64.size
  fits : ∀ u, t = some u → ∀ e ∈ m.frames, u.config.Fits e.2
  inOrder : ∀ u, t = some u → u.isOpen → u.frames = u.config.inOrder m.frames
  earlier : ∀ u, t = some u → ∃ earlier, written = earlier ++ u.frames
  pictures : p.disk.Pictures dir written

theorem PngSink.Follows.outcome {dir : String} {p : Recording PngSink} {t : Option Session}
    (h : p.sink.Follows dir t) (q : SinkRequest) :
    (q.outcome p).2.sink.Follows dir ((q.answered (q.outcome p).1).follow t) :=
  h.next ⟨⟨p.disk, .working, none⟩, q⟩

theorem PngSink.finish_disk (p : Recording PngSink) : (Sink.finish p).2.disk = p.disk := by
  rcases finish_cases p with ⟨e, -, hfinish⟩ | ⟨c, -, hfinish⟩
  · exact congrArg (·.2.disk) hfinish
  · exact congrArg (·.2.disk) hfinish

namespace Twins

variable {dir : String} {m : Recording MemorySink} {p : Recording PngSink} {t : Option Session}
  {written : List (FrameIndex × Frame)}

/-- What both sinks answer when they are asked the same, and what they are then. -/
structure Agree (dir : String) (m : Recording MemorySink) (p : Recording PngSink) (t : Option Session)
    (written : List (FrameIndex × Frame)) (q : SinkRequest) : Prop where
  accepted_iff : (q.outcome p).1 = .ok () ↔ q.KeepsOrder t ∧ (q.outcome m).1 = .ok ()
  next : Twins dir (q.outcome m).2.sink (q.outcome p).2 ((q.answered (q.outcome p).1).follow t)
    (written ++ (q.answered (q.outcome p).1).taken?.toList)

theorem Agree.of_eq {q : SinkRequest} {a b : Except Error Unit} {m' : Recording MemorySink}
    {p' : Recording PngSink} (hp : q.outcome p = (a, p')) (hm : q.outcome m = (b, m'))
    (haccepted : a = .ok () ↔ q.KeepsOrder t ∧ b = .ok ())
    (hnext : p'.sink.Follows dir ((q.answered a).follow t) →
      Twins dir m'.sink p' ((q.answered a).follow t) (written ++ (q.answered a).taken?.toList))
    (h : Twins dir m.sink p t written) : Agree dir m p t written q := by
  have hfollows := h.follows.outcome q
  constructor
  · rw [hp, hm]
    exact haccepted
  · rw [hp] at hfollows ⊢
    rw [hm]
    exact hnext hfollows

theorem start (h : Twins dir m.sink p t written) {c : SinkConfig} (hsized : (SinkRequest.start c).IsSized)
    (hwritten : (SinkCall.start c (PngSink.start c p).1).failsToWrite = false) :
    Agree dir m p t written (.start c) := by
  obtain ⟨hwidth, hheight, hword⟩ := hsized
  rcases PngSink.start_cases c p with ⟨hzero, -⟩ | hfails | ⟨disk, hdisk, hstart⟩
  · rcases hzero with hzero | hzero
    · exact absurd hzero hwidth
    · exact absurd hzero hheight
  · rw [hfails] at hwritten
    cases hwritten
  · refine .of_eq hstart rfl (iff_of_true rfl ⟨trivial, rfl⟩) (fun hfollows => ?_) h
    refine ⟨hfollows, rfl, ?_, ?_, ?_, ?_, ?_⟩
    · rintro _ ⟨⟩
      exact hword
    · rintro _ ⟨⟩ e he
      cases he
    · rintro _ ⟨⟩ -
      rfl
    · rintro _ ⟨⟩
      exact ⟨written, rfl⟩
    · rw [h.follows.dir] at hdisk
      exact (List.append_nil written).symm ▸ h.pictures.makeDirectories hdisk

/-- Pictures are taken of frames that memory takes, as long as the order is kept. -/
theorem accept_iff (h : Twins dir m.sink p t written) {i : FrameIndex} {f : Frame} {picture : Content} :
    p.sink.accept i f = .ok picture ↔ picture = f.still ∧
      ∃ u, t = some u ∧ u.isOpen ∧ (∀ e ∈ u.frames, e.1 < i) ∧ u.config.Fits f := by
  rw [h.follows.accept_iff]
  constructor
  · rintro ⟨u, hu, hadmits, hlength, hword, hpicture⟩
    refine ⟨hpicture, u, hu, hadmits.isOpen, hadmits.above, hadmits.width, hadmits.height, ?_⟩
    rw [Nat.mod_eq_of_lt (h.word u hu)]
    exact hlength
  · rintro ⟨hpicture, u, hu, hopen, habove, hwidth, hheight, hlength⟩
    rw [Nat.mod_eq_of_lt (h.word u hu)] at hlength
    exact ⟨u, hu, ⟨hopen, hwidth, hheight, habove⟩, hlength, hlength ▸ h.word u hu, hpicture⟩

/-- A frame that memory takes out of order is not among those that come in order. -/
theorem keep (h : Twins dir m.sink p t written) {i : FrameIndex} {f : Frame} {c : SinkConfig}
    (hc : m.sink.config = some c) (hfits : c.Fits f) (hout : ¬(SinkRequest.push i f).KeepsOrder t) :
    Twins dir { m.sink with frames := m.sink.frames ++ [(i, f)] } p t written := by
  have hconfig : ∀ u, t = some u → u.config = c := by
    rintro u rfl
    exact Option.some_inj.mp (h.config.symm.trans hc)
  refine ⟨h.follows, h.config, h.word, fun u hu e he => ?_, fun u hu hopen => ?_, h.earlier, h.pictures⟩
  · rcases List.mem_append.mp he with he | he
    · exact h.fits u hu e he
    · rw [List.mem_singleton.mp he, hconfig u hu]
      exact hfits
  · rw [SinkConfig.inOrder_concat, ← h.inOrder u hu hopen, SinkConfig.takeNext, if_neg]
    exact fun hin => hout ⟨u, hu, hopen, hin.1⟩

theorem push (h : Twins dir m.sink p t written) {i : FrameIndex} {f : Frame}
    (hwritten : (SinkCall.push i f (PngSink.push i f p).1).failsToWrite = false) :
    Agree dir m p t written (.push i f) := by
  rcases PngSink.push_cases i f p with ⟨e, hrefused, hpush⟩ |
    ⟨picture, haccept, hfails | ⟨disk, hdisk, hpush⟩⟩
  · rcases MemorySink.push_cases i f m with ⟨e', -, hmemory⟩ | ⟨c, hc, hfits, hmemory⟩
    · refine .of_eq hpush hmemory (iff_of_false nofun nofun) (fun _ => ?_) h
      exact (List.append_nil written).symm ▸ h
    · have hout : ¬(SinkRequest.push i f).KeepsOrder t := by
        rintro ⟨u, rfl, hopen, habove⟩
        have hu : u.config = c := Option.some_inj.mp (h.config.symm.trans hc)
        cases hrefused.symm.trans (h.accept_iff.mpr ⟨rfl, u, rfl, hopen, habove, hu ▸ hfits⟩)
      refine .of_eq hpush hmemory (iff_of_false nofun fun haccepted => hout haccepted.1) (fun _ => ?_) h
      exact (List.append_nil written).symm ▸ h.keep hc hfits hout
  · rw [hfails] at hwritten
    cases hwritten
  · obtain ⟨rfl, u, rfl, hopen, habove, hfits⟩ := h.accept_iff.mp haccept
    rcases MemorySink.push_cases i f m with ⟨e', hnone, -⟩ | ⟨c, -, -, hmemory⟩
    · exact absurd hfits (hnone u.config h.config)
    · refine .of_eq hpush hmemory (iff_of_true rfl ⟨⟨u, rfl, hopen, habove⟩, rfl⟩) (fun hfollows => ?_) h
      refine ⟨hfollows, h.config, ?_, ?_, ?_, ?_, h.pictures.write h.follows.dir hdisk⟩
      · rintro _ ⟨⟩
        exact h.word u rfl
      · rintro _ ⟨⟩ e he
        rcases List.mem_append.mp he with he | he
        · exact h.fits u rfl e he
        · rw [List.mem_singleton.mp he]
          exact hfits
      · rintro _ ⟨⟩ -
        rw [SinkConfig.inOrder_concat, ← h.inOrder u rfl hopen, SinkConfig.takeNext, if_pos ⟨habove, hfits⟩]
      · rintro _ ⟨⟩
        obtain ⟨earlier, rfl⟩ := h.earlier u rfl
        exact ⟨earlier, List.append_assoc ..⟩

theorem finish (h : Twins dir m.sink p t written) : Agree dir m p t written .finish := by
  have hclosed : ∀ p', p'.disk = p.disk → p'.sink.Follows dir (t.map fun u => { u with isOpen := false }) →
      Twins dir { m.sink with ended := true } p' (t.map fun u => { u with isOpen := false }) (written ++ []) := by
    intro p' hdisk hfollows
    rw [List.append_nil]
    refine ⟨hfollows, ?_, ?_, ?_, ?_, ?_, hdisk ▸ h.pictures⟩
    · rw [Option.map_map]
      exact h.config
    · intro u hu
      obtain ⟨u, rfl, rfl⟩ := Option.map_eq_some_iff.mp hu
      exact h.word u rfl
    · intro u hu
      obtain ⟨u, rfl, rfl⟩ := Option.map_eq_some_iff.mp hu
      exact h.fits u rfl
    · intro u hu hopen
      obtain ⟨u, rfl, rfl⟩ := Option.map_eq_some_iff.mp hu
      cases hopen
    · intro u hu
      obtain ⟨u, rfl, rfl⟩ := Option.map_eq_some_iff.mp hu
      exact h.earlier u rfl
  have hconfig := h.follows.config
  rcases PngSink.finish_cases p with ⟨e, hnone, hfinish⟩ | ⟨c, hc, hfinish⟩
  · refine .of_eq hfinish rfl (iff_of_false nofun ?_) (hclosed p rfl) h
    rintro ⟨⟨u, rfl, hopen⟩, -⟩
    rw [hnone] at hconfig
    simp [Session.openConfig?, hopen] at hconfig
  · refine .of_eq hfinish rfl (iff_of_true rfl ⟨?_, rfl⟩) (hclosed _ rfl) h
    rw [hc] at hconfig
    obtain ⟨u, rfl, hu⟩ := Option.bind_eq_some_iff.mp hconfig.symm
    unfold Session.openConfig? at hu
    split_ifs at hu with hopen
    exact ⟨u, rfl, hopen⟩

/-- Whatever both sinks are asked, they stay twins. -/
theorem agree (h : Twins dir m.sink p t written) {q : SinkRequest} (hsized : q.IsSized)
    (hwritten : (q.answered (q.outcome p).1).failsToWrite = false) : Agree dir m p t written q := by
  cases q with
  | start c => exact h.start hsized hwritten
  | push i f => exact h.push hwritten
  | finish => exact h.finish

/-- Both sinks after the same requests. -/
theorem after (h : Twins dir m.sink p none []) {requests : List SinkRequest}
    (hsized : ∀ q ∈ requests, q.IsSized) (hwritten : ∀ call ∈ p.calls requests, call.failsToWrite = false) :
    Twins dir (m.after requests).sink (p.after requests) (lastSession? (p.calls requests))
      (takenFrames (p.calls requests)) := by
  induction requests using List.reverseRecOn with
  | nil => exact h
  | append_singleton rest q ih =>
    rw [Recording.calls_concat] at hwritten
    have hrest := ih (fun q' hq' => hsized q' (List.mem_append_left _ hq'))
      fun call hcall => hwritten call (List.mem_append_left _ hcall)
    rw [Recording.after_concat, Recording.after_concat, Recording.calls_concat, lastSession?_concat,
      takenFrames_concat]
    exact (hrest.agree (hsized q List.mem_concat_self) (hwritten _ List.mem_concat_self)).next

end Twins

/-! ## Any requests -/

/-- How a sink in memory stands in for a sink of pictures that has been asked the same, with these calls. -/
structure StandsIn (dir : String) (m : Recording MemorySink) (p : Recording PngSink) (calls : List SinkCall) :
    Prop where
  /-- Any request is accepted for pictures just if it keeps the order and is accepted in memory. -/
  accepted_iff : ∀ q : SinkRequest, q.IsSized → (q.answered (q.outcome p).1).failsToWrite = false →
    ((q.outcome p).1 = .ok () ↔ q.KeepsOrder (lastSession? calls) ∧ (q.outcome m).1 = .ok ())
  /-- When a session is finished, the directory has the pictures of those frames in memory that came in order,
  and for other indices the pictures that earlier sessions have left. -/
  files : (Sink.finish p).1 = .ok () → ∃ c earlier, m.sink.config = some c ∧
    takenFrames calls = earlier ++ c.inOrder m.sink.frames ∧
    ∀ rest ≠ [], ∀ entry, Disk.entry? (Sink.finish p).2.disk (pathSegments dir ++ rest) = some entry ↔
      ∃ i e, (e ∈ c.inOrder m.sink.frames ∧ e.1 = i ∨
          (∀ d ∈ c.inOrder m.sink.frames, d.1 ≠ i) ∧ latest? earlier i = some e) ∧
        rest = [PngSink.fileName i] ∧ entry = .file e.2.still
  /-- They are all the frames in memory, if their indices ascend. -/
  ascending : (m.sink.frames.Pairwise fun a b => a.1 < b.1) → ∀ c, m.sink.config = some c →
    c.inOrder m.sink.frames = m.sink.frames

/-- **Memory stands in for the disk** where the order is kept: asked the same, both sinks accept the same, and
the frames in memory are the ones in the directory, next to what earlier sessions have left there. -/
theorem memory_stands_in (dir : String) (disk disk' : Disk)
    (hempty : ∀ rest ≠ [], disk.entry? (pathSegments dir ++ rest) = none) (requests : List SinkRequest)
    (hsized : ∀ q ∈ requests, q.IsSized)
    (hwritten : ∀ call ∈ (⟨.create dir, disk⟩ : Recording PngSink).calls requests, call.failsToWrite = false) :
    StandsIn dir ((⟨.empty, disk'⟩ : Recording MemorySink).after requests)
      ((⟨.create dir, disk⟩ : Recording PngSink).after requests)
      ((⟨.create dir, disk⟩ : Recording PngSink).calls requests) := by
  have hcreated : Twins dir MemorySink.empty ⟨.create dir, disk⟩ none [] := by
    refine ⟨PngSink.follows_create dir, rfl, nofun, nofun, nofun, nofun, fun rest hrest entry => ?_⟩
    rw [hempty rest hrest]
    refine iff_of_false nofun ?_
    rintro ⟨i, e, hlatest, -⟩
    cases hlatest
  have h := hcreated.after (m := ⟨.empty, disk'⟩) hsized hwritten
  refine ⟨fun q hq hfails => (h.agree hq hfails).accepted_iff, fun hfinish => ?_, fun hascending c hc => ?_⟩
  · obtain ⟨⟨u, hu, hopen⟩, -⟩ := h.finish.accepted_iff.mp hfinish
    obtain ⟨earlier, hearlier⟩ := h.earlier u hu
    have hpictures := h.pictures
    have hascending := h.follows.ascending u hu
    rw [hearlier] at hpictures
    rw [h.inOrder u hu hopen] at hearlier hpictures hascending
    refine ⟨u.config, earlier, h.config.trans (congrArg _ hu), hearlier, fun rest hrest entry => ?_⟩
    rw [PngSink.finish_disk, hpictures rest hrest entry]
    simp only [latest?_append_of_ascending hascending]
  · obtain ⟨u, hu, rfl⟩ := Option.map_eq_some_iff.mp (h.config.symm.trans hc)
    exact SinkConfig.inOrder_of_ascending hascending (h.fits u hu)

/-- Two movies of a pixel each go into the same directory, the first one with an index that comes twice. -/
theorem memory_stands_in_twoMovies :
    let c : SinkConfig := ⟨1, 1, .standard⟩
    let f : Frame := ⟨1, 1, zeroBytes 4, true⟩
    let requests := [.start c, .push 0 f, .push 0 f, .push 1 f, .finish, .start c, .push 0 f]
    let m : Recording MemorySink := ⟨.empty, .empty⟩
    let p : Recording PngSink := ⟨.create "o", .empty⟩
    (∀ rest ≠ [], p.disk.entry? (pathSegments "o" ++ rest) = none) ∧ (∀ q ∈ requests, q.IsSized) ∧
      (∀ call ∈ p.calls requests, call.failsToWrite = false) ∧
      StandsIn "o" (m.after requests) (p.after requests) (p.calls requests) := by
  intro c f requests m p
  have hempty : ∀ rest ≠ [], p.disk.entry? (pathSegments "o" ++ rest) = none :=
    fun rest hrest => if_neg fun hnil => hrest (List.append_eq_nil_iff.mp hnil).2
  have hsized : ∀ q ∈ requests, q.IsSized := by decide +kernel
  have hwritten : ∀ call ∈ p.calls requests, call.failsToWrite = false := by decide +kernel
  exact ⟨hempty, hsized, hwritten, memory_stands_in "o" .empty .empty hempty requests hsized hwritten⟩

/-- Memory can be finished before it is started, where pictures cannot. And with a second movie in the same
directory a picture of the first one stays there that memory has forgotten. -/
theorem sinks_disagree :
    let c : SinkConfig := ⟨1, 1, .standard⟩
    let f : Frame := ⟨1, 1, zeroBytes 4, true⟩
    let requests := [.start c, .push 0 f, .push 1 f, .finish, .start c, .push 0 f]
    let m : Recording MemorySink := ⟨.empty, .empty⟩
    let p : Recording PngSink := ⟨.create "o", .empty⟩
    ((Sink.finish m).1 = .ok () ∧ (Sink.finish p).1 ≠ .ok ()) ∧
      (∀ call ∈ p.calls requests, call.answer = .ok ()) ∧ (Sink.finish (p.after requests)).1 = .ok () ∧
      (m.after requests).sink.frames.map Prod.fst = [0] ∧
      (Sink.finish (p.after requests)).2.disk.isFile "o/frame_000001.png" := by
  decide +kernel

end Cutscene
