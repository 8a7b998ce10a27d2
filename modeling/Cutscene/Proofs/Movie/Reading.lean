import Mathlib.Data.List.Basic
import Cutscene.Asset.Library
import Cutscene.Proofs.Movie.Pictures
import Cutscene.Proofs.Movie.StandIn

/-!
# Pictures that are read

What has been written to the disk can be read from there, as long as nothing else is written to its place: no
other file, and no directory on the way to it. So the pictures of a sink can be read whatever it is asked
afterwards, and are loaded as sprites of one frame.

Results:
* `Disk.follow_cons_eq_ok_iff`: a step on the way to a file.
* `Disk.read_eq_ok_iff`, `Disk.conditions_of_write?`: what reading and writing ask for.
* `Disk.read_write`, `Disk.read_of_write_ne`, `Disk.read_makeDirectories`: what is read after a change.
* `exists_loadSprite`: what a picture is loaded as.
* `PngSink.kept_after`: after any requests the last frame of each index can be read.
-/

namespace Cutscene

/-! ## The disk -/

namespace Disk

variable {d d' : Disk} {reached segments front s : List String} {name path other : String} {e : Entry}
  {c c' : Content}

@[simp] theorem follow_nil_eq_ok_iff : d.follow reached [] = .ok e ↔ d.entry? reached = some e := by
  unfold follow
  cases d.entry? reached <;> simp

/-- A step downward leads from a directory, by a name that is not too long. -/
@[simp] theorem follow_cons_eq_ok_iff : d.follow reached (name :: front) = .ok e ↔
    d.entry? reached = some .directory ∧ name.utf8ByteSize ≤ 255 ∧
      d.follow (reached ++ [name]) front = .ok e := by
  rw [follow]
  rcases d.entry? reached with _ | _ | content
  · simp
  · by_cases hlong : 255 < name.utf8ByteSize
    · simp [hlong, Nat.not_le.mpr hlong]
    · simp [hlong, Nat.not_lt.mp hlong]
  · simp

/-- What is reached stays reachable while its directories stay. -/
theorem follow_of_directories (hdirs : ∀ s, d.entry? s = some .directory → d'.entry? s = some .directory)
    (h : d.follow reached segments = .ok e) (hentry : d'.entry? (reached ++ segments) = some e) :
    d'.follow reached segments = .ok e := by
  induction segments generalizing reached with
  | nil => exact follow_nil_eq_ok_iff.mpr (List.append_nil reached ▸ hentry)
  | cons a r ih =>
    obtain ⟨hdir, hname, h⟩ := follow_cons_eq_ok_iff.mp h
    rw [List.append_cons] at hentry
    exact follow_cons_eq_ok_iff.mpr ⟨hdirs _ hdir, hname, ih h hentry⟩

/-- From a directory it is one more step to what stands in it. -/
theorem follow_concat (h : d.follow reached front = .ok .directory) (hname : name.utf8ByteSize ≤ 255)
    (hentry : d.entry? (reached ++ front ++ [name]) = some e) :
    d.follow reached (front ++ [name]) = .ok e := by
  induction front generalizing reached with
  | nil =>
    rw [List.append_nil] at hentry
    exact follow_cons_eq_ok_iff.mpr ⟨follow_nil_eq_ok_iff.mp h, hname, follow_nil_eq_ok_iff.mpr hentry⟩
  | cons a r ih =>
    obtain ⟨hdir, ha, h⟩ := follow_cons_eq_ok_iff.mp h
    rw [List.append_cons reached a r] at hentry
    exact follow_cons_eq_ok_iff.mpr ⟨hdir, ha, ih h hentry⟩

theorem read_eq_ok_iff : d.read path = .ok c ↔
    '\x00' ∉ path.toList ∧ path ≠ "" ∧ endsInSlash path = false ∧
      d.follow [] (pathSegments path) = .ok (.file c) := by
  unfold read lookup
  generalize d.follow [] (pathSegments path) = found
  by_cases hnul : '\x00' ∈ path.toList
  · simp [hnul]
  by_cases hempty : path = ""
  · simp [hempty]
  cases hslash : endsInSlash path <;> rcases found with fault | _ | content <;> simp [hnul, hempty]

/-- A file stays readable while it stays, and its directories too. -/
theorem read_of_directories (h : d.read path = .ok c)
    (hdirs : ∀ s, d.entry? s = some .directory → d'.entry? s = some .directory)
    (hentry : d'.entry? (pathSegments path) = some (.file c)) : d'.read path = .ok c := by
  obtain ⟨hnul, hempty, hslash, hfollow⟩ := read_eq_ok_iff.mp h
  exact read_eq_ok_iff.mpr ⟨hnul, hempty, hslash, follow_of_directories hdirs hfollow hentry⟩

theorem entry?_of_read (h : d.read path = .ok c) : d.entry? (pathSegments path) = some (.file c) := by
  obtain ⟨-, -, -, hfollow⟩ := read_eq_ok_iff.mp h
  exact entry?_of_follow hfollow

/-- What a write asks for: a path to a file, in a directory that is there. -/
theorem conditions_of_write? (h : d.write? path c = some d') :
    endsInSlash path = false ∧ '\x00' ∉ path.toList ∧
      d.follow [] (pathSegments path).dropLast = .ok .directory ∧
      d.entry? (pathSegments path) ≠ some .directory := by
  unfold write? at h
  simp only at h
  split_ifs at h with hbad
  rw [not_or, not_or, Bool.not_eq_true, Bool.not_eq_true] at hbad
  obtain ⟨-, hslash, hnul⟩ := hbad
  split at h
  · cases h
  · next hfollow hfile => exact ⟨hslash, by simpa using hnul, hfollow, hfile⟩
  · cases h

/-- No directory is written over. -/
theorem directory_of_write? (h : d.write? path c = some d') (hdir : d.entry? s = some .directory) :
    d'.entry? s = some .directory := by
  obtain ⟨-, -, -, hfile⟩ := conditions_of_write? h
  obtain ⟨-, rfl⟩ := write?_eq_some h
  have hne : s ≠ pathSegments path := by
    rintro rfl
    exact hfile hdir
  rw [entryAt_set_of_ne hne, hdir]

/-- What has been written can be read. -/
theorem read_write (h : d.write? path c = some d') (hpath : pathSegments path = front ++ [name])
    (hname : name.utf8ByteSize ≤ 255) : d'.read path = .ok c := by
  obtain ⟨hslash, hnul, hfollow, -⟩ := conditions_of_write? h
  have hdirs := fun s => directory_of_write? h (s := s)
  obtain ⟨hne, rfl⟩ := write?_eq_some h
  have hempty : path ≠ "" := by
    rintro rfl
    exact hne rfl
  refine read_eq_ok_iff.mpr ⟨hnul, hempty, hslash, ?_⟩
  rw [hpath, List.dropLast_concat] at hfollow
  rw [hpath] at hne ⊢
  refine follow_concat (follow_of_directories ?_ hfollow ?_) hname ?_
  · rw [← hpath]
    exact hdirs
  · rw [← hpath]
    exact hdirs _ (entry?_of_follow hfollow)
  · exact entryAt_set_self hne _

/-- Other files can be read as before. -/
theorem read_of_write_ne (hread : d.read path = .ok c) (h : d.write? other c' = some d')
    (hne : pathSegments path ≠ pathSegments other) : d'.read path = .ok c := by
  refine read_of_directories hread (fun s => directory_of_write? h) ?_
  obtain ⟨-, rfl⟩ := write?_eq_some h
  rw [entryAt_set_of_ne hne]
  exact entry?_of_read hread

/-- What is new stands in the place of nothing. -/
theorem entryAt_set_of_missing (h : d.entry? segments = none) (hs : d.entry? s = some e) (e' : Entry) :
    entry? (d.set segments e') s = some e := by
  have hne : s ≠ segments := by
    rintro rfl
    cases h.symm.trans hs
  rw [entryAt_set_of_ne hne, hs]

/-- Where directories are made, all stays that was there. -/
theorem entry?_of_makeFrom (h : d.makeFrom reached segments = some d') (hs : d.entry? s = some e) :
    d'.entry? s = some e := by
  induction segments generalizing d reached with
  | nil =>
    unfold makeFrom at h
    split at h
    · next hmissing =>
      cases h
      exact entryAt_set_of_missing hmissing hs _
    · cases h
      exact hs
    · cases h
  | cons a r ih =>
    unfold makeFrom at h
    split at h
    · next hmissing => exact ih h (entryAt_set_of_missing hmissing hs _)
    · exact ih h hs
    · cases h

theorem read_makeDirectories {dir : String} (hread : d.read path = .ok c)
    (h : d.makeDirectories dir = some d') : d'.read path = .ok c :=
  read_of_directories hread (fun _ => entry?_of_makeFrom h) (entry?_of_makeFrom h (entry?_of_read hread))

end Disk

/-! ## Files of frames -/

namespace PngSink

/-- Names of frames are far from too long. -/
theorem utf8ByteSize_fileName_le (i : FrameIndex) : (fileName i).utf8ByteSize ≤ 255 := by
  have hdigits : (nameDigits i).length ≤ 20 :=
    (length_nameDigits_le_iff (by decide)).mpr (Nat.lt_trans i.toNat_lt (by decide))
  have hsize : (fileName i).utf8ByteSize = (bytes (fileName i)).length := rfl
  have hfront : (bytes "frame_").length = 6 := by decide
  have hback : (bytes ".png").length = 4 := by decide
  rw [hsize, bytes_fileName, List.length_append, List.length_append, List.length_map, hfront, hback]
  omega

theorem pathEnding_fileName (i : FrameIndex) : pathEnding (fileName i) = "png" := by
  have hback : (fileName i).toList.reverse = ['g', 'n', 'p', '.'] ++ ("frame_".toList ++ nameDigits i).reverse := by
    rw [toList_fileName, ← List.append_assoc, List.reverse_append]
    rfl
  unfold pathEnding
  rw [hback]
  simp

/-- The name of a frame is in normal form. -/
theorem assetPath?_fileName (i : FrameIndex) : assetPath? (fileName i) = .ok (fileName i) := by
  have hpath := (areNames_fileName i).assetPath?_joined
  rwa [joined_fileName] at hpath

end PngSink

/-- A picture that can be read is loaded with its colors scaled by their alpha. -/
theorem exists_loadSprite {R : Type} [Scalar R] {disk : Disk} {dir : String} {i : FrameIndex} {f : Frame}
    (h : disk.read (joinPath dir (PngSink.fileName i)) = .ok f.still) :
    ∃ (sprite : Sprite R) (library : AssetLibrary R),
      (AssetLibrary.create dir).loadSprite disk (PngSink.fileName i) = .ok (sprite, library) ∧
        sprite.frames = [⟨f.width, f.height, premultiplyBytes f.straight⟩] := by
  have hlocate : (AssetLibrary.create dir : AssetLibrary R).locate (PngSink.fileName i) =
      joinPath dir (PngSink.fileName i) := rfl
  have hcontent : (AssetLibrary.create dir : AssetLibrary R).read disk (PngSink.fileName i) = .ok f.still := by
    unfold AssetLibrary.read
    rw [hlocate, h]
  have hframes : Sprite.decodeFrames (R := R) (PngSink.fileName i) f.still =
      .ok ([⟨f.width, f.height, premultiplyBytes f.straight⟩], []) := by
    unfold Sprite.decodeFrames
    rw [PngSink.pathEnding_fileName]
    rfl
  let sprite : Sprite R :=
    ⟨PngSink.fileName i, [⟨f.width, f.height, premultiplyBytes f.straight⟩], [], List.cons_ne_nil _ _⟩
  have hdecode : Sprite.decode (PngSink.fileName i) f.still = .ok sprite := by
    unfold Sprite.decode
    rw [hframes]
  -- Nothing has been loaded yet, so the disk is asked.
  refine ⟨sprite, ⟨dir, [(PngSink.fileName i, sprite)], [], 1⟩, ?_, rfl⟩
  refine bind_eq_ok_iff.mpr ⟨_, PngSink.assetPath?_fileName i, bind_eq_ok_iff.mpr ⟨_, hcontent, ?_⟩⟩
  rw [hdecode]
  rfl

/-! ## Requests of the sink -/

namespace PngSink

/-- The last frame of each index can be read from the directory of the sink. -/
structure Kept (dir : String) (r : Recording PngSink) (frames : List (FrameIndex × Frame)) : Prop where
  directory : r.sink.dir = dir
  read : ∀ i e, latest? frames i = some e → r.disk.read (joinPath dir (fileName i)) = .ok e.2.still

variable {dir : String} {r : Recording PngSink} {frames : List (FrameIndex × Frame)}

theorem Kept.start (h : Kept dir r frames) (c : SinkConfig) : Kept dir (Sink.start c r).2 frames := by
  change Kept dir (PngSink.start c r).2 frames
  rcases start_cases c r with ⟨-, hstart⟩ | hstart | ⟨disk, hmade, hstart⟩
  · rw [hstart]
    exact h
  · rw [hstart]
    exact h
  · rw [hstart]
    exact ⟨h.directory, fun i e he => Disk.read_makeDirectories (h.read i e he) hmade⟩

/-- A frame that is taken is the last one of its index, and replaces no other picture. -/
theorem Kept.push (h : Kept dir r frames) (i : FrameIndex) (f : Frame) :
    Kept dir (Sink.push i f r).2 (frames ++ (SinkCall.push i f (Sink.push i f r).1).taken?.toList) := by
  have hsame : frames ++ (none : Option (FrameIndex × Frame)).toList = frames := List.append_nil _
  change Kept dir (PngSink.push i f r).2 (frames ++ (SinkCall.push i f (PngSink.push i f r).1).taken?.toList)
  rcases push_cases i f r with ⟨e, -, hpush⟩ | ⟨picture, haccept, hpush | ⟨disk, hwrite, hpush⟩⟩
  · rw [hpush]
    exact hsame.symm ▸ h
  · rw [hpush]
    exact hsame.symm ▸ h
  · obtain ⟨-, -, -, -, -, -, -, rfl⟩ := accept_eq_ok_iff.mp haccept
    rw [hpush]
    refine ⟨h.directory, fun j e he => ?_⟩
    change latest? (frames ++ [(i, f)]) j = some e at he
    have hplace : ∀ k, pathSegments (joinPath dir (fileName k)) = pathSegments dir ++ [fileName k] := by
      intro k
      have hpath := r.sink.pathSegments_framePath k
      rwa [framePath, h.directory] at hpath
    rw [framePath, h.directory] at hwrite
    rw [latest?_append] at he
    split_ifs at he with hij
    · cases he
      rw [← hij]
      exact Disk.read_write hwrite (hplace i) (utf8ByteSize_fileName_le i)
    · refine Disk.read_of_write_ne (h.read j e he) hwrite fun hpath => hij ?_
      rw [hplace, hplace] at hpath
      exact (fileName_inj.mp (List.singleton_inj.mp (List.append_cancel_left hpath))).symm

theorem Kept.finish (h : Kept dir r frames) : Kept dir (Sink.finish r).2 frames := by
  change Kept dir (PngSink.finish r).2 frames
  rcases finish_cases r with ⟨e, -, hfinish⟩ | ⟨c, -, hfinish⟩
  · rw [hfinish]
    exact h
  · rw [hfinish]
    exact ⟨h.directory, h.read⟩

theorem Kept.outcome (h : Kept dir r frames) (q : SinkRequest) :
    Kept dir (q.outcome r).2 (frames ++ (q.answered (q.outcome r).1).taken?.toList) := by
  cases q with
  | start c => exact (List.append_nil frames).symm ▸ h.start c
  | push i f => exact h.push i f
  | finish => exact (List.append_nil frames).symm ▸ h.finish

/-- After any requests the last frame of each index can be read, whichever session took it. -/
theorem kept_after (r : Recording PngSink) (requests : List SinkRequest) :
    Kept r.sink.dir (r.after requests) (takenFrames (r.calls requests)) := by
  induction requests using List.reverseRecOn with
  | nil => exact ⟨rfl, nofun⟩
  | append_singleton rest q ih =>
    rw [Recording.after_concat, Recording.calls_concat, takenFrames_concat]
    exact ih.outcome q

end PngSink

end Cutscene
