import Cutscene.Proofs.Asset.NormalForm
import Cutscene.Proofs.Movie.FileNames
import Cutscene.Proofs.Movie.Sessions

/-!
# Pictures on the disk

Frames are written below a directory, each into the file that its index names. No file is ever removed, so
what stands there in the end is told by all frames that were taken, whichever session they belong to.

Results:
* `Disk.entryAt_set_of_ne`, `Disk.entryAt_makeDirectories`: what a change on the disk leaves as it is.
* `PngSink.pathSegments_framePath`, `PngSink.fileName_inj`: each index has a place of its own.
* `latest?_append`, `latest?_append_of_ascending`: which of the frames with one index counts.
* `Disk.Pictures.write`: what writing a frame adds to a directory of pictures.
-/

namespace Cutscene

/-! ## The disk -/

theorem lookup_filter_ne {α β : Type} [BEq α] [LawfulBEq α] [DecidableEq α] {a b : α} (h : b ≠ a)
    (l : List (α × β)) :
    (l.filter (·.1 ≠ a)).lookup b = l.lookup b := by
  induction l with
  | nil => rfl
  | cons e r ih =>
    by_cases ha : e.1 = a
    · have hb : (b == e.1) = false := beq_eq_false_iff_ne.mpr (ha ▸ h)
      rw [List.filter_cons_of_neg (by simp [ha]), ih, List.lookup_cons, hb]
    · rw [List.filter_cons_of_pos (by simp [ha]), List.lookup_cons, List.lookup_cons, ih]

namespace Disk

variable {d d' : Disk} {segments s : List String}

theorem entryAt_set_self (hne : segments ≠ []) (e : Entry) : entry? (d.set segments e) segments = some e := by
  unfold entry? set
  rw [if_neg hne, List.lookup_cons_self]

/-- Everything else is unchanged. -/
theorem entryAt_set_of_ne (h : s ≠ segments) (e : Entry) : entry? (d.set segments e) s = d.entry? s := by
  unfold entry? set
  split_ifs
  · rfl
  · rw [List.lookup_cons, beq_eq_false_iff_ne.mpr h]
    exact lookup_filter_ne h _

/-- Nothing is made but the directories on the way. -/
theorem entryAt_makeFrom {reached : List String} (h : d.makeFrom reached segments = some d')
    (hs : ¬s <+: reached ++ segments) : d'.entry? s = d.entry? s := by
  have hreached : s ≠ reached := by
    rintro rfl
    exact hs (List.prefix_append _ _)
  induction segments generalizing d reached with
  | nil =>
    unfold makeFrom at h
    split at h
    · cases h
      exact entryAt_set_of_ne hreached _
    · cases h
      rfl
    · cases h
  | cons a r ih =>
    have hs' : ¬s <+: reached ++ [a] ++ r := by rwa [← List.append_cons]
    have hnext : s ≠ reached ++ [a] := by
      rintro rfl
      exact hs' (List.prefix_append _ _)
    unfold makeFrom at h
    split at h
    · rw [ih h hs' hnext, entryAt_set_of_ne hreached]
    · exact ih h hs' hnext
    · cases h

/-- Below a directory nothing changes when it is made. -/
theorem entryAt_makeDirectories {dir : String} (h : d.makeDirectories dir = some d') {rest : List String}
    (hrest : rest ≠ []) : d'.entry? (pathSegments dir ++ rest) = d.entry? (pathSegments dir ++ rest) := by
  refine entryAt_makeFrom h fun hprefix => ?_
  have hlength := hprefix.length_le
  rw [List.nil_append, List.length_append] at hlength
  have hpos := List.length_pos_of_ne_nil hrest
  omega

theorem write?_eq_some {path : String} {c : Content} (h : d.write? path c = some d') :
    pathSegments path ≠ [] ∧ d' = d.set (pathSegments path) (.file c) := by
  unfold write? at h
  simp only at h
  split_ifs at h with hbad
  split at h
  · cases h
  · cases h
    exact ⟨fun hnil => hbad (.inl hnil), rfl⟩
  · cases h

end Disk

/-! ## Files of frames -/

namespace PngSink

theorem toList_fileName (i : FrameIndex) :
    (fileName i).toList = "frame_".toList ++ (nameDigits i ++ ".png".toList) := by
  unfold fileName nameDigits
  rw [String.toList_append, String.toList_append, List.append_assoc]

/-- Different frames have different names. -/
theorem fileName_inj {i j : FrameIndex} : fileName i = fileName j ↔ i = j := by
  refine ⟨fun h => ?_, congrArg fileName⟩
  have hlist := congrArg String.toList h
  rw [toList_fileName, toList_fileName, List.append_right_inj, List.append_left_inj] at hlist
  have hvalue := congrArg Decimal.value hlist
  rw [value_nameDigits, value_nameDigits] at hvalue
  exact UInt64.toNat_inj.mp hvalue

theorem areNames_fileName (i : FrameIndex) : AreNames [(fileName i).toList] := by
  have hchar : ∀ c ∈ (fileName i).toList, c ∈ "frame_.png".toList ∨ c.isDigit = true := by
    intro c hc
    rw [toList_fileName] at hc
    rcases List.mem_append.mp hc with hc | hc
    · exact .inl (List.mem_of_mem_take (i := 6) hc)
    · rcases List.mem_append.mp hc with hc | hc
      · exact .inr (isDigit_of_mem_nameDigits i c hc)
      · exact .inl (List.mem_of_mem_drop (i := 6) hc)
  have hother : ∀ c, c ∉ "frame_.png".toList → c.isDigit = false → c ∉ (fileName i).toList := by
    intro c hc hdigit hmem
    rcases hchar c hmem with h | h
    · exact hc h
    · rw [hdigit] at h
      cases h
  have hlength : 2 < (fileName i).toList.length := by
    rw [toList_fileName, List.length_append]
    exact Nat.lt_add_right _ (by decide)
  have hname : ∀ t : List Char, t.length ≤ 2 → (fileName i).toList ≠ t := by
    rintro _ ht rfl
    omega
  refine ⟨List.cons_ne_nil _ _, fun s hs => ?_, fun s hs => ?_, fun s hs => ?_⟩
  · rw [List.mem_singleton.mp hs]
    exact ⟨hname [] (by decide), hname ['.'] (by decide), hname ['.', '.'] (by decide)⟩
  · rw [List.mem_singleton.mp hs]
    exact hother '/' (by decide) (by decide)
  · rw [List.mem_singleton.mp hs]
    exact hother '\\' (by decide) (by decide)

theorem joined_fileName (i : FrameIndex) : joined [(fileName i).toList] = fileName i := by
  rw [← String.toList_inj, toList_joined]
  simp

/-- A frame is written right below the directory. -/
theorem pathSegments_framePath (s : PngSink) (i : FrameIndex) :
    pathSegments (s.framePath i) = pathSegments s.dir ++ [fileName i] := by
  have hpath := (areNames_fileName i).pathSegments_joinPath s.dir
  rw [joined_fileName, List.map_singleton, String.ofList_toList] at hpath
  exact hpath

end PngSink

/-! ## Frames with one index -/

/-- The last one of some frames that has an index. -/
def latest? (frames : List (FrameIndex × Frame)) (i : FrameIndex) : Option (FrameIndex × Frame) :=
  frames.reverse.find? fun e => e.1 = i

theorem latest?_append (frames : List (FrameIndex × Frame)) (e : FrameIndex × Frame) (i : FrameIndex) :
    latest? (frames ++ [e]) i = if e.1 = i then some e else latest? frames i := by
  unfold latest?
  rw [List.reverse_concat, List.find?_cons]
  by_cases hi : e.1 = i <;> simp [hi]

/-- Frames whose indices ascend replace those with the same indices and leave the others. -/
theorem latest?_append_of_ascending {front frames : List (FrameIndex × Frame)}
    (h : frames.Pairwise fun a b => a.1 < b.1) {i : FrameIndex} {e : FrameIndex × Frame} :
    latest? (front ++ frames) i = some e ↔
      e ∈ frames ∧ e.1 = i ∨ (∀ d ∈ frames, d.1 ≠ i) ∧ latest? front i = some e := by
  induction frames using List.reverseRecOn with
  | nil => simp
  | append_singleton r d ih =>
    obtain ⟨hr, -, hlast⟩ := List.pairwise_append.mp h
    have hbelow : ∀ a ∈ r, a.1 ≠ d.1 := fun a ha =>
      UInt64.ne_of_lt (hlast a ha d (List.mem_singleton_self d))
    rw [← List.append_assoc, latest?_append]
    split_ifs with hi
    · subst hi
      constructor
      · rintro ⟨⟩
        exact .inl ⟨List.mem_concat_self, rfl⟩
      · rintro (⟨he, hindex⟩ | ⟨hnone, -⟩)
        · rcases List.mem_append.mp he with he | he
          · exact absurd hindex (hbelow e he)
          · rw [List.mem_singleton.mp he]
        · exact absurd rfl (hnone d List.mem_concat_self)
    · rw [ih hr]
      simp only [List.mem_append, List.mem_singleton, or_imp, forall_and, forall_eq]
      constructor
      · rintro (⟨he, hindex⟩ | ⟨hnone, hfront⟩)
        · exact .inl ⟨.inl he, hindex⟩
        · exact .inr ⟨⟨hnone, hi⟩, hfront⟩
      · rintro (⟨he | rfl, hindex⟩ | ⟨⟨hnone, -⟩, hfront⟩)
        · exact .inl ⟨he, hindex⟩
        · exact absurd hindex hi
        · exact .inr ⟨hnone, hfront⟩

/-! ## Directories of pictures -/

/-- The picture of a frame, with straight colors. -/
def Frame.still (f : Frame) : Content := .still f.width f.height f.straight

/-- Below a directory stand the pictures of some frames and nothing else: for each index the last frame that
has it. -/
def Disk.Pictures (d : Disk) (dir : String) (frames : List (FrameIndex × Frame)) : Prop :=
  ∀ rest ≠ [], ∀ entry, d.entry? (pathSegments dir ++ rest) = some entry ↔
    ∃ i e, latest? frames i = some e ∧ rest = [PngSink.fileName i] ∧ entry = .file e.2.still

namespace Disk.Pictures

variable {d d' : Disk} {dir : String} {frames : List (FrameIndex × Frame)}

theorem makeDirectories (h : d.Pictures dir frames) (hmade : d.makeDirectories dir = some d') :
    d'.Pictures dir frames := by
  intro rest hrest entry
  rw [entryAt_makeDirectories hmade hrest]
  exact h rest hrest entry

theorem write (h : d.Pictures dir frames) {s : PngSink} (hdir : s.dir = dir) {i : FrameIndex} {f : Frame}
    (hwrite : d.write? (s.framePath i) f.still = some d') : d'.Pictures dir (frames ++ [(i, f)]) := by
  intro rest hrest entry
  obtain ⟨hne, rfl⟩ := write?_eq_some hwrite
  have hpath : pathSegments (s.framePath i) = pathSegments dir ++ [PngSink.fileName i] := by
    rw [s.pathSegments_framePath, hdir]
  rw [hpath] at hne ⊢
  simp only [latest?_append]
  by_cases hname : rest = [PngSink.fileName i]
  · subst hname
    rw [entryAt_set_self hne]
    constructor
    · rintro ⟨⟩
      exact ⟨i, (i, f), if_pos rfl, rfl, rfl⟩
    · rintro ⟨j, e, he, hj, rfl⟩
      have hji : i = j := PngSink.fileName_inj.mp (List.singleton_inj.mp hj)
      rw [if_pos hji] at he
      cases he
      rfl
  · rw [entryAt_set_of_ne (fun hsame => hname (List.append_cancel_left hsame)), h rest hrest entry]
    refine exists_congr fun j => exists_congr fun e => and_congr_left fun hj => ?_
    rw [if_neg]
    rintro rfl
    exact hname hj.1

end Disk.Pictures

end Cutscene
