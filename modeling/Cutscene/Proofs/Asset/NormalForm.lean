import Mathlib.Data.List.Basic
import Cutscene.Asset.Library

/-!
# Normal forms of asset paths

Names of assets come from scripts, and their normal form is what stands between them and the disk. It is
also what loaded assets are kept under. A path is read as segments between slashes, and its normal form is
made of those that name something.

On `normalize_rel_path` (SPEC_FULL.md, §B.8).

Results:
* `slashSegments_eq_splitOn`: the segments of a path are those of the library's `splitOn`.
* `assetPath?_eq_ok_iff`: which paths have a normal form, and which one.
* `AreNames.splitOn_joined`, `AreNames.assetPath?_joined`: a normal form is read back as the segments that it
  was made of, and is its own.
* `AreNames.pathSegments_joinPath`: below any root, names lead downward.
* `Disk.lookup_of_read`: what is read is the file that the segments name.
* `paths_normalized`: all of it, for any path.
-/

namespace Cutscene

/-! ## Segments -/

theorem slashSegments_eq_splitOn (cs : List Char) : slashSegments cs = cs.splitOn '/' := by
  induction cs with
  | nil => rfl
  | cons c r ih =>
    rw [List.splitOn_cons_eq_if_modifyHead, slashSegments, ih]
    by_cases hc : c = '/'
    · rw [if_pos hc, if_pos (beq_iff_eq.mpr hc)]
    · rw [if_neg hc, if_neg (by simpa using hc)]
      cases hr : r.splitOn '/' with
      | nil => exact absurd hr (List.splitOn_ne_nil _ _)
      | cons s ss => rfl

/-- The segments have the characters of the path that are no slashes. -/
theorem exists_mem_splitOn_iff {cs : List Char} {c : Char} :
    (∃ s ∈ cs.splitOn '/', c ∈ s) ↔ c ∈ cs ∧ c ≠ '/' := by
  induction cs with
  | nil => simp
  | cons d r ih =>
    rw [List.splitOn_cons_eq_if_modifyHead]
    by_cases hd : d = '/'
    · rw [if_pos (beq_iff_eq.mpr hd)]
      simp only [List.mem_cons, exists_eq_or_imp, List.not_mem_nil, false_or, ih, hd]
      grind
    · rw [if_neg (by simpa using hd)]
      cases hr : r.splitOn '/' with
      | nil => exact absurd hr (List.splitOn_ne_nil _ _)
      | cons t ts =>
        rw [hr] at ih
        simp only [List.modifyHead_cons, List.mem_cons, exists_eq_or_imp] at ih ⊢
        grind

/-- The segments of a path, in which backslashes are slashes too. -/
def writtenSegments (source : String) : List (List Char) := (forwardSlashes source.toList).splitOn '/'

/-- The segments that remain in the normal form. -/
def keptSegments (source : String) : List (List Char) :=
  (writtenSegments source).filter fun s => s ≠ [] ∧ s ≠ ['.']

/-- The path that segments make. -/
def joined (segments : List (List Char)) : String := "/".intercalate (segments.map String.ofList)

/-- A path has a normal form if it is relative, does not go up and names something. -/
theorem assetPath?_eq_ok_iff {source path : String} :
    assetPath? source = .ok path ↔
      (forwardSlashes source.toList).head? ≠ some '/' ∧ ['.', '.'] ∉ writtenSegments source ∧
        keptSegments source ≠ [] ∧ path = joined (keptSegments source) := by
  unfold assetPath? joined
  simp only [slashSegments_eq_splitOn, ← writtenSegments.eq_1, ← keptSegments.eq_1, List.contains_iff_mem]
  split_ifs with habsolute hempty hup hnone
  · simp [habsolute]
  · have hkept : keptSegments source = [] := by
      unfold keptSegments writtenSegments
      rw [hempty]
      rfl
    simp [hkept]
  · simp [hup]
  · simp [hnone]
  · simp [habsolute, hup, hnone, eq_comm]

/-! ## Names -/

/-- Segments that lead downward: there are some, and each of them names something. -/
structure AreNames (segments : List (List Char)) : Prop where
  ne_nil : segments ≠ []
  names : ∀ s ∈ segments, s ≠ [] ∧ s ≠ ['.'] ∧ s ≠ ['.', '.']
  noSlash : ∀ s ∈ segments, '/' ∉ s
  noBackslash : ∀ s ∈ segments, '\\' ∉ s

theorem backslash_not_mem_forwardSlashes (cs : List Char) : '\\' ∉ forwardSlashes cs := by
  intro h
  obtain ⟨c, -, hc⟩ := List.mem_map.mp h
  split_ifs at hc with hback
  · exact absurd hc (by decide)
  · exact hback hc

theorem areNames_keptSegments {source : String} (hup : ['.', '.'] ∉ writtenSegments source)
    (hkept : keptSegments source ≠ []) : AreNames (keptSegments source) := by
  have hchars : ∀ s ∈ keptSegments source, ∀ c ∈ s, c ∈ forwardSlashes source.toList ∧ c ≠ '/' :=
    fun s hs c hc => exists_mem_splitOn_iff.mp ⟨s, List.mem_of_mem_filter hs, hc⟩
  refine ⟨hkept, fun s hs => ?_, fun s hs hc => (hchars s hs _ hc).2 rfl,
    fun s hs hc => backslash_not_mem_forwardSlashes _ (hchars s hs _ hc).1⟩
  obtain ⟨hwritten, hname⟩ := List.mem_filter.mp hs
  obtain ⟨hne, hdot⟩ := of_decide_eq_true hname
  refine ⟨hne, hdot, ?_⟩
  rintro rfl
  exact hup hwritten

theorem toList_joined (segments : List (List Char)) :
    (joined segments).toList = ['/'].intercalate segments := by
  unfold joined
  rw [String.toList_intercalate, List.map_map]
  congr 1
  simp [Function.comp_def]

namespace AreNames

variable {segments : List (List Char)} (h : AreNames segments)
include h

theorem splitOn_joined : (joined segments).toList.splitOn '/' = segments := by
  rw [toList_joined, List.splitOn_intercalate '/' h.noSlash h.ne_nil]

theorem backslash_not_mem_joined : '\\' ∉ (joined segments).toList := by
  intro hback
  obtain ⟨s, hs, hmem⟩ := exists_mem_splitOn_iff.mpr ⟨hback, by decide⟩
  rw [h.splitOn_joined] at hs
  exact h.noBackslash s hs hmem

theorem head?_joined : (joined segments).toList.head? ≠ some '/' := by
  intro hhead
  obtain ⟨r, hr⟩ := List.head?_eq_some_iff.mp hhead
  have hempty : [] ∈ (joined segments).toList.splitOn '/' := by
    rw [hr, List.splitOn_cons_eq_if_modifyHead]
    exact List.mem_cons_self
  rw [h.splitOn_joined] at hempty
  exact (h.names _ hempty).1 rfl

theorem joined_ne_empty : joined segments ≠ "" := by
  intro hempty
  have hsplit := h.splitOn_joined
  rw [hempty] at hsplit
  exact (h.names [] (hsplit ▸ List.mem_singleton_self [])).1 rfl

theorem forwardSlashes_joined : forwardSlashes (joined segments).toList = (joined segments).toList := by
  refine (List.map_congr_left fun c hc => if_neg ?_).trans (List.map_id _)
  rintro rfl
  exact h.backslash_not_mem_joined hc

theorem writtenSegments_joined : writtenSegments (joined segments) = segments := by
  unfold writtenSegments
  rw [h.forwardSlashes_joined, h.splitOn_joined]

theorem keptSegments_joined : keptSegments (joined segments) = segments := by
  unfold keptSegments
  rw [h.writtenSegments_joined, List.filter_eq_self]
  intro s hs
  exact decide_eq_true ⟨(h.names s hs).1, (h.names s hs).2.1⟩

/-- What names make is in normal form. -/
theorem assetPath?_joined : assetPath? (joined segments) = .ok (joined segments) := by
  have hplain := h.forwardSlashes_joined
  rw [assetPath?_eq_ok_iff, h.keptSegments_joined, h.writtenSegments_joined, h.forwardSlashes_joined]
  exact ⟨h.head?_joined, fun hup => (h.names _ hup).2.2 rfl, h.ne_nil, rfl⟩

end AreNames

/-! ## Below a root -/

/-- Where a segment leads from a place. -/
def goTo (front : List String) (segment : String) : List String :=
  if segment = "" ∨ segment = "." then front else if segment = ".." then front.dropLast else front ++ [segment]

theorem pathSegments_eq (path : String) :
    pathSegments path = ((path.toList.splitOn '/').map String.ofList).foldl goTo [] := by
  unfold pathSegments
  rw [slashSegments_eq_splitOn]
  rfl

theorem goTo_ofList {s : List Char} (h : s ≠ [] ∧ s ≠ ['.'] ∧ s ≠ ['.', '.']) (front : List String) :
    goTo front (String.ofList s) = front ++ [String.ofList s] := by
  have hne : ∀ t, s ≠ t → String.ofList s ≠ String.ofList t := fun t ht heq => ht (String.ofList_inj.mp heq)
  unfold goTo
  rw [if_neg (not_or.mpr ⟨hne [] h.1, hne ['.'] h.2.1⟩), if_neg (hne ['.', '.'] h.2.2)]

theorem AreNames.foldl_goTo {segments : List (List Char)} (h : AreNames segments) (front : List String) :
    (segments.map String.ofList).foldl goTo front = front ++ segments.map String.ofList := by
  have hnames := h.names
  clear h
  induction segments generalizing front with
  | nil => rw [List.map_nil, List.foldl_nil, List.append_nil]
  | cons s r ih =>
    rw [List.map_cons, List.foldl_cons, goTo_ofList (hnames s List.mem_cons_self),
      ih _ fun t ht => hnames t (List.mem_cons_of_mem _ ht), List.append_assoc, List.singleton_append]

/-- What follows a slash leads on from what stands before it. -/
theorem pathSegments_append_slash (front back : String) :
    pathSegments (front ++ "/" ++ back) =
      ((back.toList.splitOn '/').map String.ofList).foldl goTo (pathSegments front) := by
  have hchars : (front ++ "/" ++ back).toList = front.toList ++ '/' :: back.toList := by simp
  rw [pathSegments_eq, pathSegments_eq, hchars, List.splitOn_append_cons_self, List.map_append,
    List.foldl_append]

/-- Below any root, names lead downward. -/
theorem AreNames.pathSegments_joinPath {segments : List (List Char)} (h : AreNames segments) (root : String) :
    pathSegments (joinPath root (joined segments)) = pathSegments root ++ segments.map String.ofList := by
  have hbelow : ∀ front, pathSegments (front ++ "/" ++ joined segments) =
      pathSegments front ++ segments.map String.ofList := by
    intro front
    rw [pathSegments_append_slash, h.splitOn_joined, h.foldl_goTo]
  unfold joinPath
  split_ifs with hempty hslash
  · rw [hempty, pathSegments_eq, h.splitOn_joined, h.foldl_goTo]
    rfl
  · -- A slash that ends the root separates it from an empty segment, which leads nowhere.
    obtain ⟨front, hfront⟩ := List.getLast?_eq_some_iff.mp (of_decide_eq_true hslash)
    have hroot : root = String.ofList front ++ "/" ++ "" := String.toList_inj.mp (by simp [hfront])
    have hsame : pathSegments root = pathSegments (String.ofList front) := by
      rw [hroot, pathSegments_append_slash]
      rfl
    have hjoin : root ++ joined segments = String.ofList front ++ "/" ++ joined segments :=
      String.toList_inj.mp (by simp [hfront])
    rw [hjoin, hbelow, hsame]
  · exact hbelow root

namespace Disk

variable {d : Disk}

theorem entry?_of_follow {reached segments : List String} {e : Entry}
    (h : d.follow reached segments = .ok e) : d.entry? (reached ++ segments) = some e := by
  induction segments generalizing reached with
  | nil =>
    unfold follow at h
    rw [List.append_nil]
    split at h
    · cases h
    · next found hfound =>
      cases h
      exact hfound
  | cons s r ih =>
    unfold follow at h
    split at h
    · cases h
    · cases h
    · split_ifs at h
      rw [List.append_cons]
      exact ih h

/-- What is read is the file that the segments of the path name. -/
theorem lookup_of_read {path : String} {c : Content} (h : d.read path = .ok c) :
    d.entries.lookup (pathSegments path) = some (.file c) := by
  have hfile : d.lookup path = .ok (.file c) := by
    unfold read at h
    split at h
    · cases h
    · cases h
    · next found hfound =>
      cases h
      exact hfound
  have hfollow : d.follow [] (pathSegments path) = .ok (.file c) := by
    unfold lookup at hfile
    generalize d.follow [] (pathSegments path) = reached at hfile ⊢
    split_ifs at hfile
    · rcases reached with fault | (_ | content) <;> cases hfile
    · rcases reached with fault | (_ | content) <;> cases hfile
      rfl
  have hentry := entry?_of_follow hfollow
  rw [List.nil_append] at hentry
  unfold entry? at hentry
  split_ifs at hentry
  · cases hentry
  · exact hentry

end Disk

/-! ## Normal forms -/

/-- A path in normal form. -/
structure IsNormal (path : String) : Prop where
  ne_empty : path ≠ ""
  noBackslash : '\\' ∉ path.toList
  relative : path.toList.head? ≠ some '/'
  segments : ∀ s ∈ path.toList.splitOn '/', s ≠ [] ∧ s ≠ ['.'] ∧ s ≠ ['.', '.']
  fixed : assetPath? path = .ok path

theorem AreNames.isNormal_joined {segments : List (List Char)} (h : AreNames segments) :
    IsNormal (joined segments) :=
  ⟨h.joined_ne_empty, h.backslash_not_mem_joined, h.head?_joined, h.splitOn_joined.symm ▸ h.names,
    h.assetPath?_joined⟩

/-- What bringing a path into normal form comes to. -/
structure Normalizes (source : String) : Prop where
  /-- A path has a normal form if, with slashes in place of backslashes, it does not start with one, no
  segment of it goes up, and some segment names something. -/
  accepted_iff : (∃ path, assetPath? source = .ok path) ↔
    (forwardSlashes source.toList).head? ≠ some '/' ∧ ['.', '.'] ∉ writtenSegments source ∧
      ∃ s ∈ writtenSegments source, s ≠ [] ∧ s ≠ ['.']
  /-- The normal form is made of these segments, with single slashes between them. -/
  joined : ∀ path, assetPath? source = .ok path → path.toList = ['/'].intercalate (keptSegments source)
  normal : ∀ path, assetPath? source = .ok path → IsNormal path
  /-- Wherever the root is, the path leads downward from it, to what is read if anything is. -/
  below : ∀ path, assetPath? source = .ok path → ∀ root, ∃ names, names ≠ [] ∧
    pathSegments (joinPath root path) = pathSegments root ++ names ∧
      ∀ (disk : Disk) (c : Content), disk.read (joinPath root path) = .ok c →
        disk.entries.lookup (pathSegments root ++ names) = some (.file c)
  eq_iff : ∀ path, assetPath? source = .ok path → ∀ other path', assetPath? other = .ok path' →
    (path = path' ↔ keptSegments source = keptSegments other)

/-- **Asset paths are normalized**: exactly the paths that lead somewhere below the root have a normal
form, two of them have the same if they agree in what they name, and a normal form is its own. -/
theorem paths_normalized (source : String) : Normalizes source := by
  have hspec : ∀ {source path : String}, assetPath? source = .ok path →
      AreNames (keptSegments source) ∧ path = Cutscene.joined (keptSegments source) := by
    intro source path h
    obtain ⟨-, hup, hkept, hpath⟩ := assetPath?_eq_ok_iff.mp h
    exact ⟨areNames_keptSegments hup hkept, hpath⟩
  refine ⟨?_, fun path h => ?_, fun path h => ?_, fun path h root => ?_, fun path h other path' h' => ?_⟩
  · have hsome : keptSegments source ≠ [] ↔ ∃ s ∈ writtenSegments source, s ≠ [] ∧ s ≠ ['.'] := by
      unfold keptSegments
      rw [Ne, List.filter_eq_nil_iff]
      simp only [decide_eq_true_eq, not_forall, not_not, exists_prop]
    rw [← hsome]
    simp only [assetPath?_eq_ok_iff, exists_and_left, exists_eq, and_true]
  · obtain ⟨-, rfl⟩ := hspec h
    exact toList_joined _
  · obtain ⟨hnames, rfl⟩ := hspec h
    exact hnames.isNormal_joined
  · obtain ⟨hnames, rfl⟩ := hspec h
    have hbelow := hnames.pathSegments_joinPath root
    refine ⟨_, by simpa using hnames.ne_nil, hbelow, fun disk c hread => ?_⟩
    rw [← hbelow]
    exact disk.lookup_of_read hread
  · obtain ⟨hnames, rfl⟩ := hspec h
    obtain ⟨hnames', rfl⟩ := hspec h'
    refine ⟨fun heq => ?_, fun heq => heq ▸ rfl⟩
    rw [← hnames.keptSegments_joined, heq, hnames'.keptSegments_joined]

example : assetPath? ".\\bg//./a..b\\" = .ok "bg/a..b" := by rfl

end Cutscene
