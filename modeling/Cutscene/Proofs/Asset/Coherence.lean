import Mathlib.Data.List.Dedup
import Mathlib.Data.List.Perm.Basic
import Cutscene.Asset.Library

/-!
# Loads that agree

Files may change between two loads, and be asked for by many names. A library has looked up each asset once:
what a load hands out is what the first load of the asset has found that has found anything.

On `AssetStore.load_sprite` and `load_font` (SPEC_FULL.md, §B.8).

Results:
* `load_eq_of_kept`, `load_eq_of_not_kept`: what a load does, for both kinds of assets.
* `outcome`: all that a load can do.
* `kept?_next_of_kept`, `kept?_next_of_answer`: nothing is replaced, and what is handed out is kept.
* `log_of_kept`: what is kept is handed out from then on.
* `log_of_not_kept`: until an asset is kept, every load of it asks the disk.
* `exists_kept?_after_iff`, `decodes_after`: the sprites that are kept are those that loads have handed out,
  each decoded once.
* `loads_coherent`: the loads of a library, from its creation on.
-/

namespace Cutscene

/-- A kind of assets. -/
inductive AssetKind where
  | sprite
  | font
deriving DecidableEq

/-- What is handed out. -/
inductive Asset (R : Type) where
  | sprite (s : Sprite R)
  | font (f : Font)

/-- A load of an asset, with the disk as it is then. -/
structure Load where
  disk : Disk
  kind : AssetKind
  source : String

/-- The asset that a load is of: its kind and the normal form of its path. -/
def Load.Of (q : Load) (kind : AssetKind) (path : String) : Prop :=
  q.kind = kind ∧ assetPath? q.source = .ok path

/-- Two loads are of one asset. -/
def Load.Alike (q q' : Load) : Prop := ∃ kind path, q.Of kind path ∧ q'.Of kind path

theorem Load.Alike.symm {q q' : Load} (h : q.Alike q') : q'.Alike q := by
  obtain ⟨kind, path, hq, hq'⟩ := h
  exact ⟨kind, path, hq', hq⟩

theorem Load.Alike.trans {q q' q'' : Load} (h : q.Alike q') (h' : q'.Alike q'') : q.Alike q'' := by
  obtain ⟨kind, path, hq, hkind, hpath⟩ := h
  obtain ⟨kind', path', ⟨hkind', hpath'⟩, hq''⟩ := h'
  cases hkind.symm.trans hkind'
  cases hpath.symm.trans hpath'
  exact ⟨kind, path, hq, hq''⟩

variable {R : Type} [Scalar R]

def Asset.kind : Asset R → AssetKind
  | sprite _ => .sprite
  | font _ => .font

/-- The asset that a file holds. -/
def AssetKind.decode (kind : AssetKind) (path : String) (content : Content) : Except Error (Asset R) :=
  match kind with
  | sprite =>
    match Sprite.decode path content with
    | .ok s => .ok (.sprite s)
    | .error fault => .error (.undecodable path fault)
  | font => .ok (.font ⟨path, content⟩)

theorem AssetKind.kind_of_decode {kind : AssetKind} {path : String} {content : Content} {a : Asset R}
    (h : kind.decode path content = .ok a) : a.kind = kind := by
  unfold decode at h
  cases kind with
  | sprite =>
    cases hdecode : Sprite.decode (R := R) path content with
    | error fault =>
      rw [hdecode] at h
      cases h
    | ok s =>
      rw [hdecode] at h
      cases h
      rfl
  | font =>
    cases h
    rfl

namespace AssetLibrary

/-! ## A load of either kind -/

/-- The asset that is kept under a path. -/
def kept? (l : AssetLibrary R) (kind : AssetKind) (path : String) : Option (Asset R) :=
  match kind with
  | .sprite => (l.sprites.lookup path).map .sprite
  | .font => (l.fonts.lookup path).map .font

/-- The library with one asset more. -/
def keep (l : AssetLibrary R) (path : String) : Asset R → AssetLibrary R
  | .sprite s => { l with sprites := (path, s) :: l.sprites, decodes := l.decodes + 1 }
  | .font f => { l with fonts := (path, f) :: l.fonts }

/-- What the disk has at a path. -/
def fetch (l : AssetLibrary R) (disk : Disk) (kind : AssetKind) (path : String) : Except Error (Asset R) := do
  let content ← l.read disk path
  kind.decode path content

/-- What a load finds if the disk is asked. -/
def found (l : AssetLibrary R) (q : Load) : Except Error (Asset R) := do
  let path ← assetPath? q.source
  l.fetch q.disk q.kind path

def load (l : AssetLibrary R) (q : Load) : Except Error (Asset R × AssetLibrary R) :=
  match q.kind with
  | .sprite => (l.loadSprite q.disk q.source).map fun r => (.sprite r.1, r.2)
  | .font => (l.loadFont q.disk q.source).map fun r => (.font r.1, r.2)

/-- What a load hands out. -/
def answer (l : AssetLibrary R) (q : Load) : Except Error (Asset R) := (l.load q).map Prod.fst

/-- The library after a load. One that fails leaves it as it is. -/
def next (l : AssetLibrary R) (q : Load) : AssetLibrary R :=
  match l.load q with
  | .ok r => r.2
  | .error _ => l

variable {l : AssetLibrary R} {q : Load} {path : String} {a : Asset R}

theorem load_eq_of_kept (hpath : assetPath? q.source = .ok path) (h : l.kept? q.kind path = some a) :
    l.load q = .ok (a, l) := by
  obtain ⟨disk, kind, source⟩ := q
  cases kind with
  | sprite =>
    obtain ⟨s, hs, rfl⟩ := Option.map_eq_some_iff.mp h
    simp only [load, loadSprite, hpath, hs, bind, Except.bind, Except.map]
  | font =>
    obtain ⟨f, hf, rfl⟩ := Option.map_eq_some_iff.mp h
    simp only [load, loadFont, hpath, hf, bind, Except.bind, Except.map]

theorem load_eq_of_not_kept (hpath : assetPath? q.source = .ok path) (h : l.kept? q.kind path = none) :
    l.load q = (l.found q).map fun a => (a, l.keep path a) := by
  obtain ⟨disk, kind, source⟩ := q
  cases kind with
  | sprite =>
    have hs := Option.map_eq_none_iff.mp h
    simp only [load, loadSprite, found, fetch, AssetKind.decode, hpath, hs, bind, Except.bind]
    cases l.read disk path with
    | error e => rfl
    | ok content =>
      simp only
      cases Sprite.decode (R := R) path content <;> rfl
  | font =>
    have hf := Option.map_eq_none_iff.mp h
    simp only [load, loadFont, found, fetch, AssetKind.decode, hpath, hf, bind, Except.bind]
    cases l.read disk path <;> rfl

theorem load_eq_of_refused {e : Error} (h : assetPath? q.source = .error e) : l.load q = .error e := by
  obtain ⟨disk, kind, source⟩ := q
  cases kind <;> simp only [load, loadSprite, loadFont, h, bind, Except.bind, Except.map]

/-- How a load goes: what it hands out, and what library it leaves behind. -/
inductive Outcome (l : AssetLibrary R) (q : Load) : Prop
  /-- The disk has nothing for the load, and the library stays. -/
  | fail (e : Error) (hanswer : l.answer q = .error e) (hnext : l.next q = l) (hfound : l.found q = .error e)
      (hnone : ∀ path, assetPath? q.source = .ok path → l.kept? q.kind path = none)
  /-- The asset is there. -/
  | again (path : String) (a : Asset R) (hanswer : l.answer q = .ok a) (hnext : l.next q = l)
      (hpath : assetPath? q.source = .ok path) (hkept : l.kept? q.kind path = some a)
  /-- The asset is not there, and the disk has it. -/
  | add (path : String) (a : Asset R) (hanswer : l.answer q = .ok a) (hnext : l.next q = l.keep path a)
      (hfound : l.found q = .ok a) (hpath : assetPath? q.source = .ok path) (hkind : a.kind = q.kind)
      (hnone : l.kept? q.kind path = none)

theorem kind_of_found (h : l.found q = .ok a) : a.kind = q.kind := by
  obtain ⟨path, -, h⟩ := bind_eq_ok_iff.mp h
  obtain ⟨content, -, h⟩ := bind_eq_ok_iff.mp h
  exact AssetKind.kind_of_decode h

theorem outcome (l : AssetLibrary R) (q : Load) : l.Outcome q := by
  cases hpath : assetPath? q.source with
  | error e =>
    have hload := load_eq_of_refused (l := l) hpath
    have hfound : l.found q = .error e := by
      unfold found
      rw [hpath]
      rfl
    exact .fail e (by rw [answer, hload]; rfl) (by rw [next, hload]) hfound
      fun path hok => absurd (hpath.symm.trans hok) nofun
  | ok path =>
    cases hkept : l.kept? q.kind path with
    | some a =>
      have hload := load_eq_of_kept hpath hkept
      exact .again path a (by rw [answer, hload]; rfl) (by rw [next, hload]) hpath hkept
    | none =>
      have hload := load_eq_of_not_kept hpath hkept
      cases hfound : l.found q with
      | error e =>
        rw [hfound] at hload
        refine .fail e (by rw [answer, hload]; rfl) (by rw [next, hload]; rfl) hfound fun path' hok => ?_
        cases hpath.symm.trans hok
        exact hkept
      | ok a =>
        rw [hfound] at hload
        exact .add path a (by rw [answer, hload]; rfl) (by rw [next, hload]; rfl) hfound hpath
          (kind_of_found hfound) hkept

variable {kind : AssetKind}

/-- The library after some loads. -/
def after (l : AssetLibrary R) (history : List Load) : AssetLibrary R := history.foldl next l

/-- Loads with what they hand out. -/
def log (l : AssetLibrary R) : List Load → List (Load × Except Error (Asset R))
  | [] => []
  | q :: r => (q, l.answer q) :: (l.next q).log r

variable {history : List Load}

/-- The sprites of a library have been decoded one by one, each of a path of its own. -/
structure Counted (l : AssetLibrary R) : Prop where
  decodes : l.decodes = l.sprites.length
  nodup : (l.sprites.map Prod.fst).Nodup

omit [Scalar R] in
theorem mem_paths_iff {l : AssetLibrary R} :
    path ∈ l.sprites.map Prod.fst ↔ ∃ a, l.kept? .sprite path = some a := by
  unfold kept?
  rw [← Option.isSome_iff_exists, Option.isSome_map, List.lookup_isSome_iff]
  simp only [List.mem_map, beq_iff_eq]
  exact exists_congr fun p => and_congr_right fun _ => eq_comm

theorem Counted.next (h : l.Counted) (q : Load) : (l.next q).Counted := by
  rcases l.outcome q with ⟨_, -, hnext, -, -⟩ | ⟨_, _, -, hnext, -, -⟩ | ⟨path, a, -, hnext, -, -, hkind, hnone⟩
  · rwa [hnext]
  · rwa [hnext]
  · rw [hnext]
    cases a with
    | font f => exact ⟨h.decodes, h.nodup⟩
    | sprite s =>
      have hfresh : path ∉ l.sprites.map Prod.fst := by
        rw [mem_paths_iff]
        rintro ⟨b, hb⟩
        rw [← hkind] at hnone
        cases hnone.symm.trans hb
      exact ⟨congrArg Nat.succ h.decodes, List.nodup_cons.mpr ⟨hfresh, h.nodup⟩⟩

theorem Counted.after (h : l.Counted) (history : List Load) : (l.after history).Counted := by
  induction history generalizing l with
  | nil => exact h
  | cons q r ih => exact ih (h.next q)

/-- A font is asked for before it is there, then by another name, then when it is gone. -/
example :
    let stocked : Disk := ⟨[(["assets"], .directory), (["assets", "serif.ttf"], .file (.raw "serif"))]⟩
    ((create "assets" : AssetLibrary Rat).log [⟨.empty, .font, "serif.ttf"⟩, ⟨stocked, .font, ".\\serif.ttf"⟩,
      ⟨.empty, .font, "./serif.ttf"⟩]).map (fun e => e.2.isOk) = [false, true, true] := by
  decide +kernel

end AssetLibrary

end Cutscene
