import Mathlib.Data.List.Infix
import Cutscene.Stage.AssetNames

/-!
# Libraries that grow

A library is only ever added to. What it has loaded it keeps, so a sprite that has been loaded once is
there for good, whatever becomes of the disk; and what it says of sounds depends on its root alone.

Results:
* `Grows`: what loading does to a library, as an order on libraries.
* `loadSprite_spec`: loading adds the sprite, if it is new, and nothing else.
* `Has.loadSprite`: a sprite that is there is handed out again, and nothing is added.
-/

namespace Cutscene.AssetLibrary

variable {R : Type} {l l' l'' : AssetLibrary R} {source : String} {sprite : Sprite R}

/-- The library has loaded the sprite at a path. -/
def Has (l : AssetLibrary R) (source : String) (sprite : Sprite R) : Prop :=
  ∃ path, assetPath? source = .ok path ∧ l.sprites.lookup path = some sprite

/-- The second library is the first one with more sprites. -/
structure Grows (l l' : AssetLibrary R) : Prop where
  root : l'.root = l.root
  fonts : l'.fonts = l.fonts
  sprites : l.sprites <:+ l'.sprites
  /-- Every sprite more has been decoded. -/
  decodes : l'.decodes + l.sprites.length = l.decodes + l'.sprites.length
  /-- No sprite that is there is replaced. -/
  lookup : ∀ path sprite, l.sprites.lookup path = some sprite → l'.sprites.lookup path = some sprite

theorem Grows.refl (l : AssetLibrary R) : l.Grows l :=
  ⟨rfl, rfl, List.suffix_refl _, rfl, fun _ _ h => h⟩

theorem Grows.trans (h : l.Grows l') (h' : l'.Grows l'') : l.Grows l'' where
  root := h'.root.trans h.root
  fonts := h'.fonts.trans h.fonts
  sprites := h.sprites.trans h'.sprites
  decodes := by
    have hfirst := h.decodes
    have hthen := h'.decodes
    omega
  lookup path sprite hpath := h'.lookup path sprite (h.lookup path sprite hpath)

theorem Has.mono (h : l.Has source sprite) (hgrows : l.Grows l') : l'.Has source sprite := by
  obtain ⟨path, hpath, hlookup⟩ := h
  exact ⟨path, hpath, hgrows.lookup path sprite hlookup⟩

variable [Scalar R] {disk : Disk}

/-- A sprite that is there is handed out again, and the disk is not asked. -/
theorem Has.loadSprite (h : l.Has source sprite) (disk : Disk) :
    l.loadSprite disk source = .ok (sprite, l) := by
  obtain ⟨path, hpath, hlookup⟩ := h
  unfold AssetLibrary.loadSprite
  rw [hpath]
  simp only [bind, Except.bind, hlookup]

/-- Loading adds a sprite that is new, and hands it out. -/
theorem loadSprite_spec (h : l.loadSprite disk source = .ok (sprite, l')) :
    l.Grows l' ∧ l'.Has source sprite := by
  unfold AssetLibrary.loadSprite at h
  obtain ⟨path, hpath, h⟩ := bind_eq_ok_iff.mp h
  cases hlookup : l.sprites.lookup path with
  | some found =>
    rw [hlookup] at h
    cases h
    exact ⟨.refl l, path, hpath, hlookup⟩
  | none =>
    rw [hlookup] at h
    obtain ⟨content, -, h⟩ := bind_eq_ok_iff.mp h
    cases hdecode : Sprite.decode (R := R) path content with
    | error fault =>
      rw [hdecode] at h
      cases h
    | ok decoded =>
      rw [hdecode] at h
      cases h
      refine ⟨⟨rfl, rfl, List.suffix_cons _ _, ?_, ?_⟩, path, hpath, List.lookup_cons_self⟩
      · simp only [List.length_cons]
        omega
      · intro other there hthere
        have hne : other ≠ path := by
          rintro rfl
          rw [hlookup] at hthere
          cases hthere
        rw [List.lookup_cons, beq_false_of_ne hne]
        exact hthere

omit [Scalar R] in
theorem loadFont_root {font : Font} (h : l.loadFont disk source = .ok (font, l')) : l'.root = l.root := by
  unfold loadFont at h
  obtain ⟨path, -, h⟩ := bind_eq_ok_iff.mp h
  cases hlookup : l.fonts.lookup path with
  | some found =>
    rw [hlookup] at h
    cases h
    rfl
  | none =>
    rw [hlookup] at h
    obtain ⟨content, -, h⟩ := bind_eq_ok_iff.mp h
    cases h
    rfl

/-! ## Sounds -/

omit [Scalar R] in
theorem resolveAudio_congr (h : l'.root = l.root) (disk : Disk) (source : String) :
    l'.resolveAudio disk source = l.resolveAudio disk source := by
  unfold resolveAudio locate
  rw [h]

theorem resolveClip_congr (h : l'.root = l.root) (disk : Disk) (kind : Exclamation) (speaker : String) :
    l'.resolveClip disk kind speaker = l.resolveClip disk kind speaker := by
  have hexists : l'.fileExists disk = l.fileExists disk := by
    funext source
    unfold fileExists locate
    rw [h]
  unfold resolveClip
  rw [hexists]
  exact resolveAudio_congr h disk _

end Cutscene.AssetLibrary
