import Cutscene.Proofs.Stage.Effects
import Cutscene.Proofs.Stage.Lines

/-!
# What directives need

A directive needs at most one sprite and one sound. `spritePath?` and `soundAnswer?` say which, and
loading ahead and carrying out go by the same two: what the first has found, the second asks for. Once
provided for, a directive is so for good, as long as the files below the root stay as they are.

Results:
* `provided_of_preload`: what is loaded ahead without failure is provided for.
* `Provided.mono`, `Provided.of_sameAssets`: it stays so.
* `apply_of_provided`, `applyAll_of_provided`: what is provided for does not fail, and loads nothing.
-/

namespace Cutscene

/-- Two disks that hold the same files below the root of the assets. -/
def Disk.SameAssets (root : String) (d d' : Disk) : Prop :=
  ∀ source path, assetPath? source = .ok path → d'.read (joinPath root path) = d.read (joinPath root path)

namespace Disk.SameAssets

variable {root : String} {d d' d'' : Disk}

theorem refl (root : String) (d : Disk) : SameAssets root d d := fun _ _ _ => rfl

theorem symm (h : SameAssets root d d') : SameAssets root d' d :=
  fun source path hpath => (h source path hpath).symm

theorem trans (h : SameAssets root d d') (h' : SameAssets root d' d'') : SameAssets root d d'' :=
  fun source path hpath => (h' source path hpath).trans (h source path hpath)

end Disk.SameAssets

variable {R : Type} [Scalar R]

namespace AssetLibrary

variable {l : AssetLibrary R} {d d' : Disk}

omit [Scalar R] in
theorem resolveAudio_of_sameAssets (h : Disk.SameAssets l.root d d') (source : String) :
    l.resolveAudio d' source = l.resolveAudio d source := by
  unfold resolveAudio locate Disk.isFile
  cases hpath : assetPath? source with
  | error e => rfl
  | ok path =>
    simp only [bind, Except.bind]
    rw [h source path hpath]

omit [Scalar R] in
theorem fileExists_of_sameAssets (h : Disk.SameAssets l.root d d') (source : String) :
    l.fileExists d' source = l.fileExists d source := by
  unfold fileExists locate Disk.isFile
  cases hpath : assetPath? source with
  | error e => rfl
  | ok path =>
    simp only
    rw [h source path hpath]

theorem resolveClip_of_sameAssets (h : Disk.SameAssets l.root d d') (kind : Exclamation)
    (speaker : String) : l.resolveClip d' kind speaker = l.resolveClip d kind speaker := by
  unfold resolveClip
  rw [funext (fileExists_of_sameAssets h)]
  exact resolveAudio_of_sameAssets h _

end AssetLibrary

namespace Stage

/-! ## Needs -/

/-- The path of the sprite that a directive needs. -/
def spritePath? (art : StageArt) : Directive R → Option String
  | .sprite _ path => some path
  | .exclamation kind _ => some (bubblePath kind)
  | .deskSlam side => some (art.slamSprite side)
  | _ => none

/-- What comes of looking for the sound that a directive needs. -/
def soundAnswer? (l : AssetLibrary R) (disk : Disk) : Directive R → Option (Except Error String)
  | .playSound name => some (l.resolveAudio disk (soundPath name))
  | .startBlip voice => some (l.resolveAudio disk (blipPath voice))
  | .musicStart name => some (l.resolveAudio disk (musicPath name))
  | .exclamation kind speaker => some (l.resolveClip disk kind speaker)
  | .deskSlam _ => some (l.resolveAudio disk slamSound)
  | _ => none

/-- The sprite that a directive needs has been loaded, and its sound is found. -/
structure Provided (art : StageArt) (disk : Disk) (l : AssetLibrary R) (d : Directive R) : Prop where
  sprite : ∀ path ∈ spritePath? art d, ∃ sprite, l.Has path sprite
  sound : ∀ answer ∈ soundAnswer? l disk d, ∃ path, answer = .ok path

variable {art : StageArt} {disk disk' : Disk} {l l' : AssetLibrary R} {d : Directive R}

theorem soundAnswer?_congr (h : l'.root = l.root) (disk : Disk) (d : Directive R) :
    soundAnswer? l' disk d = soundAnswer? l disk d := by
  cases d <;> simp only [soundAnswer?, AssetLibrary.resolveAudio_congr h, AssetLibrary.resolveClip_congr h]

theorem soundAnswer?_of_sameAssets (h : Disk.SameAssets l.root disk disk') (d : Directive R) :
    soundAnswer? l disk' d = soundAnswer? l disk d := by
  cases d <;> simp only [soundAnswer?, AssetLibrary.resolveAudio_of_sameAssets h,
    AssetLibrary.resolveClip_of_sameAssets h]

/-- Libraries that grow provide for what they did. -/
theorem Provided.mono (h : Provided art disk l d) (hgrows : l.Grows l') : Provided art disk l' d where
  sprite path hpath := by
    obtain ⟨sprite, hsprite⟩ := h.sprite path hpath
    exact ⟨sprite, hsprite.mono hgrows⟩
  sound := by
    rw [soundAnswer?_congr hgrows.root]
    exact h.sound

/-- It is enough that the files below the root stay as they are. -/
theorem Provided.of_sameAssets (h : Provided art disk l d) (hdisk : Disk.SameAssets l.root disk disk') :
    Provided art disk' l d where
  sprite := h.sprite
  sound := by
    rw [soundAnswer?_of_sameAssets hdisk]
    exact h.sound

/-! ## Loading ahead -/

theorem has_of_preloadSprite {path : String} (h : (preloadSprite l disk path).1 = .ok ()) :
    ∃ sprite, (preloadSprite l disk path).2.Has path sprite := by
  unfold preloadSprite at h ⊢
  cases hload : l.loadSprite disk path with
  | error e =>
    rw [hload] at h
    cases h
  | ok loaded => exact ⟨loaded.1, (AssetLibrary.loadSprite_spec hload).2⟩

omit [Scalar R] in
theorem preloadSound_eq_ok {loaded : Except Error Unit × AssetLibrary R}
    {resolve : AssetLibrary R → Except Error String} (h : (preloadSound loaded resolve).1 = .ok ()) :
    loaded.1 = .ok () ∧ ∃ path, resolve (preloadSound loaded resolve).2 = .ok path := by
  rw [preloadSound_snd]
  obtain ⟨answer, l⟩ := loaded
  unfold preloadSound at h
  cases answer with
  | error e => cases h
  | ok _ =>
    refine ⟨rfl, ?_⟩
    cases hpath : resolve l with
    | error e =>
      simp only [hpath] at h
      cases h
    | ok path => exact ⟨path, rfl⟩

/-- What is loaded ahead without failure is provided for. -/
theorem provided_of_preload (h : (preload art disk l d).1 = .ok ()) :
    Provided art disk (preload art disk l d).2 d := by
  unfold preload at h ⊢
  cases d with
  | sprite side path => exact ⟨fun _ hpath => Option.some.inj hpath ▸ has_of_preloadSprite h, nofun⟩
  | playSound name => exact ⟨nofun, fun _ hanswer => Option.some.inj hanswer ▸ (preloadSound_eq_ok h).2⟩
  | startBlip voice => exact ⟨nofun, fun _ hanswer => Option.some.inj hanswer ▸ (preloadSound_eq_ok h).2⟩
  | musicStart name => exact ⟨nofun, fun _ hanswer => Option.some.inj hanswer ▸ (preloadSound_eq_ok h).2⟩
  | exclamation kind speaker =>
    obtain ⟨hsprite, hsound⟩ := preloadSound_eq_ok h
    rw [preloadSound_snd] at hsound ⊢
    exact ⟨fun _ hpath => Option.some.inj hpath ▸ has_of_preloadSprite hsprite,
      fun _ hanswer => Option.some.inj hanswer ▸ hsound⟩
  | deskSlam side =>
    obtain ⟨hsprite, hsound⟩ := preloadSound_eq_ok h
    rw [preloadSound_snd] at hsound ⊢
    exact ⟨fun _ hpath => Option.some.inj hpath ▸ has_of_preloadSprite hsprite,
      fun _ hanswer => Option.some.inj hanswer ▸ hsound⟩
  | _ => exact ⟨nofun, nofun⟩

/-- What is loaded ahead for many directives without failure provides for each of them. -/
theorem provided_of_preloadAll {ds : List (Directive R)} (h : (preloadAll art disk l ds).1 = .ok ()) :
    ∀ d ∈ ds, Provided art disk (preloadAll art disk l ds).2 d := by
  induction ds generalizing l with
  | nil => exact fun d hd => absurd hd List.not_mem_nil
  | cons c r ih =>
    have hprovided : (preload art disk l c).1 = .ok () → Provided art disk (preload art disk l c).2 c :=
      provided_of_preload
    cases hc : preload art disk l c with
    | mk answer first =>
      rw [hc] at hprovided
      cases answer with
      | error e =>
        rw [preloadAll_cons_of_error hc] at h
        cases h
      | ok _ =>
        rw [preloadAll_cons hc] at h ⊢
        intro d hd
        rcases List.mem_cons.mp hd with rfl | hd
        · exact (hprovided rfl).mono (preloadAll_grows art disk first r)
        · exact ih h d hd

/-! ## Carrying out -/

theorem withSprite_of_has {s : Stage R} {path : String} {sprite : Sprite R} (h : s.assets.Has path sprite)
    (disk : Disk) (next : Sprite R → Stage R → Except Error Unit × Stage R) :
    s.withSprite disk path next = next sprite s := by
  unfold withSprite
  rw [h.loadSprite disk]

omit [Scalar R] in
theorem withSound_of_ok {s : Stage R} {answer : Except Error String} (h : ∃ path, answer = .ok path)
    (log : String → SoundLog R → SoundLog R) :
    (s.withSound answer log).1 = .ok () ∧ (s.withSound answer log).2.assets = s.assets := by
  obtain ⟨path, rfl⟩ := h
  exact ⟨rfl, rfl⟩

/-- A directive that is provided for does not fail, and loads nothing. -/
theorem apply_of_provided {s : Stage R} (h : Provided s.config.stage disk s.assets d) :
    (s.apply disk d).1 = .ok () ∧ (s.apply disk d).2.assets = s.assets := by
  cases d with
  | sprite side path =>
    obtain ⟨sprite, hsprite⟩ := h.sprite path rfl
    simp only [apply, withSprite_of_has hsprite]
    exact ⟨trivial, rfl⟩
  | playSound name => exact withSound_of_ok (h.sound _ rfl) _
  | startBlip voice => exact withSound_of_ok (h.sound _ rfl) _
  | musicStart name => exact withSound_of_ok (h.sound _ rfl) _
  | exclamation kind speaker =>
    obtain ⟨sprite, hsprite⟩ := h.sprite _ rfl
    simp only [apply, withSprite_of_has hsprite]
    exact withSound_of_ok (s := s.showBubble sprite) (h.sound _ rfl) _
  | deskSlam side =>
    obtain ⟨sprite, hsprite⟩ := h.sprite _ rfl
    simp only [apply, withSprite_of_has hsprite]
    exact ⟨trivial, rfl⟩
  | _ => exact ⟨rfl, rfl⟩

/-- Directives that are all provided for do not fail, and load nothing. -/
theorem applyAll_of_provided {s : Stage R} {ds : List (Directive R)}
    (h : ∀ d ∈ ds, Provided s.config.stage disk s.assets d) :
    (s.applyAll disk ds).1 = .ok () ∧ (s.applyAll disk ds).2.assets = s.assets := by
  induction ds generalizing s with
  | nil => exact ⟨rfl, rfl⟩
  | cons d r ih =>
    obtain ⟨hok, hassets⟩ := apply_of_provided (h d List.mem_cons_self)
    have hconfig := (s.undisturbed_apply disk d).config
    unfold applyAll
    cases hd : s.apply disk d with
    | mk answer t =>
      rw [hd] at hok hassets hconfig
      cases hok
      obtain ⟨hrest, hkept⟩ := ih (s := t) fun c hc => by
        rw [hconfig, hassets]
        exact h c (List.mem_cons_of_mem _ hc)
      exact ⟨hrest, hkept.trans hassets⟩

end Stage

end Cutscene
