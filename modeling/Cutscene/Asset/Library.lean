import Cutscene.Asset.Path
import Cutscene.Asset.Sprite

/-!
# The asset library

The library loads sprites and fonts from below its root directory, each once: what has been loaded is
kept under the normal form of its path, and the disk is not asked again.

Models `AssetStore` with `read_bytes`, `load_sprite`, `load_font`, `resolve_audio` and `exists`
(SPEC_FULL.md, §B.8). A `Font` is a `FontAsset`.
-/

namespace Cutscene

/-- The file of a font. -/
structure Font where
  /-- The normal form of the path of the asset. -/
  path : String
  content : Content

/-- What has been loaded from below a root directory. -/
structure AssetLibrary (R : Type) where
  root : String
  sprites : List (String × Sprite R)
  fonts : List (String × Font)
  /-- How many sprites have been decoded. -/
  decodes : Nat

namespace AssetLibrary

variable {R : Type} [Scalar R]

/-- A library that has loaded nothing. -/
def create (root : String) : AssetLibrary R := ⟨root, [], [], 0⟩

/-- The path on the disk of a path in normal form. -/
def locate (s : AssetLibrary R) (path : String) : String := joinPath s.root path

/-- The content of the file at a path in normal form. -/
def read (s : AssetLibrary R) (disk : Disk) (path : String) : Except Error Content :=
  match disk.read (s.locate path) with
  | .ok c => .ok c
  | .error fault => .error (.unreadable (s.locate path) fault)

/-- The sprite at a path. Success adds it to the library, failure changes nothing. -/
def loadSprite (s : AssetLibrary R) (disk : Disk) (source : String) :
    Except Error (Sprite R × AssetLibrary R) := do
  let path ← assetPath? source
  match s.sprites.lookup path with
  | some sprite => .ok (sprite, s)
  | none =>
    let content ← s.read disk path
    match Sprite.decode path content with
    | .error fault => .error (.undecodable path fault)
    | .ok sprite =>
      .ok (sprite, { s with sprites := (path, sprite) :: s.sprites, decodes := s.decodes + 1 })

/-- The font at a path. Success adds it to the library, failure changes nothing. -/
def loadFont (s : AssetLibrary R) (disk : Disk) (source : String) :
    Except Error (Font × AssetLibrary R) := do
  let path ← assetPath? source
  match s.fonts.lookup path with
  | some font => .ok (font, s)
  | none =>
    let content ← s.read disk path
    let font : Font := ⟨path, content⟩
    .ok (font, { s with fonts := (path, font) :: s.fonts })

/-- The normal form of the path of a sound, which must be a file. -/
def resolveAudio (s : AssetLibrary R) (disk : Disk) (source : String) : Except Error String := do
  let path ← assetPath? source
  if disk.isFile (s.locate path) then .ok path else .error (.audioMissing path s.root)

/-- Whether a path names a file below the root. -/
def fileExists (s : AssetLibrary R) (disk : Disk) (source : String) : Bool :=
  match assetPath? source with
  | .ok path => disk.isFile (s.locate path)
  | .error _ => false

end AssetLibrary

end Cutscene
