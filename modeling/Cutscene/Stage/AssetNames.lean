import Cutscene.Asset.Library
import Cutscene.Dialogue.Directive

/-!
# Names of assets

Scripts and directives name sounds, music and exclamations by short names. These are the paths that
the names stand for.

Models `sound_path`, `blip_path`, `music_path`, `exclamation_sprite_path` and `exclamation_audio`
(SPEC_FULL.md, §B.11).
-/

namespace Cutscene

def soundPath (name : String) : String := "sound/sfx-" ++ name ++ ".wav"

def blipPath (voice : String) : String := "sound/sfx-blip" ++ voice ++ ".wav"

def musicPath (name : String) : String := "music/" ++ name ++ ".mp3"

/-- The sound of a desk slam. -/
def slamSound : String := "sound/sfx-deskslam.wav"

/-- The picture of an exclamation bubble. -/
def bubblePath (kind : Exclamation) : String := "exclamations/" ++ kind.stem ++ ".gif"

/-- The clip of an exclamation by a speaker, with one of the endings that clips have. -/
def clipPath (kind : Exclamation) (speaker ending : String) : String :=
  "exclamations/" ++ kind.stem ++ "-" ++ speaker ++ "." ++ ending

/-- The clip of a speaker who has none. -/
def genericClip : String := "exclamations/objection-generic.wav"

/-- The clip to play for an exclamation: that of the speaker if there is one, else the generic one. -/
def AssetLibrary.resolveClip {R : Type} [Scalar R] (l : AssetLibrary R) (disk : Disk)
    (kind : Exclamation) (speaker : String) : Except Error String :=
  let candidates := ["mp3", "wav"].map (clipPath kind speaker)
  l.resolveAudio disk ((candidates.find? (l.fileExists disk)).getD genericClip)

end Cutscene
