import Cutscene.Stage.AssetNames
import Cutscene.Stage.Basic

/-!
# Effects of directives

What the stage does for each directive that the typewriter hands out.

Models `Director.apply_directive` (SPEC_FULL.md, §B.11).
-/

namespace Cutscene.Stage

variable {R : Type} [Scalar R]

/-- How far a shake displaces the stage. -/
def shakeAmplitude : Int32 := 2

/-- How long after a desk slam begins its sound is heard. -/
def slamSoundDelay : R := 0.15

/-- The camera glides along this curve. -/
def cameraEase : Ease R := .inOutCubic

/-- Glides the background to where a side is in view; without a duration it is there at once. -/
def glideCamera (s : Stage R) (side : Side) (secs : R) (ease : Ease R) : Stage R :=
  s.modifyNode s.cast.background fun n =>
    n.startTween ⟨s.config.cameraX side, n.offset.y⟩ secs ease

/-- Shows the flash and has it hidden again after some time. -/
def flash (s : Stage R) (secs : R) : Stage R :=
  s.modifyNode s.cast.flash fun n => n.appear.schedule secs .hide

/-- Shows a bubble and has it hidden again. -/
def showBubble (s : Stage R) (sprite : Sprite R) : Stage R :=
  s.modifyNode s.cast.exclamation fun n =>
    ((n.setSprite sprite).appear).schedule s.config.exclamationSeconds .hide

/--
Shows a slam on a stand and has the former sprite put back. If a former slam has not been put back
yet, what it would have put back is put back now instead, at the time of the new one.
-/
def slam (n : Node R) (sprite : Sprite R) (secs : R) : Node R :=
  let former := n.pendingSprites.head? <|> n.payload.sprite?
  let n := n.dropPendingSprites
  let n := match former with
    | some former => n.schedule secs (.setSprite former)
    | none => n
  n.setSprite sprite

/-- Loads a sprite and goes on with it. -/
def withSprite (s : Stage R) (disk : Disk) (path : String)
    (next : Sprite R → Stage R → Except Error Unit × Stage R) : Except Error Unit × Stage R :=
  match s.assets.loadSprite disk path with
  | .error e => (.error e, s)
  | .ok (sprite, assets) => next sprite { s with assets }

/-- Logs a sound, if its path was resolved. -/
def withSound (s : Stage R) (path : Except Error String) (log : String → SoundLog R → SoundLog R) :
    Except Error Unit × Stage R :=
  match path with
  | .error e => (.error e, s)
  | .ok path => (.ok (), { s with sounds := log path s.sounds })

/-- Carries out a directive. What was done before a failure stays done. -/
def apply (s : Stage R) (disk : Disk) (d : Directive R) : Except Error Unit × Stage R :=
  let sound (path : String) := s.assets.resolveAudio disk path
  match d with
  | .sprite side path =>
    s.withSprite disk path fun sprite s =>
      (.ok (), s.modifyNode (s.cast.stand side) (·.setSprite sprite))
  | .playSound name =>
    s.withSound (sound (soundPath name)) fun path log => log.play path s.time
  | .startBlip voice =>
    s.withSound (sound (blipPath voice)) fun path log =>
      log.startChannel .voiceBlip path s.time (some s.config.blipDelay) .completeOnly
  | .stopBlip => (.ok (), { s with sounds := s.sounds.stopChannel .voiceBlip s.time })
  | .shake secs => (.ok (), s.modifyNode s.cast.background (·.startShake shakeAmplitude secs))
  | .flash secs => (.ok (), s.flash secs)
  | .pan side => (.ok (), s.glideCamera side s.config.panSeconds cameraEase)
  | .cut side => (.ok (), s.glideCamera side 0 .linear)
  | .showArrow => (.ok (), s.modifyNode s.cast.arrow Node.appear)
  | .hideArrow => (.ok (), s.modifyNode s.cast.arrow Node.hide)
  | .nametag text => (.ok (), { s with dialogue := s.dialogue.setSpeaker text })
  | .musicStart name =>
    s.withSound (sound (musicPath name)) fun path log =>
      log.startChannel .music path s.time none .untilTruncated
  | .musicStop => (.ok (), { s with sounds := s.sounds.stopChannel .music s.time })
  | .exclamation kind speaker =>
    s.withSprite disk (bubblePath kind) fun sprite s =>
      (s.showBubble sprite).withSound (s.assets.resolveClip disk kind speaker) fun path log =>
        log.play path s.time
  | .deskSlam side =>
    s.withSprite disk (s.config.stage.slamSprite side) fun sprite s =>
      let s := s.modifyNode (s.cast.stand side) fun n => slam n sprite s.config.slamSeconds
      (.ok (), { s with sounds := s.sounds.play slamSound (s.time + slamSoundDelay) })
  | .showBox => (.ok (), s.modifyNode s.cast.dialogueBox Node.appear)
  | .hideBox => (.ok (), s.modifyNode s.cast.dialogueBox Node.hide)
  | .wait _ => (.ok (), s)
  | .unknown _ => (.ok (), s)

/-- Carries out directives in order, up to the first failure. -/
def applyAll (s : Stage R) (disk : Disk) : List (Directive R) → Except Error Unit × Stage R
  | [] => (.ok (), s)
  | d :: r =>
    match s.apply disk d with
    | (.ok (), s) => applyAll s disk r
    | (.error e, s) => (.error e, s)

end Cutscene.Stage
