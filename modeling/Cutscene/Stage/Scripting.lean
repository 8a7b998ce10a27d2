import Cutscene.Stage.Effects

/-!
# Writing the script

The calls that a script is made of. Each only adds actions to the queue; assets that it names are
loaded by the call, so that a missing file is found before the movie starts. A call that fails queues
nothing.

Models the scripting operations of `Director` from `pan_to` to `run`, and `preload_page` (SPEC_FULL.md,
§4.4 and §B.11).
-/

namespace Cutscene.Stage

variable {R : Type} [Scalar R]

/-- Queues an action. -/
def push (s : Stage R) (a : Action R) : Stage R := { s with queue := (s.queue.push a).2 }

/-- Queues a callback. -/
def run (s : Stage R) (f : Callback R) : Stage R := s.push (.run (some f))

/-- Queues a single cue. -/
def runCue (s : Stage R) (cue : Cue R) : Stage R := s.run fun c => cue.perform c

/-- Glides the camera to a side. -/
def panTo (s : Stage R) (side : Side) : Except Error (Stage R) := do
  let m ← Move.create s.cast.background ⟨s.config.cameraX side, 0⟩ s.config.panSeconds cameraEase
  .ok (s.push (.move m))

/-- Moves the camera to a side at once. -/
def cutTo (s : Stage R) (side : Side) : Stage R :=
  s.push (.jump (.create s.cast.background ⟨s.config.cameraX side, 0⟩))

def showTextBox (s : Stage R) : Stage R := s.runCue (.show s.cast.dialogueBox)

def hideTextBox (s : Stage R) : Stage R := s.runCue (.hide s.cast.dialogueBox)

/-- Does nothing for some time. -/
def wait (s : Stage R) (secs : R) : Except Error (Stage R) := do
  let p ← Pause.create secs
  .ok (s.push (.pause p))

/-- Changes the sprite on a stand. -/
def setSprite (s : Stage R) (disk : Disk) (side : Side) (path : String) : Except Error (Stage R) := do
  let (sprite, assets) ← s.assets.loadSprite disk path
  .ok ({ s with assets }.push (.setSprite (s.cast.stand side) sprite))

/-- Starts a music track in place of the current one. -/
def startMusic (s : Stage R) (disk : Disk) (name : String) : Except Error (Stage R) := do
  let path ← s.assets.resolveAudio disk (musicPath name)
  .ok (s.runCue (.startChannel .music path none .untilTruncated))

def stopMusic (s : Stage R) : Stage R := s.runCue (.stopChannel .music)

/-- Starts the loop of voice blips. -/
def startBlips (s : Stage R) (disk : Disk) (voice : String) : Except Error (Stage R) := do
  let path ← s.assets.resolveAudio disk (blipPath voice)
  .ok (s.runCue (.startChannel .voiceBlip path (some s.config.blipDelay) .completeOnly))

def stopBlips (s : Stage R) : Stage R := s.runCue (.stopChannel .voiceBlip)

/-- Plays a sound once. -/
def playSound (s : Stage R) (disk : Disk) (name : String) : Except Error (Stage R) := do
  let path ← s.assets.resolveAudio disk (soundPath name)
  .ok (s.runCue (.play path))

/-! ## Dialogue -/

/-- Loads a sprite for later. -/
def preloadSprite (l : AssetLibrary R) (disk : Disk) (path : String) :
    Except Error Unit × AssetLibrary R :=
  match l.loadSprite disk path with
  | .error e => (.error e, l)
  | .ok (_, l) => (.ok (), l)

/-- Looks for a sound that is needed later, once a sprite has been loaded. -/
def preloadSound (loaded : Except Error Unit × AssetLibrary R)
    (resolve : AssetLibrary R → Except Error String) : Except Error Unit × AssetLibrary R :=
  match loaded with
  | (.error e, l) => (.error e, l)
  | (.ok (), l) => ((resolve l).map fun _ => (), l)

/-- Loads what a directive is going to need. -/
def preload (art : StageArt) (disk : Disk) (l : AssetLibrary R) (d : Directive R) :
    Except Error Unit × AssetLibrary R :=
  match d with
  | .sprite _ path => preloadSprite l disk path
  | .playSound name => preloadSound (.ok (), l) (·.resolveAudio disk (soundPath name))
  | .startBlip voice => preloadSound (.ok (), l) (·.resolveAudio disk (blipPath voice))
  | .musicStart name => preloadSound (.ok (), l) (·.resolveAudio disk (musicPath name))
  | .exclamation kind speaker =>
    preloadSound (preloadSprite l disk (bubblePath kind)) (·.resolveClip disk kind speaker)
  | .deskSlam side =>
    preloadSound (preloadSprite l disk (art.slamSprite side)) (·.resolveAudio disk slamSound)
  | _ => (.ok (), l)

/-- Loads what some directives are going to need, up to the first failure. -/
def preloadAll (art : StageArt) (disk : Disk) (l : AssetLibrary R) :
    List (Directive R) → Except Error Unit × AssetLibrary R
  | [] => (.ok (), l)
  | d :: r =>
    match preload art disk l d with
    | (.ok (), l) => preloadAll art disk l r
    | (.error e, l) => (.error e, l)

/--
Shows the text box and then the pages one after another, with the speaker on the name tag. What the
directives of all pages need is loaded first.
-/
def say (s : Stage R) (disk : Disk) (speaker : String) (pages : List Page) :
    Except Error Unit × Stage R :=
  let directives := pages.flatMap fun p => p.directives.map Prod.snd
  match preloadAll s.config.stage disk s.assets directives with
  | (.error e, assets) => (.error e, { s with assets })
  | (.ok (), assets) =>
    let s := { s with assets }.showTextBox
    (.ok (), pages.foldl (fun s p => s.push (.page p (some speaker))) s)

end Cutscene.Stage
