import Cutscene.Dialogue.Typewriter
import Cutscene.Dialogue.Palette
import Cutscene.Motion.FrameRate
import Cutscene.Picture.Canvas

/-!
# Configuration

Everything that a stage needs besides its script. Every value has a default, so a written
configuration lists only what it changes; `Config.ofText` reads one and refuses values outside their
domains.

Models `DirectorConfig` and `StageConfig` with `validate`, `camera_x` and their defaults (SPEC_FULL.md,
§B.4).
-/

namespace Cutscene

/-- The art of the stage, by paths below the root of the assets, and where it stands. -/
structure StageArt where
  /-- The panorama behind both stands. -/
  background : String
  leftSprite : String
  rightSprite : String
  leftSlamSprite : String
  rightSlamSprite : String
  /-- Where the right stand is in the panorama. -/
  rightStandX : Int32
  dialogueBox : String
  dialogueBoxY : Int32
  arrow : String
  /-- The font of the dialogue, which is not drawn without one. -/
  font : Option String
  /-- The font of the name tag, if it is another one. -/
  nameFont : Option String
  textSize : Float32
  nameSize : Float32

/-- The configuration of a stage. -/
structure Config (R : Type) where
  canvas : Canvas
  rate : FrameRate
  charsPerSecond : R
  holdSeconds : R
  /-- The duration of a glide of the camera. -/
  panSeconds : R
  /-- Where the background stands when the camera shows the left stand. -/
  leftX : Int32
  /-- Where the background stands when the camera shows the right stand. -/
  rightX : Int32
  /-- The silence between voice blips. -/
  blipDelay : R
  /-- The colors of style tags. -/
  palette : Palette
  /-- The directory that asset paths start from. -/
  assetsRoot : String
  /-- For how long an exclamation is shown. -/
  exclamationSeconds : R
  /-- For how long the sprite of a desk slam is shown. -/
  slamSeconds : R
  /-- How many frames a movie may have. -/
  maxFrames : UInt64
  stage : StageArt

namespace StageArt

def standard : StageArt where
  background := "bg/courtroom.png"
  leftSprite := "characters/left-idle.gif"
  rightSprite := "characters/right-idle.gif"
  leftSlamSprite := "characters/left-deskslam.gif"
  rightSlamSprite := "characters/right-deskslam.gif"
  rightStandX := 1034
  dialogueBox := "textbox/mainbox.png"
  dialogueBoxY := 128
  arrow := "textbox/arrow.gif"
  font := none
  nameFont := none
  textSize := 16
  nameSize := 8

/-- The sprite of a desk slam. -/
def slamSprite (s : StageArt) : Side → String
  | .left => s.leftSlamSprite
  | .right => s.rightSlamSprite

/-- Refuses a text size that is not finite or not above zero. The message shows it as a double. -/
def ensureTextSize (size : Float32) : Except Error Unit :=
  if size.isFinite ∧ 0 < size then .ok ()
  else .error (.notPositive "font size" (Scalar.text size.toFloat))

def validate (s : StageArt) : Except Error Unit := do
  ensureTextSize s.textSize
  ensureTextSize s.nameSize

/-- The names of the fields in written form. -/
def fieldNames : List String :=
  ["background", "left_sprite", "right_sprite", "left_slam_sprite", "right_slam_sprite",
    "right_stand_x", "dialogue_box", "dialogue_box_y", "arrow", "font", "name_font", "text_size_px",
    "name_size_px"]

def toJson (s : StageArt) : Json :=
  .record [
    ("background", .text s.background),
    ("left_sprite", .text s.leftSprite),
    ("right_sprite", .text s.rightSprite),
    ("left_slam_sprite", .text s.leftSlamSprite),
    ("right_slam_sprite", .text s.rightSlamSprite),
    ("right_stand_x", .int s.rightStandX.toInt),
    ("dialogue_box", .text s.dialogueBox),
    ("dialogue_box_y", .int s.dialogueBoxY.toInt),
    ("arrow", .text s.arrow),
    ("font", .optional .text s.font),
    ("name_font", .optional .text s.nameFont),
    ("text_size_px", .float32 s.textSize),
    ("name_size_px", .float32 s.nameSize)]

/-- Reads the art; what is not written is standard, and nothing unknown may be written. -/
def ofJson? (j : Json) : Option StageArt := do
  let fs ← j.record? fieldNames .refused
  let d := standard
  let background ← fs.orElse? "background" d.background Json.text?
  let leftSprite ← fs.orElse? "left_sprite" d.leftSprite Json.text?
  let rightSprite ← fs.orElse? "right_sprite" d.rightSprite Json.text?
  let leftSlamSprite ← fs.orElse? "left_slam_sprite" d.leftSlamSprite Json.text?
  let rightSlamSprite ← fs.orElse? "right_slam_sprite" d.rightSlamSprite Json.text?
  let rightStandX ← fs.orElse? "right_stand_x" d.rightStandX Json.int32?
  let dialogueBox ← fs.orElse? "dialogue_box" d.dialogueBox Json.text?
  let dialogueBoxY ← fs.orElse? "dialogue_box_y" d.dialogueBoxY Json.int32?
  let arrow ← fs.orElse? "arrow" d.arrow Json.text?
  let font ← fs.orElse? "font" d.font (Json.nullable? Json.text?)
  let nameFont ← fs.orElse? "name_font" d.nameFont (Json.nullable? Json.text?)
  let textSize ← fs.orElse? "text_size_px" d.textSize Json.float32?
  let nameSize ← fs.orElse? "name_size_px" d.nameSize Json.float32?
  some {
    background, leftSprite, rightSprite, leftSlamSprite, rightSlamSprite, rightStandX, dialogueBox,
    dialogueBoxY, arrow, font, nameFont, textSize, nameSize }

end StageArt

namespace Config

variable {R : Type} [Scalar R]

/-- The colors that tags have unless the configuration says otherwise. -/
def standardPalette : Palette :=
  .ofList [
    ("red", ⟨247, 56, 41, 255⟩),
    ("green", ⟨0, 240, 0, 255⟩),
    ("blue", ⟨107, 198, 247, 255⟩),
    ("orange", ⟨247, 115, 57, 255⟩)]

def standard : Config R where
  canvas := ⟨256, 192⟩
  rate := .standard
  charsPerSecond := 30
  holdSeconds := 1
  panSeconds := 1
  leftX := 0
  rightX := -1034
  blipDelay := 0.06
  palette := standardPalette
  assetsRoot := "assets"
  exclamationSeconds := 0.7
  slamSeconds := 0.8
  maxFrames := 18000
  stage := .standard

/-- The pace of the dialogue. -/
def pace (c : Config R) : Pace R := ⟨c.charsPerSecond, c.holdSeconds⟩

/-- Where the background stands when the camera shows a side. -/
def cameraX (c : Config R) : Side → Int32
  | .left => c.leftX
  | .right => c.rightX

/-- Refuses values outside their domains; the first that is found is reported. -/
def validate (c : Config R) : Except Error Unit := do
  c.canvas.validate
  c.rate.validate
  c.pace.validate
  ensurePositive "pan_secs" c.panSeconds
  ensurePositive "exclamation_secs" c.exclamationSeconds
  ensurePositive "desk_slam_secs" c.slamSeconds
  if ¬ Scalar.isFinite c.blipDelay ∨ c.blipDelay < 0 then
    throw (.negative "blip_loop_delay_secs" (Scalar.text c.blipDelay))
  if c.maxFrames = 0 then throw .noFramesAllowed
  c.stage.validate

/-! ## Written form -/

/-- The names of the fields in written form. -/
def fieldNames : List String :=
  ["canvas", "fps", "chars_per_second", "post_reveal_hold_secs", "pan_secs", "left_x", "right_x",
    "blip_loop_delay_secs", "palette", "assets_root", "exclamation_secs", "desk_slam_secs",
    "max_frames", "stage"]

def toJson (c : Config Float) : Json :=
  .record [
    ("canvas", c.canvas.toJson),
    ("fps", c.rate.toJson),
    ("chars_per_second", .float c.charsPerSecond),
    ("post_reveal_hold_secs", .float c.holdSeconds),
    ("pan_secs", .float c.panSeconds),
    ("left_x", .int c.leftX.toInt),
    ("right_x", .int c.rightX.toInt),
    ("blip_loop_delay_secs", .float c.blipDelay),
    ("palette", c.palette.toJson),
    ("assets_root", .text c.assetsRoot),
    ("exclamation_secs", .float c.exclamationSeconds),
    ("desk_slam_secs", .float c.slamSeconds),
    ("max_frames", .int c.maxFrames.toNat),
    ("stage", c.stage.toJson)]

/-- Reads a configuration; what is not written is standard, and nothing unknown may be written. -/
def ofJson? (j : Json) : Option (Config Float) := do
  let fs ← j.record? fieldNames .refused
  let d : Config Float := standard
  let canvas ← fs.orElse? "canvas" d.canvas Canvas.ofJson?
  let rate ← fs.orElse? "fps" d.rate FrameRate.ofJson?
  let charsPerSecond ← fs.orElse? "chars_per_second" d.charsPerSecond Json.float?
  let holdSeconds ← fs.orElse? "post_reveal_hold_secs" d.holdSeconds Json.float?
  let panSeconds ← fs.orElse? "pan_secs" d.panSeconds Json.float?
  let leftX ← fs.orElse? "left_x" d.leftX Json.int32?
  let rightX ← fs.orElse? "right_x" d.rightX Json.int32?
  let blipDelay ← fs.orElse? "blip_loop_delay_secs" d.blipDelay Json.float?
  let palette ← fs.orElse? "palette" d.palette Palette.ofJson?
  let assetsRoot ← fs.orElse? "assets_root" d.assetsRoot Json.text?
  let exclamationSeconds ← fs.orElse? "exclamation_secs" d.exclamationSeconds Json.float?
  let slamSeconds ← fs.orElse? "desk_slam_secs" d.slamSeconds Json.float?
  let maxFrames ← fs.orElse? "max_frames" d.maxFrames Json.nat64?
  let stage ← fs.orElse? "stage" d.stage StageArt.ofJson?
  some {
    canvas, rate, charsPerSecond, holdSeconds, panSeconds, leftX, rightX, blipDelay, palette,
    assetsRoot, exclamationSeconds, slamSeconds, maxFrames, stage }

end Config

end Cutscene
