import Cutscene.Disk.Basic
import Cutscene.Number.Scalar
import Cutscene.Picture.Frame

/-!
# Sprites

A sprite is a still picture or an animation that repeats. `Sprite.decode` makes one from the content
of a file, which the ending of the file's name says how to take; `Sprite.frameIndex` says which frame
an animation shows at a time.

Models `Sprite` with `frame_at`, and `decode_sprite` with `decode_still_frame`, `decode_gif_frames` and
`decode_svg_frame` (SPEC_FULL.md, §B.8). What the formats of pictures are like is out of scope: a file
already holds its pixels.
-/

namespace Cutscene

/-- One picture of a sprite, with premultiplied colors. -/
structure SpriteFrame where
  width : UInt32
  height : UInt32
  data : ByteArray
deriving Inhabited

/-- A picture or an animation. -/
structure Sprite (R : Type) where
  /-- The normal form of the path of the asset. -/
  path : String
  frames : List SpriteFrame
  /-- For an animation, the time within the loop at which each frame ends. -/
  ends : List R
  frames_ne_nil : frames ≠ []

instance {R : Type} : Inhabited (Sprite R) := ⟨⟨"", [default], [], by simp⟩⟩

/-- What stands behind the last point of a path, in lower case; nothing without a point. -/
def pathEnding (path : String) : String :=
  let back := path.toList.reverse
  if back.contains '.' then
    String.ofList ((back.takeWhile (· ≠ '.')).reverse.map Char.toLower)
  else ""

namespace Sprite

variable {R : Type} [Scalar R]

def frameCount (s : Sprite R) : Nat := s.frames.length

def isAnimated (s : Sprite R) : Bool := s.ends ≠ []

/-- The duration of one loop of an animation. -/
def duration? (s : Sprite R) : Option R := s.ends.getLast?

/--
The frame shown at a time: the first that ends later, the time taken within the loop. Times before
the start, and what compares with nothing, count as the start. At a time without end the last frame
is shown.
-/
def frameIndex (s : Sprite R) (t : R) : Nat :=
  match s.duration? with
  | none => 0
  | some total =>
    let t := Scalar.remainder (Scalar.clampNonneg t) total
    (s.ends.findIdx? fun stop => t < stop).getD (s.frames.length - 1)

def frameAt (s : Sprite R) (t : R) : SpriteFrame :=
  (s.frames[s.frameIndex t]?).getD (s.frames.head s.frames_ne_nil)

/-! ## Decoding -/

/-- A picture of one opaque color. -/
def plainFrame (width height : UInt32) (c : Color) : SpriteFrame :=
  let n := width.toNat * height.toNat * 4
  ⟨width, height, bytesOfFn n fun i =>
    if i % 4 = 0 then c.r else if i % 4 = 1 then c.g else if i % 4 = 2 then c.b else 255⟩

/-- A side of a drawing in whole pixels, rounded up. It must be above zero. -/
def drawingSide? (written : String) : Option UInt32 :=
  (Decimal.ofText? written).bind fun d =>
    let side := d.toFloat.toFloat32
    if side.isFinite ∧ 0 < side then some (max 1 side.ceil.toUInt32) else none

/-- How long a frame of an animation is shown; one without a duration for a tenth of a second. -/
def delaySeconds (ms : Nat) : R := Scalar.ofInt (if ms = 0 then 100 else ms) / 1000

/-- The running sums of some durations. -/
def runningSums (start : R) : List R → List R
  | [] => []
  | d :: r => (start + d) :: runningSums (start + d) r

/-- The frames of a file, and their durations if it is to be taken as an animation. -/
def decodeFrames (path : String) (c : Content) : Except DecodeFault (List SpriteFrame × List R) :=
  match pathEnding path, c with
  | "gif", .animation w h frames =>
    .ok (frames.map fun f => plainFrame w h f.1, frames.map fun f => delaySeconds f.2)
  | "gif", _ => .error .notAnimation
  | "svg", .drawing w h color =>
    match drawingSide? w, drawingSide? h with
    | some w, some h => .ok ([plainFrame w h color], [])
    | _, _ => .error .notDrawing
  | "svg", _ => .error .notDrawing
  | _, .still w h data => .ok ([⟨w, h, premultiplyBytes data⟩], [])
  | _, .animation w h (f :: _) => .ok ([plainFrame w h f.1], [])
  | _, _ => .error .notImage

/-- The sprite that a file holds. A single frame is a still picture, however long it is shown. -/
def decode (path : String) (c : Content) : Except DecodeFault (Sprite R) :=
  match decodeFrames path c with
  | .error e => .error e
  | .ok ([], _) => .error (.noFrames path)
  | .ok ([f], _) => .ok ⟨path, [f], [], by simp⟩
  | .ok (f :: g :: r, delays) => .ok ⟨path, f :: g :: r, runningSums 0 delays, by simp⟩

end Sprite

end Cutscene
