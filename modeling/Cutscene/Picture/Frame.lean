import Cutscene.Picture.Color

/-!
# Frames

A `Frame` is a picture of the movie: four bytes a pixel, row by row. Sizes are 32-bit words and
offsets into the data 64-bit words, as on the machine that holds the data.

Models `FrameRGBA` with `pixel` and `to_straight_rgba`, and `premultiply_rgba8_in_place`.
-/

namespace Cutscene

/-- The bytes `f 0`, `f 1`, and so on below `n`. -/
def bytesOfFn (n : Nat) (f : Nat → UInt8) : ByteArray := ⟨Array.ofFn fun i : Fin n => f i⟩

/-- Zeros, so many of them. -/
def zeroBytes (n : Nat) : ByteArray := bytesOfFn n fun _ => 0

/-- The byte at an offset; zero past the end. -/
def byteAt (data : ByteArray) (i : Nat) : UInt8 := if h : i < data.size then data[i] else 0

/-- The pixel that starts at an offset. -/
def colorAt (data : ByteArray) (i : Nat) : Color :=
  ⟨byteAt data i, byteAt data (i + 1), byteAt data (i + 2), byteAt data (i + 3)⟩

/-- The byte of a color at a place within a pixel. -/
def Color.byte (c : Color) (k : Nat) : UInt8 :=
  if k = 0 then c.r else if k = 1 then c.g else if k = 2 then c.b else c.a

/--
Writes changed pixels over a buffer, one by one as long as there are whole pixels in both. Other bytes of
the buffer stay.
-/
def writePixels (f : Color → Color) (data buffer : ByteArray) : ByteArray :=
  bytesOfFn buffer.size fun i =>
    let start := i / 4 * 4
    if start + 4 ≤ data.size ∧ start + 4 ≤ buffer.size then (f (colorAt data start)).byte (i % 4)
    else byteAt buffer i

/-- Changes whole pixels one by one. Bytes at the end that are too few for a pixel stay. -/
def mapPixels (f : Color → Color) (data : ByteArray) : ByteArray := writePixels f data data

/-- A picture, four bytes a pixel, row by row from the top left. -/
structure Frame where
  width : UInt32
  height : UInt32
  data : ByteArray
  /-- Whether the colors are scaled by their alpha. -/
  premultiplied : Bool
deriving Inhabited

namespace Frame

/-- The pixel in column `x` of row `y`, if the frame has it. Offsets are 64-bit words. -/
def pixel (f : Frame) (x y : UInt32) : Option Color :=
  if f.width ≤ x ∨ f.height ≤ y then none
  else
    let start := ((y.toUInt64 * f.width.toUInt64 + x.toUInt64) * 4).toNat
    if start + 4 ≤ f.data.size then some (colorAt f.data start) else none

/-- Divides a channel by an alpha that is not zero, rounding to the nearest whole number. -/
def unscaleByte (c a : UInt8) : UInt8 :=
  (min ((c.toNat * 255 + a.toNat / 2) / a.toNat) 255).toUInt8

/-- Undoes the scaling of a premultiplied color; there is nothing to undo at either end. -/
def straightColor (c : Color) : Color :=
  if c.a = 0 ∨ c.a = 255 then c
  else ⟨unscaleByte c.r c.a, unscaleByte c.g c.a, unscaleByte c.b c.a, c.a⟩

/-- The data with straight colors. -/
def straight (f : Frame) : ByteArray :=
  if f.premultiplied then mapPixels straightColor f.data else f.data

end Frame

/-- Scales straight colors by their alpha; a pixel without alpha becomes all zero. -/
def premultiplyBytes (data : ByteArray) : ByteArray := mapPixels Color.premultiplied data

end Cutscene
