import Cutscene.Json.Number
import Cutscene.Json.Record

/-!
# Colors

Four bytes a color: red, green, blue and alpha. In a straight color the first three say how the
paint looks; in a premultiplied one they are already scaled down by the alpha.

Models `Rgba8` with `premultiplied`, and `mul_div255_u8` (SPEC_FULL.md, §B.6).
-/

namespace Cutscene

/-- A color of four bytes. -/
structure Color where
  r : UInt8
  g : UInt8
  b : UInt8
  a : UInt8
deriving Repr, DecidableEq, Inhabited

/-- `x * y / 255`, rounded to the nearest whole number. -/
def scaleByte (x y : UInt8) : UInt8 := ((x.toNat * y.toNat + 127) / 255).toUInt8

namespace Color

def white : Color := ⟨255, 255, 255, 255⟩

def black : Color := ⟨0, 0, 0, 255⟩

def clear : Color := ⟨0, 0, 0, 0⟩

/-- Scales the paint of a straight color by its alpha. -/
def premultiplied (c : Color) : Color :=
  ⟨scaleByte c.r c.a, scaleByte c.g c.a, scaleByte c.b c.a, c.a⟩

/-- One channel over another: `under` shows through as far as alpha `a` lets it. -/
def overByte (top under a : UInt8) : UInt8 :=
  (top.toNat + (under.toNat * (255 - a.toNat) + 255) / 256).toUInt8

/-- A premultiplied color painted over another one. -/
def paintedOver (top under : Color) : Color :=
  ⟨overByte top.r under.r top.a, overByte top.g under.g top.a, overByte top.b under.b top.a,
    overByte top.a under.a top.a⟩

/-- The bytes in order. -/
def toList (c : Color) : List UInt8 := [c.r, c.g, c.b, c.a]

/-! ## Written form -/

def toJson (c : Color) : Json :=
  .record [("r", .int c.r.toNat), ("g", .int c.g.toNat), ("b", .int c.b.toNat), ("a", .int c.a.toNat)]

def ofJson? (j : Json) : Option Color := do
  let fs ← j.record? ["r", "g", "b", "a"] .ignored
  let r ← fs.required? "r" Json.nat8?
  let g ← fs.required? "g" Json.nat8?
  let b ← fs.required? "b" Json.nat8?
  let a ← fs.required? "a" Json.nat8?
  some ⟨r, g, b, a⟩

end Color

end Cutscene
