import Cutscene.Error
import Cutscene.Json.Number
import Cutscene.Json.Record

/-!
# Canvases

The size of the pictures that are painted.

Models `Canvas` with `validate` (SPEC_FULL.md, §B.6).
-/

namespace Cutscene

/-- A width and a height in pixels. -/
structure Canvas where
  width : UInt32
  height : UInt32
deriving Repr, DecidableEq

namespace Canvas

/-- Refuses empty canvases and sides of more than 16 bits. -/
def validate (c : Canvas) : Except Error Unit :=
  if c.width = 0 ∨ c.height = 0 then .error .canvasEmpty
  else if 65535 < c.width ∨ 65535 < c.height then .error .canvasTooLarge
  else .ok ()

def toJson (c : Canvas) : Json :=
  .record [("width", .int c.width.toNat), ("height", .int c.height.toNat)]

def ofJson? (j : Json) : Option Canvas := do
  let fs ← j.record? ["width", "height"] .ignored
  let width ← fs.required? "width" Json.nat32?
  let height ← fs.required? "height" Json.nat32?
  some ⟨width, height⟩

end Canvas

end Cutscene
