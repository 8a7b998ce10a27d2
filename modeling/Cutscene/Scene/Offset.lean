import Cutscene.Json.Number
import Cutscene.Json.Record

/-!
# Positions

Pixel positions are 32-bit words. The third coordinate of an `Offset` is a depth: what has more of it
is painted later.

Models `Offset3` (SPEC_FULL.md, §B.6).
-/

namespace Cutscene

/-- A position on the canvas. -/
structure Point where
  x : Int32
  y : Int32
deriving Repr, DecidableEq, Inhabited

/-- A position and a depth. -/
structure Offset where
  x : Int32
  y : Int32
  z : Int32
deriving Repr, DecidableEq, Inhabited

namespace Point

def zero : Point := ⟨0, 0⟩

instance : Add Point := ⟨fun p q => ⟨p.x + q.x, p.y + q.y⟩⟩

end Point

namespace Offset

def zero : Offset := ⟨0, 0, 0⟩

instance : Add Offset := ⟨fun p q => ⟨p.x + q.x, p.y + q.y, p.z + q.z⟩⟩

/-- The position without the depth. -/
def xy (o : Offset) : Point := ⟨o.x, o.y⟩

/-- Moves to a position at the same depth. -/
def withXY (o : Offset) (p : Point) : Offset := { o with x := p.x, y := p.y }

def toJson (o : Offset) : Json :=
  .record [("x", .int o.x.toInt), ("y", .int o.y.toInt), ("z", .int o.z.toInt)]

def ofJson? (j : Json) : Option Offset := do
  let fs ← j.record? ["x", "y", "z"] .ignored
  let x ← fs.required? "x" Json.int32?
  let y ← fs.required? "y" Json.int32?
  let z ← fs.required? "z" Json.int32?
  some ⟨x, y, z⟩

end Offset

end Cutscene
