import Cutscene.Error
import Cutscene.Json.Record
import Cutscene.Number.Scalar

/-!
# Easing curves

A curve maps the progress of a motion to how far it has come. `Ease.apply` evaluates a curve at a
progress clamped to the unit interval, and `lerp` turns the result into a pixel position.

Models `Ease` with `apply` and `validate_terminates`, and `lerp_i32` (SPEC_FULL.md, §B.7).
-/

namespace Cutscene

/-- A curve from progress to distance. -/
inductive Ease (R : Type) where
  | linear
  | inQuad
  | outQuad
  | inOutQuad
  | inCubic
  | outCubic
  | inOutCubic
  /-- A curve of the user's own; it receives progress within the unit interval. -/
  | custom (curve : R → R)

namespace Ease

variable {R : Type} [Scalar R]

def square (t : R) : R := t * t

def cube (t : R) : R := t * t * t

/-- How far a motion has come at progress `t`. -/
def apply (e : Ease R) (t : R) : R :=
  let t := Scalar.clampUnit t
  match e with
  | linear => t
  | inQuad => t * t
  | outQuad => 1 - (1 - t) * (1 - t)
  | inOutQuad => if t < 0.5 then 2 * t * t else 1 - square (-2 * t + 2) / 2
  | inCubic => t * t * t
  | outCubic => 1 - cube (1 - t)
  | inOutCubic => if t < 0.5 then 4 * t * t * t else 1 - cube (-2 * t + 2) / 2
  | custom curve => curve t

/-- Refuses a curve that does not arrive: a motion along it would never end. -/
def ensureArrives (e : Ease R) : Except Error Unit :=
  let last := e.apply 1
  if Scalar.isFinite last ∧ 1 ≤ last then .ok () else .error (.endlessEase (Scalar.text last))

/-! ## Written form -/

/-- The name of a curve; one of the user's own has none. -/
def name? : Ease R → Option String
  | linear => some "Linear"
  | inQuad => some "InQuad"
  | outQuad => some "OutQuad"
  | inOutQuad => some "InOutQuad"
  | inCubic => some "InCubic"
  | outCubic => some "OutCubic"
  | inOutCubic => some "InOutCubic"
  | custom _ => none

/-- The curve of a name. -/
def ofName? (name : String) : Option (Ease R) :=
  [linear, inQuad, outQuad, inOutQuad, inCubic, outCubic, inOutCubic].find?
    fun e => e.name? == some name

def toJson? (e : Ease R) : Option Json := e.name?.map Json.text

def ofJson? (j : Json) : Option (Ease R) := j.choice?.bind ofName?

end Ease

/-- The position between two whole positions, cut toward zero. -/
def lerp {R : Type} [Scalar R] (start target : Int32) (t : R) : Int32 :=
  Scalar.toInt32
    (Scalar.ofInt start.toInt + (Scalar.ofInt target.toInt - Scalar.ofInt start.toInt) * t)

end Cutscene
