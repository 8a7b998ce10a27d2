import Cutscene.Error
import Cutscene.Json.Number
import Cutscene.Json.Record
import Cutscene.Number.Scalar

/-!
# Frame rates

A movie shows `num` frames in `den` seconds. One frame of it is the fixed step of the stage clock.

Models `Fps` with `frame_duration_secs` and `frames_to_secs` (SPEC_FULL.md, §B.6).
-/

namespace Cutscene

/-- A number of frames in a number of seconds. -/
structure FrameRate where
  num : UInt32
  den : UInt32
deriving Repr, DecidableEq

namespace FrameRate

/-- Thirty frames a second. -/
def standard : FrameRate := ⟨30, 1⟩

/-- Refuses rates that are zero or stand over zero seconds. -/
def validate (f : FrameRate) : Except Error Unit :=
  if f.den = 0 then .error .frameRateDenominator
  else if f.num = 0 then .error .frameRateNumerator
  else .ok ()

variable {R : Type} [Scalar R]

/-- Frames a second. -/
def perSecond (f : FrameRate) : R := Scalar.ofInt f.num.toNat / Scalar.ofInt f.den.toNat

/-- The duration of one frame. -/
def frameSeconds (f : FrameRate) : R := Scalar.ofInt f.den.toNat / Scalar.ofInt f.num.toNat

/-- The duration of a number of frames. -/
def seconds (f : FrameRate) (frames : Nat) : R := Scalar.ofInt frames * f.frameSeconds

/-- The rate as a fraction. -/
def ratio (f : FrameRate) : String := toString f.num ++ "/" ++ toString f.den

def toJson (f : FrameRate) : Json := .record [("num", .int f.num.toNat), ("den", .int f.den.toNat)]

def ofJson? (j : Json) : Option FrameRate := do
  let fs ← j.record? ["num", "den"] .ignored
  let num ← fs.required? "num" Json.nat32?
  let den ← fs.required? "den" Json.nat32?
  some ⟨num, den⟩

end FrameRate

end Cutscene
