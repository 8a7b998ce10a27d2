import Cutscene.Disk.Basic
import Cutscene.Motion.FrameRate
import Cutscene.Picture.Frame

/-!
# Sinks

A sink takes the frames of a movie: it is started, takes frames in ascending order of their indices,
and is finished. What it does may change the disk, so its state and the disk go together.

Models `FrameSink`: `start`, `push` and `finish` are `begin`, `push_frame` and `end`; and `SinkConfig`
with `check_frame` (SPEC_FULL.md, §B.12).
-/

namespace Cutscene

/-- What a sink is told before the first frame. -/
structure SinkConfig where
  width : UInt32
  height : UInt32
  rate : FrameRate
deriving Repr, DecidableEq

/-- The place of a frame in the movie, counted from zero. -/
abbrev FrameIndex := UInt64

/-- The length of the data of a frame, as a 64-bit word. -/
def SinkConfig.dataLength (c : SinkConfig) : UInt64 := c.width.toUInt64 * c.height.toUInt64 * 4

theorem SinkConfig.toNat_dataLength (c : SinkConfig) :
    c.dataLength.toNat = c.width.toNat * c.height.toNat * 4 % UInt64.size := by
  simp [dataLength]

/--
Refuses a frame of another size than was announced, and data of another length than the size asks
for.
-/
def SinkConfig.checkFrame (c : SinkConfig) (f : Frame) : Except Error Unit :=
  if f.width ≠ c.width ∨ f.height ≠ c.height then
    .error (.frameSize f.width f.height c.width c.height)
  else if f.data.size ≠ c.dataLength.toNat then .error .frameLength
  else .ok ()

theorem SinkConfig.checkFrame_eq_ok_iff {c : SinkConfig} {f : Frame} :
    c.checkFrame f = .ok () ↔
      f.width = c.width ∧ f.height = c.height ∧ f.data.size = c.dataLength.toNat := by
  unfold checkFrame
  by_cases hsize : f.width = c.width ∧ f.height = c.height
  · obtain ⟨hwidth, hheight⟩ := hsize
    simp [hwidth, hheight]
  · rw [if_pos (Decidable.not_and_iff_or_not.mp hsize)]
    simp only [reduceCtorEq, false_iff]
    exact fun h => hsize ⟨h.1, h.2.1⟩

/-- Refuses an index that is not above the last one. -/
def checkOrder (sink : SinkKind) (last : Option FrameIndex) (i : FrameIndex) : Except Error Unit :=
  match last with
  | some l => if i ≤ l then .error (.outOfOrder sink) else .ok ()
  | none => .ok ()

theorem checkOrder_eq_ok_iff {sink : SinkKind} {last : Option FrameIndex} {i : FrameIndex} :
    checkOrder sink last i = .ok () ↔ ∀ l, last = some l → l < i := by
  unfold checkOrder
  cases last with
  | none => simp
  | some l =>
    by_cases hle : i ≤ l
    · simp [hle, UInt64.not_lt.mpr hle]
    · simp [hle, UInt64.not_le.mp hle]

/-- A sink and the disk that it may write to. -/
structure Recording (σ : Type) where
  sink : σ
  disk : Disk

namespace Recording

variable {σ : Type}

/-- The outcome of a call, which leaves a sink and a disk behind in any case. -/
abbrev Outcome (σ : Type) := Except Error Unit × Recording σ

/-- A call that went well. -/
def Outcome.accepted (sink : σ) (disk : Disk) : Outcome σ := (.ok (), ⟨sink, disk⟩)

/-- A call that was refused and changed nothing. -/
def refused (r : Recording σ) (e : Error) : Outcome σ := (.error e, r)

end Recording

/-- What takes the frames of a movie. -/
class Sink (σ : Type) where
  start : SinkConfig → Recording σ → Recording.Outcome σ
  push : FrameIndex → Frame → Recording σ → Recording.Outcome σ
  finish : Recording σ → Recording.Outcome σ

end Cutscene
