import Cutscene.Movie.Sink

/-!
# Frames as numbered pictures

A sink that writes each frame as a PNG picture with straight colors, named by its index in at least
six digits.

Models `PngSequenceSink` with `file_name` (SPEC_FULL.md, §6 and §B.12).
-/

namespace Cutscene

/-- The frames of one directory. -/
structure PngSink where
  dir : String
  config : Option SinkConfig
  /-- The index of the last frame taken. -/
  last : Option FrameIndex
  /-- How many frames were taken after the sink was last started. -/
  written : Nat

namespace PngSink

def create (dir : String) : PngSink := ⟨dir, none, none, 0⟩

/-- A number in decimal, with zeros in front if it has fewer digits than asked for. -/
def padded (width n : Nat) : String :=
  let ds := Nat.repr n
  String.ofList (List.replicate (width - ds.length) '0') ++ ds

/-- The name of the file of a frame. -/
def fileName (i : FrameIndex) : String := "frame_" ++ padded 6 i.toNat ++ ".png"

/-- What all names of files follow, as the encoder is told. -/
def pattern : String := "frame_%06d.png"

/-- The path of the file of a frame. -/
def framePath (s : PngSink) (i : FrameIndex) : String := joinPath s.dir (fileName i)

/-- Makes the directory if it is missing. -/
def start (c : SinkConfig) (r : Recording PngSink) : Recording.Outcome PngSink :=
  if c.width = 0 ∨ c.height = 0 then r.refused (.sinkSizeZero .pngSequence)
  else
    match r.disk.makeDirectories r.sink.dir with
    | none => r.refused (.frameDirectory r.sink.dir)
    | some disk => .accepted { r.sink with config := some c, last := none, written := 0 } disk

/-- The picture of a frame, if there is data for all its pixels. -/
def picture? (f : Frame) : Option Content :=
  if f.width.toNat * f.height.toNat * 4 ≤ f.data.size then
    some (.still f.width f.height f.straight)
  else none

/-- Whether the sink is going to take a frame, and for which picture. -/
def accept (s : PngSink) (i : FrameIndex) (f : Frame) : Except Error Content := do
  let some c := s.config | .error (.notStarted .pngSequence)
  checkOrder .pngSequence s.last i
  c.checkFrame f
  let some picture := picture? f | .error .frameBuffer
  .ok picture

/-- Writes the file of a frame. -/
def push (i : FrameIndex) (f : Frame) (r : Recording PngSink) : Recording.Outcome PngSink :=
  match r.sink.accept i f with
  | .error e => r.refused e
  | .ok picture =>
    match r.disk.write? (r.sink.framePath i) picture with
    | none => r.refused (.frameFile (r.sink.framePath i))
    | some disk => .accepted { r.sink with last := some i, written := r.sink.written + 1 } disk

def finish (r : Recording PngSink) : Recording.Outcome PngSink :=
  match r.sink.config with
  | none => r.refused (.notStarted .pngSequence)
  | some _ => .accepted { r.sink with config := none } r.disk

instance : Sink PngSink := ⟨start, push, finish⟩

end PngSink

end Cutscene
