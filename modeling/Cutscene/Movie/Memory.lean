import Cutscene.Movie.Sink

/-!
# Frames kept in memory

A sink that keeps the frames as they come.

Models `InMemorySink` (SPEC_FULL.md, §B.12).
-/

namespace Cutscene

/-- The frames taken so far. -/
structure MemorySink where
  config : Option SinkConfig
  frames : List (FrameIndex × Frame)
  /-- Whether the sink was finished after it was last started. -/
  ended : Bool

namespace MemorySink

def empty : MemorySink := ⟨none, [], false⟩

/-- Forgets what was taken before. -/
def start (c : SinkConfig) (r : Recording MemorySink) : Recording.Outcome MemorySink :=
  .accepted ⟨some c, [], false⟩ r.disk

def push (i : FrameIndex) (f : Frame) (r : Recording MemorySink) : Recording.Outcome MemorySink :=
  match r.sink.config with
  | none => r.refused (.notStarted .memory)
  | some c =>
    match c.checkFrame f with
    | .error e => r.refused e
    | .ok () => .accepted { r.sink with frames := r.sink.frames ++ [(i, f)] } r.disk

def finish (r : Recording MemorySink) : Recording.Outcome MemorySink :=
  .accepted { r.sink with ended := true } r.disk

instance : Sink MemorySink := ⟨start, push, finish⟩

end MemorySink

end Cutscene
