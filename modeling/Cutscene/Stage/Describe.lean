import Cutscene.Movie.Video
import Cutscene.Stage.Basic
import Cutscene.Text.Described

/-!
# Descriptions

Short texts that say what state a part of the library is in, for logs and error reports.

Models the debug output of `Director`, `DialogueInterpreter`, `CpuCompositor` and `FfmpegSink`.
-/

namespace Cutscene

def Phase.describe : Phase → String
  | idle => "Idle"
  | revealing => "Revealing"
  | paused => "Paused"
  | allRevealed => "AllRevealed"

def Typewriter.describe {κ : Type} (t : Typewriter Float κ) : String :=
  describeOpen "DialogueInterpreter" [
    ("state", t.phase.describe),
    ("visible", toString t.visible),
    ("char_time", Layout.description.text t.charTime),
    ("speaker", describeOption describeText t.speaker)]

def Painter.describe (p : Painter) : String :=
  describeOpen "CpuCompositor" [
    ("canvas", describeClosed "Canvas" [
      ("width", toString p.canvas.width),
      ("height", toString p.canvas.height)]),
    ("opts", describeClosed "CpuCompositorOpts" [
      ("clear_rgba", describeOption (fun c => describeBytes c.toList) p.background)]),
    ("cached_paints", toString p.ready.length)]

def Stage.describe (s : Stage Float) : String :=
  describeOpen "Director" [
    ("frame", toString s.frame),
    ("time", Layout.description.text s.time),
    ("queued", toString s.queued),
    ("dialogue", s.dialogue.describe)]

def VideoSink.describe (v : VideoSink) : String :=
  describeOpen "FfmpegSink" [
    ("opts", describeClosed "FfmpegSinkOpts" [
      ("out_path", describeText v.options.path),
      ("overwrite", toString v.options.overwrite),
      ("bg_rgba", describeBytes v.options.background.toList)]),
    ("running", toString v.running.isSome),
    ("last_idx", describeOption (fun i => "FrameIndex(" ++ toString i ++ ")") v.last)]

end Cutscene
