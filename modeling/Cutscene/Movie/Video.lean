import Cutscene.Movie.PngSequence
import Cutscene.Text.Blank

/-!
# Videos

Videos are made by an encoder, a program that takes frames from its input or from numbered pictures.
`Encoder` says how that program is going to behave. `VideoSink` sends frames to it without any
transparency, and `encodeSequence` has it read the pictures of a directory.

Models `FfmpegSink`, `flatten_over_bg`, `ensure_parent_dir` and `encode_png_sequence` (SPEC_FULL.md,
§B.12).
-/

namespace Cutscene

/-- How the encoder behaves. -/
structure Encoder where
  /-- Whether there is such a program. -/
  installed : Bool
  /-- The status with which it ends when asked for its version. -/
  versionStatus : Nat
  /-- The status with which it ends otherwise. -/
  status : Nat
  /-- What it then writes to its error output. -/
  errorOutput : String
deriving Repr, DecidableEq

namespace Encoder

/-- An encoder that does its work. -/
def working : Encoder := ⟨true, 0, 0, ""⟩

/-- Whether the encoder can be run. -/
def isAvailable (e : Encoder) : Bool := e.installed && e.versionStatus = 0

/-- What comes of a run that has ended. -/
def result (e : Encoder) : Except Error Unit :=
  if e.status = 0 then .ok () else .error (.encoderFailed e.status (trimmed e.errorOutput))

end Encoder

/-- A run of the encoder: what it was called with and what it has read. -/
structure EncoderRun where
  args : List String
  input : ByteArray

/--
Writes to the input of a run, of which the encoder reads so many bytes, or all without such a number.
What it does not read any more breaks the pipe, after as much of it as is still read.
-/
def EncoderRun.write (run : EncoderRun) (reads : Option Nat) (data : ByteArray) :
    Except Error Unit × EncoderRun :=
  let room := (reads.getD (run.input.size + data.size)) - run.input.size
  if data.size ≤ room then (.ok (), { run with input := run.input ++ data })
  else (.error .pipeBroken, { run with input := run.input ++ data.extract 0 room })

/-- The arguments that choose how videos are written. -/
def outputArgs : List String :=
  ["-an", "-c:v", "libx264", "-pix_fmt", "yuv420p", "-movflags", "+faststart"]

/-- Makes the directory that a file is to stand in, if it is missing. -/
def ensureParent (disk : Disk) (path : String) : Except Error Disk :=
  let dir := parentPath path
  if dir = "" then .ok disk
  else match disk.makeDirectories dir with
    | some disk => .ok disk
    | none => .error (.outputDirectory dir)

/-! ## Transparency -/

/-- One channel over a background, of which alpha lets through what is left. -/
def flattenByte (premultiplied : Bool) (c a background : UInt8) : UInt8 :=
  let paint := if premultiplied then c else scaleByte c a
  (min (paint.toNat + (scaleByte background (255 - a)).toNat) 255).toUInt8

/-- A pixel over a background. It is opaque, and an opaque pixel stays what it is. -/
def flattenColor (premultiplied : Bool) (background c : Color) : Color :=
  if c.a = 255 then c
  else
    ⟨flattenByte premultiplied c.r c.a background.r, flattenByte premultiplied c.g c.a background.g,
      flattenByte premultiplied c.b c.a background.b, 255⟩

/-- A frame over a background, written over a buffer of the same length. -/
def Frame.flattenInto (f : Frame) (buffer : ByteArray) (background : Color) : Except Error ByteArray :=
  if buffer.size ≠ f.data.size ∨ buffer.size % 4 ≠ 0 then .error .bufferLength
  else .ok (writePixels (flattenColor f.premultiplied background) f.data buffer)

/-! ## Sending frames -/

/-- Where a video goes and how. -/
structure VideoOptions where
  path : String
  /-- Whether a file that is there may be replaced. -/
  overwrite : Bool
  /-- What stands behind transparent pixels. -/
  background : Color
deriving Repr, DecidableEq

/-- The frames of one video. -/
structure VideoSink where
  options : VideoOptions
  encoder : Encoder
  /-- How many bytes of a run the encoder reads, if it does not read to the end. -/
  reads : Option Nat
  /-- What frames are flattened into, one after another. -/
  buffer : ByteArray
  config : Option SinkConfig
  last : Option FrameIndex
  /-- The run that has been started and not ended. -/
  running : Option EncoderRun
  /-- The last run that has ended. -/
  finished : Option EncoderRun

namespace VideoSink

def create (options : VideoOptions) (encoder : Encoder) : VideoSink :=
  ⟨options, encoder, none, .empty, none, none, none, none⟩

/-- Refuses sizes that the encoder does not take. -/
def checkSize (c : SinkConfig) : Except Error Unit :=
  if c.width = 0 ∨ c.height = 0 then .error (.sinkSizeZero .video)
  else if c.width % 2 ≠ 0 ∨ c.height % 2 ≠ 0 then .error .videoSizeOdd
  else .ok ()

/-- What the encoder is called with. -/
def args (o : VideoOptions) (c : SinkConfig) : List String :=
  [if o.overwrite then "-y" else "-n", "-loglevel", "error", "-f", "rawvideo", "-pix_fmt", "rgba",
    "-s", toString c.width ++ "x" ++ toString c.height, "-r", c.rate.ratio, "-i", "pipe:0"] ++
    outputArgs ++ [o.path]

/-- Refuses to replace a file that is there, if that is not wanted. -/
def checkOutput (o : VideoOptions) (disk : Disk) : Except Error Unit :=
  if !o.overwrite && disk.exists? o.path then .error (.outputExists o.path) else .ok ()

/-- Checks the configuration, then the place of the output, then the encoder, and runs it. -/
def start (c : SinkConfig) (r : Recording VideoSink) : Recording.Outcome VideoSink :=
  match c.rate.validate, checkSize c, ensureParent r.disk r.sink.options.path with
  | .error e, _, _ => r.refused e
  | _, .error e, _ => r.refused e
  | _, _, .error e => r.refused e
  | .ok (), .ok (), .ok disk =>
    match checkOutput r.sink.options disk with
    | .error e => (.error e, { r with disk })
    | .ok () =>
      if r.sink.encoder.isAvailable then
        let run : EncoderRun := ⟨args r.sink.options c, .empty⟩
        .accepted
          { r.sink with
            buffer := zeroBytes c.dataLength.toNat, config := some c, last := none, running := some run
            finished := r.sink.running <|> r.sink.finished }
          disk
      else (.error .encoderMissing, { r with disk })

/-- Whether the sink is going to take a frame. -/
def accept (s : VideoSink) (i : FrameIndex) (f : Frame) : Except Error Unit := do
  let some c := s.config | .error (.notStarted .video)
  checkOrder .video s.last i
  c.checkFrame f

/--
Sends a frame. Its index counts as taken even if the run has ended, which a failed end leaves
possible, or the pipe breaks.
-/
def push (i : FrameIndex) (f : Frame) (r : Recording VideoSink) : Recording.Outcome VideoSink :=
  match r.sink.accept i f with
  | .error e => r.refused e
  | .ok () =>
    let s := { r.sink with last := some i }
    match f.flattenInto s.buffer s.options.background with
    | .error e => (.error e, { r with sink := s })
    | .ok buffer =>
      let s := { s with buffer }
      match s.running with
      | none => (.error .alreadyFinalized, { r with sink := s })
      | some run =>
        match run.write s.reads buffer with
        | (result, run) => (result, { r with sink := { s with running := some run } })

/-- Ends the run. If that fails the configuration stays. -/
def finish (r : Recording VideoSink) : Recording.Outcome VideoSink :=
  match r.sink.running with
  | none => r.refused (.notStarted .video)
  | some run =>
    let s := { r.sink with running := none, finished := some run }
    match s.encoder.result with
    | .error e => (.error e, { r with sink := s })
    | .ok () => .accepted { s with config := none } r.disk

instance : Sink VideoSink := ⟨start, push, finish⟩

end VideoSink

/-! ## Encoding numbered pictures -/

/-- What the encoder is called with for the pictures of a directory. Odd sides grow by a pixel. -/
def sequenceArgs (dir : String) (rate : FrameRate) (out : String) : List String :=
  ["-y", "-loglevel", "error", "-framerate", rate.ratio, "-i", joinPath dir PngSink.pattern, "-vf",
    "pad=ceil(iw/2)*2:ceil(ih/2)*2"] ++ outputArgs ++ [out]

/-- Has the encoder make a video of the pictures of a directory; gives its run, if there was one. -/
def encodeSequence (encoder : Encoder) (disk : Disk) (dir : String) (rate : FrameRate) (out : String) :
    Except Error Unit × Option EncoderRun × Disk :=
  match rate.validate with
  | .error e => (.error e, none, disk)
  | .ok () =>
    if !disk.isFile (joinPath dir (PngSink.fileName 0)) then (.error (.noSequence dir), none, disk)
    else match ensureParent disk out with
      | .error e => (.error e, none, disk)
      | .ok disk =>
        if encoder.isAvailable then
          (encoder.result, some ⟨sequenceArgs dir rate out, .empty⟩, disk)
        else (.error .encoderMissing, none, disk)

end Cutscene
