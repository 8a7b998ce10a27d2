/-!
# What can go wrong

An `Error` names a cause. Its `kind` says which part of the work failed and its `message` says what
happened; `Error.display` puts the two together.

Models `ReelError` (SPEC_FULL.md, §7 and §B.2), with a constructor for every text that one is made with.
-/

namespace Cutscene

/-- Which part of the work an error belongs to. -/
inductive ErrorKind where
  /-- A value given by the user lies outside its domain. -/
  | validation
  /-- An asset is missing, unreadable or undecodable. -/
  | asset
  /-- Stepping, rendering or encoding failed. -/
  | evaluation
  /-- A text is not a written form of the value asked for. -/
  | serialization
  /-- The file system refused an output. -/
  | output
deriving Repr, DecidableEq

/-- What stands before the message of an error of this kind. -/
def ErrorKind.label : ErrorKind → String
  | validation => "validation error: "
  | asset => "asset error: "
  | evaluation => "evaluation error: "
  | serialization => "serialization error: "
  | output => ""

/-- A message under the label of its kind. -/
def ErrorKind.display (k : ErrorKind) (message : String) : String := k.label ++ message

/-- Why a text is no path of an asset. -/
inductive PathFault where
  | absolute
  | empty
  | parentSegment
  | noFileName
deriving Repr, DecidableEq

def PathFault.message : PathFault → String
  | absolute => "asset paths must be relative"
  | empty => "asset path must be non-empty"
  | parentSegment => "asset paths must not contain '..'"
  | noFileName => "asset path must contain a file name"

/-- Why a file could not be read. -/
inductive ReadFault where
  | missing
  | directory
  | notDirectory
  | nameTooLong
  | badName
deriving Repr, DecidableEq

def ReadFault.message : ReadFault → String
  | missing => "No such file or directory (os error 2)"
  | directory => "Is a directory (os error 21)"
  | notDirectory => "Not a directory (os error 20)"
  | nameTooLong => "File name too long (os error 36)"
  | badName => "file name contained an unexpected NUL byte"

/-- Why the content of a file is no picture. -/
inductive DecodeFault where
  | notImage
  | notAnimation
  | notDrawing
  | noFrames (path : String)
deriving Repr, DecidableEq

def DecodeFault.message : DecodeFault → String
  | notImage => "decode image from memory"
  | notAnimation => "open gif decoder"
  | notDrawing => "parse svg tree"
  | noFrames path => ErrorKind.asset.display ("image '" ++ path ++ "' has no frames")

/-- The consumers of frames that have a protocol to break. -/
inductive SinkKind where
  | memory
  | pngSequence
  | video
deriving Repr, DecidableEq

def SinkKind.name : SinkKind → String
  | memory => "in-memory sink"
  | pngSequence => "png sink"
  | video => "ffmpeg sink"

/-- The causes of failure. Numbers are held as the text that messages show. -/
inductive Error where
  | frameRateDenominator
  | frameRateNumerator
  | canvasEmpty
  | canvasTooLarge
  | notPositive (what got : String)
  | negative (what got : String)
  | noFramesAllowed
  | endlessEase (got : String)
  | rootFixed
  | ownSubtree (name : String)
  | badPath (fault : PathFault)
  | textSize
  | frameSize (width height expectedWidth expectedHeight : UInt32)
  | frameLength
  | bufferLength
  | sinkSizeZero (sink : SinkKind)
  | videoSizeOdd
  | outputExists (path : String)
  | noSequence (dir : String)
  | unreadable (path : String) (fault : ReadFault)
  | undecodable (path : String) (fault : DecodeFault)
  | audioMissing (path root : String)
  | notAFont (path : String)
  | fontUnnamed
  | scriptTooLong (frames queued : Nat)
  | spriteTooWide
  | spriteTooHigh
  | notStarted (sink : SinkKind)
  | outOfOrder (sink : SinkKind)
  | alreadyFinalized
  | pipeBroken
  | frameBuffer
  | encoderMissing
  | encoderFailed (status : Nat) (output : String)
  /-- A consumer outside the library refused, for a reason of its own. -/
  | refused (reason : String)
  | json
  | frameDirectory (dir : String)
  | frameFile (path : String)
  | outputDirectory (dir : String)
  | audioFile (path : String)
deriving Repr, DecidableEq

namespace Error

def kind : Error → ErrorKind
  | frameRateDenominator | frameRateNumerator | canvasEmpty | canvasTooLarge | notPositive _ _
  | negative _ _ | noFramesAllowed | endlessEase _ | rootFixed | ownSubtree _ | badPath _ | textSize
  | frameSize _ _ _ _ | frameLength | bufferLength | sinkSizeZero _ | videoSizeOdd | outputExists _
  | noSequence _ => .validation
  | unreadable _ _ | undecodable _ _ | audioMissing _ _ | notAFont _ | fontUnnamed => .asset
  | scriptTooLong _ _ | spriteTooWide | spriteTooHigh | notStarted _ | outOfOrder _
  | alreadyFinalized | pipeBroken | frameBuffer | encoderMissing | encoderFailed _ _ | refused _ => .evaluation
  | json => .serialization
  | frameDirectory _ | frameFile _ | outputDirectory _ | audioFile _ => .output

/-- What happened, without the label of the kind. -/
def message : Error → String
  | frameRateDenominator => "Fps den must be > 0"
  | frameRateNumerator => "Fps num must be > 0"
  | canvasEmpty => "canvas width/height must be > 0"
  | canvasTooLarge => "canvas width/height must fit in 16 bits"
  | notPositive what got => what ++ " must be finite and > 0 (got " ++ got ++ ")"
  | negative what got => what ++ " must be finite and >= 0 (got " ++ got ++ ")"
  | noFramesAllowed => "max_frames must be > 0"
  | endlessEase got => "easing curve must reach 1.0 at t=1 (got " ++ got ++ ")"
  | rootFixed => "the root node cannot be reparented"
  | ownSubtree name => "reparenting '" ++ name ++ "' under its own subtree would create a cycle"
  | badPath fault => fault.message
  | textSize => "text size_px must be finite and > 0"
  | frameSize w h w' h' =>
    "frame size mismatch: got " ++ toString w ++ "x" ++ toString h ++ ", expected " ++ toString w' ++
      "x" ++ toString h'
  | frameLength => "frame.data size mismatch with width*height*4"
  | bufferLength => "flatten_over_bg expects equal-length rgba8 buffers"
  | sinkSizeZero sink => sink.name ++ " width/height must be non-zero"
  | videoSizeOdd => "ffmpeg sink width/height must be even (required for yuv420p mp4 output)"
  | outputExists path => "output file '" ++ path ++ "' already exists"
  | noSequence dir => "no frame sequence found in '" ++ dir ++ "'"
  | unreadable path fault => "failed to read asset '" ++ path ++ "': " ++ fault.message
  | undecodable path fault => "failed to decode '" ++ path ++ "': " ++ fault.message
  | audioMissing path root => "audio asset '" ++ path ++ "' not found under '" ++ root ++ "'"
  | notAFont path => "no font families registered from '" ++ path ++ "'"
  | fontUnnamed => "registered font family has no name"
  | scriptTooLong frames queued =>
    "script still running after " ++ toString frames ++ " frames (" ++ toString queued ++
      " actions queued)"
  | spriteTooWide => "pixmap width exceeds u16"
  | spriteTooHigh => "pixmap height exceeds u16"
  | notStarted sink => sink.name ++ " not started"
  | outOfOrder sink => sink.name ++ " received out-of-order frame index"
  | alreadyFinalized => "ffmpeg sink is already finalized"
  | pipeBroken => "failed to write frame to ffmpeg stdin: Broken pipe (os error 32)"
  | frameBuffer => "frame buffer does not match its dimensions"
  | encoderMissing => "ffmpeg is required for MP4 encoding, but was not found on PATH"
  | encoderFailed status output =>
    "ffmpeg exited with status exit status: " ++ toString status ++ ": " ++ output
  | refused reason => reason
  | json => "the text is not a written form of the value"
  | frameDirectory dir => "failed to create frame directory '" ++ dir ++ "'"
  | frameFile path => "failed to write frame '" ++ path ++ "'"
  | outputDirectory dir => "failed to create output directory '" ++ dir ++ "'"
  | audioFile path => "write audio log to '" ++ path ++ "'"

/-- The whole text of an error. -/
def display (e : Error) : String := e.kind.display e.message

end Error

/-- A computation goes through if both of its parts do. -/
theorem bind_eq_ok_iff {α β : Type} {x : Except Error α} {f : α → Except Error β} {b : β} :
    (x >>= f) = .ok b ↔ ∃ a, x = .ok a ∧ f a = .ok b := by
  cases x with
  | error e =>
    constructor
    · intro h
      cases h
    · rintro ⟨a, h, -⟩
      cases h
  | ok a =>
    constructor
    · intro h
      exact ⟨a, rfl, h⟩
    · rintro ⟨a', h, hf⟩
      cases h
      exact hf

end Cutscene
