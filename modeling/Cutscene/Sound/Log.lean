import Cutscene.Disk.Basic
import Cutscene.Json.Printer

/-!
# The audio log

Sounds are not mixed here. The log lists which clip is played when, for a mixer to carry out. Two
channels, music and voice blips, have at most one clip open at a time: starting one closes the other.

Models `AudioLog`, `AudioCommand`, `AudioChannel` and `LoopType` (SPEC_FULL.md, §3, §6 and §B.11).
-/

namespace Cutscene

/-- How a clip is repeated. -/
inductive Repetition where
  /-- Until the end of the entry, the last repetition cut short. -/
  | untilTruncated
  /-- Until the end of the entry, but only repetitions that fit. -/
  | completeOnly
deriving Repr, DecidableEq

namespace Repetition

def name : Repetition → String
  | untilTruncated => "loop_until_truncated"
  | completeOnly => "loop_complete_only"

def toJson (t : Repetition) : Json := .text t.name

def ofName? (s : String) : Option Repetition := [untilTruncated, completeOnly].find? fun t => t.name = s

def ofJson? (j : Json) : Option Repetition := j.choice?.bind ofName?

end Repetition

/-- What plays one clip at a time. -/
inductive Channel where
  | music
  | voiceBlip
deriving Repr, DecidableEq

/-- One entry of the log. -/
structure SoundEntry (R : Type) where
  /-- The kind of entry; the library itself makes entries of kind `audio` only. -/
  kind : String
  path : String
  /-- When the clip starts. -/
  offset : R
  /-- When a looped clip ends. -/
  stop : Option R
  /-- The silence between repetitions. -/
  loopDelay : Option R
  repetition : Option Repetition
deriving Repr, DecidableEq

namespace SoundEntry

/-- A clip that is played once. -/
def clip {R : Type} (path : String) (offset : R) : SoundEntry R := ⟨"audio", path, offset, none, none, none⟩

/-- A member that is left out when there is no value. -/
def member {α : Type} (name : String) (write : α → Json) : Option α → List (String × Json)
  | none => []
  | some a => [(name, write a)]

def toJson (e : SoundEntry Float) : Json :=
  .record ([("type", .text e.kind), ("path", .text e.path), ("offset", .float e.offset)] ++
    member "end" Json.float e.stop ++ member "loop_delay" Json.float e.loopDelay ++
    member "loop_type" Repetition.toJson e.repetition)

def ofJson? (j : Json) : Option (SoundEntry Float) := do
  let fs ← j.record? ["type", "path", "offset", "end", "loop_delay", "loop_type"] .ignored
  let kind ← fs.required? "type" Json.text?
  let path ← fs.required? "path" Json.text?
  let offset ← fs.required? "offset" Json.float?
  let stop ← fs.orElse? "end" none (Json.nullable? Json.float?)
  let loopDelay ← fs.orElse? "loop_delay" none (Json.nullable? Json.float?)
  let repetition ← fs.orElse? "loop_type" none (Json.nullable? Repetition.ofJson?)
  some ⟨kind, path, offset, stop, loopDelay, repetition⟩

end SoundEntry

/-- The entries so far, and which of them are open on a channel. -/
structure SoundLog (R : Type) where
  entries : List (SoundEntry R)
  music : Option Nat
  voiceBlip : Option Nat

namespace SoundLog

variable {R : Type}

def empty : SoundLog R := ⟨[], none, none⟩

/-- The open entry of a channel, by its place in the log. -/
def slot (l : SoundLog R) : Channel → Option Nat
  | .music => l.music
  | .voiceBlip => l.voiceBlip

def setSlot (l : SoundLog R) (c : Channel) (i : Option Nat) : SoundLog R :=
  match c with
  | .music => { l with music := i }
  | .voiceBlip => { l with voiceBlip := i }

def isOpen (l : SoundLog R) (c : Channel) : Bool := (l.slot c).isSome

/-- Logs a clip that is played once. -/
def play (l : SoundLog R) (path : String) (offset : R) : SoundLog R :=
  { l with entries := l.entries ++ [.clip path offset] }

/-- Closes the open entry of a channel, if there is one. -/
def stopChannel (l : SoundLog R) (c : Channel) (time : R) : SoundLog R :=
  match l.slot c with
  | none => l
  | some i =>
    { l.setSlot c none with entries := l.entries.modify i fun e => { e with stop := some time } }

/-- Opens a repeated clip on a channel; what was open there is closed at the same time. -/
def startChannel (l : SoundLog R) (c : Channel) (path : String) (offset : R)
    (loopDelay : Option R) (repetition : Repetition) : SoundLog R :=
  let l := l.stopChannel c offset
  let e : SoundEntry R := { SoundEntry.clip path offset with loopDelay, repetition := some repetition }
  { l with entries := l.entries ++ [e] }.setSlot c (some l.entries.length)

/-- Closes both channels. -/
def closeAll (l : SoundLog R) (time : R) : SoundLog R :=
  (l.stopChannel .music time).stopChannel .voiceBlip time

/-- The entries as a JSON text laid out over lines. -/
def text (l : SoundLog Float) : String := (Json.array (l.entries.map SoundEntry.toJson)).pretty

/-- Writes the text to a file. -/
def write (l : SoundLog Float) (disk : Disk) (path : String) : Except Error Disk :=
  match disk.write? path (.raw l.text) with
  | some disk => .ok disk
  | none => .error (.audioFile path)

end SoundLog

end Cutscene
