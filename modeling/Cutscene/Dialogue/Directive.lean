import Cutscene.Dialogue.Page
import Cutscene.Number.Scalar

/-!
# Directives

What a page can ask for while its text is revealed. `Directive.ofCall` decodes a call; it is total,
since a call that is not understood becomes `Directive.unknown`, which does nothing.

Models `Directive.parse`, `Side`, `ExclamationKind` and `positive_secs` (SPEC_FULL.md, §B.10).
-/

namespace Cutscene

/-- A stand of the stage, and the stop of the camera that shows it. -/
inductive Side where
  | left
  | right
deriving Repr, DecidableEq

namespace Side

def name : Side → String
  | left => "left"
  | right => "right"

def ofName? (s : String) : Option Side :=
  if s = "left" then some left else if s = "right" then some right else none

def toJson (s : Side) : Json := .text s.name

def ofJson? (j : Json) : Option Side := j.choice?.bind ofName?

end Side

/-- What an exclamation bubble says. -/
inductive Exclamation where
  | objection
  | holdIt
  | takeThat
deriving Repr, DecidableEq

namespace Exclamation

/-- The stem of the file names of the bubble and its voice clips. -/
def stem : Exclamation → String
  | objection => "objection"
  | holdIt => "holdit"
  | takeThat => "takethat"

def jsonName : Exclamation → String
  | objection => "objection"
  | holdIt => "hold_it"
  | takeThat => "take_that"

def toJson (e : Exclamation) : Json := .text e.jsonName

def ofJson? (j : Json) : Option Exclamation :=
  j.choice?.bind fun name => [objection, holdIt, takeThat].find? fun e => e.jsonName = name

end Exclamation

/-- A decoded directive. Durations are finite and above zero. -/
inductive Directive (R : Type) where
  /-- Freezes the reveal. -/
  | wait (secs : R)
  /-- Changes the sprite on a stand. -/
  | sprite (side : Side) (path : String)
  /-- Plays a sound effect once. -/
  | playSound (name : String)
  /-- Starts the loop of voice blips. -/
  | startBlip (voice : String)
  | stopBlip
  /-- Shakes the stage. -/
  | shake (secs : R)
  /-- Flashes the stage white. -/
  | flash (secs : R)
  /-- Glides the camera to a stop. -/
  | pan (side : Side)
  /-- Moves the camera to a stop at once. -/
  | cut (side : Side)
  | showArrow
  | hideArrow
  /-- Renames the speaker. -/
  | nametag (text : String)
  /-- Starts a music track in place of the current one. -/
  | musicStart (name : String)
  | musicStop
  /-- Shows a bubble and plays its voice clip, that of the speaker if there is one. -/
  | exclamation (kind : Exclamation) (speaker : String)
  /-- Slams the desk of a stand. -/
  | deskSlam (side : Side)
  | showBox
  | hideBox
  /-- A call that is not understood. -/
  | unknown (name : String)
deriving Repr, DecidableEq

/-- The characters without the quotation marks at either end. -/
def unquoted (s : String) : String :=
  let front := s.toList.dropWhile (· = '"')
  String.ofList (front.reverse.dropWhile (· = '"')).reverse

namespace Directive

variable {R : Type} [Scalar R]

/-- How long a shake lasts that does not say. -/
def standardShake : R := 0.3

/-- How long a flash lasts that does not say. -/
def standardFlash : R := 0.15

/-- A written duration that is finite and above zero. -/
def seconds? (s : String) : Option R :=
  (Decimal.ofText? s).bind fun d =>
    let v : R := Scalar.ofDecimal d
    if Scalar.isFinite v ∧ 0 < v then some v else none

/-- The duration written as the first argument, or the standard one without arguments. -/
def secondsOr? (standard : R) : List String → Option R
  | [] => some standard
  | s :: _ => seconds? s

/-- Decodes a call that is understood. -/
def ofCall? (c : Call) : Option (Directive R) :=
  let side := c.args.head?.bind Side.ofName?
  match c.name with
  | "wait" => (c.args.head?.bind seconds?).map wait
  | "sprite" =>
    match side, c.args[1]? with
    | some side, some path => if path = "" then none else some (.sprite side path)
    | _, _ => none
  | "playsound" => c.args.head?.map playSound
  | "startblip" => c.args.head?.map startBlip
  | "stopblip" => some stopBlip
  | "shake" => (secondsOr? standardShake c.args).map shake
  | "flash" => (secondsOr? standardFlash c.args).map flash
  | "pan" => side.map pan
  | "cut" => side.map cut
  | "showarrow" => some showArrow
  | "hidearrow" => some hideArrow
  | "nametag" => if c.args = [] then none else some (nametag (unquoted (" ".intercalate c.args)))
  | "music" =>
    match c.args with
    | "start" :: name :: _ => some (musicStart name)
    | ["stop"] => some musicStop
    | _ => none
  | "objection" => some (exclamation .objection (c.args.head?.getD "generic"))
  | "holdit" => some (exclamation .holdIt (c.args.head?.getD "generic"))
  | "takethat" => some (exclamation .takeThat (c.args.head?.getD "generic"))
  | "deskslam" => side.map deskSlam
  | "phoenixslam" => some (deskSlam .left)
  | "edgeworthslam" => some (deskSlam .right)
  | "showbox" => some showBox
  | "hidebox" => some hideBox
  | _ => none

/-- Decodes a call. -/
def ofCall (c : Call) : Directive R := (ofCall? c).getD (unknown c.name)

/-- Whether a directive is carried out by whoever receives it, and not by the reveal itself. -/
def isEffect : Directive R → Bool
  | wait _ => false
  | unknown _ => false
  | _ => true

/-- A short name. -/
def name : Directive R → String
  | wait _ => "wait"
  | sprite _ _ => "sprite"
  | playSound _ => "playsound"
  | startBlip _ => "startblip"
  | stopBlip => "stopblip"
  | shake _ => "shake"
  | flash _ => "flash"
  | pan _ => "pan"
  | cut _ => "cut"
  | showArrow => "showarrow"
  | hideArrow => "hidearrow"
  | nametag _ => "nametag"
  | musicStart _ => "music start"
  | musicStop => "music stop"
  | exclamation kind _ => kind.stem
  | deskSlam _ => "deskslam"
  | showBox => "showbox"
  | hideBox => "hidebox"
  | unknown name => name

end Directive

/-- The directives of a page in order, each with the step that reaches it. -/
def Page.directives {R : Type} [Scalar R] (p : Page) : List (Nat × Directive R) :=
  p.calls.map fun (position, c) => (position, .ofCall c)

end Cutscene
