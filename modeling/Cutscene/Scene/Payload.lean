import Cutscene.Asset.Library

/-!
# Payloads

What a node of the scene draws: a sprite, a run of text, a rectangle, or nothing.

Models `Payload`, `TextRun`, `TextSpan`, `SpritePayload` and `ColorFill` (SPEC_FULL.md, §3 and §6).
-/

namespace Cutscene

/-- Text of one color. A line feed in it starts a new line. -/
structure Span where
  text : String
  color : Color
deriving Repr, DecidableEq

/-- Spans drawn with one font. A run without a font is not drawn. -/
structure TextRun where
  spans : List Span
  font : Option Font
  size : Float32

namespace TextRun

/-- A run of one span. -/
def plain (text : String) (font : Option Font) (size : Float32) (color : Color) : TextRun :=
  ⟨[⟨text, color⟩], font, size⟩

/-- The text of all spans in a row. -/
def text (r : TextRun) : String := String.join (r.spans.map Span.text)

/-- Replaces the spans by one, which keeps the color of the first. -/
def setText (r : TextRun) (text : String) : TextRun :=
  { r with spans := [⟨text, (r.spans.head?.map Span.color).getD .white⟩] }

end TextRun

/-- What a node draws. -/
inductive Payload (R : Type) where
  /-- Nothing; the node groups others. -/
  | none
  /-- A sprite, at its own size where no size is given. -/
  | sprite (sprite : Sprite R) (width height : Option UInt32)
  | text (run : TextRun)
  | fill (width height : UInt32) (color : Color)

namespace Payload

variable {R : Type}

def isNone : Payload R → Bool
  | none => true
  | _ => false

def sprite? : Payload R → Option (Sprite R)
  | sprite s _ _ => some s
  | _ => Option.none

def run? : Payload R → Option TextRun
  | text r => some r
  | _ => Option.none

/-- Changes the sprite, keeping a size that was given for it. -/
def setSprite (p : Payload R) (s : Sprite R) : Payload R :=
  match p with
  | sprite _ w h => sprite s w h
  | _ => sprite s Option.none Option.none

/-- Changes the run of text, if there is one. -/
def mapRun (f : TextRun → TextRun) : Payload R → Payload R
  | text r => text (f r)
  | p => p

end Payload

end Cutscene
