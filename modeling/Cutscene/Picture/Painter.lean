import Cutscene.Picture.Canvas
import Cutscene.Scene.Paint

/-!
# The painter

The painter turns a scene into a frame. It is given the items of the scene from back to front and
keeps each as a layer, or as one for each glyph of a text; a pixel of the frame is what its layers give, one
painted over the other.

Models `CpuCompositor` with `draw`, `sprite_paint`, `draw_text` and `render_frame`, and
`TextLayoutEngine.family_for` (SPEC_FULL.md, §B.9). `Painter.faces` stands for the families that the text
engine knows and for the fonts kept beside it. Pictures and fills are painted at whole pixels, and what a
text is painted as comes from its `Typeface`.
-/

namespace Cutscene

/-- What a layer is painted with. -/
inductive Paint where
  | plain (c : Color)
  /-- A picture stretched over the layer. -/
  | picture (f : SpriteFrame)

/-- A painted rectangle. -/
structure Layer where
  x : Int
  y : Int
  width : Nat
  height : Nat
  paint : Paint

/-- The premultiplied color that a layer has at a pixel of the canvas, if it covers the pixel. -/
def Layer.colorAt (l : Layer) (x y : Nat) : Option Color :=
  let dx := (x : Int) - l.x
  let dy := (y : Int) - l.y
  if 0 ≤ dx ∧ dx < l.width ∧ 0 ≤ dy ∧ dy < l.height then
    match l.paint with
    | .plain c => some c
    | .picture f =>
      let column := dx.toNat * f.width.toNat / l.width
      let row := dy.toNat * f.height.toNat / l.height
      some (Cutscene.colorAt f.data ((row * f.width.toNat + column) * 4))
  else none

/-- A painter of one canvas. -/
structure Painter where
  canvas : Canvas
  /-- The straight color that a frame starts from; nothing at all without one. -/
  background : Option Color
  /-- The pictures made ready for painting, by path and number of the sprite frame. -/
  ready : List (String × Nat)
  /-- The typefaces that have been registered, by path, the last one first. -/
  faces : List (String × Typeface)
  /-- The layers of the frame that is being painted, the front one first. -/
  layers : List Layer

namespace Painter

/-- A painter that has not painted. -/
def create (canvas : Canvas) (background : Option Color) : Except Error Painter := do
  canvas.validate
  .ok ⟨canvas, background, [], [], []⟩

/-- Puts a layer in front. -/
def add (p : Painter) (l : Layer) : Painter := { p with layers := l :: p.layers }

/-- Makes a sprite frame ready for painting, once. Its sides must fit in 16 bits. -/
def prepare (p : Painter) (key : String × Nat) (f : SpriteFrame) : Except Error Painter :=
  if p.ready.contains key then .ok p
  else if 65535 < f.width then .error .spriteTooWide
  else if 65535 < f.height then .error .spriteTooHigh
  else .ok { p with ready := key :: p.ready }

/-! ## Text -/

/-- The typeface that is used for a path. One whose family has no name is not used. -/
def face? (p : Painter) (path : String) : Option Typeface :=
  (p.faces.find? fun e => e.1 = path ∧ e.2.family.isSome).map (·.2)

/-- The typeface of a font. It is registered once for its path, whatever the font holds later on. -/
def register (p : Painter) (font : Font) : Except Error Typeface × Painter :=
  match p.face? font.path with
  | some face => (.ok face, p)
  | none =>
    match font.content with
    | .font face =>
      (if face.family.isSome then .ok face else .error .fontUnnamed,
        { p with faces := (font.path, face) :: p.faces })
    | _ => (.error (.notAFont font.path), p)

/-- What a typeface makes of a run of text. -/
def glyphsOf (p : Painter) (face : Typeface) (run : TextRun) : List Glyph :=
  face.glyphs (p.faces.map fun (path, face) => (path, face.data))
    (run.spans.map fun s => (s.text, s.color)) run.size

/-- Puts the glyphs of a text in front, in their order. -/
def addGlyphs (p : Painter) (x y : Int) (glyphs : List Glyph) : Painter :=
  glyphs.foldl (fun p g =>
    p.add ⟨x + g.x, y + g.y, g.width.toNat, g.height.toNat, .picture ⟨g.width, g.height, g.data⟩⟩) p

/-- Paints text. A run without a font and a run without characters paint nothing. -/
def drawText (p : Painter) (run : TextRun) (x y : Int) : Except Error Unit × Painter :=
  match run.font with
  | none => (.ok (), p)
  | some font =>
    if run.spans.all fun s => s.text = "" then (.ok (), p)
    else if run.size.isFinite ∧ 0 < run.size then
      match p.register font with
      | (.error e, p) => (.error e, p)
      | (.ok face, p) => (.ok (), p.addGlyphs x y (p.glyphsOf face run))
    else (.error .textSize, p)

/-! ## Scenes -/

variable {R : Type} [Scalar R]

/-- Paints one item. -/
def draw (item : DrawItem R) (p : Painter) : Except Error Unit × Painter :=
  let x := item.position.x.toInt
  let y := item.position.y.toInt
  match item.payload with
  | .none => (.ok (), p)
  | .fill w h c => (.ok (), p.add ⟨x, y, w.toNat, h.toNat, .plain c.premultiplied⟩)
  | .sprite s w h =>
    let f := s.frameAt item.clock
    match p.prepare (s.path, s.frameIndex item.clock) f with
    | .error e => (.error e, p)
    | .ok p =>
      (.ok (), p.add ⟨x, y, (w.getD f.width).toNat, (h.getD f.height).toNat, .picture f⟩)
  | .text run => p.drawText run x y

instance : DrawTarget R Painter where
  draw := draw

/-- The color that a frame starts from. -/
def ground (p : Painter) : Color := (p.background.map Color.premultiplied).getD .clear

/-- The color of a pixel: the layers over the ground, the one at the back first. -/
def colorAt (p : Painter) (x y : Nat) : Color :=
  p.layers.foldr (fun l under => match l.colorAt x y with
    | some c => c.paintedOver under
    | none => under) p.ground

/-- The frame that the layers make. -/
def frame (p : Painter) : Frame :=
  let w := p.canvas.width.toNat
  let n := w * p.canvas.height.toNat
  let colors := Array.ofFn fun i : Fin n => p.colorAt (i % w) (i / w)
  ⟨p.canvas.width, p.canvas.height,
    bytesOfFn (4 * n) fun i =>
      let c := colors[i / 4]?.getD .clear
      if i % 4 = 0 then c.r else if i % 4 = 1 then c.g else if i % 4 = 2 then c.b else c.a,
    true⟩

/-- Paints a scene. Pictures made ready and typefaces registered before an item is refused stay so. -/
def renderFrame (p : Painter) (s : Scene R) : Except Error Frame × Painter :=
  match s.render { p with layers := [] } with
  | (.ok (), p) => (.ok p.frame, p)
  | (.error e, p) => (.error e, p)

end Painter

end Cutscene
