import Cutscene.Dialogue.TextBox
import Cutscene.Stage.Config

/-!
# The cast

The fixed nodes of a stage. `Cast.build` loads their art and hangs them under the root of a scene.
From back to front there are the background, the stands, the dialogue box, the exclamation and the
flash.

Models `Cast.build` and `Cast.stand` (SPEC_FULL.md, §B.11).
-/

namespace Cutscene

/-- The nodes of the stage that directives and scripts name. -/
structure Cast where
  /-- The panorama; the camera moves by moving it. -/
  background : NodeId
  left : NodeId
  right : NodeId
  exclamation : NodeId
  /-- A white rectangle as large as the canvas. -/
  flash : NodeId
  dialogueBox : NodeId
  text : NodeId
  nametag : NodeId
  arrow : NodeId
deriving Repr, DecidableEq

/-- The node of a stand. -/
def Cast.stand (c : Cast) : Side → NodeId
  | .left => c.left
  | .right => c.right

/-- A stage under construction. -/
structure Stagehand (R : Type) where
  disk : Disk
  assets : AssetLibrary R
  scene : Scene R

namespace Stagehand

variable {R : Type} [Scalar R]

/-- Adds a node. -/
def add (h : Stagehand R) (parent : NodeId) (n : Node R) : NodeId × Stagehand R :=
  let (id, scene) := h.scene.add parent n
  (id, { h with scene })

/-- Loads a sprite. -/
def sprite (h : Stagehand R) (path : String) : Except Error (Sprite R × Stagehand R) := do
  let (s, assets) ← h.assets.loadSprite h.disk path
  .ok (s, { h with assets })

/-- Loads a font, if one is named. -/
def font? (h : Stagehand R) : Option String → Except Error (Option Font × Stagehand R)
  | none => .ok (none, h)
  | some path => do
    let (f, assets) ← h.assets.loadFont h.disk path
    .ok (some f, { h with assets })

/-- A node that shows a sprite at its own size. -/
def spriteNode (name : String) (s : Sprite R) : Node R := .make name (.sprite s none none)

end Stagehand

/-- The width and height of the first frame of a sprite, as positions. -/
def Sprite.corner {R : Type} [Scalar R] (s : Sprite R) : Point :=
  let f := s.frameAt 0
  ⟨f.width.toInt32, f.height.toInt32⟩

open Stagehand in
/-- Loads the art and adds all nodes of the stage. -/
def Cast.build {R : Type} [Scalar R] (h : Stagehand R) (cfg : Config R) :
    Except Error (Cast × TextBox × Stagehand R) := do
  let art := cfg.stage
  let (sprite, h) ← h.sprite art.background
  let (background, h) :=
    h.add Scene.root ((spriteNode "Background" sprite).placed cfg.leftX 0 0)
  let (sprite, h) ← h.sprite art.leftSprite
  let (left, h) := h.add background ((spriteNode "Left Character" sprite).placed 0 0 1)
  let (sprite, h) ← h.sprite art.rightSprite
  let (right, h) :=
    h.add background ((spriteNode "Right Character" sprite).placed art.rightStandX 0 2)
  let (exclamation, h) := h.add Scene.root ((Node.group "Exclamation").placed 0 0 20).hidden
  let (flash, h) :=
    h.add Scene.root
      ((Node.make "Flash" (.fill cfg.canvas.width cfg.canvas.height .white)).placed 0 0 30).hidden
  let (font, h) ← h.font? art.font
  let (nameFont, h) ← match art.nameFont with
    | none => .ok (font, h)
    | path => h.font? path
  let (dialogueBox, h) :=
    h.add Scene.root ((Node.group "Dialogue Box").placed 0 art.dialogueBoxY 12)
  let (boxSprite, h) ← h.sprite art.dialogueBox
  let (_, h) :=
    h.add dialogueBox ((spriteNode "Dialogue Box Background" boxSprite).placed 0 0 10)
  let (arrowSprite, h) ← h.sprite art.arrow
  let (arrow, h) :=
    h.add dialogueBox
      ((spriteNode "Dialogue Box Arrow" arrowSprite).placed
        (boxSprite.corner.x - arrowSprite.corner.x - 5)
        (boxSprite.corner.y - arrowSprite.corner.y - 5) 11).hidden
  let (text, h) :=
    h.add dialogueBox
      ((Node.make "Dialogue Text" (.text (.plain "" font art.textSize .white))).placed 10 4 12)
  let (nametag, h) :=
    h.add dialogueBox
      ((Node.make "Name Box Text" (.text (.plain "" nameFont art.nameSize .white))).placed 5 (-11) 12)
  .ok (⟨background, left, right, exclamation, flash, dialogueBox, text, nametag, arrow⟩,
    ⟨text, some nametag, cfg.palette, .white⟩, h)

end Cutscene
