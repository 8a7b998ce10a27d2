import Cutscene.Dialogue.Typewriter
import Cutscene.Dialogue.Palette
import Cutscene.Scene.Basic

/-!
# The text box

The text box shows what a typewriter reveals: its visible text in one node of the scene and its
speaker in another.

Models `TextBoxBinding` with `present` and `spans`, which `DialogueInterpreter` is shown through.
-/

namespace Cutscene

/-- The nodes that show a dialogue, and the colors to show it in. -/
structure TextBox where
  text : NodeId
  nametag : Option NodeId
  palette : Palette
  /-- The color of text without a tag and of tags without a color. -/
  plainColor : Color

namespace TextBox

/-- The color of a chunk, which is that of its innermost tag. -/
def color (b : TextBox) (tags : List String) : Color :=
  (tags.getLast?.bind b.palette.find?).getD b.plainColor

/-- The spans of some lines, with a line feed before every line but the first. -/
def spans (b : TextBox) : List (List Chunk) → List Span
  | [] => []
  | [line] => line.map fun c => ⟨c.text, b.color c.tags⟩
  | line :: next :: r =>
    (line.map fun c => ⟨c.text, b.color c.tags⟩) ++ ⟨"\n", b.plainColor⟩ :: spans b (next :: r)

variable {R κ : Type} [Scalar R]

/-- The spans that a typewriter shows; none when it is idle. -/
def shown (b : TextBox) (i : Typewriter R κ) : List Span :=
  match i.page with
  | none => []
  | some page => b.spans (page.visible i.visible)

/-- A run that shows a name. One that shows it already keeps its spans. -/
def named (name : String) (run : TextRun) : TextRun :=
  if run.text = name then run else run.setText name

/-- Shows the state of a typewriter. An idle one leaves the name tag as it is. -/
def present (b : TextBox) (i : Typewriter R κ) (s : Scene R) : Scene R :=
  let s := s.modify b.text fun n => n.mapRun fun run => { run with spans := b.shown i }
  match b.nametag, i.speaker with
  | some tag, some name => s.modify tag fun n => n.mapRun (named name)
  | _, _ => s

end TextBox

end Cutscene
