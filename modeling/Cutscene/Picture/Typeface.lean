import Cutscene.Picture.Color

/-!
# Typefaces

A font file, as far as text is painted with it. Shaping text, breaking it into lines and filling the outlines
of its letters are the work of text engines outside the library. A typeface brings along what they make of it:
a list of pictures for every text, and it may be any. So what holds for all disks holds for all text engines.

Stands for what `TextLayoutEngine.layout_spans` and the glyph runs of `CpuCompositor.draw_text` come to, of
which SPEC_FULL.md, §1, leaves the rasterization of glyphs to others.
-/

namespace Cutscene

/-- Something painted of a text, with premultiplied colors; its place is counted from that of the text. -/
structure Glyph where
  x : Int
  y : Int
  width : UInt32
  height : UInt32
  data : ByteArray

/-- A font file. -/
structure Typeface where
  /-- The bytes of the file. -/
  data : ByteArray
  /-- The name of its first family. -/
  family : Option String
  /--
  What a text is painted as, from back to front. The text engine also looks at the files that have been
  registered, this one among them: their paths and bytes are given, the last one first.
  -/
  glyphs : (registered : List (String × ByteArray)) → (spans : List (String × Color)) → (size : Float32) →
    List Glyph

end Cutscene
