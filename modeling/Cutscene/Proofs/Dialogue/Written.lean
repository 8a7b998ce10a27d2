import Cutscene.Dialogue.Directive
import Cutscene.Proofs.Json.Record
import Cutscene.Proofs.Json.Spelling

/-!
# Written pages

A page is read back from the JSON it is written as, whatever characters its strings are made of: a text or
a call is an object with one member that names it, and a line break is a bare string.

On the written form of `DialoguePage` and `DialogueCommand` (SPEC_FULL.md, §B.10).

Results:
* `Chunk.reads`, `Call.reads`, `Command.reads`, `Page.reads`: each part of a page is read as it was written.
* `Page.sound_toJson`: the JSON of a page has no number in it.
* `Page.read_back`: the text of a page is read as the page.
-/

namespace Cutscene

open Json

theorem Chunk.reads (c : Chunk) : Reads Chunk.ofJson? c.toJson c := by
  intro j hj
  obtain ⟨fs, hfs, hholds⟩ := hj.record? (by decide) (.refl ["text", "tags"]) .ignored
  have htext : fs.required? "text" text? = some c.text := hholds.required? (by simp) (reads_text _)
  have htags : fs.required? "tags" (list? text?) = some c.tags :=
    hholds.required? (by simp) (reads_list reads_text _)
  simp [ofJson?, hfs, htext, htags]

theorem Call.reads (c : Call) : Reads Call.ofJson? c.toJson c := by
  intro j hj
  obtain ⟨fs, hfs, hholds⟩ := hj.record? (by decide) (.refl ["name", "args"]) .ignored
  have hname : fs.required? "name" text? = some c.name := hholds.required? (by simp) (reads_text _)
  have hargs : fs.required? "args" (list? text?) = some c.args :=
    hholds.required? (by simp) (reads_list reads_text _)
  simp [ofJson?, hfs, hname, hargs]

theorem Command.reads (c : Command) : Reads Command.ofJson? c.toJson c := by
  intro j hj
  cases c with
  | lineBreak =>
    rw [hj.eq_of_isFlat rfl]
    rfl
  | text c =>
    obtain ⟨v, rfl, hv⟩ := hj.of_single
    rw [ofJson?, c.reads v hv]
    rfl
  | call c =>
    obtain ⟨v, rfl, hv⟩ := hj.of_single
    rw [ofJson?, c.reads v hv]
    rfl

theorem Page.reads (p : Page) : Reads Page.ofJson? p.toJson p := by
  intro j hj
  obtain ⟨fs, hfs, hholds⟩ := hj.record? (by decide) (.refl ["commands"]) .ignored
  have hcommands : fs.required? "commands" (list? Command.ofJson?) = some p.commands :=
    hholds.required? (by simp) (reads_list Command.reads _)
  simp [ofJson?, hfs, hcommands]

theorem Command.sound_toJson (c : Command) : c.toJson.Sound := by
  have htexts : ∀ l : List String, (Json.array (l.map .text)).Sound := fun l =>
    soundItems_iff.mpr (List.forall_mem_map.mpr fun _ _ => trivial)
  cases c with
  | lineBreak => trivial
  | text c => simp [toJson, Chunk.toJson, sound_record, htexts, sound_text]
  | call c => simp [toJson, Call.toJson, sound_record, htexts, sound_text]

/-- There is no number in the JSON of a page. -/
theorem Page.sound_toJson (p : Page) : p.toJson.Sound := by
  refine sound_record.mpr fun f hf => ?_
  rw [List.mem_singleton.mp hf]
  exact soundItems_iff.mpr (List.forall_mem_map.mpr fun c _ => c.sound_toJson)

/-- The text is read as a page, which is equal to this one in all respects. -/
def Page.IsReadFrom (p : Page) (s : String) : Prop :=
  ∃ q, (Json.ofText? s).bind Page.ofJson? = some q ∧ q = p ∧ q.total = p.total ∧ q.calls = p.calls ∧
    (∀ (R : Type) [Scalar R], (q.directives : List (Nat × Directive R)) = p.directives) ∧
    ∀ n, q.visible n = p.visible n

/-- **A page is read back from the text it is written as**, and from every other spelling of its JSON, with
blanks anywhere between the tokens and with the members of its objects in any order. -/
theorem Page.read_back (p : Page) : p.IsReadFrom p.toJson.compact ∧
    ∀ j, Reordered p.toJson j → ∀ s, j.Spelled s → p.IsReadFrom s := by
  have hread : ∀ j, Reordered p.toJson j → ∀ s, j.Spelled s → p.IsReadFrom s := by
    intro j hj s hs
    refine ⟨p, ?_, rfl, rfl, rfl, fun _ _ => rfl, fun _ => rfl⟩
    rw [hs.ofText?, Option.bind_some, p.reads j hj]
  exact ⟨hread _ (.same _) _ (.compact p.sound_toJson), hread⟩

example : (Page.mk [.text ⟨"\"", []⟩, .lineBreak, .call ⟨"pan", ["left"]⟩]).toJson.compact =
    "\x7b\"commands\":[\x7b\"Text\":\x7b\"text\":\"\\\"\",\"tags\":[]\x7d\x7d,\"LineBreak\"," ++
      "\x7b\"Directive\":\x7b\"name\":\"pan\",\"args\":[\"left\"]\x7d\x7d]\x7d" := by
  decide

end Cutscene
