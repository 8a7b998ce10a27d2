import Cutscene.Proofs.Dialogue.Closing
import Cutscene.Proofs.Dialogue.Shown
import Cutscene.Proofs.Stage.Payloads

/-!
# Name tags

A directive that sets the name tag sets the name of the speaker, and the text box writes that name at the
end of the step. It does so as long as there is a page. A page that completes in the very step that hands
out the directive takes the name along with it.

On the directive `nametag` in `Director.apply_directive` (SPEC_FULL.md, §4.3).

Results:
* `applied_dialogue`: what the directives of a step do to the typewriter.
* `Linked.cued_dialogue_cases`: the page that a step begins with.
* `Lettered.handle`, `Lettered.after`: the text box has its nodes to itself in every run whose actions keep
  off them.
* `nametags_written`: what the text box shows after a step, and which names are lost.
* `nametag_lost`: a name that is never shown.
-/

namespace Cutscene

variable {R : Type}

/-- The name that a directive puts on the name tag. -/
def Directive.name? : Directive R → Option String
  | .nametag text => some text
  | _ => none

/-- The names that directives put on the name tag, in order. -/
def Directive.names (ds : List (Directive R)) : List String := ds.filterMap Directive.name?

/-- The node whose sprite an action sets. -/
def Action.dresses? : Action R → Option NodeId
  | setSprite node _ => some node
  | _ => none

/-- The nodes of the text box. -/
def Cast.letters (c : Cast) : List NodeId := [c.text, c.nametag]

/-- An event that hands the stage no callback, and nothing that puts a sprite in the place of a text. -/
def StageEvent.OffText (e : StageEvent R) : Prop :=
  ∀ a, e.own? = some a → a.callback? = none ∧ ∀ j ∈ Cast.standing.letters, a.dresses? ≠ some j

theorem StageEvent.OffText.plain {e : StageEvent R} (h : e.OffText) : e.Plain := fun a ha => (h a ha).1

variable [Scalar R]

/-- An action that leaves texts to the text box. -/
structure Action.OffText (a : Action R) : Prop where
  discreet : a.Discreet
  undressed : ∀ j ∈ Cast.standing.letters, a.dresses? ≠ some j

theorem Action.dresses?_update (a : Action R) (dt : R) (c : Context R) :
    (a.update dt c).1.dresses? = a.dresses? := by
  cases a with
  | run f => cases f <;> rfl
  | _ => rfl

theorem Action.OffText.update {a : Action R} (h : a.OffText) (dt : R) (c : Context R) :
    (a.update dt c).1.OffText where
  discreet := h.discreet.update dt c
  undressed := by
    rw [a.dresses?_update]
    exact h.undressed

/-- What is handed to a stage from outside is off the texts as well. -/
theorem StageEvent.OffText.action {e : StageEvent R} (h : e.OffText) {a : Action R} (ha : e.own? = some a) :
    a.OffText where
  discreet := h.plain.callback ha
  undressed := (h a ha).2

/-! ## The text box -/

namespace TextBox

variable {κ : Type}

/-- The name tag gets the name of the speaker, and without one it is left as it is. -/
theorem run?_present_nametag {b : TextBox} {tag : NodeId} (htag : b.nametag = some tag) (hne : tag ≠ b.text)
    (i : Typewriter R κ) {s : Scene R} {run : TextRun} (hrun : (s.node tag).payload.run? = some run) :
    ((b.present i s).node tag).payload.run? = some (match i.speaker with
      | none => run
      | some name => named name run) := by
  have hsize : tag < s.size := by
    by_contra hlarge
    rw [Scene.node_of_size_le (Nat.le_of_not_lt hlarge)] at hrun
    cases hrun
  unfold present
  rw [htag]
  cases i.speaker with
  | none =>
    simp only
    rw [Scene.node_modify_of_ne hne, hrun]
  | some name =>
    simp only
    rw [Scene.node_modify_self (by simpa using hsize), Node.run?_mapRun, Scene.node_modify_of_ne hne, hrun]
    rfl

/-- The text box makes no text of what is none, and of a text nothing else. -/
theorem isSome_run?_present (b : TextBox) (i : Typewriter R κ) (s : Scene R) (j : NodeId) :
    ((b.present i s).node j).payload.run?.isSome = (s.node j).payload.run?.isSome := by
  refine b.present_induction
    (P := fun t => (t.node j).payload.run?.isSome = (s.node j).payload.run?.isSome) i rfl fun t id f ht => ?_
  rw [Scene.node_modify]
  split_ifs with hj
  · rw [Node.run?_mapRun, Option.isSome_map, ← hj.1, ht]
  · exact ht

end TextBox

namespace Stage

variable {s : Stage R} {disk : Disk} {j : NodeId}

/-! ## Directives and names -/

omit [Scalar R] in
theorem dialogue_withSound (s : Stage R) (path : Except Error String)
    (log : String → SoundLog R → SoundLog R) : (s.withSound path log).2.dialogue = s.dialogue := by
  unfold withSound
  cases path <;> rfl

/-- A directive sets the name of the speaker, or does nothing to the typewriter. -/
theorem apply_dialogue (s : Stage R) (disk : Disk) (d : Directive R) :
    (s.apply disk d).2.dialogue = d.name?.toList.foldl Typewriter.setSpeaker s.dialogue := by
  cases d with
  | sprite side path =>
    simp only [apply, withSprite]
    cases s.assets.loadSprite disk path <;> rfl
  | playSound name => exact s.dialogue_withSound _ _
  | startBlip voice => exact s.dialogue_withSound _ _
  | musicStart name => exact s.dialogue_withSound _ _
  | exclamation kind speaker =>
    simp only [apply, withSprite]
    cases s.assets.loadSprite disk (bubblePath kind) with
    | error e => rfl
    | ok r =>
      simp only
      rw [dialogue_withSound]
      rfl
  | deskSlam side =>
    simp only [apply, withSprite]
    cases s.assets.loadSprite disk (s.config.stage.slamSprite side) <;> rfl
  | _ => rfl

/-- Directives that are all carried out set the name of the speaker one after another. -/
theorem applyAll_dialogue {ds : List (Directive R)} (hok : (s.applyAll disk ds).1 = .ok ()) :
    (s.applyAll disk ds).2.dialogue = (Directive.names ds).foldl Typewriter.setSpeaker s.dialogue := by
  induction ds generalizing s with
  | nil => rfl
  | cons d r ih =>
    have hd := s.apply_dialogue disk d
    unfold applyAll at hok ⊢
    cases happly : s.apply disk d with
    | mk result t =>
      rw [happly] at hok hd
      cases result with
      | error e => cases hok
      | ok _ =>
        have hnames : Directive.names (d :: r) = d.name?.toList ++ Directive.names r := by
          unfold Directive.names
          rw [List.filterMap_cons]
          cases d.name? <;> rfl
        rw [hnames, List.foldl_append, ← hd]
        exact ih hok

theorem applied_dialogue (hok : (s.step disk).1 = .ok ()) : (s.applied disk).dialogue =
    (Directive.names s.played.1).foldl Typewriter.setSpeaker s.played.2.dialogue :=
  applyAll_dialogue ((s.step_fst disk).symm.trans hok)

/-- The page of a step is the one that was shown before, or that of the head, which has just been loaded. -/
theorem Linked.cued_dialogue_cases (h : s.Linked) : s.cued.dialogue = s.dialogue ∨
    ∃ q rest p speaker, s.queue.settle.items = q :: rest ∧ q.action = .page p speaker ∧
      s.cued.dialogue = s.dialogue.load p speaker (.finish q.id) := by
  rw [cued_dialogue]
  cases hitems : s.queue.settle.items with
  | nil =>
    rw [ActionQueue.update_of_nil hitems]
    exact .inl rfl
  | cons q rest =>
    obtain ⟨hopened, -⟩ := ActionQueue.update_aloof hitems
      (h.aloof q (ActionQueue.mem_of_mem_settle (hitems ▸ List.mem_cons_self)))
      s.config.rate.frameSeconds (c := s.cueing) rfl h.parked
    rw [hopened]
    split_ifs
    · exact .inl rfl
    · cases haction : q.action with
      | page p speaker => exact .inr ⟨q, rest, p, speaker, rfl, haction, rfl⟩
      | _ => exact .inl rfl

/-! ## The nodes of the text box -/

/-- The text box has its two nodes to itself, and nothing of the page that is shown is due. -/
structure Lettered (s : Stage R) : Prop where
  staged : s.Staged
  linked : s.Linked
  text : s.textBox.text = Cast.standing.text
  nametag : s.textBox.nametag = some Cast.standing.nametag
  queued : ∀ q ∈ s.queue.items, q.action.OffText
  letters : ∀ j ∈ Cast.standing.letters,
    (s.scene.node j).timers = [] ∧ (s.scene.node j).payload.run?.isSome
  timely : s.dialogue.Timely

theorem Scripted.offText (h : s.Staged) {a : Action R} (ha : s.Scripted a) : a.OffText := by
  refine ⟨ha.discreet, fun j hj => ?_⟩
  have hstand : ∀ side, Cast.standing.stand side ∉ Cast.standing.letters := by
    intro side
    cases side <;> decide
  cases ha with
  | setSprite side sprite =>
    rintro ⟨⟩
    rw [h.cast] at hj
    exact hstand side hj
  | _ => exact nofun

/-- A new stage has its texts in place. -/
theorem lettered_create {config : Config R} (h : create disk config = .ok s) : s.Lettered := by
  obtain ⟨hcast, -, -, -, -, -, -, hbox⟩ := create_scene h
  obtain ⟨-, hqueue, -, hidle, -⟩ := create_spec h
  refine ⟨Staged.create h, (linked_create h).1, ?_, ?_, ?_, ?_, .inl hidle⟩
  · rw [hbox, hcast]
  · rw [hbox, hcast]
  · rw [hqueue]
    exact fun q hq => absurd hq List.not_mem_nil
  · intro j hj
    have hplace : j < 11 ∧ j ≠ Scene.root ∧ Cast.kinds[j - 1]? = some .text := by
      revert j
      decide
    obtain ⟨htimers, -, -, hkind⟩ := create_node h hplace.1 hplace.2.1
    refine ⟨htimers, ?_⟩
    rw [hplace.2.2] at hkind
    cases hpayload : (s.scene.node j).payload with
    | text run => rfl
    | _ => rw [hpayload] at hkind; cases hkind

/-- Queue and directives leave the nodes of the text box alone. -/
theorem Lettered.applied_letter (h : s.Lettered) (disk : Disk) (hj : j ∈ Cast.standing.letters) :
    ((s.applied disk).scene.node j).timers = (s.scene.node j).timers ∧
      ((s.applied disk).scene.node j).payload = (s.scene.node j).payload := by
  have hapart : ∀ d : Directive R, Cast.standing.worksOn? d ≠ some j := by
    intro d hd
    have hplace : j ∈ [9, 10] := hj
    cases d with
    | sprite side path => cases side <;> cases hd <;> revert hplace <;> decide
    | deskSlam side => cases side <;> cases hd <;> revert hplace <;> decide
    | _ => cases hd <;> revert hplace <;> decide
  have hsame : (s.applied disk).scene.node j = s.played.2.scene.node j := by
    refine (applyAll_induction (P := fun t => t.cast = Cast.standing ∧
      t.scene.node j = s.played.2.scene.node j) ⟨s.played_cast.trans h.staged.cast, rfl⟩ ?_).2
    rintro t ⟨hcast, ht⟩ d -
    refine ⟨(t.undisturbed_apply disk d).cast.trans hcast, ?_⟩
    rw [apply_node_of_ne (hcast ▸ hapart d), ht]
  rw [hsame, played_scene]
  refine ⟨(tended_cued h.staged.house).timers j, ?_⟩
  rcases cued_payload (fun q hq => (h.queued q hq).discreet) j with hkept | ⟨q, hq, sprite, hset, -⟩
  · exact hkept
  · refine absurd ?_ ((h.queued q hq).undressed j hj)
    rw [hset]
    rfl

theorem applied_textBox (s : Stage R) (disk : Disk) : (s.applied disk).textBox = s.textBox := by
  obtain ⟨dialogue, signals, notes, hplayed⟩ := s.played_eq
  refine (s.applied_undisturbed disk).textBox.trans ?_
  rw [hplayed]
  rfl

/-- After a step that goes well the nodes draw what the text box has written. -/
theorem Lettered.step_letter (h : s.Lettered) (hok : (s.step disk).1.isOk)
    (hj : j ∈ Cast.standing.letters) :
    ((s.step disk).2.scene.node j).timers = [] ∧ ((s.step disk).2.scene.node j).payload =
      ((s.textBox.present (s.applied disk).dialogue (s.applied disk).scene).node j).payload := by
  have hplace : j < 11 ∧ j ≠ Scene.root := by
    revert j
    decide
  have htimers : ((s.textBox.present (s.applied disk).dialogue (s.applied disk).scene).node j).timers = [] := by
    rw [(TextBox.tended_present _ _ _ none Scene.root).timers, (h.applied_letter disk hj).1, (h.letters j hj).1]
  have hdue : ((s.textBox.present (s.applied disk).dialogue (s.applied disk).scene).node j).dueSprites
      s.config.rate.frameSeconds = [] := by
    unfold Node.dueSprites
    rw [htimers]
    rfl
  rw [step_snd, if_pos hok, (h.staged.applied disk).node_finishStep_eq hplace.1 hplace.2, applied_textBox]
  refine ⟨?_, ?_⟩
  · rw [Node.tick_timers, htimers]
    rfl
  · rw [Node.tick_payload, hdue]
    rfl

/-- Nothing is due once the typewriter has had its turn. -/
theorem Lettered.timely_played (h : s.Lettered) : s.played.2.dialogue.Timely := by
  rw [played_dialogue]
  rcases h.linked.cued_dialogue_cases with hsame | ⟨q, rest, p, speaker, -, -, hload⟩
  · rw [hsame]
    exact h.timely.update _
  · rw [hload]
    exact (Typewriter.cut_load _ _ _ _).timely_update _

theorem Lettered.step (h : s.Lettered) (disk : Disk) : (s.step disk).2.Lettered := by
  have hstaged : (s.step disk).2.Staged := h.staged.handle (e := .step disk) nofun
  have hlinked : (s.step disk).2.Linked := h.linked.handle (e := .step disk) trivial
  have hqueued := forall_step (fun a dt c (ha : a.OffText) => ha.update dt c) h.queued disk
  have happlied := s.applied_undisturbed disk
  have htimely : (s.applied disk).dialogue.Timely := h.timely_played.congr happlied.loaded happlied.bare
  have hbox : (s.step disk).2.textBox = s.textBox := by
    rw [step_snd]
    split_ifs <;> exact s.applied_textBox disk
  refine ⟨hstaged, hlinked, by rw [hbox, h.text], by rw [hbox, h.nametag], hqueued, fun j hj => ?_, ?_⟩
  · have hkept := h.applied_letter disk hj
    by_cases hok : (s.step disk).1.isOk
    · obtain ⟨htimers, hpayload⟩ := h.step_letter hok hj
      rw [hpayload, TextBox.isSome_run?_present, hkept.2]
      exact ⟨htimers, (h.letters j hj).2⟩
    · rw [step_snd, if_neg hok, hkept.1, hkept.2]
      exact h.letters j hj
  · rw [step_snd]
    split_ifs <;> exact htimely

/-- Every event leaves the text box its nodes. -/
theorem Lettered.handle (h : s.Lettered) {e : StageEvent R} (he : e.OffText) : (s.handle e).Lettered := by
  rcases e.eq_step_or with ⟨disk, rfl⟩ | hother
  · exact h.step disk
  · have hstaged := h.staged.handle he.plain
    have hlinked := h.linked.handle he.plain.aloof
    have hqueued := forall_handle (fun _ dt c ha => Action.OffText.update ha dt c) h.queued
      (fun _ ha => Scripted.offText h.staged ha) fun a ha => he.action ha
    have hsame : ∀ j ∈ Cast.standing.letters, (s.handle e).scene.node j = s.scene.node j := by
      intro j hj
      refine s.handle_node_of_ne hother ?_
      revert j
      decide
    obtain ⟨assets, actions, scene, sounds, painter, hhandle, -⟩ := s.handle_eq hother
    rw [hhandle] at hstaged hlinked hqueued hsame ⊢
    refine ⟨hstaged, hlinked, h.text, h.nametag, hqueued, fun j hj => ?_, h.timely⟩
    rw [hsame j hj]
    exact h.letters j hj

theorem Lettered.after (h : s.Lettered) {es : List (StageEvent R)} (hes : ∀ e ∈ es, e.OffText) :
    (s.after es).Lettered :=
  after_induction h fun _ ht e he => ht.handle (hes e he)

/-! ## What is written -/

/-- The text on the name tag. -/
def nametagText (s : Stage R) : Option String := (s.scene.node s.cast.nametag).payload.run?.map TextRun.text

/-- What the text box shows after a step that goes well. -/
structure NametagLaw (t : Stage R) (disk : Disk) : Prop where
  /-- As long as there is a page, the last of the names that the step has handed out is on the tag. -/
  named : (t.step disk).2.dialogue.active ≠ none → ∀ name,
    (Directive.names t.played.1).getLast? = some name → (t.step disk).2.nametagText = some name
  /-- So is the name of the speaker, whenever it was set. -/
  speaker : ∀ name, (t.step disk).2.dialogue.speaker = some name →
    (t.step disk).2.nametagText = some name
  /-- The text is what the lines that are visible say. -/
  text : ∀ page, (t.step disk).2.dialogue.page = some page →
    ∃ run, ((t.step disk).2.scene.node t.cast.text).payload.run? = some run ∧
      run.spans = t.textBox.spans (page.visible (t.step disk).2.dialogue.visible) ∧
      run.text.toList = Page.shownChars (page.visible (t.step disk).2.dialogue.visible)
  /-- Without a page nothing is written on the tag. -/
  idle : (t.step disk).2.dialogue.active = none → (t.step disk).2.nametagText = t.nametagText
  /-- So names are lost that are handed out in the step that completes their page. That is its first step
  then, the page has no characters, and it stays for no longer than a step. -/
  lost : (t.step disk).2.dialogue.active = none → Directive.names t.played.1 ≠ [] →
    ∃ q rest p speaker, t.queue.settle.items = q :: rest ∧ q.action = .page p speaker ∧
      t.cued.dialogue = t.dialogue.load p speaker (.finish q.id) ∧ p.total = 0 ∧
      t.dialogue.pace.holdSeconds ≤ 0 + t.config.rate.frameSeconds

theorem step_dialogue (s : Stage R) (disk : Disk) : (s.step disk).2.dialogue = (s.applied disk).dialogue := by
  rw [step_snd]
  split_ifs <;> rfl

/-- A step that leaves the typewriter idle hands out nothing but what a page without characters starts
with, if that page has come up in this very step. -/
theorem Lettered.played_of_idle (h : s.Lettered) (hidle : s.played.2.dialogue.active = none)
    (hfired : s.played.1 ≠ []) :
    ∃ q rest p speaker, s.queue.settle.items = q :: rest ∧ q.action = .page p speaker ∧
      s.cued.dialogue = s.dialogue.load p speaker (.finish q.id) ∧ p.total = 0 ∧
      s.dialogue.pace.holdSeconds ≤ 0 + s.config.rate.frameSeconds := by
  have hplayed : s.played.1 = (s.cued.dialogue.update s.config.rate.frameSeconds).fired := rfl
  rw [played_dialogue] at hidle
  rcases h.linked.cued_dialogue_cases with hsame | ⟨q, rest, p, speaker, hitems, hpage, hload⟩
  · rw [hsame] at hidle hplayed
    exact absurd (hplayed.trans (h.timely.fired_of_idle hidle)) hfired
  · rw [hload] at hidle
    obtain ⟨htotal, hhold⟩ := Typewriter.load_completed hidle
    exact ⟨q, rest, p, speaker, hitems, hpage, hload, htotal, hhold⟩

/-- The tag has the name of the speaker after a step that goes well, and without one it is left alone. -/
theorem Lettered.nametagText_step (h : s.Lettered) (hok : (s.step disk).1.isOk) :
    (s.step disk).2.nametagText =
      ((s.step disk).2.dialogue.speaker <|> s.nametagText) := by
  have htag : Cast.standing.nametag ∈ Cast.standing.letters := by decide
  obtain ⟨old, hold⟩ := Option.isSome_iff_exists.mp (h.letters _ htag).2
  have happlied : ((s.applied disk).scene.node Cast.standing.nametag).payload.run? = some old := by
    rw [(h.applied_letter disk htag).2, hold]
  unfold nametagText
  rw [(s.step_cast disk).trans h.staged.cast, h.staged.cast, (h.step_letter hok htag).2,
    TextBox.run?_present_nametag h.nametag (by rw [h.text]; decide) _ happlied, hold, step_dialogue]
  cases (s.applied disk).dialogue.speaker with
  | none => rfl
  | some name => exact congrArg some (TextBox.text_named name old)

/-- The node of the text says after a step that goes well what shows of the page. -/
theorem Lettered.text_step (h : s.Lettered) (hok : (s.step disk).1.isOk) {page : Page}
    (hpage : (s.step disk).2.dialogue.page = some page) :
    ∃ run, ((s.step disk).2.scene.node s.cast.text).payload.run? = some run ∧
      run.spans = s.textBox.spans (page.visible (s.step disk).2.dialogue.visible) := by
  have htext : Cast.standing.text ∈ Cast.standing.letters := by decide
  obtain ⟨old, hold⟩ := Option.isSome_iff_exists.mp (h.letters _ htext).2
  have happlied : ((s.applied disk).scene.node s.textBox.text).payload.run? = some old := by
    rw [h.text, (h.applied_letter disk htext).2, hold]
  have hnone : s.textBox.overwritten (s.applied disk).dialogue = none := by
    unfold TextBox.overwritten
    rw [if_neg]
    rw [h.nametag, h.text]
    decide
  have hshown : s.textBox.shown (s.applied disk).dialogue =
      s.textBox.spans (page.visible (s.applied disk).dialogue.visible) := by
    rw [step_dialogue] at hpage
    unfold TextBox.shown
    rw [hpage]
  have hrun := s.textBox.run?_present (s.applied disk).dialogue happlied
  rw [hnone, hshown, h.text, ← (h.step_letter hok htext).2, ← h.staged.cast] at hrun
  rw [step_dialogue]
  exact ⟨_, hrun, rfl⟩

/-- What the text box has written after a step that goes well. -/
theorem Lettered.nametagLaw (h : s.Lettered) (hok : (s.step disk).1 = .ok ()) : s.NametagLaw disk := by
  have hok' : (s.step disk).1.isOk := by rw [hok]; rfl
  have hwritten := h.nametagText_step hok'
  have hrenamed : (s.step disk).2.dialogue =
      (Directive.names s.played.1).foldl Typewriter.setSpeaker s.played.2.dialogue :=
    (s.step_dialogue disk).trans (applied_dialogue hok)
  have hactive : (s.step disk).2.dialogue.active = none ↔ s.played.2.dialogue.active = none := by
    rw [hrenamed, ← Typewriter.loaded_eq_none_iff, Typewriter.loaded_renamed, Typewriter.loaded_eq_none_iff]
  refine ⟨fun hpage name hlast => ?named, fun name hspeaker => ?speaker, fun page hpage => ?text,
    fun hidle => ?idle, fun hidle hnames => ?lost⟩
  case named =>
    rw [hwritten, hrenamed, Typewriter.speaker_renamed (mt hactive.mpr hpage), hlast]
    rfl
  case speaker =>
    rw [hwritten, hspeaker]
    rfl
  case text =>
    obtain ⟨run, hrun, hspans⟩ := h.text_step hok' hpage
    refine ⟨run, hrun, hspans, ?_⟩
    rw [← s.textBox.toList_text_spans run, ← hspans]
  case idle =>
    have hnone : (s.step disk).2.dialogue.speaker = none := by
      unfold Typewriter.speaker
      rw [hidle]
      rfl
    rw [hwritten, hnone]
    rfl
  case lost =>
    refine h.played_of_idle (hactive.mp hidle) fun hnothing => hnames ?_
    rw [hnothing]
    rfl

/-- **A name shows as long as there is a page**, in every run that is handed no callbacks and no sprites for
the text box. -/
theorem nametags_written {config : Config R} (h : create disk config = .ok s) {es : List (StageEvent R)}
    (hes : ∀ e ∈ es, e.OffText) {disk' : Disk} (hok : ((s.after es).step disk').1 = .ok ()) :
    NametagLaw (s.after es) disk' :=
  ((lettered_create h).after hes).nametagLaw hok

/-! ## Two names -/

/-- A text by A, in which the name tag changes to B and then to C. -/
def aliasPage : Page := ⟨[.call ⟨"nametag", ["B"]⟩, .call ⟨"nametag", ["C"]⟩, .text ⟨"ab", []⟩]⟩

/-- The text is queued, and the step is made that shows the box. -/
def aliasRun : List (StageEvent Rat) := [.write pixelDisk (.say "A" [aliasPage]), .step pixelDisk]

/-- In the next step both names are handed out, and C is shown. -/
theorem nametags_written_aliasRun : ∃ s, create pixelDisk pixelConfig = .ok s ∧
    (∀ e ∈ aliasRun, e.OffText) ∧ ((s.after aliasRun).step pixelDisk).1 = .ok () ∧
    NametagLaw (s.after aliasRun) pixelDisk ∧
    Directive.names (s.after aliasRun).played.1 = ["B", "C"] ∧
    ((s.after aliasRun).step pixelDisk).2.dialogue.page = some aliasPage ∧
    ((s.after aliasRun).step pixelDisk).2.nametagText = some "C" := by
  have hoff : ∀ e ∈ aliasRun, e.OffText := by
    intro e he
    simp only [aliasRun, List.mem_cons, List.not_mem_nil, or_false] at he
    rcases he with rfl | rfl
    · exact nofun
    · exact nofun
  obtain ⟨s, hs, hok, hrun⟩ := exists_create pixelDisk pixelConfig
    (fun s => ((s.after aliasRun).step pixelDisk).1.isOk ∧
      Directive.names (s.after aliasRun).played.1 = ["B", "C"] ∧
      ((s.after aliasRun).step pixelDisk).2.dialogue.page = some aliasPage ∧
      ((s.after aliasRun).step pixelDisk).2.nametagText = some "C") (by decide +kernel)
  have hok' : ((s.after aliasRun).step pixelDisk).1 = .ok () := by
    cases hresult : ((s.after aliasRun).step pixelDisk).1 with
    | error e =>
      rw [hresult] at hok
      cases hok
    | ok _ => rfl
  exact ⟨s, hs, hoff, hok', nametags_written hs hoff hok', hrun⟩

/-- A page that has nothing but a name, and stays for one step. -/
def namePage : Page := ⟨[.call ⟨"nametag", ["B"]⟩]⟩

/-- The page comes up and completes in one step, and the name that this step hands out is never shown. -/
theorem nametag_lost : ∃ s, create pixelDisk pixelConfig = .ok s ∧
    let t := s.after [.write pixelDisk (.say "A" [namePage]), .step pixelDisk]
    (t.step pixelDisk).1.isOk ∧ Directive.names t.played.1 = ["B"] ∧
      (t.step pixelDisk).2.dialogue.active.isNone ∧ (t.step pixelDisk).2.nametagText = some "" := by
  refine exists_create _ _ _ ?_
  decide +kernel

end Stage

end Cutscene
