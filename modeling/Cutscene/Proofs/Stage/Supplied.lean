import Cutscene.Proofs.Dialogue.Due
import Cutscene.Proofs.Script.Turn
import Cutscene.Proofs.Stage.Nodes
import Cutscene.Proofs.Stage.Opening
import Cutscene.Proofs.Stage.Provided

/-!
# Pages that cannot fail

The pages that a script queues are provided for when they are queued. From there on their directives go
through the queue to the typewriter and from the typewriter to the stage, and nothing on that way adds a
directive or takes an asset away. So no step of the run fails.

On `Director.preload_page` and `apply_directive`: missing assets fail at construction (SPEC_FULL.md, §7
and §B.11).

Results:
* `Supplied`: what is queued, and what is to come of the page that is shown, is provided for.
* `Supplied.step_ok`: a step of such a stage goes well.
* `Supplied.handle`: every event keeps it, as long as no line is refused.
* `pages_never_fail`: so every step of the run goes well.
-/

namespace Cutscene

variable {R : Type}

/-- A callback that loads no page: what is to come after it was to come before. -/
def Callback.Pageless (f : Callback R) : Prop := ∀ c, (f c).dialogue.due ⊆ c.dialogue.due

/-- An action that shows no page and has no callback that loads one. -/
structure Action.Pageless (a : Action R) : Prop where
  page : a.page? = none
  callback : ∀ f ∈ a.callback?, Callback.Pageless f

/-- An event of a script that is made of the scripting calls: the assets are not worked on directly, and
pages come with their calls alone. -/
structure StageEvent.Pageless (e : StageEvent R) : Prop where
  assets : ∀ l, e ≠ .assets l
  own : ∀ a, e.own? = some a → a.Pageless

/-- The disk that an event works with. -/
def StageEvent.disk? : StageEvent R → Option Disk
  | .write disk _ => some disk
  | .step disk => some disk
  | _ => none

/-- What is to come consists of good directives. -/
def Context.DueWithin (good : Directive R → Prop) (c : Context R) : Prop :=
  ∀ d ∈ c.dialogue.due, good d

theorem Context.blind_dueWithin (good : Directive R → Prop) : Blind (DueWithin good) :=
  ⟨fun _ _ h => h, fun _ _ _ h => h⟩

theorem Callback.Pageless.leads {f : Callback R} (h : f.Pageless) (good : Directive R → Prop) :
    f.Leads (Context.DueWithin good) (Context.DueWithin good) :=
  fun c hc d hd => hc d (h c hd)

variable [Scalar R]

/-- The directives of the pages that an event queues. -/
def StageEvent.directives : StageEvent R → List (Directive R)
  | .write _ (.say _ pages) => Stage.directives pages
  | _ => []

/-- The pages of an action have no directives but good ones, and its callback loads no page. -/
structure Action.Within (good : Directive R → Prop) (a : Action R) : Prop where
  page : ∀ p, a.page? = some p → ∀ d ∈ p.directives.map Prod.snd, good d
  callback : ∀ f ∈ a.callback?, Callback.Pageless f

theorem Action.Pageless.within {a : Action R} (h : a.Pageless) (good : Directive R → Prop) :
    a.Within good where
  page p hp := by
    rw [h.page] at hp
    cases hp
  callback := h.callback

theorem Action.Within.mono {a : Action R} {good good' : Directive R → Prop} (h : a.Within good)
    (hgood : ∀ d, good d → good' d) : a.Within good' where
  page p hp d hd := hgood d (h.page p hp d hd)
  callback := h.callback

theorem Action.Within.update {a : Action R} {good : Directive R → Prop} (h : a.Within good) (dt : R)
    (c : Context R) : (a.update dt c).1.Within good where
  page p hp := h.page p (by rwa [← a.page?_update dt c])
  callback f hf := h.callback f (a.callback?_update dt c f hf)

/-- The start of an action loads its page at most. -/
theorem Action.Within.start_leads {a : Action R} {good : Directive R → Prop} (h : a.Within good) :
    Callback.Leads (Context.DueWithin good) (Context.DueWithin good) a.start := by
  intro c hc
  cases a with
  | page p speaker =>
    unfold start Context.takeFinisher
    cases c.finisher with
    | none => exact hc
    | some id =>
      intro d hd
      simp only [Typewriter.due_load] at hd
      exact h.page p rfl d hd
  | _ => exact hc

namespace Stage

variable {s t : Stage R} {disk disk' : Disk} {asked : List (Directive R)} {d : Directive R}

/-- The directive has been asked for and is provided for. -/
structure Ready (s : Stage R) (disk : Disk) (asked : List (Directive R)) (d : Directive R) : Prop where
  asked : d ∈ asked
  provided : Provided s.config.stage disk s.assets d

theorem Ready.mono (h : s.Ready disk asked d) (hconfig : t.config = s.config)
    (hassets : s.assets.Grows t.assets) (more : List (Directive R)) : t.Ready disk (asked ++ more) d where
  asked := List.mem_append_left _ h.asked
  provided := by
    rw [hconfig]
    exact h.provided.mono hassets

/-- All directives that are queued or still to come have been asked for and are provided for. -/
structure Supplied (disk : Disk) (asked : List (Directive R)) (s : Stage R) : Prop where
  root : s.assets.root = s.config.assetsRoot
  queued : ∀ q ∈ s.queue.items, q.action.Within (s.Ready disk asked)
  due : ∀ d ∈ s.dialogue.due, s.Ready disk asked d

/-- What is supplied stays so when more is queued that is provided for. -/
theorem Supplied.congr (h : s.Supplied disk asked) (more : List (Directive R)) (hconfig : t.config = s.config)
    (hassets : s.assets.Grows t.assets) (hdialogue : t.dialogue = s.dialogue)
    (hqueue : ∀ q ∈ t.queue.items, q ∈ s.queue.items ∨ q.action.Within (t.Ready disk (asked ++ more))) :
    t.Supplied disk (asked ++ more) where
  root := by rw [hassets.root, hconfig, h.root]
  queued q hq := by
    rcases hqueue q hq with hq | hq
    · exact (h.queued q hq).mono fun d hd => hd.mono hconfig hassets more
    · exact hq
  due d hd := (h.due d (hdialogue ▸ hd)).mono hconfig hassets more

/-! ## Steps -/

theorem played_assets (s : Stage R) : s.played.2.assets = s.assets := by
  obtain ⟨dialogue, signals, notes, h⟩ := s.played_eq
  rw [h]
  rfl

/-- The turn of the queue adds directives of queued pages at most. -/
theorem Supplied.cued_due (h : s.Supplied disk asked) :
    ∀ d ∈ s.cued.dialogue.due, s.Ready disk asked d := by
  rw [cued_dialogue]
  have hitems : ∀ q ∈ s.queue.settle.items, q.action.Within (s.Ready disk asked) :=
    fun q hq => h.queued q (ActionQueue.mem_of_mem_settle hq)
  have hblind : Context.Blind (Context.DueWithin (s.Ready disk asked)) := Context.blind_dueWithin _
  exact ActionQueue.update_leads hblind hblind (fun _ hc => hc) (fun q hq => (hitems q hq).start_leads)
    (fun q hq f hf => ((hitems q hq).callback f hf).leads _) s.config.rate.frameSeconds (c := s.cueing) h.due

/-- What the typewriter hands out in a step was to come, and what is to come after it was too. -/
theorem Supplied.played (h : s.Supplied disk asked) : (∀ d ∈ s.played.1, s.Ready disk asked d) ∧
    ∀ d ∈ s.played.2.dialogue.due, s.Ready disk asked d := by
  obtain ⟨hfired, hdue⟩ := s.cued.dialogue.due_update s.config.rate.frameSeconds
  refine ⟨fun d hd => h.cued_due d (hfired hd), fun d hd => h.cued_due d (hdue ?_)⟩
  rwa [played_dialogue] at hd

/-- A step goes well, and nothing is loaded in it. -/
theorem Supplied.step_ok (h : s.Supplied disk asked)
    (hdisk : Disk.SameAssets s.config.assetsRoot disk disk') :
    (s.step disk').1 = .ok () ∧ (s.step disk').2.assets = s.assets := by
  have hneeds : ∀ d ∈ s.played.1, Provided s.played.2.config.stage disk' s.played.2.assets d := by
    intro d hd
    rw [played_config, played_assets]
    exact (h.played.1 d hd).provided.of_sameAssets (h.root ▸ hdisk)
  obtain ⟨hok, hassets⟩ := applyAll_of_provided hneeds
  rw [step_eq]
  cases happly : s.played.2.applyAll disk' s.played.1 with
  | mk answer t =>
    rw [happly] at hok hassets
    cases hok
    exact ⟨rfl, hassets.trans s.played_assets⟩

/-- After a step all is supplied that was before. -/
theorem Supplied.step (h : s.Supplied disk asked)
    (hdisk : Disk.SameAssets s.config.assetsRoot disk disk') : (s.step disk').2.Supplied disk asked := by
  obtain ⟨hok, hassets⟩ := h.step_ok hdisk
  have hready : ∀ d, s.Ready disk asked d → (s.step disk').2.Ready disk asked d := by
    intro d hd
    refine ⟨hd.asked, ?_⟩
    rw [s.step_config disk', hassets]
    exact hd.provided
  refine ⟨?_, ?_, fun d hd => hready d (h.played.2 d ?_)⟩
  · rw [hassets, s.step_config disk']
    exact h.root
  · intro q hq
    have hkept := forall_step (P := Action.Within (s.Ready disk asked))
      (fun a dt c ha => ha.update dt c) h.queued disk'
    exact (hkept q hq).mono hready
  · obtain ⟨u, hu, hstep⟩ := exists_of_step_ok (Prod.ext hok rfl : s.step disk' = (.ok (), _))
    rw [← Typewriter.due_eq_of_bare_eq hu.bare]
    exact congrArg (·.dialogue.due) hstep ▸ hd

/-! ## Events -/

/-- A line that is not refused supplies the pages that it queues. -/
theorem Supplied.write (h : s.Supplied disk asked) (hdisk : Disk.SameAssets s.config.assetsRoot disk disk')
    {line : ScriptLine R} (hown : ∀ a, line.own? = some a → a.Pageless)
    (hok : (s.write disk' line).1 = .ok ()) :
    (s.write disk' line).2.Supplied disk (asked ++ (StageEvent.write disk' line).directives) := by
  have hgrows := s.stocked_grows disk' line
  have hdisk' : Disk.SameAssets (s.stocked disk' line).root disk' disk := by
    rw [hgrows.root, h.root]
    exact hdisk.symm
  rw [s.write_eq disk' line] at hok ⊢
  refine h.congr _ rfl hgrows rfl fun q hq => ?_
  rcases ActionQueue.mem_pushAll hq with hq | hq
  · exact .inl hq
  right
  cases hactions : s.actions disk' line with
  | error e =>
    rw [hactions] at hok
    cases hok
  | ok actions =>
    rw [hactions] at hq
    rcases mem_actions hactions hq with ⟨hscripted, hpages⟩ | hline
    · refine ⟨fun p hp d hd => ?_, fun f hf => ?_⟩
      · obtain ⟨speaker, pages, rfl, hp⟩ := hpages p hp
        have hmem : d ∈ Stage.directives pages := List.mem_flatMap.mpr ⟨p, hp, hd⟩
        obtain ⟨_, hpreload, -⟩ := map_eq_ok_iff.mp hactions
        refine ⟨List.mem_append_right _ hmem, ?_⟩
        exact (provided_of_preloadAll hpreload d hmem).of_sameAssets hdisk'
      · obtain ⟨cue, hcue, rfl⟩ := hscripted.callback hf
        intro c
        rw [hcue.aloof.dialogue c]
        exact List.Subset.refl _
    · exact (hown _ hline).within _

/-- Every event keeps all supplied, if it is no line that is refused. -/
theorem Supplied.handle (h : s.Supplied disk asked) {e : StageEvent R} (he : e.Pageless)
    (hdisk : ∀ d ∈ e.disk?, Disk.SameAssets s.config.assetsRoot disk d)
    (hok : ∀ d line, e = .write d line → (s.write d line).1 = .ok ()) :
    (s.handle e).Supplied disk (asked ++ e.directives) := by
  cases e with
  | write d line => exact h.write (hdisk d rfl) he.own (hok d line rfl)
  | step d =>
    change (s.step d).2.Supplied disk (asked ++ [])
    rw [List.append_nil]
    exact h.step (hdisk d rfl)
  | assets l => exact absurd rfl (he.assets l)
  | picture => exact h.congr [] rfl (.refl _) rfl fun q hq => .inl hq
  | shift y => exact h.congr [] rfl (.refl _) rfl fun q hq => .inl hq
  | closeSounds => exact h.congr [] rfl (.refl _) rfl fun q hq => .inl hq

/-! ## Runs -/

/-- Whether no line of a run is refused. -/
def accepts (s : Stage R) : List (StageEvent R) → Bool
  | [] => true
  | .write disk line :: r => (s.write disk line).1.isOk && (s.handle (.write disk line)).accepts r
  | e :: r => (s.handle e).accepts r

theorem accepts_cons {e : StageEvent R} {r : List (StageEvent R)} (h : s.accepts (e :: r)) :
    (∀ d line, e = .write d line → (s.write d line).1 = .ok ()) ∧ (s.handle e).accepts r := by
  cases e with
  | write d line =>
    rw [accepts, Bool.and_eq_true] at h
    refine ⟨?_, h.2⟩
    rintro _ _ ⟨⟩
    cases hline : (s.write d line).1 with
    | error e =>
      rw [hline] at h
      exact absurd h.1 Bool.false_ne_true
    | ok _ => rfl
  | _ => exact ⟨nofun, h⟩

theorem Supplied.after (h : s.Supplied disk asked) {es : List (StageEvent R)}
    (hes : ∀ e ∈ es, e.Pageless)
    (hdisk : ∀ e ∈ es, ∀ d ∈ e.disk?, Disk.SameAssets s.config.assetsRoot disk d) (hok : s.accepts es) :
    (s.after es).Supplied disk (asked ++ es.flatMap StageEvent.directives) := by
  induction es generalizing s asked with
  | nil =>
    rw [List.flatMap_nil, List.append_nil]
    exact h
  | cons e r ih =>
    obtain ⟨hline, hrest⟩ := accepts_cons hok
    have hnext := h.handle (hes e List.mem_cons_self) (hdisk e List.mem_cons_self) hline
    rw [List.flatMap_cons, ← List.append_assoc]
    refine ih hnext (fun e' he' => hes e' (List.mem_cons_of_mem _ he')) ?_ hrest
    rw [s.handle_config e]
    exact fun e' he' => hdisk e' (List.mem_cons_of_mem _ he')

/-- A part of a run from its start has no line that is refused. -/
theorem accepts_of_append {es es' : List (StageEvent R)} (h : s.accepts (es ++ es')) : s.accepts es := by
  induction es generalizing s with
  | nil => rfl
  | cons e r ih =>
    cases e with
    | write d line =>
      rw [List.cons_append, accepts, Bool.and_eq_true] at h
      rw [accepts, Bool.and_eq_true]
      exact ⟨h.1, ih h.2⟩
    | _ => exact ih (s := s.handle _) h

/-- What holds of a step on a disk, when some directives have been asked for. -/
structure StepSupplied (t : Stage R) (disk : Disk) (asked : List (Directive R)) : Prop where
  /-- The step goes well. -/
  ok : (t.step disk).1 = .ok ()
  /-- Nothing is loaded in it. -/
  assets : (t.step disk).2.assets = t.assets
  /-- What is handed out in it has been asked for, the sprite that it needs has been loaded under the same
  path, and the sound that it needs is found. -/
  ready : ∀ d ∈ t.played.1, t.Ready disk asked d

/-- **Pages that have been queued never fail.** As long as no line is refused and the files below the root
of the assets stay as they are, every step of every run goes well, whatever directives the pages have. -/
theorem pages_never_fail {made : Disk} {config : Config R} (h : create made config = .ok s)
    {es : List (StageEvent R)} (hes : ∀ e ∈ es, e.Pageless)
    (hdisk : ∀ e ∈ es, ∀ d ∈ e.disk?, Disk.SameAssets config.assetsRoot disk d) (hok : s.accepts es)
    {before later : List (StageEvent R)} {d : Disk} (hsplit : es = before ++ .step d :: later) :
    (s.after before).StepSupplied d (before.flatMap StageEvent.directives) := by
  subst hsplit
  obtain ⟨hconfig, hqueue, -, hidle, -⟩ := create_spec h
  have hstart : s.Supplied disk [] := by
    refine ⟨(create_root h).trans (congrArg Config.assetsRoot hconfig.symm), ?_, ?_⟩
    · rw [hqueue]
      exact fun q hq => absurd hq List.not_mem_nil
    · rw [Typewriter.due_of_idle hidle]
      exact fun d hd => absurd hd List.not_mem_nil
  have hmem : ∀ e ∈ before, e ∈ before ++ .step d :: later := fun e he => List.mem_append_left _ he
  have hbefore : (s.after before).Supplied disk (before.flatMap StageEvent.directives) :=
    hstart.after (fun e he => hes e (hmem e he))
      (fun e he => hconfig ▸ hdisk e (hmem e he)) (accepts_of_append hok)
  have hroot : (s.after before).config.assetsRoot = config.assetsRoot := by
    rw [s.after_config before, hconfig]
  have hsame : Disk.SameAssets (s.after before).config.assetsRoot disk d := by
    rw [hroot]
    exact hdisk (.step d) (List.mem_append_right _ List.mem_cons_self) d rfl
  obtain ⟨hgood, hassets⟩ := hbefore.step_ok hsame
  refine ⟨hgood, hassets, fun c hc => ?_⟩
  have hready := hbefore.played.1 c hc
  exact ⟨hready.asked, hready.provided.of_sameAssets (hbefore.root ▸ hsame)⟩

/-- A disk with one picture, a bubble, its generic clip and the sound of a desk slam. -/
def propsDisk : Disk :=
  ⟨[(["assets"], .directory), (["assets", "a.png"], .file (.still 1 1 ⟨#[1, 2, 3, 255]⟩)),
    (["assets", "exclamations"], .directory),
    (["assets", "exclamations", "objection.gif"], .file (.animation 1 1 [(.white, 100)])),
    (["assets", "exclamations", "objection-generic.wav"], .file (.raw "")),
    (["assets", "sound"], .directory),
    (["assets", "sound", "sfx-deskslam.wav"], .file (.raw ""))]⟩

/-- An exclamation of a speaker without a clip, and a desk slam after the first character. -/
def propsPage : Page :=
  ⟨[.call ⟨"objection", ["nobody"]⟩, .text ⟨"a", []⟩, .call ⟨"deskslam", ["left"]⟩]⟩

/-- A callback and the page are queued, and three steps are made. -/
def propsRun : List (StageEvent Rat) :=
  [.write propsDisk (.run fun c => c.note "curtain"), .write propsDisk (.say "Nobody" [propsPage]),
    .step propsDisk, .step propsDisk, .step propsDisk]

/-- Both directives are handed out in the third step, and both are carried out. -/
theorem pages_never_fail_propsRun : ∃ s, create propsDisk pixelConfig = .ok s ∧
    (∀ e ∈ propsRun, e.Pageless) ∧ s.accepts propsRun ∧
    (s.after (propsRun.take 4)).StepSupplied propsDisk
      ((propsRun.take 4).flatMap StageEvent.directives) ∧
    (s.after (propsRun.take 4)).played.1.map Directive.name = ["objection", "deskslam"] := by
  have hpageless : ∀ e ∈ propsRun, e.Pageless := by
    have hstep : (StageEvent.step propsDisk : StageEvent Rat).Pageless := ⟨nofun, nofun⟩
    simp only [propsRun, List.forall_mem_cons]
    refine ⟨⟨nofun, ?_⟩, ⟨nofun, nofun⟩, hstep, hstep, hstep, nofun⟩
    rintro a ⟨⟩
    refine ⟨rfl, ?_⟩
    rintro f ⟨⟩
    exact fun c => List.Subset.refl _
  have hdisk : ∀ e ∈ propsRun, ∀ d ∈ e.disk?, Disk.SameAssets pixelConfig.assetsRoot propsDisk d := by
    simp only [propsRun, List.forall_mem_cons, StageEvent.disk?, Option.mem_some_iff, forall_eq',
      Disk.SameAssets.refl, true_and]
    exact nofun
  obtain ⟨s, hs, haccepts, hplayed⟩ := exists_create propsDisk pixelConfig
    (fun s => s.accepts propsRun ∧
      (s.after (propsRun.take 4)).played.1.map Directive.name = ["objection", "deskslam"])
    (by decide +kernel)
  exact ⟨s, hs, hpageless, haccepts, pages_never_fail hs hpageless hdisk haccepts rfl, hplayed⟩

end Stage

end Cutscene
