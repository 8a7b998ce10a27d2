import Cutscene.Proofs.Scene.Showings
import Cutscene.Proofs.Stage.Staged

/-!
# Fleeting effects

An exclamation and a flash are shown for some time, and then hidden again by a timer of their node. A
node may be shown anew while it is shown; the timer of the former showing then still runs.

On the flash and the exclamation in `Director.apply_directive` (SPEC_FULL.md, §B.9 and §B.11).

Results:
* `apply_fleeting`, `applyAll_fleeting`: what directives do to the node of a fleeting effect.
* `Reflected.handle`, `Reflected.after`: in every run that is handed no callbacks the node is as its
  showings have left it.
* `fleeting_effects`: when a fleeting effect is visible, whatever overlaps.
* `flash_cut_short`: a flash that begins while another one is shown is hidden with it.
-/

namespace Cutscene

/-- The effects that are hidden again after some time. -/
inductive Fleeting where
  | exclamation
  | flash
deriving DecidableEq

/-- The node that shows an effect. -/
def Cast.fleeting (c : Cast) : Fleeting → NodeId
  | .exclamation => c.exclamation
  | .flash => c.flash

variable {R : Type} [Scalar R]

omit [Scalar R] in
/-- For how long a directive asks for an effect. -/
def Config.fleetingSeconds? (c : Config R) : Fleeting → Directive R → Option R
  | .exclamation, .exclamation _ _ => some c.exclamationSeconds
  | .flash, .flash secs => some secs
  | _, _ => none

namespace Stage

variable {s t : Stage R} {f : Fleeting} {disk : Disk}

/-! ## Directives -/

/-- For how long a directive shows an effect. An exclamation without its sprite is not shown. -/
def shows? (s : Stage R) (disk : Disk) (f : Fleeting) (d : Directive R) : Option R :=
  match d with
  | .exclamation kind _ =>
    if (s.assets.loadSprite disk (bubblePath kind)).isOk then s.config.fleetingSeconds? f d else none
  | _ => s.config.fleetingSeconds? f d

/-- The times for which directives show an effect that are carried out up to the first failure. -/
def shownBy (s : Stage R) (disk : Disk) (f : Fleeting) : List (Directive R) → List R
  | [] => []
  | d :: r => (s.shows? disk f d).toList ++
    match s.apply disk d with
    | (.ok (), t) => t.shownBy disk f r
    | (.error _, _) => []

/-- A node that has been shown for some times has a timer for each of them. -/
structure Shown (n n' : Node R) (times : List R) : Prop where
  timers : n'.timers = n.timers ++ times.map fun t => ⟨t, .hide⟩
  visible : n'.visible = (n.visible || !times.isEmpty)

omit [Scalar R] in
theorem shown_nil (n : Node R) : Shown n n [] := ⟨(List.append_nil _).symm, by simp⟩

omit [Scalar R] in
theorem Shown.append {n n' n'' : Node R} {times more : List R} (h : Shown n n' times)
    (h' : Shown n' n'' more) : Shown n n'' (times ++ more) where
  timers := by rw [h'.timers, h.timers, List.map_append, List.append_assoc]
  visible := by
    rw [h'.visible, h.visible]
    cases times <;> simp

/-- A directive that asks for no effect of a kind does not work on its node. -/
theorem Staged.worksOn?_ne_fleeting (h : s.Staged) {d : Directive R}
    (hd : s.config.fleetingSeconds? f d = none) : s.cast.worksOn? d ≠ some (s.cast.fleeting f) := by
  rw [h.cast]
  cases d with
  | sprite side path =>
    cases side <;> cases f <;> simp [Cast.worksOn?, Cast.stand, Cast.fleeting, Cast.standing]
  | deskSlam side =>
    cases side <;> cases f <;> simp [Cast.worksOn?, Cast.stand, Cast.fleeting, Cast.standing]
  | exclamation kind speaker =>
    cases f with
    | exclamation => cases hd
    | flash => simp [Cast.worksOn?, Cast.fleeting, Cast.standing]
  | flash secs =>
    cases f with
    | exclamation => simp [Cast.worksOn?, Cast.fleeting, Cast.standing]
    | flash => cases hd
  | _ => cases f <;> simp [Cast.worksOn?, Cast.fleeting, Cast.standing]

/-- A directive shows an effect, or leaves its node alone. -/
theorem Staged.apply_fleeting (h : s.Staged) (disk : Disk) (f : Fleeting) (d : Directive R) :
    Shown (s.scene.node (s.cast.fleeting f)) ((s.apply disk d).2.scene.node (s.cast.fleeting f))
      (s.shows? disk f d).toList := by
  have hsize : s.cast.fleeting f < s.scene.size := by
    rw [h.cast, h.size]
    cases f <;> decide
  cases hask : s.config.fleetingSeconds? f d with
  | none =>
    have hshows : s.shows? disk f d = none := by
      unfold shows?
      rw [hask]
      cases d <;> simp
    rw [hshows, apply_node_of_ne (h.worksOn?_ne_fleeting hask)]
    exact shown_nil _
  | some secs =>
    cases f with
    | flash =>
      cases d with
      | flash secs =>
        have hnode : (s.apply disk (.flash secs)).2.scene.node s.cast.flash =
            (s.scene.node s.cast.flash).appear.schedule secs .hide := Scene.node_modify_self hsize _
        unfold Cast.fleeting
        simp only
        rw [hnode]
        exact ⟨rfl, by simp [shows?, Config.fleetingSeconds?, Node.schedule, Node.appear]⟩
      | _ => cases hask
    | exclamation =>
      cases d with
      | exclamation kind speaker =>
        unfold shows?
        simp only [Stage.apply, withSprite]
        cases s.assets.loadSprite disk (bubblePath kind) with
        | error e => exact shown_nil _
        | ok r =>
          simp only [scene_withSound]
          have hnode :
              (({ s with assets := r.2 } : Stage R).showBubble r.1).scene.node s.cast.exclamation =
                (((s.scene.node s.cast.exclamation).setSprite r.1).appear).schedule
                  s.config.exclamationSeconds .hide := Scene.node_modify_self hsize _
          unfold Cast.fleeting
          simp only
          rw [hnode]
          exact ⟨rfl, by
            simp [Except.isOk, Except.toBool, Config.fleetingSeconds?, Node.schedule, Node.appear]⟩
      | _ => cases hask

/-- Directives show an effect one after another. -/
theorem Staged.applyAll_fleeting (h : s.Staged) (disk : Disk) (f : Fleeting) (ds : List (Directive R)) :
    Shown (s.scene.node (s.cast.fleeting f)) ((s.applyAll disk ds).2.scene.node (s.cast.fleeting f))
      (s.shownBy disk f ds) := by
  induction ds generalizing s with
  | nil => exact shown_nil _
  | cons d r ih =>
    have hd := h.apply_fleeting disk f d
    have hnext := h.apply disk d
    have hcast := (s.undisturbed_apply disk d).cast
    unfold applyAll shownBy
    cases happly : s.apply disk d with
    | mk result t =>
      rw [happly] at hd hnext hcast
      cases result with
      | error e =>
        simp only [List.append_nil]
        exact hd
      | ok _ =>
        have hr := ih hnext
        rw [hcast] at hr
        exact hd.append hr

/-! ## Runs -/

/-- The showings of an effect that begin with an event. -/
def shownIn (s : Stage Rat) (f : Fleeting) : StageEvent Rat → List Showing
  | .step disk => (s.played.2.shownBy disk f s.played.1).map (Showing.mk s.frame)
  | _ => []

/-- The showings of an effect in a run, in the order in which they begin. -/
def showings (s : Stage Rat) (f : Fleeting) : List (StageEvent Rat) → List Showing
  | [] => []
  | e :: r => s.shownIn f e ++ (s.handle e).showings f r

/-- The cast is in place, and the node of an effect is as its showings have left it. -/
structure Reflected (s : Stage Rat) (f : Fleeting) (past : List Showing) : Prop where
  staged : s.Staged
  node : (s.scene.node (s.cast.fleeting f)).Reflects s.config.rate.frameSeconds s.frame past

section Runs

variable {s : Stage Rat} {past : List Showing}

theorem frameSeconds_nonneg (r : FrameRate) : 0 ≤ (r.frameSeconds : Rat) :=
  div_nonneg (Int.cast_nonneg (Int.natCast_nonneg _)) (Int.cast_nonneg (Int.natCast_nonneg _))

theorem fleeting_lt (f : Fleeting) : Cast.standing.fleeting f < 11 := by
  cases f <;> decide

theorem fleeting_ne_root (f : Fleeting) : Cast.standing.fleeting f ≠ Scene.root := by
  cases f <;> decide

/-- A new stage has shown nothing. -/
theorem reflected_create {disk : Disk} {config : Config Rat} (h : create disk config = .ok s)
    (f : Fleeting) : s.Reflected f [] := by
  have hstaged := Staged.create h
  obtain ⟨htimers, -, hvisible, -⟩ := create_node h (fleeting_lt f) (fleeting_ne_root f)
  refine ⟨hstaged, ?_⟩
  rw [hstaged.cast]
  refine Node.reflects_nil htimers (hvisible.trans ?_)
  cases f <;> rfl

/-- Every event adds the showings that begin with it. -/
theorem Reflected.handle (h : s.Reflected f past) {e : StageEvent Rat} (he : e.Plain) :
    (s.handle e).Reflected f (past ++ s.shownIn f e) := by
  refine ⟨h.staged.handle he, ?_⟩
  rw [handle_cast, handle_config]
  rcases e.eq_step_or with ⟨disk, rfl⟩ | hother
  · have hbox : s.cast.fleeting f ≠ s.cast.dialogueBox := by
      rw [h.staged.cast]
      cases f <;> decide
    have htended := tended_cued h.staged.house
    have hplayed : (s.played.2.scene.node (s.cast.fleeting f)).Reflects s.config.rate.frameSeconds
        s.frame past := by
      rw [played_scene]
      exact h.node.congr (htended.timers _) (htended.visible _ hbox)
    have hshown := h.staged.played.applyAll_fleeting disk f s.played.1
    rw [played_cast] at hshown
    have happlied := hplayed.show hshown.timers hshown.visible
    change ((s.step disk).2.scene.node _).Reflects _ (s.step disk).2.frame _
    rw [step_frame, step_snd]
    split_ifs
    · have hlt := fleeting_lt f
      have hroot := fleeting_ne_root f
      rw [← h.staged.cast] at hlt hroot
      obtain ⟨n, hn, -, -, htimers, hvisible⟩ :=
        (h.staged.applied disk).node_finishStep hlt hroot s.config.rate.frameSeconds
      rw [hn]
      exact (happlied.congr htimers hvisible).tick (frameSeconds_nonneg _)
    · exact happlied
  · have hnone : s.shownIn f e = [] := by
      cases e with
      | step disk => exact absurd rfl (hother disk)
      | _ => rfl
    have hroot := fleeting_ne_root f
    rw [← h.staged.cast] at hroot
    rw [hnone, List.append_nil, s.handle_node_of_ne hother hroot, s.handle_frame_of_ne hother]
    exact h.node

theorem Reflected.after (h : s.Reflected f past) {es : List (StageEvent Rat)} (hes : ∀ e ∈ es, e.Plain) :
    (s.after es).Reflected f (past ++ s.showings f es) := by
  induction es generalizing s past with
  | nil =>
    rw [showings, List.append_nil]
    exact h
  | cons e r ih =>
    rw [showings, ← List.append_assoc]
    exact ih (h.handle (hes e List.mem_cons_self)) fun e' he' => hes e' (List.mem_cons_of_mem _ he')

/-- In directives that are all carried out, an effect is shown for the times that they ask for. -/
theorem mem_shownBy_of_ok {ds : List (Directive Rat)} (hok : (s.applyAll disk ds).1 = .ok ())
    {secs : Rat} : secs ∈ s.shownBy disk f ds ↔ ∃ d ∈ ds, s.config.fleetingSeconds? f d = some secs := by
  induction ds generalizing s with
  | nil => simp [shownBy]
  | cons d r ih =>
    have hkept := (s.undisturbed_apply disk d).config
    unfold applyAll at hok
    unfold shownBy
    cases happly : s.apply disk d with
    | mk result t =>
      rw [happly] at hok hkept
      have hconfig : t.config = s.config := hkept
      cases result with
      | error e => cases hok
      | ok _ =>
        have hshows : s.shows? disk f d = s.config.fleetingSeconds? f d := by
          cases d with
          | exclamation kind speaker =>
            simp only [apply, withSprite] at happly
            unfold shows?
            cases hsprite : s.assets.loadSprite disk (bubblePath kind) with
            | error e =>
              rw [hsprite] at happly
              cases happly
            | ok _ =>
              simp only [hsprite]
              rfl
          | _ => rfl
        simp only [hshows, List.mem_append, Option.mem_toList, ih hok, hconfig, List.mem_cons,
          exists_eq_or_imp]

/-- When a fleeting effect is visible, as it follows from its showings so far and those of the next step. -/
structure FleetingEffects (t : Stage Rat) (f : Fleeting) (past : List Showing) : Prop where
  /-- The effect is visible just when there is a showing since whose beginning no time has been over. So
  a showing keeps its full time unless that of another one is over meanwhile. -/
  visible_iff : (t.scene.node (t.cast.fleeting f)).visible ↔ ∃ u ∈ past,
    ∀ v ∈ past, v.Over t.config.rate.frameSeconds t.frame → v.Over t.config.rate.frameSeconds u.start
  /-- In a step that goes well, all directives that ask for the effect show it for the time they ask. -/
  mem_shownIn_iff : ∀ disk, (t.step disk).1 = .ok () → ∀ secs,
    ⟨t.frame, secs⟩ ∈ t.shownIn f (.step disk) ↔
      ∃ d ∈ t.played.1, t.config.fleetingSeconds? f d = some secs
  /-- The step in which the time of a showing is over hides the effect, whatever was shown meanwhile. -/
  hidden : ∀ disk, (t.step disk).1 = .ok () → ∀ u ∈ past ++ t.shownIn f (.step disk),
    ¬u.Over t.config.rate.frameSeconds t.frame → u.Over t.config.rate.frameSeconds (t.frame + 1) →
    ((t.step disk).2.scene.node (t.cast.fleeting f)).visible = false

/-- **When an exclamation or a flash is visible**, in every run that is handed no callbacks. -/
theorem fleeting_effects {disk : Disk} {config : Config Rat} (h : create disk config = .ok s)
    {es : List (StageEvent Rat)} (hes : ∀ e ∈ es, e.Plain) (f : Fleeting) :
    FleetingEffects (s.after es) f (s.showings f es) := by
  have hrun := (reflected_create h f).after hes
  rw [List.nil_append] at hrun
  generalize s.after es = t at hrun ⊢
  generalize s.showings f es = past at hrun ⊢
  refine ⟨hrun.node.visible_iff, fun disk hok secs => ?_, fun disk hok u hu hnot hover => ?_⟩
  · have happly := (t.step_fst disk).symm.trans hok
    rw [← t.played_config, ← mem_shownBy_of_ok happly]
    simp [shownIn]
  · have hplain : (StageEvent.step disk : StageEvent Rat).Plain := nofun
    have hnext := (hrun.handle hplain).node
    have hframe : (t.handle (.step disk)).frame = t.frame + 1 := by
      refine (t.step_frame disk).trans ?_
      rw [hok]
      rfl
    have hconfig : (t.handle (.step disk)).config = t.config := t.step_config disk
    have hcast : (t.handle (.step disk)).cast = t.cast := t.step_cast disk
    rw [hframe, hconfig, hcast] at hnext
    by_contra hvisible
    obtain ⟨w, hw, hlast⟩ := hnext.visible_iff.mp (Bool.eq_true_of_not_eq_false hvisible)
    have hstart : w.start ≤ t.frame := by
      rcases List.mem_append.mp hw with hw | hw
      · exact hrun.node.start_le w hw
      · obtain ⟨secs, -, rfl⟩ := List.mem_map.mp hw
        exact Nat.le_refl _
    exact hnot ((hlast u hu hover).mono (frameSeconds_nonneg _) hstart)

end Runs

/-! ## Two flashes -/

/-- Two flashes of a second each, half a second apart. -/
def flashPage : Page :=
  ⟨[.call ⟨"flash", ["1"]⟩, .call ⟨"wait", ["0.5"]⟩, .call ⟨"flash", ["1"]⟩]⟩

/-- The page is queued and a step is made. -/
def flashRun : List (StageEvent Rat) := [.write pixelDisk (.push (.page flashPage none)), .step pixelDisk]

/-- After the first step the first flash is visible; the second step begins the second one, and hides
both. -/
theorem fleeting_effects_flashRun : ∃ s, create pixelDisk pixelConfig = .ok s ∧
    (∀ e ∈ flashRun, e.Plain) ∧ FleetingEffects (s.after flashRun) .flash (s.showings .flash flashRun) ∧
    s.showings .flash flashRun = [⟨0, 1⟩] ∧
    (s.after flashRun).shownIn .flash (.step pixelDisk) = [⟨1, 1⟩] ∧
    ((s.after flashRun).step pixelDisk).1.isOk := by
  have hplain : ∀ e ∈ flashRun, e.Plain := by
    intro e he
    rcases List.mem_pair.mp he with rfl | rfl
    · rintro a ⟨⟩
      rfl
    · exact nofun
  obtain ⟨s, hs, hrun⟩ := exists_create pixelDisk pixelConfig
    (fun s => s.showings .flash flashRun = [⟨0, 1⟩] ∧
      (s.after flashRun).shownIn .flash (.step pixelDisk) = [⟨1, 1⟩] ∧
      ((s.after flashRun).step pixelDisk).1.isOk) (by decide +kernel)
  exact ⟨s, hs, hplain, fleeting_effects hs hplain .flash, hrun⟩

/-- A flash that has been shown for half of its time is hidden, since the time of the flash before it is
over. -/
theorem flash_cut_short : ∃ s, create pixelDisk pixelConfig = .ok s ∧
    let t := s.after flashRun
    (t.step pixelDisk).1.isOk ∧ (t.step pixelDisk).2.frame = 2 ∧
      t.played.1.any (fun d => match d with
        | .flash secs => secs = 1
        | _ => false) ∧
      t.config.rate.frameSeconds < (1 : Rat) ∧
      ((t.step pixelDisk).2.scene.node t.cast.flash).visible = false := by
  refine exists_create _ _ _ ?_
  decide +kernel

end Stage

end Cutscene
