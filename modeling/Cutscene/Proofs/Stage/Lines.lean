import Cutscene.Proofs.Asset.Growth
import Cutscene.Proofs.Script.Order
import Cutscene.Proofs.Stage.Run

/-!
# Lines of the script

A line is for some actions, and either all of them are queued or none is. What a line needs is loaded
before anything is queued, so a line that is refused leaves nothing behind but what it has loaded.

On the scripting operations of `Director` and `preload_page` (SPEC_FULL.md, §4.4 and §B.11).

Results:
* `preloadAll_eq_error_iff`: loading for many directives fails at the first that fails.
* `pushAll_eq`: a queue that has been added to, written out.
* `write_eq`: what a line does, from the actions that it is for.
* `written_whole_or_not`: a line is queued as a whole or not at all.
-/

namespace Cutscene

variable {R : Type}

/-- Actions are queued behind those that are there, under the numbers that come next. -/
theorem ActionQueue.pushAll_eq (q : ActionQueue R) (actions : List (Action R)) :
    q.pushAll actions =
      { q with
        items := q.items ++ actions.mapIdx fun i a => ⟨q.nextId + i, a⟩
        nextId := q.nextId + actions.length } := by
  unfold pushAll
  induction actions using List.reverseRecOn with
  | nil =>
    rw [List.mapIdx_nil, List.append_nil]
    rfl
  | append_singleton actions a ih =>
    rw [List.foldl_append, List.foldl_cons, List.foldl_nil, ih, List.mapIdx_concat]
    unfold push
    simp only [List.append_assoc, List.length_append, List.length_singleton, Nat.add_assoc]

namespace Stage

variable [Scalar R] {art : StageArt} {disk : Disk} {l l' : AssetLibrary R}

/-! ## Loading for directives -/

theorem preloadSprite_grows (l : AssetLibrary R) (disk : Disk) (path : String) :
    l.Grows (preloadSprite l disk path).2 := by
  unfold preloadSprite
  cases hload : l.loadSprite disk path with
  | error e => exact .refl l
  | ok loaded => exact (AssetLibrary.loadSprite_spec hload).1

omit [Scalar R] in
/-- Looking for a sound loads nothing. -/
theorem preloadSound_snd (loaded : Except Error Unit × AssetLibrary R)
    (resolve : AssetLibrary R → Except Error String) : (preloadSound loaded resolve).2 = loaded.2 := by
  unfold preloadSound
  obtain ⟨_ | _, l⟩ := loaded <;> rfl

theorem preload_grows (art : StageArt) (disk : Disk) (l : AssetLibrary R) (d : Directive R) :
    l.Grows (preload art disk l d).2 := by
  unfold preload
  cases d with
  | sprite side path => exact preloadSprite_grows l disk path
  | playSound name => rw [preloadSound_snd]; exact .refl l
  | startBlip voice => rw [preloadSound_snd]; exact .refl l
  | musicStart name => rw [preloadSound_snd]; exact .refl l
  | exclamation kind speaker => rw [preloadSound_snd]; exact preloadSprite_grows l disk _
  | deskSlam side => rw [preloadSound_snd]; exact preloadSprite_grows l disk _
  | _ => exact .refl l

section Preload

variable {first : AssetLibrary R} {d : Directive R} {ds : List (Directive R)} {e : Error}

theorem preloadAll_cons (h : preload art disk l d = (.ok (), first)) (ds : List (Directive R)) :
    preloadAll art disk l (d :: ds) = preloadAll art disk first ds := by
  simp only [preloadAll, h]

theorem preloadAll_cons_of_error (h : preload art disk l d = (.error e, first))
    (ds : List (Directive R)) : preloadAll art disk l (d :: ds) = (.error e, first) := by
  simp only [preloadAll, h]

theorem preloadAll_grows (art : StageArt) (disk : Disk) (l : AssetLibrary R) (ds : List (Directive R)) :
    l.Grows (preloadAll art disk l ds).2 := by
  induction ds generalizing l with
  | nil => exact .refl l
  | cons d r ih =>
    have hgrows := preload_grows art disk l d
    cases hd : preload art disk l d with
    | mk answer first =>
      rw [hd] at hgrows
      cases answer with
      | error e =>
        rw [preloadAll_cons_of_error hd]
        exact hgrows
      | ok _ =>
        rw [preloadAll_cons hd]
        exact hgrows.trans (ih first)

/-- Loading for many directives fails at the first one that fails, with what was loaded until then. -/
theorem preloadAll_eq_error_iff : preloadAll art disk l ds = (.error e, l') ↔
    ∃ before d later loaded, ds = before ++ d :: later ∧
      preloadAll art disk l before = (.ok (), loaded) ∧ preload art disk loaded d = (.error e, l') := by
  constructor
  · intro h
    induction ds generalizing l with
    | nil => cases h
    | cons d r ih =>
      cases hd : preload art disk l d with
      | mk answer first =>
        cases answer with
        | error e' =>
          rw [preloadAll_cons_of_error hd] at h
          exact ⟨[], d, r, l, rfl, rfl, hd.trans h⟩
        | ok _ =>
          rw [preloadAll_cons hd] at h
          obtain ⟨before, c, later, loaded, rfl, hbefore, hc⟩ := ih h
          exact ⟨d :: before, c, later, loaded, rfl, (preloadAll_cons hd _).trans hbefore, hc⟩
  · rintro ⟨before, d, later, loaded, rfl, hbefore, hd⟩
    induction before generalizing l with
    | nil =>
      cases hbefore
      exact preloadAll_cons_of_error hd later
    | cons c r ih =>
      cases hc : preload art disk l c with
      | mk answer first =>
        cases answer with
        | error e' =>
          rw [preloadAll_cons_of_error hc] at hbefore
          cases hbefore
        | ok _ =>
          rw [preloadAll_cons hc] at hbefore
          exact (preloadAll_cons hc _).trans (ih hbefore)

end Preload

/-! ## Lines -/

theorem stocked_grows (s : Stage R) (disk : Disk) (line : ScriptLine R) :
    s.assets.Grows (s.stocked disk line) := by
  unfold stocked
  cases line with
  | say speaker pages => exact preloadAll_grows _ disk _ _
  | setSprite side path => exact preloadSprite_grows _ disk path
  | _ => exact .refl _

/-- What a line may do to a stage. -/
structure WrittenWhole (s : Stage R) (disk : Disk) (line : ScriptLine R) : Prop where
  /-- Sprites may be added to the library; nothing that is there is lost or replaced. -/
  assets : s.assets.Grows (s.write disk line).2.assets
  /-- A line that is not refused queues what it is for, behind all that is there and in order. But for
  the assets nothing else changes. -/
  queued : ∀ actions, s.actions disk line = .ok actions → s.write disk line = (.ok (),
    { s with
      assets := (s.write disk line).2.assets
      queue := { s.queue with
        items := s.queue.items ++ actions.mapIdx fun i a => ⟨s.queue.nextId + i, a⟩
        nextId := s.queue.nextId + actions.length } })
  /-- Of a line that is refused nothing is queued, and but for the assets nothing changes at all. -/
  refused : ∀ e, s.actions disk line = .error e →
    s.write disk line = (.error e, { s with assets := (s.write disk line).2.assets })
  /-- Pages are refused for the first of all their directives that needs what is not there, in whatever
  page and wherever in it that is. -/
  pages_refused : ∀ speaker pages e, line = .say speaker pages → ((s.write disk line).1 = .error e ↔
    ∃ before d later loaded, directives pages = before ++ d :: later ∧
      preloadAll s.config.stage disk s.assets before = (.ok (), loaded) ∧
      (preload s.config.stage disk loaded d).1 = .error e)

/-- **A line of the script is queued as a whole or not at all**, whatever it is, and nothing else
happens to the stage but that assets are loaded. -/
theorem written_whole_or_not (s : Stage R) (disk : Disk) (line : ScriptLine R) :
    s.WrittenWhole disk line where
  assets := by
    rw [s.write_eq disk line]
    exact s.stocked_grows disk line
  queued actions h := by
    rw [s.write_eq disk line, h]
    simp only [Except.map, Except.toOption, Option.getD_some, ActionQueue.pushAll_eq]
  refused e h := by
    rw [s.write_eq disk line, h]
    rfl
  pages_refused := by
    rintro speaker pages e rfl
    have hwrite : (s.write disk (.say speaker pages)).1 =
        (preloadAll s.config.stage disk s.assets (directives pages)).1 := by
      rw [s.write_eq disk, actions]
      cases (preloadAll s.config.stage disk s.assets (directives pages)).1 <;> rfl
    rw [hwrite]
    constructor
    · intro h
      obtain ⟨before, d, later, loaded, hds, hbefore, hd⟩ := preloadAll_eq_error_iff.mp (Prod.ext h rfl)
      exact ⟨before, d, later, loaded, hds, hbefore, congrArg Prod.fst hd⟩
    · rintro ⟨before, d, later, loaded, hds, hbefore, hd⟩
      have hall := preloadAll_eq_error_iff.mpr ⟨before, d, later, loaded, hds, hbefore, Prod.ext hd rfl⟩
      rw [hall]

end Stage

end Cutscene
