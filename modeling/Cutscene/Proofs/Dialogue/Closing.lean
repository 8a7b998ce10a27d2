import Cutscene.Proofs.Dialogue.Bare
import Cutscene.Proofs.Dialogue.Dispatch

/-!
# The step that completes a page

Between steps nothing of a page is due, unless the page has just been loaded. So the step that completes a
page hands out directives only if it is the first one, and then there are no characters to wait for.

Results:
* `Timely`, `Cut.timely_update`: nothing is due after a step.
* `Timely.fired_of_idle`, `load_completed`: what a step hands out that completes a page.
* `speaker_renamed`: of several names the last one stays.
-/

namespace Cutscene.Typewriter

variable {R κ : Type} [Scalar R]

/-- The typewriter is idle, or what it has to come of its page is not due, unless a wait is open. -/
def Timely (i : Typewriter R κ) : Prop :=
  i.active = none ∨ ∃ p token done rest, Cut p token done rest i ∧ Prompt rest i

variable {i j : Typewriter R κ} {p : Page} {token : κ} {done rest : List (Nat × Directive R)}

/-- The name of the speaker has nothing to do with it. -/
theorem Timely.congr (h : i.Timely) (hloaded : j.loaded = i.loaded) (hbare : j.bare = i.bare) :
    j.Timely := by
  rcases h with hidle | ⟨p, token, done, rest, hcut, hprompt⟩
  · refine .inl (loaded_eq_none_iff.mp ?_)
    rw [hloaded, loaded_eq_none_iff, hidle]
  · have hvisible : j.visible = i.visible := congrArg (·.visible) hbare
    have hwait : j.wait = i.wait := congrArg (·.wait) hbare
    have hactive : j.active.map ActivePage.bare = i.active.map ActivePage.bare := congrArg (·.active) hbare
    obtain ⟨speaker, hi⟩ := hcut.active
    unfold loaded at hloaded
    rw [hi] at hactive hloaded
    obtain ⟨⟨page, pending, total, name, back⟩, hj, ha⟩ := Option.map_eq_some_iff.mp hloaded
    rw [hj] at hactive
    cases ha
    cases hactive
    refine .inr ⟨p, token, done, rest, ⟨hcut.stream, ⟨name, hj⟩, ?_, ?_⟩, ?_⟩
    · rw [hvisible]
      exact hcut.reached
    · rw [hvisible]
      exact hcut.visible_le
    · unfold Prompt
      rw [hvisible, hwait]
      exact hprompt

/-- After a step nothing is due. -/
theorem Cut.timely_update (h : Cut p token done rest i) (dt : R) : (i.update dt).typewriter.Timely := by
  obtain ⟨new, -, ⟨rest', hcut, hprompt, -⟩ | ⟨-, -, hidle, -⟩⟩ := h.update dt
  · exact .inr ⟨p, token, done ++ new, rest', hcut, hprompt⟩
  · exact .inl hidle

theorem Timely.update (h : i.Timely) (dt : R) : (i.update dt).typewriter.Timely := by
  rcases h with hidle | ⟨p, token, done, rest, hcut, -⟩
  · rw [update_of_idle hidle]
    exact .inl hidle
  · exact hcut.timely_update dt

/-- A page is completed in a step in which no wait is open, all characters are shown and its time is over. -/
theorem of_completed {a : ActivePage R κ} (hactive : i.active = some a) {dt : R}
    (h : (i.update dt).completed = some token) :
    i.wait = none ∧ a.total ≤ i.visible ∧ i.pace.holdSeconds ≤ i.holdElapsed + dt := by
  simp only [Typewriter.update, hactive] at h
  cases hwait : i.wait with
  | some w =>
    rw [hwait] at h
    simp only [updateWaiting] at h
    split_ifs at h
  | none =>
    rw [hwait] at h
    simp only [Typewriter.dispatchDue, hactive] at h
    split_ifs at h with hopen hall
    · simp only [updateHolding] at h
      split_ifs at h with hhold
      exact ⟨rfl, hall, hhold⟩
    · simp only [updateRevealing] at h
      split_ifs at h

/-- If nothing was due, the step that completes a page hands out nothing. -/
theorem Timely.fired_of_completed (h : i.Timely) {dt : R} (hcompleted : (i.update dt).completed = some token) :
    (i.update dt).fired = [] := by
  rcases h with hidle | ⟨p, back, done, rest, hcut, hprompt⟩
  · rw [update_of_idle hidle]
  · obtain ⟨new, hfired, ⟨-, -, -, hnone⟩ | ⟨hstream, hreached, -, -⟩⟩ := hcut.update dt
    · rw [hnone] at hcompleted
      cases hcompleted
    · obtain ⟨speaker, hactive⟩ := hcut.active
      have hnew : new = [] := by
        refine List.eq_nil_iff_forall_not_mem.mpr fun e he => ?_
        have hrest : rest = new := List.append_cancel_left (hcut.stream.symm.trans hstream)
        exact Nat.not_lt.mpr (hreached e he) (hprompt (of_completed hactive hcompleted).1 e (hrest ▸ he))
      rw [hfired, hnew]
      rfl

/-- A typewriter becomes idle by completing its page. -/
theorem completed_of_idle (h : i.active ≠ none) {dt : R} (hidle : (i.update dt).typewriter.active = none) :
    ∃ back, (i.update dt).completed = some back := by
  rcases i.update_loaded dt with ⟨-, hloaded⟩ | ⟨a, -, hcompleted, -⟩
  · rw [← loaded_eq_none_iff, hloaded, loaded_eq_none_iff] at hidle
    exact absurd hidle h
  · exact ⟨a.token, hcompleted⟩

/-- If nothing was due, a step that leaves the typewriter idle hands out nothing. -/
theorem Timely.fired_of_idle (h : i.Timely) {dt : R} (hidle : (i.update dt).typewriter.active = none) :
    (i.update dt).fired = [] := by
  by_cases hactive : i.active = none
  · rw [update_of_idle hactive]
  · obtain ⟨back, hcompleted⟩ := completed_of_idle hactive hidle
    exact h.fired_of_completed hcompleted

/-- A page that is completed in its first step has no characters, and stays for that step at most. -/
theorem load_completed {dt : R} {speaker : Option String}
    (h : ((i.load p speaker token).update dt).typewriter.active = none) :
    p.total = 0 ∧ i.pace.holdSeconds ≤ 0 + dt := by
  obtain ⟨back, hcompleted⟩ := completed_of_idle (i := i.load p speaker token) (Option.some_ne_none _) h
  obtain ⟨-, hall, hhold⟩ := of_completed rfl hcompleted
  exact ⟨Nat.le_zero.mp hall, hhold⟩

/-! ## Names -/

section Names

omit [Scalar R]

theorem speaker_setSpeaker (h : i.active ≠ none) (name : String) : (i.setSpeaker name).speaker = some name := by
  obtain ⟨a, ha⟩ := Option.ne_none_iff_exists'.mp h
  unfold setSpeaker speaker
  rw [ha]
  rfl

theorem loaded_renamed (i : Typewriter R κ) (names : List String) :
    (names.foldl setSpeaker i).loaded = i.loaded := by
  induction names generalizing i with
  | nil => rfl
  | cons name r ih => rw [List.foldl_cons, ih, loaded_setSpeaker]

/-- Of names that are set one after another the last one stays. -/
theorem speaker_renamed (h : i.active ≠ none) (names : List String) :
    (names.foldl setSpeaker i).speaker = (names.getLast? <|> i.speaker) := by
  induction names using List.reverseRecOn with
  | nil => rfl
  | append_singleton names name _ =>
    have hactive : (names.foldl setSpeaker i).active ≠ none := by
      rwa [ne_eq, ← loaded_eq_none_iff, loaded_renamed, loaded_eq_none_iff]
    rw [List.foldl_append, List.foldl_cons, List.foldl_nil, List.getLast?_concat,
      speaker_setSpeaker hactive]
    rfl

end Names

end Cutscene.Typewriter
