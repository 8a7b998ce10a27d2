import Cutscene.Proofs.Dialogue.Run
import Cutscene.Proofs.Dialogue.Stream

/-!
# Directives are handed out once

A typewriter deals with the directives of a page from front to back. At any time the stream is cut in
two: what has been dealt with stands no further than the cursor, and what is pending comes after it.

On `DialogueInterpreter.dispatch_due`: directive dispatch in SPEC_FULL.md, §4.3 and §9.

Results:
* `dispatch_spec`: one dispatch moves the cut forward to the cursor, or up to a wait.
* `Cut.dispatchDue`, `Cut.reveal`, `Cut.update`: what one step does to the cut.
* `Cut.run`: where the cut is after any run of steps.
* `directives_handed_out_once`: over any run, the directives handed out are the effects of the page in
  order, each once, none before the cursor is there and none late; and the page completes once, when
  all have been handed out.
-/

namespace Cutscene.Typewriter

variable {R κ : Type}

/-- What a dispatch at a cursor does to a stream. It stops early only behind a wait that it opens. -/
theorem dispatch_spec (cursor : Nat) (stream : List (Nat × Directive R)) :
    ∃ done, stream = done ++ (dispatch cursor stream).pending ∧
      (dispatch cursor stream).fired = effects done ∧
      (∀ e ∈ done, e.1 ≤ cursor) ∧
      ((dispatch cursor stream).opened = none →
        ∀ e ∈ (dispatch cursor stream).pending.head?, cursor < e.1) := by
  induction stream with
  | nil => exact ⟨[], rfl, rfl, by simp, by simp [dispatch]⟩
  | cons e r ih =>
    obtain ⟨at', d⟩ := e
    obtain ⟨done, hcut, hfired, hle, hopen⟩ := ih
    by_cases hat : cursor < at'
    · refine ⟨[], ?_, ?_, by simp, ?_⟩
      · simp [dispatch, hat]
      · simp [dispatch, hat]
      · intro _ e he
        simp only [dispatch, if_pos hat, List.head?_cons, Option.mem_some_iff] at he
        exact he ▸ hat
    · have hle' : ∀ e ∈ (at', d) :: done, e.1 ≤ cursor := by
        intro e he
        rcases List.mem_cons.mp he with rfl | he
        · exact Nat.le_of_not_lt hat
        · exact hle e he
      cases d with
      | wait secs =>
        refine ⟨[(at', .wait secs)], ?_, ?_, ?_, ?_⟩
        · simp [dispatch, hat]
        · simp [dispatch, hat, effects_cons, Directive.isEffect]
        · simpa using Nat.le_of_not_lt hat
        · simp [dispatch, hat]
      | _ =>
        refine ⟨(at', _) :: done, ?_, ?_, hle', ?_⟩
        · simp only [dispatch, if_neg hat, List.cons_append]
          rw [← hcut]
        · simp [dispatch, hat, effects_cons, Directive.isEffect, hfired]
        · simpa only [dispatch, if_neg hat] using hopen

/-! ## The cut -/

variable [Scalar R]

/-- A typewriter that shows `p`, has dealt with `done` and has `rest` to come. -/
structure Cut (p : Page) (token : κ) (done rest : List (Nat × Directive R))
    (i : Typewriter R κ) : Prop where
  stream : p.directives = done ++ rest
  active : ∃ speaker, i.active = some ⟨p, rest, p.total, speaker, token⟩
  reached : ∀ e ∈ done, e.1 ≤ i.visible
  visible_le : i.visible ≤ p.total

/-- Unless a wait is open, nothing that is still to come is due. -/
def Prompt (rest : List (Nat × Directive R)) (i : Typewriter R κ) : Prop :=
  i.wait = none → ∀ e ∈ rest, i.visible < e.1

variable {p : Page} {token : κ} {done rest : List (Nat × Directive R)} {i : Typewriter R κ}

theorem cut_load (i : Typewriter R κ) (p : Page) (speaker : Option String) (token : κ) :
    Cut p token [] p.directives (i.load p speaker token) where
  stream := rfl
  active := ⟨speaker, rfl⟩
  reached := by simp
  visible_le := Nat.zero_le _

/-- What has been dealt with stays within reach when the cursor moves on. -/
theorem Cut.advance (h : Cut p token done rest i) {j : Typewriter R κ}
    (hactive : j.active = i.active) (hle : i.visible ≤ j.visible) (htotal : j.visible ≤ p.total) :
    Cut p token done rest j where
  stream := h.stream
  active := by rw [hactive]; exact h.active
  reached e he := Nat.le_trans (h.reached e he) hle
  visible_le := htotal

/-- If nothing is due once the whole page is shown, the stream has come to its end. -/
theorem Cut.rest_eq_nil (h : Cut p token done rest i) (hprompt : Prompt rest i)
    (hwait : i.wait = none) (hall : p.total ≤ i.visible) : rest = [] := by
  apply List.eq_nil_iff_forall_not_mem.mpr
  intro e he
  have hmem : e ∈ p.directives := by rw [h.stream]; exact List.mem_append_right _ he
  have hpos := Page.position_le_total p hmem
  have hlate := hprompt hwait e he
  omega

/-- A dispatch hands out the effects of what it passes, and then nothing is due. -/
theorem Cut.dispatchDue (h : Cut p token done rest i) :
    ∃ new rest', Cut p token (done ++ new) rest' i.dispatchDue.1 ∧
      i.dispatchDue.2 = effects new ∧ Prompt rest' i.dispatchDue.1 ∧
      i.dispatchDue.1.visible = i.visible := by
  obtain ⟨speaker, hactive⟩ := h.active
  obtain ⟨new, hcut, hfired, hle, hopen⟩ := dispatch_spec i.visible rest
  refine ⟨new, (dispatch i.visible rest).pending, ?_, ?_, ?_, ?_⟩
  · constructor
    · rw [List.append_assoc, ← hcut]
      exact h.stream
    · exact ⟨speaker, by simp [Typewriter.dispatchDue, hactive]⟩
    · intro e he
      simp only [Typewriter.dispatchDue, hactive]
      rcases List.mem_append.mp he with he | he
      · exact h.reached e he
      · exact hle e he
    · simpa only [Typewriter.dispatchDue, hactive] using h.visible_le
  · simpa only [Typewriter.dispatchDue, hactive] using hfired
  · intro hwait
    simp only [Typewriter.dispatchDue, hactive] at hwait ⊢
    have hnone : (dispatch i.visible rest).opened = none := by
      cases ho : (dispatch i.visible rest).opened with
      | none => rfl
      | some secs => rw [ho] at hwait; exact absurd hwait (by simp)
    have hasc : (done ++ (new ++ (dispatch i.visible rest).pending)).Pairwise
        fun a b => a.1 ≤ b.1 := by
      rw [← hcut, ← h.stream]
      exact Page.directives_ascending p
    exact forall_lt_of_head (List.pairwise_append.mp (List.pairwise_append.mp hasc).2.1).2.1
      (hopen hnone)
  · simp only [Typewriter.dispatchDue, hactive]

/-- The reveal passes directives as the cursor reaches them, and stops at a wait. -/
theorem Cut.reveal (left : Nat) (h : Cut p token done rest i) (hprompt : Prompt rest i)
    (hleft : i.visible + left ≤ p.total) :
    ∃ new rest', Cut p token (done ++ new) rest' (i.reveal left).1 ∧
      (i.reveal left).2 = effects new ∧ Prompt rest' (i.reveal left).1 := by
  induction left generalizing i done rest with
  | zero => exact ⟨[], rest, by simpa [Typewriter.reveal] using h, rfl, hprompt⟩
  | succ left ih =>
    simp only [Typewriter.reveal]
    split_ifs with htime hwait
    · have hnext : Cut p token done rest
          { i with charTime := i.charTime - i.interval, visible := i.visible + 1 } :=
        h.advance rfl (Nat.le_succ _) (by simp only; omega)
      obtain ⟨new, rest', hcut, hfired, hprompt', -⟩ := hnext.dispatchDue
      exact ⟨new, rest', hcut, hfired, hprompt'⟩
    · have hnext : Cut p token done rest
          { i with charTime := i.charTime - i.interval, visible := i.visible + 1 } :=
        h.advance rfl (Nat.le_succ _) (by simp only; omega)
      obtain ⟨new, rest', hcut, hfired, hprompt', hvisible⟩ := hnext.dispatchDue
      obtain ⟨more, rest'', hcut', hfired', hprompt''⟩ :=
        ih hcut hprompt' (by rw [hvisible]; simp only; omega)
      refine ⟨new ++ more, rest'', ?_, ?_, hprompt''⟩
      · rw [← List.append_assoc]
        exact hcut'
      · rw [effects_append, ← hfired, ← hfired']
    · exact ⟨[], rest, by simpa using h, rfl, hprompt⟩

/-- A step in which a wait is open moves the cut on when it closes the wait. -/
theorem Cut.updateWaiting (h : Cut p token done rest i) (w : WaitWindow R) (dt : R) :
    ∃ new rest', (i.updateWaiting w dt).fired = effects new ∧
      Cut p token (done ++ new) rest' (i.updateWaiting w dt).typewriter ∧
      Prompt rest' (i.updateWaiting w dt).typewriter ∧ (i.updateWaiting w dt).completed = none := by
  simp only [Typewriter.updateWaiting]
  split_ifs
  · refine ⟨[], rest, rfl, ?_, ?_, rfl⟩
    · rw [List.append_nil]
      exact h.advance rfl (Nat.le_refl _) h.visible_le
    · intro hclosed
      exact absurd hclosed (by simp)
  · have hclosed : Cut p token done rest { i with wait := none } :=
      h.advance rfl (Nat.le_refl _) h.visible_le
    obtain ⟨new, rest', hcut, hfired, hprompt, -⟩ := hclosed.dispatchDue
    exact ⟨new, rest', hfired, hcut, hprompt, rfl⟩

/-- A step of the reveal clock moves the cut on to the cursor. -/
theorem Cut.updateRevealing (h : Cut p token done rest i) (hprompt : Prompt rest i)
    (a : ActivePage R κ) (htotal : a.total = p.total) (dt : R) :
    ∃ new rest', (i.updateRevealing a dt).fired = effects new ∧
      Cut p token (done ++ new) rest' (i.updateRevealing a dt).typewriter ∧
      Prompt rest' (i.updateRevealing a dt).typewriter ∧
      (i.updateRevealing a dt).completed = none := by
  have hstart : Cut p token done rest { i with charTime := i.charTime + dt } :=
    h.advance rfl (Nat.le_refl _) h.visible_le
  have hvisible := h.visible_le
  obtain ⟨new, rest', hcut, hfired, hprompt'⟩ :=
    hstart.reveal (a.total - i.visible) hprompt (by simp only; omega)
  refine ⟨new, rest', ?_⟩
  simp only [Typewriter.updateRevealing]
  split_ifs
  · exact ⟨hfired, hcut.advance rfl (Nat.le_refl _) hcut.visible_le, hprompt', rfl⟩
  · exact ⟨hfired, hcut, hprompt', rfl⟩

/-- What a step does to the cut: it moves it on, or it completes a page that is wholly shown. -/
theorem Cut.update (h : Cut p token done rest i) (dt : R) :
    ∃ new, (i.update dt).fired = effects new ∧
      ((∃ rest', Cut p token (done ++ new) rest' (i.update dt).typewriter ∧
          Prompt rest' (i.update dt).typewriter ∧ (i.update dt).completed = none) ∨
        (p.directives = done ++ new ∧ (∀ e ∈ new, e.1 ≤ i.visible) ∧
          (i.update dt).typewriter.active = none ∧ (i.update dt).completed = some token)) := by
  obtain ⟨speaker, hactive⟩ := h.active
  simp only [Typewriter.update, hactive]
  cases hw : i.wait with
  | some w =>
    obtain ⟨new, rest', hfired, hmoved⟩ := h.updateWaiting w dt
    exact ⟨new, hfired, Or.inl ⟨rest', hmoved⟩⟩
  | none =>
    obtain ⟨new, rest', hcut, hfired, hprompt, hvisible⟩ := h.dispatchDue
    simp only
    split_ifs with hopen hall
    · exact ⟨new, hfired, Or.inl ⟨rest', hcut, hprompt, rfl⟩⟩
    · -- nothing is due and the whole page is shown, so the stream has come to its end
      have hnil : rest' = [] := by
        refine hcut.rest_eq_nil hprompt ?_ hall
        cases hwait : i.dispatchDue.1.wait with
        | none => rfl
        | some w => rw [hwait] at hopen; exact absurd rfl hopen
      simp only [updateHolding]
      split_ifs
      · refine ⟨new, by simp [hfired], Or.inr ⟨?_, ?_, rfl, rfl⟩⟩
        · rw [hcut.stream, hnil, List.append_nil]
        · intro e he
          rw [← hvisible]
          exact hcut.reached e (List.mem_append_right _ he)
      · refine ⟨new, by simp [hfired], Or.inl ⟨rest', ?_, ?_, rfl⟩⟩
        · exact hcut.advance rfl (Nat.le_refl _) hcut.visible_le
        · exact hprompt
    · obtain ⟨more, rest'', hfired', hmoved⟩ :=
        hcut.updateRevealing hprompt ⟨p, rest, p.total, speaker, token⟩ rfl dt
      refine ⟨new ++ more, ?_, Or.inl ⟨rest'', ?_⟩⟩
      · rw [effects_append, hfired]
        exact congrArg (effects new ++ ·) hfired'
      · rw [← List.append_assoc]
        exact hmoved

/-! ## Runs -/

/-- Where the cut is after any run: somewhere in the stream, or the page has completed. -/
theorem Cut.run (i : Typewriter R κ) (p : Page) (speaker : Option String) (token : κ)
    (dts : List R) :
    (∃ done rest, Cut p token done rest ((i.load p speaker token).after dts) ∧
        (i.load p speaker token).handedOut dts = effects done ∧
        (i.load p speaker token).completions dts = []) ∨
      (((i.load p speaker token).after dts).active = none ∧
        (i.load p speaker token).handedOut dts = effects p.directives ∧
        (i.load p speaker token).completions dts = [token]) := by
  induction dts using List.reverseRecOn with
  | nil => exact Or.inl ⟨[], p.directives, cut_load i p speaker token, rfl, rfl⟩
  | append_singleton dts dt ih =>
    rw [after_snoc, handedOut_snoc, completions_snoc]
    rcases ih with ⟨done, rest, hcut, hhanded, hcompleted⟩ | ⟨hidle, hhanded, hcompleted⟩
    · obtain ⟨new, hfired, ⟨rest', hcut', -, hnone⟩ | ⟨hstream, -, hidle, hsome⟩⟩ := hcut.update dt
      · refine Or.inl ⟨done ++ new, rest', hcut', ?_, ?_⟩
        · rw [hhanded, hfired, effects_append]
        · rw [hcompleted, hnone]
          rfl
      · refine Or.inr ⟨hidle, ?_, ?_⟩
        · rw [hhanded, hfired, hstream, effects_append]
        · rw [hcompleted, hsome]
          rfl
    · rw [update_of_idle hidle]
      exact Or.inr ⟨hidle, by rw [hhanded, List.append_nil], by rw [hcompleted]; rfl⟩

/--
**Directives are handed out exactly once.** Take any typewriter, any page loaded into it and any run
of steps, the last of them `dt`. What the run has handed out is the front of the effects of the page.
What the last step hands out comes right behind what was handed out before, and the cursor has reached
it in that step; unless the typewriter is idle or a wait is open, what is left lies beyond the cursor.
When the typewriter is idle everything has been handed out and the token has come back once, in the
step that made the typewriter idle.
-/
theorem directives_handed_out_once (i : Typewriter R κ) (p : Page) (speaker : Option String)
    (token : κ) (dts : List R) (dt : R) :
    let start := i.load p speaker token
    let was := start.after dts
    let step := was.update dt
    let now := step.typewriter
    (start.handedOut (dts ++ [dt]) <+: effects p.directives) ∧
      (∃ done new rest, p.directives = done ++ new ++ rest ∧
        start.handedOut dts = effects done ∧ step.fired = effects new ∧
        (∀ e ∈ new, e.1 ≤ max was.visible now.visible) ∧
        (now.phase = .idle ∨ now.phase = .paused ∨ ∀ e ∈ rest, now.visible < e.1)) ∧
      (now.phase = .idle →
        start.handedOut (dts ++ [dt]) = effects p.directives ∧
          start.completions (dts ++ [dt]) = [token]) ∧
      (now.phase ≠ .idle → start.completions (dts ++ [dt]) = []) ∧
      step.completed = if was.phase ≠ .idle ∧ now.phase = .idle then some token else none := by
  simp only [handedOut_snoc, completions_snoc, phase_eq_idle_iff, ne_eq]
  rcases Cut.run i p speaker token dts with
    ⟨done, rest, hcut, hhanded, hcompleted⟩ | ⟨hidle, hhanded, hcompleted⟩
  · obtain ⟨speaker', hactive⟩ := hcut.active
    obtain ⟨new, hfired, ⟨rest', hcut', hprompt, hnone⟩ | ⟨hstream, hreached, hidle, hsome⟩⟩ :=
      hcut.update dt
    · obtain ⟨speaker'', hactive'⟩ := hcut'.active
      refine ⟨?_, ⟨done, new, rest', hcut'.stream, hhanded, hfired, ?_, ?_⟩, ?_, ?_, ?_⟩
      · rw [hhanded, hfired, hcut'.stream, ← effects_append, effects_append _ rest']
        exact List.prefix_append _ _
      · intro e he
        exact Nat.le_trans (hcut'.reached e (List.mem_append_right _ he)) (Nat.le_max_right _ _)
      · cases hwait : (((i.load p speaker token).after dts).update dt).typewriter.wait with
        | none => exact Or.inr (Or.inr (hprompt hwait))
        | some w => exact Or.inr (Or.inl (phase_eq_paused_iff.mpr (by simp [hactive', hwait])))
      · intro hidle
        rw [hidle] at hactive'
        exact absurd hactive' (by simp)
      · intro _
        rw [hcompleted, hnone]
        rfl
      · rw [hnone, if_neg (by simp [hactive'])]
    · have hall : (i.load p speaker token).handedOut dts ++
          (((i.load p speaker token).after dts).update dt).fired = effects p.directives := by
        rw [hhanded, hfired, hstream, effects_append]
      refine ⟨hall ▸ List.prefix_refl _, ⟨done, new, [], ?_, hhanded, hfired, ?_, Or.inl hidle⟩,
        ?_, ?_, ?_⟩
      · rw [List.append_nil]
        exact hstream
      · intro e he
        exact Nat.le_trans (hreached e he) (Nat.le_max_left _ _)
      · intro _
        refine ⟨hall, ?_⟩
        rw [hcompleted, hsome]
        rfl
      · intro hbusy
        exact absurd hidle hbusy
      · rw [hsome, if_pos (by simp [hactive, hidle])]
  · rw [update_of_idle hidle]
    rw [Option.toList_none, List.append_nil, List.append_nil, hhanded, hcompleted]
    refine ⟨List.prefix_refl _, ⟨p.directives, [], [], ?_, rfl, rfl, ?_, Or.inl hidle⟩,
      fun _ => ⟨rfl, rfl⟩, fun hbusy => absurd hidle hbusy, ?_⟩
    · simp
    · simp
    · rw [if_neg (by simp [hidle])]

/-- Equal directives side by side are both handed out; what stands behind a wait follows when it closes. -/
example :
    let page : Page := ⟨[.text ⟨"a", []⟩, .call ⟨"pan", ["left"]⟩, .call ⟨"pan", ["left"]⟩,
      .call ⟨"wait", ["1"]⟩, .call ⟨"showarrow", []⟩]⟩
    let start : Typewriter Rat Unit := load ⟨⟨1, 1⟩, 1, none, 0, 0, none, 0⟩ page none ()
    (start.updates [1, 1, 1]).map (fun u => (u.fired, u.completed)) =
      [([.pan .left, .pan .left], none), ([.showArrow], none), ([], some ())] := by
  decide +kernel

end Cutscene.Typewriter
