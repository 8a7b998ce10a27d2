import Mathlib
import Cutscene.Proofs.Stage.Outlook

/-!
# What is ahead of the queue

Each action in the queue has a number of steps ahead of it, which it takes from its turn on. `Due` lists
these numbers. A step that goes well spends one of the first number, and the action is taken off when
nothing is left of it: no step is lost or spent twice when one action gives way to the next.

Results:
* `Steady.due_step`: a step spends one.
* `Steady.takes_of_settlesIn`: the number of an action is the number of steps in which a stage with
  nothing else to do settles.
* `length_le_add_ahead_iff`: what is left of a list of numbers, after some have been spent.
-/

namespace Cutscene

/-! ## Spending -/

/-- What is left of some numbers when one has been spent. -/
def spend : List Nat → List Nat
  | [] => []
  | c :: cs => if c ≤ 1 then cs else (c - 1) :: cs

/-- What is left of some numbers when `k` have been spent. -/
def ahead : List Nat → (k : Nat) → List Nat
  | [], _ => []
  | c :: cs, k => if k < c then (c - k) :: cs else ahead cs (k - c)

theorem spend_cons (c : Nat) (cs : List Nat) :
    spend (c :: cs) = if c ≤ 1 then cs else (c - 1) :: cs := rfl

theorem ahead_zero {costs : List Nat} (h : ∀ c ∈ costs, 0 < c) : ahead costs 0 = costs := by
  cases costs with
  | nil => rfl
  | cons c cs =>
    unfold ahead
    rw [if_pos (h c List.mem_cons_self), Nat.sub_zero]

theorem spend_ahead {costs : List Nat} (h : ∀ c ∈ costs, 0 < c) (k : Nat) :
    spend (ahead costs k) = ahead costs (k + 1) := by
  induction costs generalizing k with
  | nil => rfl
  | cons c cs ih =>
    have hcs : ∀ c ∈ cs, 0 < c := fun c hc => h c (List.mem_cons_of_mem _ hc)
    unfold ahead
    by_cases hk : k < c
    · rw [if_pos hk, spend_cons]
      by_cases hlast : c - k ≤ 1
      · have hdone : k + 1 - c = 0 := by omega
        rw [if_pos hlast, if_neg (by omega), hdone, ahead_zero hcs]
      · rw [if_neg hlast, if_pos (by omega), Nat.sub_sub]
    · rw [if_neg hk, if_neg (by omega), ih hcs, Nat.sub_add_comm (by omega)]

theorem ahead_eq_nil_iff {costs : List Nat} {k : Nat} : ahead costs k = [] ↔ costs.sum ≤ k := by
  induction costs generalizing k with
  | nil => simp [ahead]
  | cons c cs ih =>
    unfold ahead
    rw [List.sum_cons]
    by_cases hk : k < c
    · rw [if_pos hk]
      simp only [reduceCtorEq, false_iff]
      omega
    · rw [if_neg hk, ih]
      omega

theorem length_ahead_le (costs : List Nat) (k : Nat) : (ahead costs k).length ≤ costs.length := by
  induction costs generalizing k with
  | nil => exact Nat.le_refl _
  | cons c cs ih =>
    unfold ahead
    split_ifs
    · exact Nat.le_refl _
    · exact Nat.le_succ_of_le (ih _)

/-- A number is among those ahead until it and all before it have been spent. -/
theorem length_le_add_ahead_iff {costs : List Nat} {i : Nat} (hi : i < costs.length) (k : Nat) :
    costs.length ≤ i + (ahead costs k).length ↔ k < (costs.take (i + 1)).sum := by
  induction costs generalizing i k with
  | nil => exact absurd hi (Nat.not_lt_zero _)
  | cons c cs ih =>
    have hle := length_ahead_le cs (k - c)
    unfold ahead
    rw [List.take_succ_cons, List.sum_cons, List.length_cons]
    by_cases hk : k < c
    · rw [if_pos hk, List.length_cons]
      omega
    · rw [if_neg hk]
      cases i with
      | zero =>
        rw [List.take_zero, List.sum_nil]
        omega
      | succ i =>
        have hrest := ih (Nat.lt_of_succ_lt_succ hi) (k - c)
        omega

namespace Stage

variable {R : Type} [Scalar R] {s t : Stage R}

/-- How many steps each action in the queue is going to take. -/
def Due (s : Stage R) (costs : List Nat) : Prop :=
  List.Forall₂ (fun q c => (s.outlook q).Takes s.config.rate.frameSeconds c) s.queue.items costs

theorem Due.pos {costs : List Nat} (h : s.Due costs) : ∀ c ∈ costs, 0 < c := by
  unfold Due at h
  generalize s.queue.items = items at h
  induction h with
  | nil => exact fun c hc => absurd hc List.not_mem_nil
  | @cons q c _ cs hq _ ih =>
    intro c' hc'
    rcases List.mem_cons.mp hc' with rfl | hc'
    · rw [Nat.pos_iff_ne_zero]
      rintro rfl
      exact hq
    · exact ih c' hc'

/-- The outlook of what is behind the head does not change when the head has its turn. -/
theorem Steady.outlook_behind (h : s.Steady) {q : Queued R} {rest : List (Queued R)}
    (hitems : s.queue.items = q :: rest) (hreset : t.dialogue.reset = s.dialogue.reset)
    (hstarted : t.queue.started = some q.id) : ∀ q' ∈ rest, t.outlook q' = s.outlook q' := by
  intro q' hq'
  have hbehind : q.id ≠ q'.id := by
    intro hid
    apply h.linked.ordered.not_mem_tail hitems
    rw [hid]
    exact List.mem_map_of_mem hq'
  have hold : s.queue.started ≠ some q'.id := by
    intro hs
    have hlt := (h.linked.ordered.started_le _ hs).1
    have hhead := h.linked.ordered.head_id hitems
    have hids := h.linked.ordered.ids_eq
    unfold ActionQueue.ids at hids
    rw [hitems, List.map_cons, eq_comm, List.range'_eq_cons_iff] at hids
    have hmem : q'.id ∈ rest.map Queued.id := List.mem_map_of_mem hq'
    rw [hids.2.2, List.mem_range'_1] at hmem
    lia
  have hnew : t.queue.started ≠ some q'.id := by
    rw [hstarted]
    exact fun hid => hbehind (Option.some.inj hid)
  unfold outlook
  rw [if_neg hold, if_neg hnew, hreset]

/-- **A step that goes well spends one**, of what the head has ahead of it. -/
theorem Steady.due_step (h : s.Steady) {disk : Disk} (hok : s.step disk = (.ok (), t))
    {costs : List Nat} (hdue : s.Due costs) : t.Due (spend costs) := by
  obtain ⟨-, hconfig, hreset⟩ := h.step hok
  unfold Due at hdue ⊢
  rw [hconfig]
  cases hitems : s.queue.items with
  | nil =>
    rw [hitems, List.forall₂_nil_left_iff] at hdue
    rw [h.step_of_nil hok hitems, hdue]
    exact List.Forall₂.nil
  | cons q rest =>
    rw [hitems] at hdue
    obtain ⟨hstarted, hhead⟩ := h.step_of_cons hok hitems
    have hbehind := h.outlook_behind hitems hreset hstarted
    cases hdue with
    | @cons _ c _ cs hq hrest =>
      have hrest' :
          List.Forall₂ (fun q c => (t.outlook q).Takes s.config.rate.frameSeconds c) rest cs := by
        refine ((List.forall₂_and_left rest cs).mpr ⟨hbehind, hrest⟩).imp ?_
        rintro q' c' ⟨heq, htakes⟩
        rw [heq]
        exact htakes
      cases c with
      | zero => exact absurd hq id
      | succ n =>
        unfold Outlook.Takes at hq
        cases hstep : (s.outlook q).step s.config.rate.frameSeconds with
        | none =>
          rw [hstep] at hq hhead
          simp only at hq hhead
          rw [hhead, hq, spend_cons, if_pos (Nat.le_refl _)]
          exact hrest'
        | some o =>
          rw [hstep] at hq hhead
          obtain ⟨a, hitems', ho⟩ := hhead
          have hmore : ¬n + 1 ≤ 1 := by
            intro hlast
            obtain rfl : n = 0 := by omega
            exact hq
          rw [hitems', spend_cons, if_neg hmore, Nat.add_sub_cancel]
          refine List.Forall₂.cons ?_ hrest'
          rw [ho]
          exact hq

/-- A steady stage is settled when nothing is queued. -/
theorem Steady.isSettled_iff (h : s.Steady) : s.isSettled ↔ s.queue.items = [] := by
  unfold isSettled ActionQueue.isEmpty Typewriter.isIdle
  rw [Bool.and_eq_true, List.isEmpty_iff, Option.isNone_iff_eq_none]
  constructor
  · exact fun hs => hs.1
  · intro hitems
    refine ⟨hitems, ?_⟩
    rw [← Typewriter.loaded_eq_none_iff, h.inStep.loaded, ActionQueue.shown_of_nil hitems]

/-! ## The number of an action -/

/-- The stage settles after this many steps and not before, and no step fails until then. -/
def settlesIn (disk : Disk) : Nat → Stage R → Bool
  | 0, s => s.isSettled
  | n + 1, s =>
    !s.isSettled && match s.step disk with
      | (.ok (), t) => settlesIn disk n t
      | (.error _, _) => false

/-- With one action in the queue, that is the number of steps that the action takes. -/
theorem Steady.takes_of_settlesIn (h : s.Steady) {disk : Disk} {n : Nat}
    (hsettles : s.settlesIn disk n) {q : Queued R} (hitems : s.queue.items = [q]) :
    (s.outlook q).Takes s.config.rate.frameSeconds n := by
  induction n generalizing s q with
  | zero =>
    rw [settlesIn, h.isSettled_iff, hitems] at hsettles
    cases hsettles
  | succ n ih =>
    unfold settlesIn at hsettles
    cases hok : s.step disk with
    | mk r t =>
      rw [hok, Bool.and_eq_true] at hsettles
      cases r with
      | error e => cases hsettles.2
      | ok _ =>
        have ht := h.step hok
        have hhead := (h.step_of_cons hok hitems).2
        have hsettles' : t.settlesIn disk n := hsettles.2
        unfold Outlook.Takes
        cases hstep : (s.outlook q).step s.config.rate.frameSeconds with
        | none =>
          rw [hstep] at hhead
          cases n with
          | zero => rfl
          | succ n =>
            unfold settlesIn at hsettles'
            rw [ht.1.isSettled_iff.mpr hhead] at hsettles'
            cases hsettles'
        | some o =>
          rw [hstep] at hhead
          obtain ⟨a, hitems', ho⟩ := hhead
          have htakes := ih ht.1 hsettles' hitems'
          rw [ho, ht.2.1] at htakes
          exact htakes

end Stage

end Cutscene
