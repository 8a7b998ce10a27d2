import Mathlib.Data.List.Basic
import Mathlib.Data.List.Induction
import Cutscene.Dialogue.Typewriter

/-!
# Runs of the typewriter

A run is a list of steps, each of any duration. `updates` is what the steps give one by one, and
`after`, `handedOut` and `completions` are the views of it that the laws of the typewriter speak of.
Nothing here or in those laws asks the numbers of `Scalar` to obey any law: they hold of doubles as
well as of exact numbers.

Results:
* `after_snoc`, `handedOut_snoc`, `completions_snoc`: a run grows at its end by one `update`.
* `loaded_dispatchDue`, `loaded_reveal`, `update_loaded`: a step keeps the page and its token, or it
  hands the token back and leaves the typewriter idle.
-/

namespace Cutscene.Typewriter

variable {R κ : Type}

theorem phase_eq_idle_iff {i : Typewriter R κ} : i.phase = .idle ↔ i.active = none := by
  unfold phase
  cases i.active with
  | none => simp
  | some a =>
    simp only [reduceCtorEq, iff_false]
    split_ifs <;> simp

theorem phase_eq_paused_iff {i : Typewriter R κ} :
    i.phase = .paused ↔ i.active.isSome ∧ i.wait.isSome := by
  unfold phase
  cases i.active with
  | none => simp
  | some a =>
    cases i.wait with
    | some w => simp
    | none =>
      simp only [Option.isSome_none, Bool.false_eq_true, if_false, and_false, iff_false]
      split_ifs <;> simp

/-- The page that is being shown and the token it was loaded with. -/
def loaded (i : Typewriter R κ) : Option (Page × κ) := i.active.map fun a => (a.page, a.token)

variable [Scalar R]

/-- What the steps give, one by one. -/
def updates (i : Typewriter R κ) : List R → List (Update R κ)
  | [] => []
  | dt :: r => i.update dt :: updates (i.update dt).typewriter r

/-- The typewriter after some steps. -/
def after (i : Typewriter R κ) (dts : List R) : Typewriter R κ :=
  dts.foldl (fun i dt => (i.update dt).typewriter) i

/-- All directives that the steps hand out, in order. -/
def handedOut (i : Typewriter R κ) (dts : List R) : List (Directive R) :=
  (i.updates dts).flatMap Update.fired

/-- The tokens that the steps hand back, in order. -/
def completions (i : Typewriter R κ) (dts : List R) : List κ :=
  (i.updates dts).filterMap Update.completed

theorem updates_snoc (i : Typewriter R κ) (dts : List R) (dt : R) :
    i.updates (dts ++ [dt]) = i.updates dts ++ [(i.after dts).update dt] := by
  induction dts generalizing i with
  | nil => rfl
  | cons d r ih =>
    simp only [List.cons_append, updates, ih]
    rfl

@[simp] theorem after_nil (i : Typewriter R κ) : i.after [] = i := rfl

@[simp] theorem handedOut_nil (i : Typewriter R κ) : i.handedOut [] = [] := rfl

@[simp] theorem completions_nil (i : Typewriter R κ) : i.completions [] = [] := rfl

theorem after_snoc (i : Typewriter R κ) (dts : List R) (dt : R) :
    i.after (dts ++ [dt]) = ((i.after dts).update dt).typewriter := by
  unfold after
  rw [List.foldl_append]
  rfl

theorem handedOut_snoc (i : Typewriter R κ) (dts : List R) (dt : R) :
    i.handedOut (dts ++ [dt]) = i.handedOut dts ++ ((i.after dts).update dt).fired := by
  unfold handedOut
  rw [updates_snoc, List.flatMap_append, List.flatMap_singleton]

theorem completions_snoc (i : Typewriter R κ) (dts : List R) (dt : R) :
    i.completions (dts ++ [dt]) =
      i.completions dts ++ ((i.after dts).update dt).completed.toList := by
  unfold completions
  rw [updates_snoc, List.filterMap_append]
  cases h : ((i.after dts).update dt).completed <;> simp [h]

/-- Idle typewriters stay as they are. -/
theorem update_of_idle {i : Typewriter R κ} (hidle : i.active = none) (dt : R) :
    i.update dt = ⟨i, [], none⟩ := by
  unfold update
  rw [hidle]

/-! ## The page that is loaded -/

theorem loaded_dispatchDue (i : Typewriter R κ) : i.dispatchDue.1.loaded = i.loaded := by
  unfold dispatchDue
  cases h : i.active <;> simp [loaded, h]

theorem loaded_reveal (left : Nat) (i : Typewriter R κ) : (i.reveal left).1.loaded = i.loaded := by
  induction left generalizing i with
  | zero => rfl
  | succ left ih =>
    simp only [reveal]
    split_ifs with hd hw
    · exact loaded_dispatchDue _
    · exact (ih _).trans (loaded_dispatchDue _)
    · rfl

/-- A step keeps the page, or hands back its token and leaves the typewriter idle. -/
theorem update_loaded (i : Typewriter R κ) (dt : R) :
    ((i.update dt).completed = none ∧ (i.update dt).typewriter.loaded = i.loaded) ∨
      ∃ a, i.active = some a ∧ (i.update dt).completed = some a.token ∧
        (i.update dt).typewriter.active = none := by
  unfold update
  cases ha : i.active with
  | none => exact Or.inl ⟨rfl, rfl⟩
  | some a =>
    cases hw : i.wait with
    | some w =>
      refine Or.inl ?_
      simp only [updateWaiting]
      split_ifs
      · exact ⟨rfl, rfl⟩
      · exact ⟨rfl, loaded_dispatchDue _⟩
    | none =>
      have hd := loaded_dispatchDue i
      simp only
      split_ifs with hopen hall
      · exact Or.inl ⟨rfl, hd⟩
      · simp only [updateHolding]
        split_ifs
        · exact Or.inr ⟨a, rfl, rfl, rfl⟩
        · exact Or.inl ⟨rfl, hd⟩
      · refine Or.inl ?_
        simp only [updateRevealing]
        split_ifs
        · exact ⟨rfl, (loaded_reveal _ _).trans hd⟩
        · exact ⟨rfl, (loaded_reveal _ _).trans hd⟩

end Cutscene.Typewriter
