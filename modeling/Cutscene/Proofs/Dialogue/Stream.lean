import Mathlib.Data.List.Basic
import Cutscene.Dialogue.Directive

/-!
# The stream of directives of a page

The directives of a page stand at positions: the numbers of characters before them.

Results:
* `directives_ascending`: the positions never decrease along the stream.
* `position_le_total`: no position lies behind the last character.
* `effects` is the part of a stream that a typewriter hands out.
-/

namespace Cutscene

/-- The directives of a stream that are handed out: all but waits and unknown ones. -/
def effects {R : Type} (stream : List (Nat × Directive R)) : List (Directive R) :=
  (stream.map Prod.snd).filter Directive.isEffect

@[simp] theorem effects_nil {R : Type} : effects ([] : List (Nat × Directive R)) = [] := rfl

theorem effects_append {R : Type} (s t : List (Nat × Directive R)) :
    effects (s ++ t) = effects s ++ effects t := by
  unfold effects
  rw [List.map_append, List.filter_append]

theorem effects_cons {R : Type} (at' : Nat) (d : Directive R) (s : List (Nat × Directive R)) :
    effects ((at', d) :: s) = if d.isEffect then d :: effects s else effects s := by
  unfold effects
  rw [List.map_cons, List.filter_cons]

namespace Page

/-- Calls stand behind the characters before the stream and not behind those of the stream. -/
theorem position_callsFrom (commands : List Command) (n : Nat) :
    ∀ e ∈ callsFrom n commands,
      n ≤ e.1 ∧ e.1 ≤ n + commands.foldr (fun c n => c.steps + n) 0 := by
  induction commands generalizing n with
  | nil => intro e he; exact absurd he List.not_mem_nil
  | cons c r ih =>
    intro e he
    cases c with
    | call c =>
      rcases List.mem_cons.mp he with rfl | he
      · exact ⟨Nat.le_refl _, Nat.le_add_right _ _⟩
      · have := ih n e he
        have no_steps : (Command.call c).steps = 0 := rfl
        simp only [List.foldr_cons, no_steps]
        omega
    | text c =>
      have := ih (n + (Command.text c).steps) e he
      simp only [List.foldr_cons]
      omega
    | lineBreak =>
      have := ih (n + Command.lineBreak.steps) e he
      simp only [List.foldr_cons]
      omega

theorem callsFrom_ascending (commands : List Command) (n : Nat) :
    (callsFrom n commands).Pairwise fun a b => a.1 ≤ b.1 := by
  induction commands generalizing n with
  | nil => exact List.Pairwise.nil
  | cons c r ih =>
    cases c with
    | call c =>
      exact List.pairwise_cons.mpr ⟨fun e he => (position_callsFrom r n e he).1, ih n⟩
    | text c => exact ih _
    | lineBreak => exact ih _

end Page

/-- Positions ascend, so a head that is not due stands for all that is to come. -/
theorem forall_lt_of_head {R : Type} {rest : List (Nat × Directive R)} {cursor : Nat}
    (hasc : rest.Pairwise fun a b => a.1 ≤ b.1)
    (hhead : ∀ e ∈ rest.head?, cursor < e.1) : ∀ e ∈ rest, cursor < e.1 := by
  cases rest with
  | nil => intro e he; exact absurd he List.not_mem_nil
  | cons first later =>
    have hfirst : cursor < first.1 := hhead first rfl
    intro e he
    rcases List.mem_cons.mp he with rfl | he
    · exact hfirst
    · exact Nat.lt_of_lt_of_le hfirst ((List.pairwise_cons.mp hasc).1 e he)

namespace Page

variable {R : Type} [Scalar R]

/-- The positions of the directives of a page never decrease. -/
theorem directives_ascending (p : Page) :
    (p.directives (R := R)).Pairwise fun a b => a.1 ≤ b.1 :=
  List.pairwise_map.mpr (callsFrom_ascending p.commands 0)

/-- No directive of a page stands behind its last character. -/
theorem position_le_total (p : Page) {e : Nat × Directive R} (he : e ∈ p.directives) :
    e.1 ≤ p.total := by
  obtain ⟨c, hc, rfl⟩ := List.mem_map.mp he
  have := (position_callsFrom p.commands 0 c hc).2
  rwa [Nat.zero_add] at this

end Page

end Cutscene
