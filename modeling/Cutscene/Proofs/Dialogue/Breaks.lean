import Mathlib.Data.List.DropRight
import Cutscene.Proofs.Dialogue.Shown

/-!
# Line breaks that show

As long as a page has characters to reveal, a line break shows only once text behind it does. A count of
characters larger than the page has is never spent, so the walk for the lines that show goes on to the
end of the page, and the line breaks behind the last character show as well.

On `DialoguePage.visible` (SPEC_FULL.md, §B.10).

Results:
* `Page.length_linesFrom_of_cut`: the lines that show up to a character within a command.
* `Page.linesFrom_behind`: the lines that show for counts that are not spent.
* `breaks_follow_text`: how many lines every count of characters shows.
* `break_behind_shows`: a line break at the end of a page shows without text behind it.
-/

namespace Cutscene

@[simp] theorem Command.steps_text (c : Chunk) : (Command.text c).steps = c.text.length := rfl

@[simp] theorem Command.steps_lineBreak : Command.lineBreak.steps = 0 := rfl

@[simp] theorem Command.steps_call (c : Call) : (Command.call c).steps = 0 := rfl

namespace Page

/-! ## The command that holds a character -/

/-- The command at a place holds the character of a number. Characters are counted from one. -/
structure Holds (p : Page) (place k : Nat) : Prop where
  before : (Page.mk (p.commands.take place)).total < k
  within : k ≤ (Page.mk (p.commands.take (place + 1))).total

theorem total_cons (c : Command) (r : List Command) :
    (Page.mk (c :: r)).total = c.steps + (Page.mk r).total := rfl

theorem total_append (a b : List Command) :
    (Page.mk (a ++ b)).total = (Page.mk a).total + (Page.mk b).total := by
  induction a with
  | nil => exact (Nat.zero_add _).symm
  | cons c r ih => rw [List.cons_append, total_cons, ih, total_cons, Nat.add_assoc]

theorem total_take_le {i j : Nat} (h : i ≤ j) (commands : List Command) :
    (Page.mk (commands.take i)).total ≤ (Page.mk (commands.take j)).total := by
  obtain ⟨r, hr⟩ := List.take_prefix_take_left (l := commands) h
  rw [← hr, total_append]
  exact Nat.le_add_right _ _

theorem Holds.unique {p : Page} {i j k : Nat} (hi : p.Holds i k) (hj : p.Holds j k) : i = j := by
  by_contra hne
  rcases Nat.lt_or_gt_of_ne hne with hlt | hlt
  · have hle := total_take_le (Nat.succ_le_of_lt hlt) p.commands
    exact Nat.not_lt.mpr (hi.within.trans hle) hj.before
  · have hle := total_take_le (Nat.succ_le_of_lt hlt) p.commands
    exact Nat.not_lt.mpr (hj.within.trans hle) hi.before

/-- Every character of a page is held by a command. -/
theorem exists_holds {p : Page} {k : Nat} (hpos : 0 < k) (hle : k ≤ p.total) : ∃ place, p.Holds place k := by
  obtain ⟨commands⟩ := p
  induction commands generalizing k with
  | nil => exact absurd hpos (Nat.not_lt.mpr hle)
  | cons c r ih =>
    by_cases hc : k ≤ c.steps
    · exact ⟨0, ⟨hpos, hc⟩⟩
    · rw [total_cons] at hle
      obtain ⟨place, hbefore, hwithin⟩ := ih (k := k - c.steps) (by omega) (by omega)
      refine ⟨place + 1, ⟨?_, ?_⟩⟩
      · simp only [List.take_succ_cons, total_cons] at hbefore ⊢
        omega
      · simp only [List.take_succ_cons, total_cons] at hwithin ⊢
        omega

/-- The stream is cut in two at the command that holds a character. -/
theorem Holds.cut {p : Page} {place k : Nat} (h : p.Holds place k) : ∃ c after,
    p.commands = p.commands.take place ++ c :: after ∧ (Page.mk (p.commands.take place)).total < k ∧
      k ≤ (Page.mk (p.commands.take place)).total + c.steps := by
  have hplace : place < p.commands.length := by
    by_contra hlarge
    have hsame : p.commands.take (place + 1) = p.commands.take place := by
      rw [List.take_of_length_le (by omega), List.take_of_length_le (by omega)]
    exact Nat.not_lt.mpr (hsame ▸ h.within) h.before
  refine ⟨p.commands[place], p.commands.drop (place + 1), ?_, h.before, ?_⟩
  · rw [← List.drop_eq_getElem_cons hplace, List.take_append_drop]
  · have hwithin := h.within
    rwa [List.take_succ_eq_append_getElem hplace, total_append] at hwithin

/-! ## Lines -/

theorem length_consChunk (c : Chunk) {lines : List (List Chunk)} (h : lines ≠ []) :
    (consChunk c lines).length = lines.length := by
  cases lines with
  | nil => exact absurd rfl h
  | cons line r => rfl

theorem consChunk_append (c : Chunk) {lines : List (List Chunk)} (h : lines ≠ [])
    (more : List (List Chunk)) : consChunk c (lines ++ more) = consChunk c lines ++ more := by
  cases lines with
  | nil => exact absurd rfl h
  | cons line r => rfl

/-- Up to a character within a command, the line breaks before that command show, and no others. -/
theorem length_linesFrom_of_cut {k : Nat} (before : List Command) {c : Command} (after : List Command)
    (hbefore : (Page.mk before).total < k) (hwithin : k ≤ (Page.mk before).total + c.steps) :
    (linesFrom k (before ++ c :: after)).length = 1 + before.count .lineBreak := by
  induction before generalizing k with
  | nil =>
    have hzero : (Page.mk []).total = 0 := rfl
    obtain ⟨k, rfl⟩ := Nat.exists_eq_add_one_of_ne_zero (Nat.ne_of_gt hbefore)
    rw [List.nil_append, linesFrom_succ]
    cases c with
    | text c =>
      have hlength : k + 1 ≤ c.text.length := by
        rwa [hzero, Nat.zero_add, Command.steps_text] at hwithin
      have hsome : c.text ≠ "" := by
        rintro hempty
        rw [hempty] at hlength
        exact absurd hlength (Nat.not_succ_le_zero k)
      simp only [hsome, if_false]
      rw [length_consChunk _ (linesFrom_ne_nil _ _), Nat.sub_eq_zero_of_le hlength, linesFrom_zero]
      rfl
    | _ => exact absurd hwithin (by simp [hzero, Command.steps])
  | cons d r ih =>
    rw [total_cons] at hbefore hwithin
    obtain ⟨k, rfl⟩ := Nat.exists_eq_add_one_of_ne_zero (Nat.ne_of_gt (Nat.zero_lt_of_lt hbefore))
    rw [List.cons_append, linesFrom_succ]
    cases d with
    | text d =>
      rw [Command.steps_text] at hbefore hwithin
      have hrest := ih (k := k + 1 - d.text.length) (by omega) (by omega)
      rw [List.count_cons_of_ne (by simp)]
      simp only
      split_ifs with hempty
      · rwa [hempty, String.length_empty, Nat.sub_zero] at hrest
      · rwa [length_consChunk _ (linesFrom_ne_nil _ _)]
    | lineBreak =>
      rw [Command.steps_lineBreak, Nat.zero_add] at hbefore hwithin
      rw [List.length_cons, ih hbefore hwithin, List.count_cons_self, Nat.add_assoc]
    | call d =>
      rw [Command.steps_call, Nat.zero_add] at hbefore hwithin
      rw [List.count_cons_of_ne (by simp)]
      exact ih hbefore hwithin

/-- Without text, all that shows is line breaks. -/
theorem linesFrom_of_textless {k : Nat} (hk : 0 < k) {behind : List Command}
    (h : ∀ c ∈ behind, c.steps = 0) :
    linesFrom k behind = [] :: List.replicate (behind.count .lineBreak) [] := by
  obtain ⟨k, rfl⟩ := Nat.exists_eq_add_one_of_ne_zero (Nat.ne_of_gt hk)
  induction behind with
  | nil => rfl
  | cons c r ih =>
    have hr := ih fun d hd => h d (List.mem_cons_of_mem _ hd)
    have hc := h c List.mem_cons_self
    rw [linesFrom_succ]
    cases c with
    | text c =>
      rw [List.count_cons_of_ne (by simp)]
      simp only [String.length_eq_zero_iff.mp hc, if_true]
      exact hr
    | lineBreak =>
      rw [List.count_cons_self, List.replicate_succ, hr]
    | call c =>
      rw [List.count_cons_of_ne (by simp)]
      exact hr

/-- A count that a stream does not use up shows what is behind the stream as well. -/
theorem linesFrom_behind {k : Nat} (front : List Command) (hk : (Page.mk front).total < k)
    {behind : List Command} (h : ∀ c ∈ behind, c.steps = 0) :
    linesFrom k (front ++ behind) =
      linesFrom k front ++ List.replicate (behind.count .lineBreak) [] := by
  induction front generalizing k with
  | nil =>
    rw [List.nil_append, linesFrom_of_textless (Nat.zero_lt_of_lt hk) h]
    rfl
  | cons c r ih =>
    rw [total_cons] at hk
    obtain ⟨k, rfl⟩ := Nat.exists_eq_add_one_of_ne_zero (Nat.ne_of_gt (Nat.zero_lt_of_lt hk))
    rw [List.cons_append, linesFrom_succ, linesFrom_succ]
    cases c with
    | text c =>
      rw [Command.steps_text] at hk
      have hrest := ih (k := k + 1 - c.text.length) (by omega)
      simp only
      split_ifs with hempty
      · rwa [hempty, String.length_empty, Nat.sub_zero] at hrest
      · rw [hrest, consChunk_append _ (linesFrom_ne_nil _ _)]
    | lineBreak =>
      rw [Command.steps_lineBreak, Nat.zero_add] at hk
      rw [ih hk, List.cons_append]
    | call c =>
      rw [Command.steps_call, Nat.zero_add] at hk
      exact ih hk

/-- A stream that ends with text has a character. -/
theorem total_pos {commands : List Command} {c : Command} (hlast : commands.getLast? = some c)
    (hc : c.steps ≠ 0) : 0 < (Page.mk commands).total := by
  obtain ⟨front, rfl⟩ := List.getLast?_eq_some_iff.mp hlast
  have hone : (Page.mk [c]).total = c.steps := rfl
  rw [total_append, hone]
  exact Nat.lt_of_lt_of_le (Nat.pos_of_ne_zero hc) (Nat.le_add_left _ _)

/-- A count that is used up by the last text of a stream shows nothing of what is behind the stream. -/
theorem linesFrom_total {k : Nat} (front : List Command)
    (hlast : ∀ c ∈ front.getLast?, c.steps ≠ 0) (hk : (Page.mk front).total ≤ k)
    (behind : List Command) :
    linesFrom (Page.mk front).total (front ++ behind) = linesFrom k front := by
  induction front generalizing k with
  | nil => exact linesFrom_zero behind
  | cons c r ih =>
    obtain ⟨d, hd⟩ : ∃ d, (c :: r).getLast? = some d := ⟨_, List.getLast?_cons⟩
    obtain ⟨n, hn⟩ := Nat.exists_eq_add_one_of_ne_zero (Nat.ne_of_gt (total_pos hd (hlast d hd)))
    have hr : ∀ d ∈ r.getLast?, d.steps ≠ 0 := by
      intro d hd
      refine hlast d ?_
      rw [List.getLast?_cons, hd]
      rfl
    rw [hn] at hk ⊢
    obtain ⟨k, rfl⟩ := Nat.exists_eq_add_one_of_ne_zero (Nat.ne_of_gt (Nat.lt_of_lt_of_le n.succ_pos hk))
    rw [total_cons] at hn
    rw [List.cons_append, linesFrom_succ, linesFrom_succ]
    cases c with
    | text c =>
      rw [Command.steps_text] at hn
      have hrest : n + 1 - c.text.length = (Page.mk r).total := by omega
      simp only
      split_ifs with hempty
      · rw [hempty, String.length_empty, Nat.sub_zero] at hrest
        rw [hrest]
        exact ih hr (hrest ▸ hk)
      · -- The text shows whole for both counts, and the rest goes on with what is k.
        rw [hrest, ih (k := k + 1 - c.text.length) hr (by omega),
          List.take_of_length_le (by rw [String.length_toList]; omega),
          List.take_of_length_le (by rw [String.length_toList]; omega)]
    | lineBreak =>
      rw [Command.steps_lineBreak, Nat.zero_add] at hn
      rw [← hn] at hk ⊢
      rw [ih hr hk]
    | call c =>
      rw [Command.steps_call, Nat.zero_add] at hn
      rw [← hn] at hk ⊢
      exact ih hr hk

/-- The commands behind the last character of a page. -/
def behind (p : Page) : List Command := p.commands.rtakeWhile fun c => c.steps = 0

theorem steps_of_mem_behind {p : Page} {c : Command} (h : c ∈ p.behind) : c.steps = 0 :=
  of_decide_eq_true (List.mem_rtakeWhile_imp (p := fun c : Command => c.steps = 0) h)

/-- A page is a stream that ends with text, or is empty, and what is behind it. -/
theorem exists_front (p : Page) : ∃ front, p.commands = front ++ p.behind ∧
    (∀ c ∈ front.getLast?, c.steps ≠ 0) ∧ (Page.mk front).total = p.total := by
  have hsplit : p.commands.rdropWhile (fun c => c.steps = 0) ++ p.behind = p.commands := by
    unfold behind List.rdropWhile List.rtakeWhile
    rw [← List.reverse_append, List.takeWhile_append_dropWhile, List.reverse_reverse]
  have htextless : (Page.mk p.behind).total = 0 := by
    have hnone : ∀ l : List Command, (∀ c ∈ l, c.steps = 0) → (Page.mk l).total = 0 := by
      intro l hl
      induction l with
      | nil => rfl
      | cons c r ih =>
        rw [total_cons, hl c List.mem_cons_self, ih fun d hd => hl d (List.mem_cons_of_mem _ hd)]
    exact hnone _ fun c hc => steps_of_mem_behind hc
  refine ⟨_, hsplit.symm, fun c hc => ?_, ?_⟩
  · obtain ⟨hne, rfl⟩ := List.mem_getLast?_eq_getLast hc
    exact fun hzero => List.rdropWhile_last_not _ _ hne (decide_eq_true hzero)
  · have htotal := total_append (p.commands.rdropWhile fun c => c.steps = 0) p.behind
    rw [hsplit, htextless, Nat.add_zero] at htotal
    exact htotal.symm

/-- Counts that a page does not use up show the whole page and the line breaks behind it. -/
theorem visible_of_total_lt {p : Page} {k : Nat} (h : p.total < k) :
    p.visible k = p.visible p.total ++ List.replicate (p.behind.count .lineBreak) [] := by
  obtain ⟨front, hsplit, hlast, htotal⟩ := p.exists_front
  have hwhole : p.visible p.total = linesFrom k front := by
    unfold visible
    rw [← htotal, hsplit]
    exact linesFrom_total front hlast (htotal.trans_le h.le) _
  unfold visible at hwhole ⊢
  rw [hwhole, hsplit]
  exact linesFrom_behind front (htotal.trans_lt h) fun c hc => steps_of_mem_behind hc

end Page

/-- How many lines show of a page for every count of characters. -/
structure BreaksFollowText (p : Page) : Prop where
  /-- At first there is one line, with nothing in it. -/
  nothing : p.visible 0 = [[]]
  /-- Every other count up to all characters ends in one command. -/
  holds : ∀ k, (∃! place, p.Holds place k) ↔ 0 < k ∧ k ≤ p.total
  /-- Then the lines are one more than the line breaks before that command. -/
  lines : ∀ place k, p.Holds place k →
    (p.visible k).length = 1 + (p.commands.take place).count .lineBreak
  /-- Larger counts show the line breaks behind the last character as well. -/
  behind : ∀ k, p.total < k →
    p.visible k = p.visible p.total ++ List.replicate (p.behind.count .lineBreak) []
  /-- So they show the same as the whole page just when there are no such line breaks. -/
  settled : (∀ k, p.total ≤ k → p.visible k = p.visible p.total) ↔ .lineBreak ∉ p.behind

/-- **A line break shows once text behind it does**, for every page and every count of characters up to
all of them. -/
theorem breaks_follow_text (p : Page) : BreaksFollowText p where
  nothing := Page.linesFrom_zero p.commands
  holds k := by
    constructor
    · rintro ⟨place, h, -⟩
      refine ⟨Nat.zero_lt_of_lt h.before, h.within.trans ?_⟩
      have hle := Page.total_take_le (Nat.le_max_left (place + 1) p.commands.length) p.commands
      rwa [List.take_of_length_le (Nat.le_max_right _ _)] at hle
    · rintro ⟨hpos, hle⟩
      obtain ⟨place, h⟩ := Page.exists_holds hpos hle
      exact ⟨place, h, fun other hother => hother.unique h⟩
  lines place k h := by
    obtain ⟨c, after, hcut, hbefore, hwithin⟩ := h.cut
    have hlength := Page.length_linesFrom_of_cut _ after hbefore hwithin
    rwa [← hcut] at hlength
  behind k h := Page.visible_of_total_lt h
  settled := by
    constructor
    · intro h
      have hnext := Page.visible_of_total_lt (Nat.lt_succ_self p.total)
      rw [h _ (Nat.le_succ _)] at hnext
      have hnone := List.self_eq_append_right.mp hnext
      rw [List.replicate_eq_nil_iff] at hnone
      exact List.count_eq_zero.mp hnone
    · intro h k hk
      rcases Nat.eq_or_lt_of_le hk with rfl | hlt
      · rfl
      · rw [Page.visible_of_total_lt hlt, List.count_eq_zero.mpr h, List.replicate_zero, List.append_nil]

/-- Two characters are one more than the page has, and its last line break shows. -/
theorem break_behind_shows :
    let p : Page := ⟨[.text ⟨"a", []⟩, .lineBreak]⟩
    p.total = 1 ∧ p.Holds 0 1 ∧ (p.visible 1).length = 1 ∧ (p.visible 2).length = 2 :=
  ⟨by decide, ⟨by decide, by decide⟩, by decide, by decide⟩

end Cutscene
