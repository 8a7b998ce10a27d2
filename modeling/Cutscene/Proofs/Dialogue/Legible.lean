import Cutscene.Proofs.Dialogue.Alike
import Cutscene.Proofs.Dialogue.Dispatch

/-!
# What shows of a page

The typewriter takes of a page how many characters it has and at which of them the directives stand that
it knows. A directive that is not understood is passed over in silence, between others as well as right
behind a wait; what the characters are, how they are cut into chunks and where the lines break is for the
text box alone.

On `DialogueInterpreter.load`, `update` and `dispatch_due` (SPEC_FULL.md, §4.3).

Results:
* `dispatch_known`: dispatching finds the same in a stream without its unknown directives.
* `total_legible`, `known_directives_legible`: a page without its unknown calls is as long, and has the
  same known directives in the same places.
* `only_positions_show`: pages that agree in both run alike.
-/

namespace Cutscene

variable {R κ κ' : Type}

/-- Whether a directive is understood. -/
def Directive.isKnown : Directive R → Bool
  | unknown _ => false
  | _ => true

/-- The directives of a stream that are understood, each where it stands. -/
def known (stream : List (Nat × Directive R)) : List (Nat × Directive R) :=
  stream.filter fun e => e.2.isKnown

theorem known_cons (at' : Nat) (d : Directive R) (r : List (Nat × Directive R)) :
    known ((at', d) :: r) = if d.isKnown then (at', d) :: known r else known r := List.filter_cons

namespace Typewriter

/-- What dispatching gives, without the unknown directives in the rest. -/
def Dispatch.known (d : Dispatch R) : Dispatch R := { d with pending := Cutscene.known d.pending }

/-! ## Dispatching -/

/-- Before the first of them is due, no directive is handed out. -/
theorem dispatch_of_forall_lt {position : Nat} {stream : List (Nat × Directive R)}
    (h : ∀ e ∈ stream, position < e.1) : dispatch position stream = ⟨[], none, stream⟩ := by
  cases stream with
  | nil => rfl
  | cons e r =>
    unfold dispatch
    rw [if_pos (h e List.mem_cons_self)]

/-- Dispatching finds the same in a stream without its unknown directives, and leaves what it would have
left, without the unknown ones. -/
theorem dispatch_known (position : Nat) {stream : List (Nat × Directive R)}
    (hasc : stream.Pairwise fun a b => a.1 ≤ b.1) :
    dispatch position (known stream) = (dispatch position stream).known := by
  induction stream with
  | nil => rfl
  | cons e r ih =>
    have hrest := ih (List.pairwise_cons.mp hasc).2
    by_cases hat : position < e.1
    · -- The first directive is not due. It may be an unknown one, and then no later one is due either.
      have hlate : ∀ e' ∈ e :: r, position < e'.1 :=
        forall_lt_of_head hasc fun e' he' => Option.some.inj he' ▸ hat
      have hlate' : ∀ e' ∈ known (e :: r), position < e'.1 :=
        fun e' he' => hlate e' (List.mem_filter.mp he').1
      rw [dispatch_of_forall_lt hlate, dispatch_of_forall_lt hlate']
      rfl
    · obtain ⟨at', d⟩ := e
      rw [known_cons]
      cases d with
      | unknown name =>
        simp only [Directive.isKnown, dispatch, if_neg hat, Bool.false_eq_true, if_false, hrest]
      | wait secs => simp only [Directive.isKnown, dispatch, if_neg hat, if_true, Dispatch.known]
      | _ => simp only [Directive.isKnown, dispatch, if_neg hat, if_true, hrest, Dispatch.known]

/-- What dispatching leaves of a stream is its end. -/
theorem pending_suffix (position : Nat) (stream : List (Nat × Directive R)) :
    (dispatch position stream).pending <:+ stream := by
  obtain ⟨done, hcut, -⟩ := dispatch_spec position stream
  exact ⟨done, hcut.symm⟩

/-! ## Pages that show alike -/

/-- Two pages of the same number of characters that have the same known directives still to come. -/
structure SameKnown (a : ActivePage R κ) (b : ActivePage R κ') : Prop where
  total : a.total = b.total
  known : known a.pending = known b.pending
  ascending : a.pending.Pairwise fun a b => a.1 ≤ b.1
  ascending' : b.pending.Pairwise fun a b => a.1 ≤ b.1

theorem SameKnown.dispatch_eq {a : ActivePage R κ} {b : ActivePage R κ'} (h : SameKnown a b)
    (position : Nat) : (dispatch position a.pending).known = (dispatch position b.pending).known := by
  rw [← dispatch_known position h.ascending, ← dispatch_known position h.ascending', h.known]

/-- Dispatching cannot tell such pages apart. -/
theorem matches_sameKnown : Matches (SameKnown : ActivePage R κ → ActivePage R κ' → Prop) where
  total h := h.total
  fired h position := (Dispatch.mk.inj (h.dispatch_eq position)).1
  opened h position := (Dispatch.mk.inj (h.dispatch_eq position)).2.1
  pending h position :=
    { total := h.total
      known := (Dispatch.mk.inj (h.dispatch_eq position)).2.2
      ascending := h.ascending.sublist (pending_suffix position _).sublist
      ascending' := h.ascending'.sublist (pending_suffix position _).sublist }

variable [Scalar R]

theorem alike_load {i : Typewriter R κ} {j : Typewriter R κ'} (hpace : i.pace = j.pace)
    (hinterval : i.interval = j.interval) {p q : Page} (htotal : p.total = q.total)
    (hknown : known (R := R) p.directives = known q.directives) (speaker speaker' : Option String)
    (token : κ) (token' : κ') :
    Alike SameKnown (i.load p speaker token) (j.load q speaker' token') := by
  unfold load
  rw [hpace, hinterval]
  exact .mk (.some ⟨htotal, hknown, p.directives_ascending, q.directives_ascending⟩)

end Typewriter

/-! ## Pages without what is not understood -/

variable [Scalar R]

variable (R) in
/-- Whether a command is anything but a call that is not understood. -/
def Command.isLegible : Command → Bool
  | call c => (Directive.ofCall c : Directive R).isKnown
  | _ => true

namespace Page

variable (R) in
/-- The page without the calls that are not understood. -/
def legible (p : Page) : Page := ⟨p.commands.filter (Command.isLegible R)⟩

theorem total_legible (p : Page) : (p.legible R).total = p.total := by
  obtain ⟨commands⟩ := p
  unfold total legible
  induction commands with
  | nil => rfl
  | cons c r ih =>
    rw [List.filter_cons]
    split_ifs with hc
    · simp only [List.foldr_cons, ih]
    · cases c with
      | call c => simpa only [List.foldr_cons, Command.steps, Nat.zero_add] using ih
      | _ => exact absurd rfl hc

theorem known_callsFrom_legible (n : Nat) (commands : List Command) :
    known ((callsFrom n (commands.filter (Command.isLegible R))).map fun (position, c) =>
        (position, (Directive.ofCall c : Directive R))) =
      known ((callsFrom n commands).map fun (position, c) => (position, .ofCall c)) := by
  induction commands generalizing n with
  | nil => rfl
  | cons c r ih =>
    rw [List.filter_cons]
    cases c with
    | call c =>
      by_cases hc : (Directive.ofCall c : Directive R).isKnown
      · simp only [Command.isLegible, hc, if_true, callsFrom, List.map_cons, known_cons, ih]
      · simp only [Command.isLegible, hc, Bool.false_eq_true, if_false, callsFrom, List.map_cons,
          known_cons, ih]
    | _ => exact ih _

theorem known_directives_legible (p : Page) :
    known (R := R) (p.legible R).directives = known p.directives := known_callsFrom_legible 0 p.commands

end Page

namespace Typewriter

/-- **Only positions show.** Two typewriters of one pace are loaded with pages of the same number of
characters that have the same known directives at the same positions. Then the same shows of both at
every step of any run: the directives handed out, what the typewriters are doing, the characters shown,
the clock and the completion. In particular a page shows as it would without all that is not understood
in it. -/
theorem only_positions_show {i : Typewriter R κ} {j : Typewriter R κ'} (hpace : i.pace = j.pace)
    (hinterval : i.interval = j.interval) (speaker speaker' : Option String) (token : κ) (token' : κ')
    (dts : List R) :
    (∀ p q : Page, p.total = q.total → known (R := R) p.directives = known q.directives →
      ((i.load p speaker token).updates dts).map Update.seen =
        ((j.load q speaker' token').updates dts).map Update.seen) ∧
    ∀ p : Page, ((i.load p speaker token).updates dts).map Update.seen =
      ((j.load (p.legible R) speaker' token').updates dts).map Update.seen := by
  have hshow : ∀ p q : Page, p.total = q.total → known (R := R) p.directives = known q.directives →
      ((i.load p speaker token).updates dts).map Update.seen =
        ((j.load q speaker' token').updates dts).map Update.seen := fun p q htotal hknown =>
    (alike_load hpace hinterval htotal hknown speaker speaker' token token').seen_updates
      matches_sameKnown dts
  exact ⟨hshow, fun p => hshow p _ p.total_legible.symm p.known_directives_legible.symm⟩

/-- Words with a wait that is followed by calls that nobody understands. -/
def scribbled : Page :=
  ⟨[.call ⟨"wiggle", []⟩, .text ⟨"Ob", ["red"]⟩, .call ⟨"wait", ["0.5"]⟩, .call ⟨"wait", []⟩,
    .call ⟨"playsound", ["thud"]⟩, .lineBreak, .text ⟨"ject", []⟩, .call ⟨"pan", ["up"]⟩]⟩

/-- Other words, cut up in another way, with the same wait and the same sound in the same places. -/
def clean : Page :=
  ⟨[.text ⟨"a", []⟩, .text ⟨"b", []⟩, .call ⟨"wait", ["0.50"]⟩, .call ⟨"playsound", ["thud"]⟩,
    .text ⟨"cdef", ["blue"]⟩]⟩

theorem only_positions_show_scribbled :
    let i : Typewriter Rat Nat := ⟨.standard, 1 / 30, none, 0, 0, none, 0⟩
    let dts : List Rat := [1 / 20, 1 / 4, 1 / 4, 1 / 4, 1 / 2, 1]
    scribbled.total = clean.total ∧
      known (R := Rat) scribbled.directives = known clean.directives ∧
      ((i.load scribbled none 0).updates dts).map Update.seen =
        ((i.load clean (some "Ace") 7).updates dts).map Update.seen ∧
      ((i.load scribbled none 0).updates dts).map Update.seen =
        [⟨[], .revealing, 1, 1 / 60, false⟩, ⟨[], .paused, 2, 7 / 30, false⟩,
          ⟨[], .paused, 2, 7 / 30, false⟩, ⟨[.playSound "thud"], .revealing, 2, 7 / 30, false⟩,
          ⟨[], .allRevealed, 6, 0, false⟩, ⟨[], .idle, 0, 0, true⟩] := by
  intro i dts
  have htotal : scribbled.total = clean.total := by decide +kernel
  have hknown : known (R := Rat) scribbled.directives = known clean.directives := by decide +kernel
  refine ⟨htotal, hknown, ?_, ?_⟩
  · exact (only_positions_show rfl rfl none (some "Ace") 0 7 dts).1 _ _ htotal hknown
  · decide +kernel

end Typewriter

end Cutscene
