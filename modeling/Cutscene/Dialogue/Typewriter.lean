import Cutscene.Dialogue.Directive
import Cutscene.Json.Number
import Cutscene.Motion.Positive

/-!
# The dialogue typewriter

The typewriter reveals one page at a time, a character at each tick of a clock, and hands out the
directives that the reveal comes to. A directive stands at a position in the stream, so each is
handed out once, also when equal ones stand side by side.

A `wait` is carried out here: while its window is open the reveal clock stands still and keeps its
remainder. After the last character the page stays for a while, and then completes: `Update` hands
back the token that the page was loaded with.

Models `DialogueInterpreter` with `load`, `set_speaker`, `update`, `dispatch_due` and `complete`
(SPEC_FULL.md, §4.3). A `Pace` is an `InterpreterConfig`, a `Phase` an `InterpreterState`.
-/

namespace Cutscene

/-- How fast a page is revealed, and for how long it stays. -/
structure Pace (R : Type) where
  charsPerSecond : R
  holdSeconds : R
deriving Repr, DecidableEq

namespace Pace

variable {R : Type} [Scalar R]

/-- Thirty characters a second, and a second to read the end. -/
def standard : Pace R := ⟨30, 1⟩

def validate (p : Pace R) : Except Error Unit := do
  ensurePositive "chars_per_second" p.charsPerSecond
  ensurePositive "post_reveal_hold_secs" p.holdSeconds

def toJson (p : Pace Float) : Json :=
  .record [("chars_per_second", .float p.charsPerSecond), ("post_reveal_hold_secs", .float p.holdSeconds)]

def ofJson? (j : Json) : Option (Pace Float) := do
  let fs ← j.record? ["chars_per_second", "post_reveal_hold_secs"] .ignored
  let charsPerSecond ← fs.required? "chars_per_second" Json.float?
  let holdSeconds ← fs.required? "post_reveal_hold_secs" Json.float?
  some ⟨charsPerSecond, holdSeconds⟩

end Pace

/-- An open wait. -/
structure WaitWindow (R : Type) where
  duration : R
  elapsed : R
deriving Repr, DecidableEq

/-- A page that is being shown. -/
structure ActivePage (R κ : Type) where
  page : Page
  /-- The directives that the reveal has not come to. -/
  pending : List (Nat × Directive R)
  /-- The characters of the page. -/
  total : Nat
  speaker : Option String
  /-- What is handed back on completion. -/
  token : κ

/-- The state of the typewriter. -/
structure Typewriter (R κ : Type) where
  pace : Pace R
  /-- The time that a character takes. -/
  interval : R
  active : Option (ActivePage R κ)
  /-- The characters shown. -/
  visible : Nat
  /-- What the reveal clock has not yet spent on a character. -/
  charTime : R
  wait : Option (WaitWindow R)
  /-- For how long the whole page has been shown. -/
  holdElapsed : R

/-- What a typewriter is doing. -/
inductive Phase where
  /-- No page is loaded. -/
  | idle
  /-- Characters are being revealed. -/
  | revealing
  /-- A wait has frozen the reveal. -/
  | paused
  /-- The whole page is shown and stays for a while. -/
  | allRevealed
deriving Repr, DecidableEq

namespace Typewriter

variable {R κ : Type} [Scalar R]

/-- An idle typewriter of a pace. -/
def create (pace : Pace R) : Except Error (Typewriter R κ) := do
  pace.validate
  .ok ⟨pace, 1 / pace.charsPerSecond, none, 0, 0, none, 0⟩

/-- Starts to reveal a page. One that was still active is dropped, and its token with it. -/
def load (i : Typewriter R κ) (page : Page) (speaker : Option String) (token : κ) :
    Typewriter R κ :=
  { i with
    active := some ⟨page, page.directives, page.total, speaker, token⟩
    visible := 0
    charTime := 0
    wait := none
    holdElapsed := 0 }

def phase (i : Typewriter R κ) : Phase :=
  match i.active with
  | none => .idle
  | some a =>
    if i.wait.isSome then .paused else if a.total ≤ i.visible then .allRevealed else .revealing

def isIdle (i : Typewriter R κ) : Bool := i.active.isNone

def page (i : Typewriter R κ) : Option Page := i.active.map (·.page)

def speaker (i : Typewriter R κ) : Option String := i.active.bind (·.speaker)

/-- Renames the speaker of the active page, if there is one. -/
def setSpeaker (i : Typewriter R κ) (name : String) : Typewriter R κ :=
  { i with active := i.active.map fun a => { a with speaker := some name } }

/-! ## One step -/

/-- What dispatching gives: the directives handed out, the wait that was opened, and the rest. -/
structure Dispatch (R : Type) where
  fired : List (Directive R)
  opened : Option R
  pending : List (Nat × Directive R)

/--
Hands out the directives that stand at most at a position, up to the first wait. Unknown ones are
passed over.
-/
def dispatch (position : Nat) : List (Nat × Directive R) → Dispatch R
  | [] => ⟨[], none, []⟩
  | (at', d) :: r =>
    if position < at' then ⟨[], none, (at', d) :: r⟩
    else match d with
      | .wait secs => ⟨[], some secs, r⟩
      | .unknown _ => dispatch position r
      | d =>
        let rest := dispatch position r
        { rest with fired := d :: rest.fired }

/-- Hands out what is due at the characters shown, and opens a wait if it comes to one. -/
def dispatchDue (i : Typewriter R κ) : Typewriter R κ × List (Directive R) :=
  match i.active with
  | none => (i, [])
  | some a =>
    let d := dispatch i.visible a.pending
    ({ i with
        active := some { a with pending := d.pending }
        wait := match d.opened with
          | some secs => some ⟨secs, 0⟩
          | none => i.wait },
      d.fired)

/-- Reveals characters as long as the clock has time for one, `left` are left, and no wait opens. -/
def reveal : (left : Nat) → Typewriter R κ → Typewriter R κ × List (Directive R)
  | 0, i => (i, [])
  | left + 1, i =>
    if i.interval ≤ i.charTime then
      let (i, fired) :=
        dispatchDue { i with charTime := i.charTime - i.interval, visible := i.visible + 1 }
      if i.wait.isSome then (i, fired)
      else
        let (i, more) := reveal left i
        (i, fired ++ more)
    else (i, [])

/-- What a step gives. -/
structure Update (R κ : Type) where
  typewriter : Typewriter R κ
  /-- The directives handed out, in stream order. -/
  fired : List (Directive R)
  /-- The token of the page, if the step completed it. -/
  completed : Option κ

/-- The typewriter after its page has completed. -/
def cleared (i : Typewriter R κ) : Typewriter R κ :=
  { i with active := none, visible := 0, charTime := 0, holdElapsed := 0 }

/-- A step in which a wait is open. When it closes, what stands behind it is handed out. -/
def updateWaiting (i : Typewriter R κ) (w : WaitWindow R) (dt : R) : Update R κ :=
  let elapsed := w.elapsed + dt
  if elapsed < w.duration then ⟨{ i with wait := some { w with elapsed } }, [], none⟩
  else
    let (i, fired) := dispatchDue { i with wait := none }
    ⟨i, fired, none⟩

/-- A step after the last character. -/
def updateHolding (i : Typewriter R κ) (a : ActivePage R κ) (dt : R) : Update R κ :=
  let i := { i with holdElapsed := i.holdElapsed + dt }
  if i.pace.holdSeconds ≤ i.holdElapsed then ⟨i.cleared, [], some a.token⟩ else ⟨i, [], none⟩

/-- A step of the reveal clock. The clock is spent when the last character is shown. -/
def updateRevealing (i : Typewriter R κ) (a : ActivePage R κ) (dt : R) : Update R κ :=
  let (i, fired) := reveal (a.total - i.visible) { i with charTime := i.charTime + dt }
  if a.total ≤ i.visible ∧ i.wait.isNone then ⟨{ i with charTime := 0 }, fired, none⟩
  else ⟨i, fired, none⟩

/-- A step of `dt` seconds. -/
def update (i : Typewriter R κ) (dt : R) : Update R κ :=
  match i.active with
  | none => ⟨i, [], none⟩
  | some a =>
    match i.wait with
    | some w => updateWaiting i w dt
    | none =>
      let (i, fired) := dispatchDue i
      if i.wait.isSome then ⟨i, fired, none⟩
      else
        let u :=
          if a.total ≤ i.visible then updateHolding i a dt else updateRevealing i a dt
        { u with fired := fired ++ u.fired }

end Typewriter

end Cutscene
