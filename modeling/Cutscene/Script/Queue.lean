import Cutscene.Script.Action

/-!
# The queue

Actions are run one at a time in the order in which they were queued. The head of the queue is started
in the first step that finds it there and updated in each step until a finish signal with its number
takes it off. Signals with any other number are ignored.

Models `Sequencer` with `push`, `update`, `action_finished`, `settle` and `drain_finished` (SPEC_FULL.md,
§4.2).
-/

namespace Cutscene

/-- An action in the queue. -/
structure Queued (R : Type) where
  id : ActionId
  action : Action R

/-- A queue of actions. -/
structure ActionQueue (R : Type) where
  items : List (Queued R)
  /-- The action that was started last. -/
  started : Option ActionId
  /-- The number of the next action to be queued. -/
  nextId : ActionId
  /-- How many actions have been taken off. -/
  completed : Nat
  /-- Finish signals that nobody has looked at, oldest first. -/
  signals : List ActionId

namespace ActionQueue

variable {R : Type} [Scalar R]

def empty : ActionQueue R := ⟨[], none, 0, 0, []⟩

/-- Queues an action. -/
def push (s : ActionQueue R) (a : Action R) : ActionId × ActionQueue R :=
  (s.nextId, { s with items := s.items ++ [⟨s.nextId, a⟩], nextId := s.nextId + 1 })

def length (s : ActionQueue R) : Nat := s.items.length

def isEmpty (s : ActionQueue R) : Bool := s.items.isEmpty

/-- The action at the head, if it has been started. -/
def current (s : ActionQueue R) : Option ActionId :=
  s.items.head?.bind fun q => if s.started = some q.id then some q.id else none

/-- Takes the head off the queue. -/
def pop (s : ActionQueue R) : ActionQueue R :=
  match s.items with
  | [] => s
  | _ :: r => { s with items := r, completed := s.completed + 1 }

/-- Reports an action as done. The report is looked at later. -/
def signal (s : ActionQueue R) (id : ActionId) : ActionQueue R := { s with signals := s.signals ++ [id] }

/-- Looks at one signal. -/
def answer (s : ActionQueue R) (id : ActionId) : ActionQueue R :=
  match s.items with
  | q :: _ => if q.id = id then s.pop else s
  | [] => s

/-- Looks at all signals, oldest first. -/
def settle (s : ActionQueue R) : ActionQueue R :=
  s.signals.foldl answer { s with signals := [] }

/-- Starts the head of the queue with a finisher of its own, unless it has been started before. -/
def startHead (s : ActionQueue R) (q : Queued R) (c : Context R) : ActionQueue R × Context R :=
  if s.started = some q.id then (s, c)
  else ({ s with started := some q.id }, q.action.start { c with finisher := some q.id })

/-- Updates the head of the queue, which is given a finisher for the time of the update. -/
def updateHead (s : ActionQueue R) (q : Queued R) (rest : List (Queued R)) (dt : R) (c : Context R) :
    ActionQueue R × Context R :=
  let (action, c) := q.action.update dt { c with finisher := some q.id }
  ({ s with items := { q with action } :: rest, signals := s.signals ++ c.raised },
    { c with finisher := none, raised := [] })

/-- A step. `false` says that there was nothing to run. -/
def update (s : ActionQueue R) (dt : R) (c : Context R) : Bool × ActionQueue R × Context R :=
  let s := s.settle
  match s.items with
  | [] => (false, s, c)
  | q :: rest =>
    let (s, c) := s.startHead q c
    let (s, c) := s.updateHead q rest dt c
    (true, s.settle, c)

end ActionQueue

end Cutscene
