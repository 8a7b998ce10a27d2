import Mathlib.Data.List.Induction
import Cutscene.Sound.Log

/-!
# The channels of a log

The open entry of a channel is remembered by its place in a log that keeps growing. So each place that is
remembered is tied to the channel that its entry was opened on, and to the end that it does not have yet.

Results:
* `Grows`: entries stay as they are, and get an end at most.
* `Tracks`: the places that are remembered are those of the entries without an end, channel by channel.
* `forall_log`: what holds of all entries of a log.
* `channelLaw`: what holds of the log after any events.
* `Timed`: logs that are kept while a clock ticks. `Timed.within`: their loops do not end before they start.
-/

namespace Cutscene

/-- What is asked of a log. -/
inductive SoundEvent (R : Type) where
  | play (path : String) (offset : R)
  | start (channel : Channel) (path : String) (offset : R) (loopDelay : Option R) (repetition : Repetition)
  | stop (channel : Channel) (time : R)
  | closeAll (time : R)

variable {R : Type}

/-- The entry as it was made, before it got an end. -/
def SoundEntry.endless (e : SoundEntry R) : SoundEntry R := { e with stop := none }

/-- The entry of a clip that is repeated. -/
def SoundEntry.loop (path : String) (offset : R) (loopDelay : Option R) (repetition : Repetition) :
    SoundEntry R :=
  { SoundEntry.clip path offset with loopDelay, repetition := some repetition }

/-- The entry that an event asks for, with the channel that it is opened on. -/
def SoundEvent.made : SoundEvent R → List (SoundEntry R × Option Channel)
  | play path offset => [(.clip path offset, none)]
  | start channel path offset loopDelay repetition =>
    [(.loop path offset loopDelay repetition, some channel)]
  | _ => []

/-- The time of an event that may close a channel. -/
def SoundEvent.ends? : SoundEvent R → Option R
  | play _ _ => none
  | start _ _ offset _ _ => some offset
  | stop _ time => some time
  | closeAll time => some time

namespace SoundLog

/-- The log after an event. -/
def handle (l : SoundLog R) : SoundEvent R → SoundLog R
  | .play path offset => l.play path offset
  | .start channel path offset loopDelay repetition =>
    l.startChannel channel path offset loopDelay repetition
  | .stop channel time => l.stopChannel channel time
  | .closeAll time => l.closeAll time

/-- The log after some events. -/
def log (es : List (SoundEvent R)) : SoundLog R := es.foldl handle empty

/-- The channel of each entry that some events ask for, if it is opened on one. -/
def channels (es : List (SoundEvent R)) : List (Option Channel) :=
  (es.flatMap SoundEvent.made).map Prod.snd

/-! ## What an event is made of -/

/-- Logs an entry. On a channel it is the one that is open from then on. -/
def add (l : SoundLog R) (e : SoundEntry R) : Option Channel → SoundLog R
  | none => { l with entries := l.entries ++ [e] }
  | some c => { l with entries := l.entries ++ [e] }.setSlot c (some l.entries.length)

variable (l : SoundLog R) (e : SoundEntry R) (c d : Channel) (t : R)

theorem startChannel_eq (path : String) (loopDelay : Option R) (repetition : Repetition) :
    l.startChannel c path t loopDelay repetition =
      (l.stopChannel c t).add (.loop path t loopDelay repetition) (some c) := rfl

@[simp] theorem entries_setSlot (i : Option Nat) : (l.setSlot c i).entries = l.entries := by
  cases c <;> rfl

@[simp] theorem slot_setSlot (i : Option Nat) :
    (l.setSlot c i).slot d = if d = c then i else l.slot d := by
  cases c <;> cases d <;> rfl

@[simp] theorem entries_add (opened : Option Channel) : (l.add e opened).entries = l.entries ++ [e] := by
  cases opened with
  | none => rfl
  | some c => exact entries_setSlot _ c _

@[simp] theorem slot_add (opened : Option Channel) :
    (l.add e opened).slot d = if opened = some d then some l.entries.length else l.slot d := by
  cases opened with
  | none => cases d <;> rfl
  | some c =>
    rw [add, slot_setSlot]
    simp only [Option.some.injEq, eq_comm]
    cases d <;> rfl

@[simp] theorem slot_stopChannel : (l.stopChannel c t).slot d = if d = c then none else l.slot d := by
  unfold stopChannel
  cases hslot : l.slot c with
  | none =>
    split_ifs with hd
    · rw [hd, hslot]
    · rfl
  | some i =>
    have hentries : ∀ entries : List (SoundEntry R),
        slot { l.setSlot c none with entries } d = (l.setSlot c none).slot d := by
      cases d <;> exact fun _ => rfl
    simp only [hentries, slot_setSlot]

@[simp] theorem getElem?_stopChannel (i : Nat) : (l.stopChannel c t).entries[i]? =
    l.entries[i]?.map fun e => if l.slot c = some i then { e with stop := some t } else e := by
  unfold stopChannel
  cases hslot : l.slot c with
  | none => simp
  | some k =>
    simp only [List.getElem?_modify, Option.some.injEq]
    by_cases hk : k = i
    · simp [hk]
    · simp [hk]

@[simp] theorem length_stopChannel : (l.stopChannel c t).entries.length = l.entries.length := by
  unfold stopChannel
  cases l.slot c with
  | none => rfl
  | some i => exact List.length_modify _ _ _

theorem endless_stopChannel :
    (l.stopChannel c t).entries.map SoundEntry.endless = l.entries.map SoundEntry.endless := by
  apply List.ext_getElem?
  intro i
  simp only [List.getElem?_map, getElem?_stopChannel, Option.map_map]
  congr 1
  funext e
  simp only [Function.comp_apply]
  split_ifs <;> rfl

variable {l e c d t}

/-- What holds of all entries holds of them after a channel is stopped, if an end does it no harm. -/
theorem forall_stopChannel {P : SoundEntry R → Prop} (h : ∀ e ∈ l.entries, P e)
    (hend : ∀ e, P e → P { e with stop := some t }) : ∀ e ∈ (l.stopChannel c t).entries, P e := by
  intro e he
  obtain ⟨i, hi⟩ := List.mem_iff_getElem?.mp he
  rw [getElem?_stopChannel, Option.map_eq_some_iff] at hi
  obtain ⟨e', he', rfl⟩ := hi
  have hold := h e' (List.mem_of_getElem? he')
  split_ifs
  · exact hend e' hold
  · exact hold

theorem getElem?_concat {α : Type} (xs : List α) (x : α) (i : Nat) :
    (xs ++ [x])[i]? = if i = xs.length then some x else xs[i]? := by
  split_ifs with hi
  · rw [hi, List.getElem?_concat_length]
  · rw [List.getElem?_append]
    split_ifs with hlt
    · rfl
    · rw [List.getElem?_eq_none (Nat.le_of_not_lt hlt), List.getElem?_eq_none (by simp; omega)]

/-! ## Growth -/

/-- The second log has the entries of the first in their places, and their ends. A clip that is repeated
may have got an end that it did not have. -/
def Grows (l l' : SoundLog R) : Prop :=
  ∀ (i : Nat) (e : SoundEntry R), l.entries[i]? = some e → ∃ e' : SoundEntry R,
    l'.entries[i]? = some e' ∧ e'.endless = e.endless ∧
    (e'.stop = e.stop ∨ e.stop = none ∧ e'.stop.isSome ∧ e.repetition.isSome)

theorem Grows.refl (l : SoundLog R) : l.Grows l := fun _ e h => ⟨e, h, rfl, .inl rfl⟩

theorem Grows.trans {l l' l'' : SoundLog R} (h : l.Grows l') (h' : l'.Grows l'') : l.Grows l'' := by
  intro i e he
  obtain ⟨e', he', hsame, hstop⟩ := h i e he
  obtain ⟨e'', he'', hsame', hstop'⟩ := h' i e' he'
  refine ⟨e'', he'', hsame'.trans hsame, ?_⟩
  have hrepetition : e'.endless.repetition = e.endless.repetition := congrArg (·.repetition) hsame
  rcases hstop' with hkept | ⟨hnone, hend, hloop⟩
  · rw [hkept]
    exact hstop
  · rcases hstop with hkept | ⟨-, hsome, -⟩
    · exact .inr ⟨hkept ▸ hnone, hend, (congrArg Option.isSome hrepetition).symm.trans hloop⟩
    · rw [hnone] at hsome
      cases hsome

theorem grows_add (l : SoundLog R) (e : SoundEntry R) (opened : Option Channel) :
    l.Grows (l.add e opened) := by
  intro i e' he'
  refine ⟨e', ?_, rfl, .inl rfl⟩
  rw [entries_add, List.getElem?_append_left (List.getElem?_eq_some_iff.mp he').1]
  exact he'

/-! ## Which entries are open -/

/-- The entry in a place of the log, and the channel that it was opened on. -/
structure Listed (l : SoundLog R) (on : List (Option Channel)) (i : Nat) (e : SoundEntry R)
    (c? : Option Channel) : Prop where
  entry : l.entries[i]? = some e
  channel : on[i]? = some c?

/-- The place that is remembered for a channel is that of its entry without an end. -/
structure Tracks (l : SoundLog R) (on : List (Option Channel)) : Prop where
  length : l.entries.length = on.length
  place : ∀ c i, l.slot c = some i → ∃ e, l.Listed on i e (some c)
  isOpen : ∀ c i e, l.Listed on i e (some c) → (e.stop = none ↔ l.slot c = some i)
  clip : ∀ i e, l.Listed on i e none → e.stop = none
  loop : ∀ i e c?, l.Listed on i e c? → e.repetition.isSome = c?.isSome

variable {on : List (Option Channel)} {i : Nat} {c? d? : Option Channel}

theorem tracks_empty : (empty : SoundLog R).Tracks [] where
  length := rfl
  place c i h := by cases c <;> cases h
  isOpen c i e h := nomatch h.channel
  clip i e h := nomatch h.channel
  loop i e c? h := nomatch h.channel

/-- After a channel is stopped, its open entry has an end, and the others are as they were. -/
theorem Tracks.listed_stopChannel (h : l.Tracks on) (he : (l.stopChannel c t).Listed on i e c?) :
    ∃ e', l.Listed on i e' c? ∧
      (c? = some c ∧ e = { e' with stop := some t } ∨ l.slot c ≠ some i ∧ e = e') := by
  have hentry := he.entry
  rw [getElem?_stopChannel] at hentry
  obtain ⟨e', hold, hsame⟩ := Option.map_eq_some_iff.mp hentry
  refine ⟨e', ⟨hold, he.channel⟩, ?_⟩
  by_cases hi : l.slot c = some i
  · obtain ⟨_, hplace⟩ := h.place c i hi
    rw [if_pos hi] at hsame
    exact .inl ⟨Option.some.inj (he.channel.symm.trans hplace.channel), hsame.symm⟩
  · rw [if_neg hi] at hsame
    exact .inr ⟨hi, hsame.symm⟩

theorem Tracks.stopChannel (h : l.Tracks on) (c : Channel) (t : R) : (l.stopChannel c t).Tracks on where
  length := (length_stopChannel l c t).trans h.length
  place d i hd := by
    rw [slot_stopChannel] at hd
    split_ifs at hd
    obtain ⟨e, he⟩ := h.place d i hd
    exact ⟨_, by rw [getElem?_stopChannel, he.entry, Option.map_some], he.channel⟩
  isOpen d i e he := by
    rw [slot_stopChannel]
    obtain ⟨e', hold, ⟨hd, rfl⟩ | ⟨hc, rfl⟩⟩ := h.listed_stopChannel he
    · rw [if_pos (Option.some.inj hd)]
      exact ⟨nofun, nofun⟩
    · rw [h.isOpen d i e hold]
      split_ifs with hd
      · rw [hd]
        exact ⟨fun hi => absurd hi hc, nofun⟩
      · exact Iff.rfl
  clip i e he := by
    obtain ⟨e', hold, ⟨hd, -⟩ | ⟨-, rfl⟩⟩ := h.listed_stopChannel he
    · cases hd
    · exact h.clip i e hold
  loop i e c? he := by
    obtain ⟨e', hold, ⟨-, rfl⟩ | ⟨-, rfl⟩⟩ := h.listed_stopChannel he
    · exact h.loop i e' c? hold
    · exact h.loop i e c? hold

theorem Tracks.grows_stopChannel (h : l.Tracks on) (c : Channel) (t : R) :
    l.Grows (l.stopChannel c t) := by
  intro i e he
  refine ⟨if l.slot c = some i then { e with stop := some t } else e, ?_, ?_, ?_⟩
  · rw [getElem?_stopChannel, he, Option.map_some]
  · split_ifs <;> rfl
  · split_ifs with hi
    · obtain ⟨e', he'⟩ := h.place c i hi
      obtain rfl : e' = e := Option.some.inj (he'.entry.symm.trans he)
      exact .inr ⟨(h.isOpen c i e' he').mpr hi, rfl, h.loop i e' _ he'⟩
    · exact .inl rfl

/-- An entry that is logged comes after those that are there. -/
theorem listed_add (h : l.entries.length = on.length) {e' : SoundEntry R}
    (he : (l.add e c?).Listed (on ++ [c?]) i e' d?) :
    i = l.entries.length ∧ e' = e ∧ d? = c? ∨ i ≠ l.entries.length ∧ l.Listed on i e' d? := by
  have hentry := he.entry
  have hchannel := he.channel
  rw [entries_add, getElem?_concat] at hentry
  rw [getElem?_concat, ← h] at hchannel
  split_ifs at hentry hchannel with hi
  · exact .inl ⟨hi, (Option.some.inj hentry).symm, (Option.some.inj hchannel).symm⟩
  · exact .inr ⟨hi, hentry, hchannel⟩

/-- What is logged on a channel that is free is the open entry of it. -/
theorem Tracks.add (h : l.Tracks on) (c? : Option Channel) (hstop : e.stop = none)
    (hloop : e.repetition.isSome = c?.isSome) (hfree : ∀ c, c? = some c → l.slot c = none) :
    (l.add e c?).Tracks (on ++ [c?]) where
  length := by simp [h.length]
  place d i hd := by
    rw [slot_add] at hd
    split_ifs at hd with hc
    · cases hd
      exact ⟨e, by rw [entries_add, List.getElem?_concat_length],
        by rw [h.length, List.getElem?_concat_length, hc]⟩
    · obtain ⟨e', he'⟩ := h.place d i hd
      refine ⟨e', ?_, ?_⟩
      · rw [entries_add, List.getElem?_append_left (List.getElem?_eq_some_iff.mp he'.entry).1]
        exact he'.entry
      · rw [List.getElem?_append_left (List.getElem?_eq_some_iff.mp he'.channel).1]
        exact he'.channel
  isOpen d i e' he := by
    rw [slot_add]
    obtain ⟨rfl, rfl, hd⟩ | ⟨hi, hold⟩ := listed_add h.length he
    · rw [if_pos hd.symm]
      exact ⟨fun _ => rfl, fun _ => hstop⟩
    · rw [h.isOpen d i e' hold]
      split_ifs with hd
      · rw [hfree d hd, Option.some.injEq]
        exact ⟨nofun, fun hlast => absurd hlast.symm hi⟩
      · exact Iff.rfl
  clip i e' he := by
    obtain ⟨-, rfl, -⟩ | ⟨-, hold⟩ := listed_add h.length he
    · exact hstop
    · exact h.clip i e' hold
  loop i e' d? he := by
    obtain ⟨-, rfl, rfl⟩ | ⟨-, hold⟩ := listed_add h.length he
    · exact hloop
    · exact h.loop i e' d? hold

/-! ## Any events -/

/-- An event adds the channel of the entry that it asks for. -/
theorem Tracks.handle (h : l.Tracks on) (e : SoundEvent R) :
    (l.handle e).Tracks (on ++ e.made.map Prod.snd) := by
  cases e with
  | play path offset => exact h.add none rfl rfl nofun
  | start c path offset loopDelay repetition =>
    refine (h.stopChannel c offset).add (some c) rfl rfl ?_
    rintro _ ⟨⟩
    rw [slot_stopChannel, if_pos rfl]
  | stop c time => exact (List.append_nil on).symm ▸ h.stopChannel c time
  | closeAll time =>
    exact (List.append_nil on).symm ▸ (h.stopChannel .music time).stopChannel .voiceBlip time

/-- An event makes the log grow. -/
theorem Tracks.grows_handle (h : l.Tracks on) (e : SoundEvent R) : l.Grows (l.handle e) := by
  cases e with
  | play path offset => exact l.grows_add (.clip path offset) none
  | start c path offset loopDelay repetition =>
    exact (h.grows_stopChannel c offset).trans (grows_add _ (.loop ..) (some c))
  | stop c time => exact h.grows_stopChannel c time
  | closeAll time =>
    exact (h.grows_stopChannel _ time).trans ((h.stopChannel _ time).grows_stopChannel _ time)

/-- An event adds the entry that it asks for, and ends at most besides. -/
theorem endless_handle (l : SoundLog R) (e : SoundEvent R) : (l.handle e).entries.map SoundEntry.endless =
    l.entries.map SoundEntry.endless ++ e.made.map Prod.fst := by
  cases e with
  | play path offset => exact List.map_append
  | start c path offset loopDelay repetition =>
    rw [SoundLog.handle, startChannel_eq, entries_add, List.map_append, endless_stopChannel]
    rfl
  | stop c time => exact (endless_stopChannel l c time).trans (List.append_nil _).symm
  | closeAll time =>
    rw [SoundLog.handle, closeAll, endless_stopChannel, endless_stopChannel]
    exact (List.append_nil _).symm

/-- What holds of all entries holds of them after an event, if it holds of the entry that is asked for, and an
end does it no harm. -/
theorem forall_handle {P : SoundEntry R → Prop} (h : ∀ e ∈ l.entries, P e) {ev : SoundEvent R}
    (hmade : ∀ m ∈ ev.made, P m.1) (hend : ∀ t ∈ ev.ends?, ∀ e, P e → P { e with stop := some t }) :
    ∀ e ∈ (l.handle ev).entries, P e := by
  have hadd {l : SoundLog R} {e : SoundEntry R} (c? : Option Channel) (hl : ∀ e ∈ l.entries, P e)
      (he : P e) : ∀ e' ∈ (l.add e c?).entries, P e' := by
    rw [entries_add]
    exact List.forall_mem_append.mpr ⟨hl, List.forall_mem_singleton.mpr he⟩
  cases ev with
  | play path offset => exact hadd none h (hmade _ List.mem_cons_self)
  | start c path offset loopDelay repetition =>
    exact hadd (some c) (forall_stopChannel h (hend offset rfl)) (hmade _ List.mem_cons_self)
  | stop c time => exact forall_stopChannel h (hend time rfl)
  | closeAll time => exact forall_stopChannel (forall_stopChannel h (hend time rfl)) (hend time rfl)

theorem log_concat (es : List (SoundEvent R)) (e : SoundEvent R) : log (es ++ [e]) = (log es).handle e :=
  List.foldl_append

theorem tracks_log (es : List (SoundEvent R)) : (log es).Tracks (channels es) := by
  induction es using List.reverseRecOn with
  | nil => exact tracks_empty
  | append_singleton es e ih =>
    have hchannels : channels (es ++ [e]) = channels es ++ e.made.map Prod.snd := by simp [channels]
    rw [hchannels, log_concat]
    exact ih.handle e

theorem grows_log (es more : List (SoundEvent R)) : (log es).Grows (log (es ++ more)) := by
  induction more using List.reverseRecOn with
  | nil =>
    rw [List.append_nil]
    exact .refl _
  | append_singleton more e ih =>
    rw [← List.append_assoc, log_concat]
    exact ih.trans ((tracks_log _).grows_handle e)

theorem forall_log {P : SoundEntry R → Prop} {es : List (SoundEvent R)}
    (hmade : ∀ ev ∈ es, ∀ m ∈ ev.made, P m.1)
    (hend : ∀ ev ∈ es, ∀ t ∈ ev.ends?, ∀ e, P e → P { e with stop := some t }) :
    ∀ e ∈ (log es).entries, P e := by
  induction es using List.reverseRecOn with
  | nil => exact fun e he => absurd he List.not_mem_nil
  | append_singleton es ev ih =>
    rw [log_concat]
    have hlast : ev ∈ es ++ [ev] := List.mem_append_right es (List.mem_singleton_self ev)
    exact forall_handle
      (ih (fun ev' h => hmade ev' (List.mem_append_left _ h)) fun ev' h => hend ev' (List.mem_append_left _ h))
      (hmade ev hlast) (hend ev hlast)

theorem endless_log (es : List (SoundEvent R)) :
    (log es).entries.map SoundEntry.endless = (es.flatMap SoundEvent.made).map Prod.fst := by
  induction es using List.reverseRecOn with
  | nil => rfl
  | append_singleton es e ih =>
    rw [log_concat, endless_handle, ih]
    simp

/-- What holds of the log after some events. -/
structure ChannelLaw (es : List (SoundEvent R)) : Prop where
  /-- The entries are those that were asked for, in order, but for their ends. -/
  entries : (log es).entries.map SoundEntry.endless = (es.flatMap SoundEvent.made).map Prod.fst
  /-- Each of them has its channel, or none. -/
  length : (log es).entries.length = (channels es).length
  /-- Whatever happens later, the entries stay in their places and get an end at most, and only once. -/
  grows : ∀ more, (log es).Grows (log (es ++ more))
  /-- A channel that is open has one entry without an end, and all its others have one. -/
  isOpen : ∀ c, (log es).isOpen c → ∃ i e, (log es).Listed (channels es) i e (some c) ∧ e.stop = none ∧
    ∀ j e', (log es).Listed (channels es) j e' (some c) → j ≠ i → e'.stop.isSome
  /-- A channel that is not open has no entry without an end. -/
  closed : ∀ c, ¬(log es).isOpen c → ∀ i e, (log es).Listed (channels es) i e (some c) → e.stop.isSome
  /-- A clip that is played once has no end. -/
  clip : ∀ i e, (log es).Listed (channels es) i e none → e.stop = none
  /-- The entries that are opened on channels are those that are repeated. -/
  loop : ∀ i e c?, (log es).Listed (channels es) i e c? → e.repetition.isSome = c?.isSome

theorem channelLaw (es : List (SoundEvent R)) : ChannelLaw es where
  entries := endless_log es
  length := (tracks_log es).length
  grows := grows_log es
  isOpen c hc := by
    obtain ⟨i, hi⟩ := Option.isSome_iff_exists.mp hc
    obtain ⟨e, he⟩ := (tracks_log es).place c i hi
    refine ⟨i, e, he, ((tracks_log es).isOpen c i e he).mpr hi, fun j e' he' hj => ?_⟩
    rw [Option.isSome_iff_ne_none]
    intro hnone
    have hother := ((tracks_log es).isOpen c j e' he').mp hnone
    rw [hi] at hother
    exact hj (Option.some.inj hother).symm
  closed c hc i e he := by
    rw [Option.isSome_iff_ne_none]
    intro hnone
    have hslot := ((tracks_log es).isOpen c i e he).mp hnone
    exact hc (Option.isSome_iff_exists.mpr ⟨i, hslot⟩)
  clip := (tracks_log es).clip
  loop := (tracks_log es).loop

end SoundLog

/-! ## A clock -/

/-- The event takes place at this time. A clip that is played once may start at any time. -/
def SoundEvent.At (t : R) : SoundEvent R → Prop
  | play _ _ => True
  | start _ _ offset _ _ => offset = t
  | stop _ time => time = t
  | closeAll time => time = t

theorem SoundEvent.At.ends {ev : SoundEvent R} {now t : R} (h : ev.At now) (ht : t ∈ ev.ends?) : t = now := by
  cases ev <;> cases ht <;> exact h

/-- A clip that is repeated starts with a tick of the clock and ends with one that is not before. -/
def SoundEntry.Within (clock : Nat → R) (n : Nat) (e : SoundEntry R) : Prop :=
  e.repetition.isSome →
    ∃ m ≤ n, e.offset = clock m ∧ ∀ t, e.stop = some t → ∃ k, m ≤ k ∧ k ≤ n ∧ t = clock k

variable {clock : Nat → R} {n : Nat}

theorem SoundEntry.Within.tick {e : SoundEntry R} (h : e.Within clock n) : e.Within clock (n + 1) := by
  intro hloop
  obtain ⟨m, hm, hoffset, hstop⟩ := h hloop
  refine ⟨m, Nat.le_succ_of_le hm, hoffset, fun t ht => ?_⟩
  obtain ⟨k, hmk, hk, rfl⟩ := hstop t ht
  exact ⟨k, hmk, Nat.le_succ_of_le hk, rfl⟩

theorem SoundEntry.Within.stop {e : SoundEntry R} (h : e.Within clock n) :
    { e with stop := some (clock n) }.Within clock n := by
  intro hloop
  obtain ⟨m, hm, hoffset, -⟩ := h hloop
  refine ⟨m, hm, hoffset, ?_⟩
  rintro _ ⟨⟩
  exact ⟨n, hm, Nat.le_refl n, rfl⟩

namespace SoundLog

/-- The logs that are kept while a clock ticks: whatever is logged is logged at the time of the last tick. -/
inductive Timed (clock : Nat → R) : Nat → SoundLog R → Prop
  | start : Timed clock 0 empty
  | tick {n l} (h : Timed clock n l) : Timed clock (n + 1) l
  | event {n l} (h : Timed clock n l) (e : SoundEvent R) (he : e.At (clock n)) : Timed clock n (l.handle e)

variable {l : SoundLog R}

theorem Timed.exists_log (h : l.Timed clock n) : ∃ es, l = log es := by
  induction h with
  | start => exact ⟨[], rfl⟩
  | tick _ ih => exact ih
  | event _ e _ ih =>
    obtain ⟨es, rfl⟩ := ih
    exact ⟨es ++ [e], (log_concat es e).symm⟩

/-- What is repeated in such a log ends no earlier than it starts, and no later than the last tick. -/
theorem Timed.within (h : Timed clock n l) : ∀ e ∈ l.entries, e.Within clock n := by
  induction h with
  | start => exact fun e he => absurd he List.not_mem_nil
  | tick _ ih => exact fun e he => (ih e he).tick
  | event _ ev hev ih =>
    refine forall_handle ih ?_ ?_
    · cases ev with
      | play path offset => exact List.forall_mem_singleton.mpr nofun
      | start c path offset loopDelay repetition =>
        cases hev
        exact List.forall_mem_singleton.mpr fun _ => ⟨_, Nat.le_refl _, rfl, nofun⟩
      | stop c time => exact fun m hm => absurd hm List.not_mem_nil
      | closeAll time => exact fun m hm => absurd hm List.not_mem_nil
    · intro t ht e he
      rw [hev.ends ht]
      exact he.stop

/-- Once both channels are closed, every entry of a channel has an end. -/
theorem isSome_stop_of_closeAll (es : List (SoundEvent R)) (t : R) :
    ∀ e ∈ ((log es).closeAll t).entries, e.repetition.isSome → e.stop.isSome := by
  intro e he hloop
  have hlog : (log es).closeAll t = log (es ++ [.closeAll t]) := (log_concat es (.closeAll t)).symm
  rw [hlog] at he
  have hlaw := channelLaw (es ++ [.closeAll t])
  obtain ⟨i, hi⟩ := List.mem_iff_getElem?.mp he
  have hi' : i < (channels (es ++ [.closeAll t])).length :=
    hlaw.length ▸ (List.getElem?_eq_some_iff.mp hi).1
  have hlisted : (log (es ++ [.closeAll t])).Listed (channels (es ++ [.closeAll t])) i e _ :=
    ⟨hi, List.getElem?_eq_getElem hi'⟩
  have hchannel := hlaw.loop i e _ hlisted
  rw [hloop] at hchannel
  obtain ⟨c, hc⟩ := Option.isSome_iff_exists.mp hchannel.symm
  rw [hc] at hlisted
  refine hlaw.closed c ?_ i e hlisted
  rw [← hlog, SoundLog.isOpen, closeAll]
  cases c <;> simp

end SoundLog

end Cutscene
