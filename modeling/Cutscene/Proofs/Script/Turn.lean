import Cutscene.Proofs.Script.Finisher
import Cutscene.Proofs.Script.Order

/-!
# What a turn of the queue leads to

Besides running its callback, an action works on nodes, uses its finisher and may load its page. So where
a turn of the queue leads to is up to the callback that is run in it and to the page that is loaded, for
all properties of the context that look neither at nodes nor at finishers.

Results:
* `Action.update_leads`: what an update leads to.
* `ActionQueue.update_leads`: what a turn of the queue leads to.
-/

namespace Cutscene

variable {R : Type}

/-- A property of contexts that looks neither at nodes nor at finishers and what they report. -/
structure Context.Blind (P : Context R → Prop) : Prop where
  scene : ∀ c scene, P c → P { c with scene }
  finisher : ∀ c finisher raised, P c → P { c with finisher, raised }

/-- A callback after which the second property holds, if the first held before. -/
def Callback.Leads (P Q : Context R → Prop) (f : Callback R) : Prop := ∀ c, P c → Q (f c)

variable {P Q : Context R → Prop} {c : Context R}

namespace Context.Blind

theorem finishAction (hP : Blind P) (hc : P c) : P c.finishAction := by
  unfold Context.finishAction
  cases c.finisher with
  | none => exact hc
  | some id => exact hP.finisher c none (c.raised ++ [id]) hc

theorem modifyNode (hP : Blind P) (id : NodeId) (f : Node R → Node R) (hc : P c) :
    P (c.modifyNode id f) := hP.scene c _ hc

end Context.Blind

/-- The end of an action leads where its callback does. -/
theorem Context.leads_complete (hQ : Blind Q) (hPQ : ∀ c, P c → Q c) {onComplete : Option (Callback R)}
    (h : ∀ f ∈ onComplete, Callback.Leads P Q f) (hc : P c) : Q (c.complete onComplete) := by
  unfold complete
  cases onComplete with
  | none => exact hQ.finishAction (hPQ c hc)
  | some f => exact hQ.finishAction (h f rfl c hc)

variable [Scalar R]

/-- An update leads where the callback of the action does. -/
theorem Action.update_leads (hP : Context.Blind P) (hQ : Context.Blind Q) (hPQ : ∀ c, P c → Q c)
    {a : Action R} (h : ∀ f ∈ a.callback?, Callback.Leads P Q f) (dt : R) (hc : P c) :
    Q (a.update dt c).2 := by
  cases a with
  | move m =>
    simp only [update, Move.update]
    split_ifs
    · exact hPQ c hc
    · exact Context.leads_complete hQ hPQ h (hP.modifyNode _ _ hc)
    · exact hQ.modifyNode _ _ (hPQ c hc)
  | jump j =>
    simp only [update, Jump.update]
    split_ifs
    · exact hPQ c hc
    · exact Context.leads_complete hQ hPQ h (hP.modifyNode _ _ hc)
  | pause p =>
    simp only [update, Pause.update]
    split_ifs
    · exact hPQ c hc
    · exact Context.leads_complete hQ hPQ h hc
    · exact hPQ c hc
  | setSprite node sprite => exact hQ.finishAction (hQ.modifyNode _ _ (hPQ c hc))
  | run f =>
    cases f with
    | none => exact hPQ c hc
    | some f => exact hQ.finishAction (h f rfl c hc)
  | page p speaker => exact hPQ c hc

/-- A turn leads where the callbacks of the queued actions do, if their starts keep the first property. -/
theorem ActionQueue.update_leads (hP : Context.Blind P) (hQ : Context.Blind Q) (hPQ : ∀ c, P c → Q c)
    {s : ActionQueue R} (hstart : ∀ q ∈ s.settle.items, Callback.Leads P P q.action.start)
    (hcallback : ∀ q ∈ s.settle.items, ∀ f ∈ q.action.callback?, Callback.Leads P Q f) (dt : R)
    (hc : P c) : Q (s.update dt c).2.2 := by
  cases hitems : s.settle.items with
  | nil =>
    rw [update_of_nil hitems]
    exact hPQ c hc
  | cons q rest =>
    have hq : q ∈ s.settle.items := hitems ▸ List.mem_cons_self
    have hopened : P (if s.settle.started = some q.id then c else begin q c) := by
      split_ifs
      · exact hc
      · exact hstart q hq _ (hP.finisher c _ _ hc)
    rw [update_of_cons hitems]
    generalize (if s.settle.started = some q.id then c else begin q c) = d at hopened
    have hturn : Q (turn q dt d).2 :=
      Action.update_leads hP hQ hPQ (hcallback q hq) dt (hP.finisher d _ d.raised hopened)
    exact hQ.finisher _ none [] hturn

end Cutscene
