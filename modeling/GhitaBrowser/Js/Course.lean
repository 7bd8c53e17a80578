import GhitaBrowser.Js.Engine

/-!
# The course of a run

What one operation adds to the trace of a run: a step beyond the limit, a host
operation, or events of the promise table only. Everything else in a trace comes
from the scopes and guards, which also move the call depth.
-/

namespace GhitaBrowser.Js

variable {η : Type}

def TraceEvent.isPromiseEvent : TraceEvent → Bool
  | created .. | reacted .. | registered .. | queued _ | took _ | settled .. => true
  | _ => false

namespace Realm

/-- From `s` to `t` only the promise table was at work. -/
structure Quiet (s t : Realm η) : Prop where
  callDepth : t.callDepth = s.callDepth
  budget : t.steps = s.steps ∧ t.maxSteps = s.maxSteps
  trace : ∃ new, t.trace = new ++ s.trace ∧ ∀ event ∈ new, event.isPromiseEvent

namespace Quiet

theorem refl (s : Realm η) : Quiet s s := ⟨rfl, ⟨rfl, rfl⟩, [], rfl, by simp⟩

theorem trans {s t u : Realm η} (first : Quiet s t) (second : Quiet t u) : Quiet s u := by
  obtain ⟨new, hnew, hevents⟩ := first.trace
  obtain ⟨newer, hnewer, hevents'⟩ := second.trace
  have hsteps := second.budget.1.trans first.budget.1
  have hmax := second.budget.2.trans first.budget.2
  refine ⟨second.callDepth.trans first.callDepth, ⟨hsteps, hmax⟩, newer ++ new, ?_, ?_⟩
  · rw [hnewer, hnew, List.append_assoc]
  · intro event hevent
    cases List.mem_append.mp hevent with
    | inl h => exact hevents' event h
    | inr h => exact hevents event h

/-- A step that records one promise event. -/
theorem of_record {s t : Realm η} {event : TraceEvent} (hdepth : t.callDepth = s.callDepth)
    (hbudget : t.steps = s.steps ∧ t.maxSteps = s.maxSteps)
    (htrace : t.trace = event :: s.trace) (hevent : event.isPromiseEvent) : Quiet s t :=
  ⟨hdepth, hbudget, [event], htrace, by simpa using hevent⟩

/-- A step that records nothing. -/
theorem of_silent {s t : Realm η} (hdepth : t.callDepth = s.callDepth)
    (hbudget : t.steps = s.steps ∧ t.maxSteps = s.maxSteps)
    (htrace : t.trace = s.trace) : Quiet s t :=
  ⟨hdepth, hbudget, [], htrace, by simp⟩

end Quiet

/-- What one operation does to the trace, and that it keeps the call depth. -/
inductive Advance (s : Realm η) : Exit → Realm η → Prop where
  | quiet {exit : Exit} {t : Realm η} : Quiet s t → Advance s exit t
  | stepped {t : Realm η} : t.callDepth = s.callDepth → t.trace = s.trace →
      t.steps = s.steps + 1 ∧ t.maxSteps = s.maxSteps → t.steps ≤ t.maxSteps →
      Advance s .returned t
  | exhausted {t : Realm η} : t.callDepth = s.callDepth → t.trace = .exhausted :: s.trace →
      t.maxSteps < t.steps → Advance s .failed t
  | host {exit : Exit} {t : Realm η} : t.callDepth = s.callDepth →
      t.trace = .hostOperation :: s.trace → t.steps = s.steps ∧ t.maxSteps = s.maxSteps →
      Advance s exit t

theorem Advance.callDepth {s t : Realm η} {exit : Exit} (advance : Advance s exit t) :
    t.callDepth = s.callDepth := by
  cases advance with
  | quiet h => exact h.callDepth
  | stepped h => exact h
  | exhausted h => exact h
  | host h => exact h

theorem enqueueJob_quiet (job : PromiseReactionJob) (r : Realm η) :
    Quiet r (r.enqueueJob job).2 := by
  unfold enqueueJob
  split
  · exact .refl r
  · exact .of_record rfl ⟨rfl, rfl⟩ rfl rfl

theorem enqueueRegisteredReaction_quiet (reaction : PendingPromiseReaction)
    (state : JsvPromiseState) (r : Realm η) :
    Quiet r (r.enqueueRegisteredReaction reaction state).2 := by
  unfold enqueueRegisteredReaction
  split
  · exact enqueueJob_quiet _ r
  · exact .refl r

theorem enqueueReactions_quiet (state : JsvPromiseState)
    (reactions : List PendingPromiseReaction) (r : Realm η) :
    Quiet r (r.enqueueReactions state reactions).2 := by
  induction reactions generalizing r with
  | nil => exact .refl r
  | cons reaction reactions ih =>
    have hfirst := enqueueRegisteredReaction_quiet reaction state r
    simp only [enqueueReactions]
    cases he : r.enqueueRegisteredReaction reaction state with
    | mk outcome t =>
      rw [he] at hfirst
      cases outcome with
      | error error => exact hfirst
      | ok _ => exact hfirst.trans (ih t)

theorem enterExpr_advance (r : Realm η) : Advance r (exitOf r.enterExpr.1) r.enterExpr.2 := by
  simp only [enterExpr]
  split
  · exact .exhausted rfl rfl ‹_›
  · exact .stepped rfl rfl ⟨rfl, rfl⟩ (Nat.not_lt.mp ‹_›)

theorem step_advance (r : Realm η) : Advance r (exitOf r.step.1) r.step.2 := by
  simp only [step]
  split
  · exact .exhausted rfl rfl ‹_›
  · exact .stepped rfl rfl ⟨rfl, rfl⟩ (Nat.not_lt.mp ‹_›)

variable [Platform]

theorem registerPending_quiet (promise : Nat) (reaction : PendingPromiseReaction)
    (r : Realm η) : Quiet r (r.registerPending promise reaction).2 := by
  unfold registerPending
  split
  · exact .refl r
  · exact .of_record rfl ⟨rfl, rfl⟩ rfl rfl

theorem settle_quiet (promise : Nat) (state : JsvPromiseState) (r : Realm η) :
    Quiet r (r.settle promise state).2 := by
  have hrecord : Quiet r
      ({ r with promises := r.promises.set promise state }.record (.settled promise state)) :=
    .of_record rfl ⟨rfl, rfl⟩ rfl rfl
  unfold settle
  split
  · exact hrecord
  · refine hrecord.trans (.trans (.of_silent ?_ ⟨?_, ?_⟩ ?_) (enqueueReactions_quiet state _ _)) <;> rfl

theorem react_quiet (promise : Nat) (onFulfilled onRejected onFinally : Option JsvValue)
    (r : Realm η) : Quiet r (r.react promise onFulfilled onRejected onFinally).2 := by
  unfold react
  have hcreated : Quiet r (r.newPromise .pending none).2 := .of_record rfl ⟨rfl, rfl⟩ rfl rfl
  have hnew : Quiet r ((r.newPromise .pending none).2.record (.reacted promise
      (r.newPromise .pending none).1 onFulfilled onRejected onFinally)) :=
    hcreated.trans (.of_record rfl ⟨rfl, rfl⟩ rfl rfl)
  simp only
  split
  · exact hnew.trans (registerPending_quiet promise _ _)
  · exact hnew.trans (enqueueRegisteredReaction_quiet _ _ _)

variable [JsvHost η]

theorem perform_advance {β : Type} (op : Op β) (r : Realm η) :
    Advance r (exitOf (r.perform op).1) (r.perform op).2 := by
  cases op with
  | store f => exact .quiet (.of_silent rfl ⟨rfl, rfl⟩ rfl)
  | enterExpr => exact enterExpr_advance r
  | step => exact step_advance r
  | hostGet object property => exact .host rfl rfl ⟨rfl, rfl⟩
  | hostSet object property value => exact .host rfl rfl ⟨rfl, rfl⟩
  | hostCall object method arguments => exact .host rfl rfl ⟨rfl, rfl⟩
  | newPromise state source => exact .quiet (.of_record rfl ⟨rfl, rfl⟩ rfl rfl)
  | promiseState promise => exact .quiet (.refl r)
  | react promise onFulfilled onRejected onFinally =>
    exact .quiet (react_quiet promise onFulfilled onRejected onFinally r)

theorem performJob_advance {β : Type} (op : JobOp β) (r : Realm η) :
    Advance r (exitOf (r.performJob op).1) (r.performJob op).2 := by
  cases op with
  | script op => exact perform_advance op r
  | takeJob =>
    simp only [performJob]
    split
    · exact .quiet (.refl r)
    · exact .quiet (.of_record rfl ⟨rfl, rfl⟩ rfl rfl)
  | putBackJob job => exact .quiet (.of_silent rfl ⟨rfl, rfl⟩ rfl)
  | settle promise state => exact .quiet (settle_quiet promise state r)
  | registerPending promise reaction => exact .quiet (registerPending_quiet promise reaction r)

end Realm

/-! ## Scopes -/

/-- The conditions that are evaluated one call level deeper. -/
def Scope.isCondition : Scope → Bool
  | ifCondition | whileCondition => true
  | _ => false

/-- The call levels a scope takes. -/
def Scope.levels : Scope → Nat
  | ifCondition | whileCondition | loopBody | call => 1
  | _ => 0

namespace Realm

variable (scope : Scope)

theorem leave_budget (isOk : Bool) (r : Realm η) :
    (r.leave scope isOk).steps = r.steps ∧ (r.leave scope isOk).maxSteps = r.maxSteps := by
  cases scope <;> cases isOk <;> exact ⟨rfl, rfl⟩

theorem leave_trace (isOk : Bool) (r : Realm η) :
    (r.leave scope isOk).trace = .left scope isOk :: r.trace := by
  cases scope <;> cases isOk <;> rfl

theorem leave_ok_callDepth (r : Realm η) :
    (r.leave scope true).callDepth = r.callDepth - scope.levels := by
  cases scope <;> rfl

theorem leave_error_callDepth (r : Realm η) :
    (r.leave scope false).callDepth =
      if scope.isCondition then r.callDepth else r.callDepth - scope.levels := by
  cases scope <;> rfl

variable [Platform]

theorem deeper_ok {scope : Scope} {isRestored : Bool} {message : String} {s t : Realm η}
    (h : s.deeper scope isRestored message = (.ok (), t)) :
    t.trace = .entered scope :: s.trace ∧ t.callDepth = s.callDepth + 1 := by
  unfold deeper at h
  split at h
  · cases h
  · cases h
    exact ⟨rfl, rfl⟩

theorem deeper_error {scope : Scope} {isRestored : Bool} {message error : String} {s t : Realm η}
    (h : s.deeper scope isRestored message = (.error error, t)) :
    t.trace = .refused scope :: s.trace ∧
      t.callDepth = s.callDepth + if isRestored then 0 else 1 := by
  unfold deeper at h
  split at h
  · cases h
    cases isRestored <;> exact ⟨rfl, rfl⟩
  · cases h

theorem enter_budget (r : Realm η) :
    (r.enter scope).2.steps = r.steps ∧ (r.enter scope).2.maxSteps = r.maxSteps := by
  cases scope <;> simp only [enter, deeper] <;> (try split) <;> (try split) <;> exact ⟨rfl, rfl⟩

theorem enter_ok {scope : Scope} {s t : Realm η} (h : s.enter scope = (.ok (), t)) :
    t.trace = .entered scope :: s.trace ∧ t.callDepth = s.callDepth + scope.levels := by
  cases scope with
  | ifCondition => exact deeper_ok h
  | whileCondition => exact deeper_ok h
  | loopBody => exact deeper_ok h
  | call => exact deeper_ok h
  | proxyTrap =>
    simp only [enter] at h
    split at h
    · cases h
    · cases h
      exact ⟨rfl, rfl⟩
  | resumed generator =>
    cases h
    exact ⟨rfl, rfl⟩
  | generatorStatement generator =>
    cases h
    exact ⟨rfl, rfl⟩

theorem enter_error {scope : Scope} {error : String} {s t : Realm η}
    (h : s.enter scope = (.error error, t)) :
    t.trace = .refused scope :: s.trace ∧
      t.callDepth = s.callDepth + if scope.isCondition then 1 else 0 := by
  cases scope with
  | ifCondition => exact deeper_error h
  | whileCondition => exact deeper_error h
  | loopBody => exact deeper_error h
  | call => exact deeper_error h
  | proxyTrap =>
    simp only [enter] at h
    split at h
    · cases h
      exact ⟨rfl, rfl⟩
    · cases h
  | resumed generator => cases h
  | generatorStatement generator => cases h

end Realm

end GhitaBrowser.Js
