import GhitaBrowser.Js.CallDepth
import Mathlib.Logic.Relation

/-!
# Promise.prototype.finally

A `finally` reaction becomes the same job whether its promise was settled when it was
registered or settles later, and the same kind of job on both outcomes. The job does
not know which outcome it was, so it passes a rejection reason on as a value.
-/

namespace GhitaBrowser.Js

variable {η : Type}

/-- The reaction `p.finally(f)` registers. -/
def finallyReaction (f : JsvValue) (result : Nat) : PendingPromiseReaction :=
  ⟨none, none, some f, none, result⟩

/-- The value or the reason of a settled promise. -/
def JsvPromiseState.payload : JsvPromiseState → JsvValue
  | fulfilled value => value
  | rejected reason => reason
  | pending => .undefined

/-- The job of `p.finally(f)`. -/
def finallyJob (f : JsvValue) (result : Nat) (state : JsvPromiseState) : PromiseReactionJob :=
  ⟨.finally, some f, state.payload, result⟩

variable {state : JsvPromiseState}

theorem registeredJob_finally (f : JsvValue) (result : Nat) (hsettled : state.isPending = false) :
    registeredJob (finallyReaction f result) state = some (finallyJob f result state) := by
  cases state with
  | pending => cases hsettled
  | fulfilled value => rfl
  | rejected reason => rfl

section Registration

namespace Realm

/-! ## The registration -/

theorem enqueueRegisteredReaction_keeps (reaction : PendingPromiseReaction)
    (state : JsvPromiseState) (r : Realm η) :
    (r.enqueueRegisteredReaction reaction state).2.promises = r.promises ∧
      (r.enqueueRegisteredReaction reaction state).2.pendingPromiseReactions =
        r.pendingPromiseReactions := by
  unfold enqueueRegisteredReaction enqueueJob
  split
  · split <;> exact ⟨rfl, rfl⟩
  · exact ⟨rfl, rfl⟩

theorem enqueueReactions_keeps (state : JsvPromiseState) (reactions : List PendingPromiseReaction)
    (r : Realm η) : (r.enqueueReactions state reactions).2.promises = r.promises ∧
      (r.enqueueReactions state reactions).2.pendingPromiseReactions =
        r.pendingPromiseReactions := by
  induction reactions generalizing r with
  | nil => exact ⟨rfl, rfl⟩
  | cons reaction reactions ih =>
    have hfirst := enqueueRegisteredReaction_keeps reaction state r
    rw [enqueueReactions]
    split
    · next heq =>
      rw [heq] at hfirst
      exact hfirst
    · next heq =>
      rw [heq] at hfirst
      exact ⟨(ih _).1.trans hfirst.1, (ih _).2.trans hfirst.2⟩

/-- A reaction that could be queued is in the queue as its job. -/
theorem enqueueRegisteredReaction_ok {reaction : PendingPromiseReaction} {state : JsvPromiseState}
    {r t : Realm η} (h : r.enqueueRegisteredReaction reaction state = (.ok (), t)) :
    ∃ job, registeredJob reaction state = some job ∧ t.microtasks = r.microtasks ++ [job] := by
  unfold enqueueRegisteredReaction enqueueJob at h
  split at h
  · next job hjob =>
    split at h
    · cases h
    · cases h
      exact ⟨job, hjob, rfl⟩
  · cases h

theorem enqueueReactions_ok {state : JsvPromiseState} {reactions : List PendingPromiseReaction}
    {r t : Realm η} (h : r.enqueueReactions state reactions = (.ok (), t)) :
    ∃ jobs, reactions.map (registeredJob · state) = jobs.map some ∧
      t.microtasks = r.microtasks ++ jobs := by
  induction reactions generalizing r with
  | nil =>
    cases h
    exact ⟨[], rfl, (List.append_nil _).symm⟩
  | cons reaction reactions ih =>
    rw [enqueueReactions] at h
    split at h
    · cases h
    · next _ _ hfirst =>
      obtain ⟨job, hjob, hqueue⟩ := enqueueRegisteredReaction_ok hfirst
      obtain ⟨jobs, hjobs, hqueues⟩ := ih h
      refine ⟨job :: jobs, ?_, ?_⟩
      · rw [List.map_cons, List.map_cons, hjob, hjobs]
      · rw [hqueues, hqueue, List.append_assoc, List.singleton_append]

variable [Platform]

theorem registerPending_ok {promise : Nat} {reaction : PendingPromiseReaction} {r t : Realm η}
    (h : r.registerPending promise reaction = (.ok (), t)) :
    (Platform.promiseAddress promise, reaction) ∈ t.pendingPromiseReactions := by
  unfold registerPending at h
  split at h
  · cases h
  · cases h
    exact List.mem_append_right _ (List.mem_singleton_self _)

omit [Platform] in
/-- The promise of a new reaction is pending, and the other promises stay as they are. -/
theorem promiseState_newPromise (promise : Nat) (r : Realm η) :
    (r.newPromise .pending none).2.promiseState promise = r.promiseState promise := by
  simp only [promiseState, newPromise, record]
  by_cases hold : promise < r.promises.length
  · rw [List.getElem?_append_left hold]
  · have hnone : r.promises[promise]? = none := List.getElem?_eq_none (Nat.not_lt.1 hold)
    rw [List.getElem?_append_right (Nat.not_lt.1 hold), hnone]
    cases promise - r.promises.length <;> rfl

variable {promise result : Nat}

omit [Platform] in
theorem answered {outcome : Except String Unit × Realm η} {t : Realm η}
    (h : (outcome.1.map fun _ => promise, outcome.2) = (.ok result, t)) :
    promise = result ∧ outcome = (.ok (), t) := by
  obtain ⟨reply, u⟩ := outcome
  cases reply with
  | error error => cases h
  | ok _ =>
    cases h
    exact ⟨rfl, rfl⟩

/-- The call of `p.finally(f)` registers one reaction, with a new promise. -/
theorem react_finally {f : JsvValue} {r t : Realm η}
    (h : r.react promise none none (some f) = (.ok result, t)) : ∃ u : Realm η,
      (match r.promiseState promise with
        | .pending => u.registerPending promise (finallyReaction f result)
        | state => u.enqueueRegisteredReaction (finallyReaction f result) state) = (.ok (), t) := by
  let u := (r.newPromise .pending none).2.record
    (.reacted promise r.promises.length none none (some f))
  have hstate : u.promiseState promise = r.promiseState promise := promiseState_newPromise promise r
  unfold react at h
  rw [← hstate]
  obtain ⟨rfl, houtcome⟩ := answered h
  exact ⟨u, houtcome⟩

/-- `p.finally(f)` on a settled promise queues its job at once. -/
theorem react_queues_finallyJob {f : JsvValue} {r t : Realm η}
    (h : r.react promise none none (some f) = (.ok result, t))
    (hsettled : (r.promiseState promise).isPending = false) :
    finallyJob f result (r.promiseState promise) ∈ t.microtasks := by
  obtain ⟨u, houtcome⟩ := react_finally h
  split at houtcome
  · next hpending =>
    rw [hpending] at hsettled
    cases hsettled
  · obtain ⟨job, hjob, hqueue⟩ := enqueueRegisteredReaction_ok houtcome
    rw [registeredJob_finally f result hsettled] at hjob
    cases hjob
    rw [hqueue]
    exact List.mem_append_right _ (List.mem_singleton_self _)

/-- On a pending promise its reaction waits in the table. -/
theorem react_waits {f : JsvValue} {r t : Realm η}
    (h : r.react promise none none (some f) = (.ok result, t))
    (hpending : r.promiseState promise = .pending) :
    (Platform.promiseAddress promise, finallyReaction f result) ∈ t.pendingPromiseReactions := by
  obtain ⟨u, houtcome⟩ := react_finally h
  rw [hpending] at houtcome
  exact registerPending_ok houtcome

/-- When the promise is settled, the reaction that waits is queued as the same job. -/
theorem settle_queues_finallyJob {f : JsvValue} {state : JsvPromiseState}
    {s t : Realm η} (h : s.settle promise state = (.ok (), t)) (hsettled : state.isPending = false)
    (hwaits : (Platform.promiseAddress promise, finallyReaction f result) ∈
      s.pendingPromiseReactions) :
    finallyJob f result state ∈ t.microtasks := by
  unfold settle at h
  rw [if_neg (by simp [hsettled])] at h
  obtain ⟨jobs, hjobs, hqueue⟩ := enqueueReactions_ok h
  have hreaction : finallyReaction f result ∈ s.reactionsAt (Platform.promiseAddress promise) :=
    List.mem_map.2 ⟨_, List.mem_filter.2 ⟨hwaits, beq_self_eq_true _⟩, rfl⟩
  have hjob := List.mem_map_of_mem (f := (registeredJob · state)) hreaction
  rw [show (s.reactionsAt (Platform.promiseAddress promise)).map (registeredJob · state) =
    jobs.map some from hjobs, registeredJob_finally f result hsettled] at hjob
  obtain ⟨job, hmem, heq⟩ := List.mem_map.1 hjob
  rw [hqueue, ← Option.some.inj heq]
  exact List.mem_append_right _ hmem

/-! ## Between the call and the settlement -/

variable [JsvHost η]

/-- A step of the engine, anywhere in a run. -/
inductive Step (s : Realm η) : Realm η → Prop where
  | perform {β : Type} (op : JobOp β) : Step s (s.performJob op).2
  | enter (scope : Scope) : Step s (s.enter scope).2
  | leave (scope : Scope) (isOk : Bool) : Step s (s.leave scope isOk)
  | guarded (guard : Guard) : Step s (s.record (.guarded guard))
  | unguarded (guard : Guard) (isOk : Bool) : Step s (s.record (.unguarded guard isOk))

theorem Step.entered {s t : Realm η} {scope : Scope} {reply : Except String Unit}
    (h : s.enter scope = (reply, t)) : Step s t := by
  have hstep : Step s (s.enter scope).2 := .enter scope
  rwa [h] at hstep

def Reaches : Realm η → Realm η → Prop := Relation.ReflTransGen Step

theorem reaches_contract : Contract (engine η) (fun s _ t => Reaches s t) where
  done _ _ := .refl
  next := .trans
  perform op _ := .single (.perform op)
  refused _ h := .single (.entered h)
  returned scope h inner := (inner.head (.entered h)).tail (.leave scope true)
  failed scope h inner := (inner.head (.entered h)).tail (.leave scope false)
  unfinished _ h inner := inner.head (.entered h)
  guarded guard inner := (inner.head (.guarded guard)).tail (.unguarded guard true)
  caught guard inner := (inner.head (.guarded guard)).tail (.unguarded guard false)
  cut guard inner := inner.head (.guarded guard)

/-- What a program leads to is reached by steps. -/
theorem run_reaches {α : Type} (fuel : Nat) (program : JobEval α) (r : Realm η) :
    Reaches r ((engine η).run fuel program r).2 :=
  reaches_contract.run fuel program r

/-- A promise at the address was settled in the events. -/
def Settles (address : Nat) (events : List TraceEvent) : Prop :=
  ∃ promise state, .settled promise state ∈ events ∧ Platform.promiseAddress promise = address

/-- An entry of the table stays until a promise at its address is settled. -/
structure Waits (entry : Nat × PendingPromiseReaction) (s t : Realm η) : Prop where
  trace : ∃ new, t.trace = new ++ s.trace
  entry : entry ∈ s.pendingPromiseReactions →
    entry ∈ t.pendingPromiseReactions ∨ Settles entry.1 (t.eventsSince s)

variable {entry : Nat × PendingPromiseReaction}

omit [JsvHost η] in
theorem mem_registerPending {s : Realm η} (promise : Nat)
    (reaction : PendingPromiseReaction) (h : entry ∈ s.pendingPromiseReactions) :
    entry ∈ (s.registerPending promise reaction).2.pendingPromiseReactions := by
  unfold registerPending
  split
  · exact h
  · exact List.mem_append_left _ h

omit [JsvHost η] in
theorem settle_trace (promise : Nat) (state : JsvPromiseState) (s : Realm η) :
    ∃ new, (s.settle promise state).2.trace = new ++ .settled promise state :: s.trace := by
  unfold settle
  split
  · exact ⟨[], rfl⟩
  · obtain ⟨new, hnew, -⟩ := (enqueueReactions_quiet state _ _).trace
    exact ⟨new, hnew⟩

omit [JsvHost η] in
theorem settle_waits {s : Realm η} (promise : Nat)
    (state : JsvPromiseState) (h : entry ∈ s.pendingPromiseReactions) :
    entry ∈ (s.settle promise state).2.pendingPromiseReactions ∨
      Settles entry.1 ((s.settle promise state).2.eventsSince s) := by
  by_cases haddress : Platform.promiseAddress promise = entry.1
  · obtain ⟨new, hnew⟩ := settle_trace promise state s
    rw [List.append_cons] at hnew
    rw [eventsSince_eq hnew]
    exact .inr ⟨promise, state, List.mem_append_right _ (List.mem_singleton_self _), haddress⟩
  · left
    unfold settle
    split
    · exact h
    · rw [(enqueueReactions_keeps state _ _).2]
      exact List.mem_filter.2 ⟨h, bne_iff_ne.2 (Ne.symm haddress)⟩

theorem perform_waits {β : Type} {s : Realm η} (op : Op β)
    (h : entry ∈ s.pendingPromiseReactions) : entry ∈ (s.perform op).2.pendingPromiseReactions := by
  cases op with
  | react promise onFulfilled onRejected onFinally =>
    simp only [perform, react]
    split
    · exact mem_registerPending promise _ h
    · rw [(enqueueRegisteredReaction_keeps _ _ _).2]
      exact h
  | enterExpr =>
    simp only [perform, enterExpr]
    split <;> exact h
  | step =>
    simp only [perform, step]
    split <;> exact h
  | _ => exact h

theorem performJob_waits {β : Type} {s : Realm η}
    (op : JobOp β) (h : entry ∈ s.pendingPromiseReactions) :
    entry ∈ (s.performJob op).2.pendingPromiseReactions ∨
      Settles entry.1 ((s.performJob op).2.eventsSince s) := by
  cases op with
  | script op => exact .inl (perform_waits op h)
  | takeJob =>
    simp only [performJob]
    split <;> exact .inl h
  | putBackJob job => exact .inl h
  | settle promise state => exact settle_waits promise state h
  | registerPending promise reaction => exact .inl (mem_registerPending promise reaction h)

omit [JsvHost η] in
theorem enter_keeps (scope : Scope) (s : Realm η) :
    (s.enter scope).2.pendingPromiseReactions = s.pendingPromiseReactions := by
  cases scope <;> simp only [enter, deeper] <;> (try split) <;> (try split) <;> rfl

theorem step_waits {s t : Realm η} (entry : Nat × PendingPromiseReaction) (h : Step s t) :
    Waits entry s t := by
  cases h with
  | perform op =>
    exact ⟨(DepthKept.of_advance (performJob_advance op s)).trace, performJob_waits op⟩
  | enter scope =>
    have hkept := enter_keeps scope s
    cases hentered : s.enter scope with
    | mk outcome t =>
      rw [hentered] at hkept
      refine ⟨?_, fun hentry => .inl (hkept ▸ hentry)⟩
      cases outcome with
      | ok _ => exact ⟨[_], (enter_ok hentered).1⟩
      | error error => exact ⟨[_], (enter_error hentered).1⟩
  | leave scope isOk =>
    refine ⟨⟨[_], leave_trace scope isOk s⟩, fun hentry => .inl ?_⟩
    cases scope <;> cases isOk <;> exact hentry
  | guarded guard => exact ⟨⟨[_], rfl⟩, .inl⟩
  | unguarded guard isOk => exact ⟨⟨[_], rfl⟩, .inl⟩

theorem reaches_waits {s t : Realm η} (entry : Nat × PendingPromiseReaction) (h : Reaches s t) :
    Waits entry s t := by
  induction h with
  | refl => exact ⟨⟨[], rfl⟩, .inl⟩
  | @tail t u _ hstep ih =>
    obtain ⟨⟨new, hnew⟩, hwaits⟩ := ih
    obtain ⟨⟨newer, hnewer⟩, hwaits'⟩ := step_waits entry hstep
    have htrace : u.trace = newer ++ new ++ s.trace := by
      rw [hnewer, hnew, List.append_assoc]
    refine ⟨⟨_, htrace⟩, fun hentry => ?_⟩
    rw [eventsSince_eq hnew] at hwaits
    rw [eventsSince_eq hnewer] at hwaits'
    rw [eventsSince_eq htrace]
    have hmono {events : List TraceEvent} (hsub : events ⊆ newer ++ new)
        (hsettles : Settles entry.1 events) : Settles entry.1 (newer ++ new) := by
      obtain ⟨promise, state, hmem, haddress⟩ := hsettles
      exact ⟨promise, state, hsub hmem, haddress⟩
    obtain hentry | hsettles := hwaits hentry
    · exact (hwaits' hentry).imp_right (hmono (List.subset_append_left _ _))
    · exact .inr (hmono (List.subset_append_right _ _) hsettles)

end Realm

end Registration

section Jobs

variable [Platform] [JsvHost η]

/-- `p.finally(f)` was called, with `result` for its promise, and `p` is settled with `state`: it
was when `finally` was called, or it has been since, with any steps of the engine before that. -/
inductive FinallyRegistered (promise : Nat) (f : JsvValue) (result : Nat)
    (state : JsvPromiseState) : Realm η → Prop where
  | settled {r t : Realm η} : r.react promise none none (some f) = (.ok result, t) →
      r.promiseState promise = state → FinallyRegistered promise f result state t
  | pending {r s t u : Realm η} : r.react promise none none (some f) = (.ok result, s) →
      r.promiseState promise = .pending → s.Reaches t →
      ¬Realm.Settles (Platform.promiseAddress promise) (t.eventsSince s) →
      t.settle promise state = (.ok (), u) → FinallyRegistered promise f result state u

/-- Both ways the same job is in the queue. -/
theorem FinallyRegistered.queued {promise result : Nat} {f : JsvValue} {q : Realm η}
    (h : FinallyRegistered promise f result state q) (hsettled : state.isPending = false) :
    finallyJob f result state ∈ q.microtasks := by
  cases h with
  | settled hreact hstate =>
    subst hstate
    exact Realm.react_queues_finallyJob hreact hsettled
  | pending hreact hpending hreaches hunsettled hsettle =>
    obtain hwaits | hsettles := (Realm.reaches_waits _ hreaches).entry
      (Realm.react_waits hreact hpending)
    · exact Realm.settle_queues_finallyJob hsettle hsettled hwaits
    · exact absurd hsettles hunsettled

/-! ## The job -/

/-- `resolve_promise` on realms. -/
def Realm.resolve (target : Nat) (outcome : Except JsvValue JsvValue) (r : Realm η) : Realm η :=
  match outcome with
  | .error reason => (r.settle target (.rejected reason)).2
  | .ok (.promise source) =>
    if target = source then
      (r.settle target (.rejected (.string "TypeError: Promise cannot resolve to itself"))).2
    else
      match r.promiseState source with
      | .pending => (r.registerPending source (followingReaction target)).2
      | state => (r.settle target state).2
  | .ok value => (r.settle target (.fulfilled value)).2

end Jobs

/-! ## Runs of a release build -/

section ReleaseBuild

attribute [local instance] releaseBuild

end ReleaseBuild

end GhitaBrowser.Js
