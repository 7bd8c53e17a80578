import GhitaBrowser.Js.Course
import GhitaBrowser.Js.Globals

/-!
# The call depth

The call depth goes up and down with the scopes. Two scopes do not give their level
back on every exit: the condition of an `if` and the first condition of a `while`,
when they end with an error or are refused at the limit. The depth after any part of
a run is the depth before it plus the number of such conditions, so it is restored
exactly when there was none.
-/

namespace GhitaBrowser.Js

variable {η : Type}

/-- The condition of an `if` or a `while` ended with an error. -/
def TraceEvent.isConditionFailure : TraceEvent → Bool
  | refused scope => scope.isCondition
  | left scope isOk => scope.isCondition && !isOk
  | _ => false

def conditionFailures (trace : List TraceEvent) : Nat :=
  trace.countP TraceEvent.isConditionFailure

/-- The events of the run from `r` to `t`, newest first. -/
def Realm.eventsSince (t r : Realm η) : List TraceEvent :=
  t.trace.take (t.trace.length - r.trace.length)

theorem Realm.eventsSince_eq {t r : Realm η} {new : List TraceEvent}
    (h : t.trace = new ++ r.trace) : t.eventsSince r = new := by
  simp [eventsSince, h]

theorem conditionFailures_cons (event : TraceEvent) (trace : List TraceEvent) :
    conditionFailures (event :: trace) =
      conditionFailures trace + if event.isConditionFailure then 1 else 0 :=
  List.countP_cons

theorem conditionFailures_append (new trace : List TraceEvent) :
    conditionFailures (new ++ trace) = conditionFailures new + conditionFailures trace :=
  List.countP_append

theorem conditionFailures_eq_zero {trace : List TraceEvent} :
    conditionFailures trace = 0 ↔ ∀ event ∈ trace, ¬ event.isConditionFailure :=
  List.countP_eq_zero

theorem isConditionFailure_of_isPromiseEvent {event : TraceEvent}
    (h : event.isPromiseEvent) : ¬ event.isConditionFailure := by
  cases event <;> simp_all [TraceEvent.isPromiseEvent, TraceEvent.isConditionFailure]

namespace Realm

/-- The contract of the call depth: a run that ends has kept a level for each failed
condition. -/
structure DepthKept (s : Realm η) (exit : Exit) (t : Realm η) : Prop where
  trace : ∃ new, t.trace = new ++ s.trace
  callDepth : exit ≠ .unfinished →
    t.callDepth + conditionFailures s.trace = s.callDepth + conditionFailures t.trace

namespace DepthKept

theorem refl (s : Realm η) (exit : Exit) : DepthKept s exit s :=
  ⟨⟨[], rfl⟩, fun _ => rfl⟩

theorem trans {s t u : Realm η} {exit : Exit} (first : DepthKept s .returned t)
    (second : DepthKept t exit u) : DepthKept s exit u := by
  obtain ⟨new, hnew⟩ := first.trace
  obtain ⟨newer, hnewer⟩ := second.trace
  refine ⟨⟨newer ++ new, by rw [hnewer, hnew, List.append_assoc]⟩, fun hexit => ?_⟩
  have hfirst := first.callDepth (by decide)
  have hsecond := second.callDepth hexit
  omega

theorem of_advance {s t : Realm η} {exit : Exit} (advance : Advance s exit t) :
    DepthKept s exit t := by
  have hdepth := advance.callDepth
  cases advance with
  | quiet h =>
    obtain ⟨new, hnew, hevents⟩ := h.trace
    have hzero : conditionFailures new = 0 := conditionFailures_eq_zero.mpr
      fun event hevent => isConditionFailure_of_isPromiseEvent (hevents event hevent)
    refine ⟨⟨new, hnew⟩, fun _ => ?_⟩
    rw [hnew, conditionFailures_append, hzero, hdepth, Nat.zero_add]
  | stepped _ htrace =>
    refine ⟨⟨[], htrace⟩, fun _ => ?_⟩
    rw [htrace, hdepth]
  | exhausted _ htrace =>
    refine ⟨⟨[_], htrace⟩, fun _ => ?_⟩
    rw [htrace, hdepth]
    rfl
  | host _ htrace =>
    refine ⟨⟨[_], htrace⟩, fun _ => ?_⟩
    rw [htrace, hdepth]
    rfl

theorem enclosed {s t u v : Realm η} {before after : TraceEvent} {exit outer : Exit}
    (inner : DepthKept t exit u) (hexit : exit ≠ .unfinished)
    (hbefore : t.trace = before :: s.trace) (hafter : v.trace = after :: u.trace)
    (hdepth : ∀ {n : Nat}, u.callDepth = t.callDepth + n →
      n + conditionFailures t.trace = conditionFailures u.trace →
      v.callDepth + conditionFailures s.trace = s.callDepth + conditionFailures v.trace) :
    DepthKept s outer v := by
  obtain ⟨new, hnew⟩ := inner.trace
  refine ⟨⟨after :: new ++ [before], by simp [hafter, hnew, hbefore]⟩, fun _ => ?_⟩
  have hinner := inner.callDepth hexit
  have hcount : conditionFailures t.trace ≤ conditionFailures u.trace := by
    rw [hnew, conditionFailures_append]
    exact Nat.le_add_left _ _
  exact hdepth (n := conditionFailures u.trace - conditionFailures t.trace) (by omega) (by omega)

end DepthKept

variable [Platform]

theorem depthKept_refused {s t : Realm η} {error : String} (scope : Scope)
    (h : s.enter scope = (.error error, t)) : DepthKept s .failed t := by
  obtain ⟨htrace, hdepth⟩ := enter_error h
  refine ⟨⟨[_], htrace⟩, fun _ => ?_⟩
  rw [htrace, hdepth, conditionFailures_cons]
  cases hcond : scope.isCondition <;> simp [TraceEvent.isConditionFailure, hcond]
  omega

theorem depthKept_left {s t u : Realm η} {exit : Exit} (scope : Scope) (isOk : Bool)
    (h : s.enter scope = (.ok (), t)) (inner : DepthKept t exit u)
    (hexit : exit ≠ .unfinished) : DepthKept s exit (u.leave scope isOk) := by
  obtain ⟨htrace, hentered⟩ := enter_ok h
  refine inner.enclosed hexit htrace (leave_trace scope isOk u) fun hdepth hcount => ?_
  rw [htrace, conditionFailures_cons] at hcount
  rw [leave_trace, conditionFailures_cons, ← hcount]
  cases isOk with
  | true =>
    rw [leave_ok_callDepth]
    simp [TraceEvent.isConditionFailure]
    omega
  | false =>
    rw [leave_error_callDepth]
    cases hcond : scope.isCondition <;> simp [TraceEvent.isConditionFailure, hcond]
    · omega
    · cases scope <;> simp_all [Scope.levels, Scope.isCondition] <;> omega

theorem depthKept_contract [JsvHost η] : Contract (engine η) DepthKept where
  done := DepthKept.refl
  next := DepthKept.trans
  perform op s := .of_advance (performJob_advance op s)
  refused scope h := depthKept_refused scope h
  returned scope h inner := depthKept_left scope true h inner (by decide)
  failed scope h inner := depthKept_left scope false h inner (by decide)
  unfinished scope h inner := by
    obtain ⟨new, hnew⟩ := inner.trace
    exact ⟨⟨new ++ [_], by rw [hnew, (enter_ok h).1, List.append_assoc]; rfl⟩, nofun⟩
  guarded guard inner :=
    inner.enclosed (by decide) rfl rfl fun hdepth hcount => by
      simp [engine, record, conditionFailures_cons, TraceEvent.isConditionFailure] at *
      omega
  caught guard inner :=
    inner.enclosed (by decide) rfl rfl fun hdepth hcount => by
      simp [engine, record, conditionFailures_cons, TraceEvent.isConditionFailure] at *
      omega
  cut guard inner := by
    obtain ⟨new, hnew⟩ := inner.trace
    exact ⟨⟨new ++ [_], by rw [hnew, List.append_assoc]; rfl⟩, nofun⟩

end Realm

/-- A part of a run that ends, with a result or an error, gives the call depth back
exactly when no condition of an `if` or `while` in it ended with an error. -/
theorem callDepth_restored_iff [Platform] [JsvHost η] {α : Type} (fuel : Nat) (program : JobEval α)
    (r : Realm η) (hends : ((engine η).run fuel program r).1.exit ≠ .unfinished) :
    ((engine η).run fuel program r).2.callDepth = r.callDepth ↔
      ∀ event ∈ ((engine η).run fuel program r).2.eventsSince r, ¬ event.isConditionFailure := by
  have kept := Realm.depthKept_contract.run fuel program r
  obtain ⟨new, hnew⟩ := kept.trace
  have hdepth := kept.callDepth hends
  rw [hnew, conditionFailures_append] at hdepth
  rw [Realm.eventsSince_eq hnew, ← conditionFailures_eq_zero]
  omega

/-! ## Runs of a release build -/

section ReleaseBuild

attribute [local instance] releaseBuild

/-- A new engine at the start of a turn. -/
def freshRealm : Realm Unit := Realm.start ⟨Store.new, [], ()⟩ maxEvalSteps

/-- `if (true) {}` -/
def plainIf : JsvExpr := .ifElse (.identifier "true") [] none

theorem callDepth_restored_iff_plainIf :
    ((engine Unit).run 5 (.invoke (.evalExpr 0 plainIf globalEnv)) freshRealm).2.callDepth = 0 :=
  (callDepth_restored_iff 5 (.invoke (.evalExpr 0 plainIf globalEnv)) freshRealm
    (by decide +kernel)).mpr (by decide +kernel)

/-- `try { if (missing) {} } catch (e) {}` -/
def caughtCondition : JsvExpr :=
  .tryCatchFinally [.ifElse (.identifier "missing") [] none] (some "e") [] []

/-- 32 caught conditions, then `function f() {}  f();` -/
def manyCaughtConditions : List JsvExpr :=
  List.replicate 32 caughtCondition ++
    [.functionDef "f" [] (.block []), .call (.identifier "f") []]

def turnError (ending : Ending String JsvValue (Realm Unit)) : Option String :=
  match ending.1 with
  | .failed error => some error
  | _ => none

/-- The caught error costs a level for good; after 32 of them no function can be called. -/
theorem caughtCondition_loses_callDepth :
    ((engine Unit).run 6 (.invoke (.evalExpr 0 caughtCondition globalEnv)) freshRealm).1.exit =
        .returned ∧
      ((engine Unit).run 6 (.invoke (.evalExpr 0 caughtCondition globalEnv))
        freshRealm).2.callDepth = freshRealm.callDepth + 1 ∧
      turnError (runTurn 6 (scriptTurn manyCaughtConditions) maxEvalSteps ⟨Store.new, [], ()⟩) =
        some "Maximum call stack size exceeded" := by
  decide +kernel

end ReleaseBuild

end GhitaBrowser.Js
