import GhitaBrowser.Js.CallDepth

/-!
# The step budget

A step beyond the limit is reported as an error. Where no guard is open that error
ends the turn, and nothing is asked of the host any more. Under a guard (the lists of
a `try`, the body of an async function, a promise handler, a dynamic import) it
becomes a value like any other error and the turn goes on.
-/

namespace GhitaBrowser.Js

variable {η : Type}

def TraceEvent.isExhausted : TraceEvent → Bool
  | exhausted => true
  | _ => false

def TraceEvent.isHostOperation : TraceEvent → Bool
  | hostOperation => true
  | _ => false

/-- The guards that are open after the events of a trace, newest first. -/
def openGuards : List TraceEvent → Nat
  | [] => 0
  | .guarded _ :: trace => openGuards trace + 1
  | .unguarded .. :: trace => openGuards trace - 1
  | _ :: trace => openGuards trace

/-- Whenever the limit was exceeded no guard was open. -/
def exhaustedUnguarded : List TraceEvent → Bool
  | [] => true
  | event :: trace =>
    (!event.isExhausted || openGuards trace == 0) && exhaustedUnguarded trace

/-- No host operation follows an exceeded limit. -/
def hostUntilExhausted : List TraceEvent → Bool
  | [] => true
  | event :: trace =>
    (!event.isHostOperation || !trace.any TraceEvent.isExhausted) && hostUntilExhausted trace

/-! ## Traces that grow -/

/-- Events that are neither guards, nor exceeded limits, nor host operations. -/
def TraceEvent.isPlain : TraceEvent → Bool
  | guarded _ | unguarded .. | exhausted | hostOperation => false
  | _ => true

variable {event : TraceEvent}

theorem isPlain_of_isPromiseEvent (h : event.isPromiseEvent) :
    event.isPlain := by
  cases event <;> first | rfl | cases h

theorem exhaustedUnguarded_of_cons {trace : List TraceEvent}
    (h : exhaustedUnguarded (event :: trace)) : exhaustedUnguarded trace := by
  simp only [exhaustedUnguarded, Bool.and_eq_true] at h
  exact h.2

theorem exhaustedUnguarded_of_append {new trace : List TraceEvent}
    (h : exhaustedUnguarded (new ++ trace)) : exhaustedUnguarded trace := by
  induction new with
  | nil => exact h
  | cons event new ih => exact ih (exhaustedUnguarded_of_cons h)

variable (trace : List TraceEvent)

theorem openGuards_cons (h : event.isPlain) :
    openGuards (event :: trace) = openGuards trace := by
  cases event <;> first | rfl | cases h

theorem any_isExhausted_cons (h : event.isPlain) :
    (event :: trace).any TraceEvent.isExhausted = trace.any TraceEvent.isExhausted := by
  cases event <;> first | rfl | cases h

theorem openGuards_append {new : List TraceEvent}
    (h : ∀ event ∈ new, event.isPlain) : openGuards (new ++ trace) = openGuards trace := by
  induction new with
  | nil => rfl
  | cons event new ih =>
    rw [List.cons_append, openGuards_cons _ (h event List.mem_cons_self)]
    exact ih fun event hmem => h event (List.mem_cons_of_mem _ hmem)

theorem any_isExhausted_append {new : List TraceEvent} (h : ∀ event ∈ new, event.isPlain) :
    (new ++ trace).any TraceEvent.isExhausted = trace.any TraceEvent.isExhausted := by
  induction new with
  | nil => rfl
  | cons event new ih =>
    rw [List.cons_append, any_isExhausted_cons _ (h event List.mem_cons_self)]
    exact ih fun event hmem => h event (List.mem_cons_of_mem _ hmem)

theorem hostUntilExhausted_of_not_any {trace : List TraceEvent}
    (h : trace.any TraceEvent.isExhausted = false) : hostUntilExhausted trace := by
  induction trace with
  | nil => rfl
  | cons event trace ih =>
    rw [List.any_cons, Bool.or_eq_false_iff] at h
    simp [hostUntilExhausted, h.2, ih h.2]

namespace Realm

/-- The limit was exceeded. -/
def isExhausted (r : Realm η) : Bool := r.trace.any TraceEvent.isExhausted

/-- The contract of the step budget. When the limit is exceeded in a run with no guard
open, the run ends with an error, and without asking the host again. -/
structure Aborts (s : Realm η) (exit : Exit) (t : Realm η) : Prop where
  trace : ∃ new, t.trace = new ++ s.trace
  guards : exit ≠ .unfinished → openGuards t.trace = openGuards s.trace
  budget : (s.isExhausted ↔ s.maxSteps < s.steps) → (t.isExhausted ↔ t.maxSteps < t.steps)
  aborted : s.isExhausted = false → exhaustedUnguarded t.trace → t.isExhausted →
    exit = .failed ∧ openGuards s.trace = 0 ∧ hostUntilExhausted t.trace

namespace Aborts

theorem refl (s : Realm η) (exit : Exit) : Aborts s exit s where
  trace := ⟨[], rfl⟩
  guards _ := rfl
  budget h := h
  aborted hs _ ht := by simp [hs] at ht

variable {exit : Exit}

theorem trans {s t u : Realm η} (first : Aborts s .returned t)
    (second : Aborts t exit u) : Aborts s exit u := by
  obtain ⟨new, hnew⟩ := first.trace
  obtain ⟨newer, hnewer⟩ := second.trace
  refine ⟨⟨newer ++ new, by rw [hnewer, hnew, List.append_assoc]⟩, fun hexit => ?_,
    fun h => second.budget (first.budget h), fun hs hunguarded hu => ?_⟩
  · rw [second.guards hexit, first.guards (by decide)]
  · -- The first part returned, so it is the second that exceeds the limit.
    have ht : t.isExhausted = false := by
      rw [Bool.eq_false_iff]
      intro ht
      have hfirst := exhaustedUnguarded_of_append (hnewer ▸ hunguarded)
      cases (first.aborted hs hfirst ht).1
    obtain ⟨hexit, hopen, hhost⟩ := second.aborted ht hunguarded hu
    exact ⟨hexit, by rw [← hopen, first.guards (by decide)], hhost⟩

theorem of_same {s t : Realm η} (htrace : ∃ new, t.trace = new ++ s.trace)
    (hguards : openGuards t.trace = openGuards s.trace) (hsame : t.isExhausted = s.isExhausted)
    (hbudget : t.steps = s.steps ∧ t.maxSteps = s.maxSteps) : Aborts s exit t := by
  refine ⟨htrace, fun _ => hguards, fun hs => ?_, fun hs _ ht => ?_⟩
  · rw [hsame, hbudget.1, hbudget.2]
    exact hs
  · simp [hsame, hs] at ht

theorem of_advance {s t : Realm η} (advance : Advance s exit t) :
    Aborts s exit t := by
  cases advance with
  | quiet h =>
    obtain ⟨new, hnew, hevents⟩ := h.trace
    have hplain : ∀ event ∈ new, event.isPlain :=
      fun event hmem => isPlain_of_isPromiseEvent (hevents event hmem)
    have hsame : t.isExhausted = s.isExhausted := by
      rw [isExhausted, hnew, any_isExhausted_append _ hplain, isExhausted]
    exact of_same ⟨new, hnew⟩ (by rw [hnew, openGuards_append _ hplain]) hsame h.budget
  | stepped _ htrace hbudget hwithin =>
    have hsame : t.isExhausted = s.isExhausted := by rw [isExhausted, htrace, isExhausted]
    refine ⟨⟨[], htrace⟩, fun _ => by rw [htrace], fun hs => ?_, fun hs _ ht => ?_⟩
    · rw [hsame, hs]
      omega
    · simp [hsame, hs] at ht
  | exhausted _ htrace hbeyond =>
    refine ⟨⟨[_], htrace⟩, fun _ => by rw [htrace]; rfl, fun _ => ?_,
      fun hs hunguarded _ => ?_⟩
    · simp [isExhausted, htrace, TraceEvent.isExhausted, hbeyond]
    · have hold := hostUntilExhausted_of_not_any hs
      rw [htrace] at hunguarded ⊢
      simp [exhaustedUnguarded, TraceEvent.isExhausted] at hunguarded
      exact ⟨rfl, hunguarded.1, by simpa [hostUntilExhausted, TraceEvent.isHostOperation]⟩
  | host _ htrace hbudget =>
    exact of_same ⟨[_], htrace⟩ (by rw [htrace]; rfl) (by rw [isExhausted, htrace]; rfl) hbudget

theorem enclosed {s t u v : Realm η} {before after : TraceEvent}
    (inner : Aborts t exit u) (hbefore : t.trace = before :: s.trace)
    (hafter : v.trace = after :: u.trace) (hplain : before.isPlain ∧ after.isPlain)
    (hentered : t.steps = s.steps ∧ t.maxSteps = s.maxSteps)
    (hleft : v.steps = u.steps ∧ v.maxSteps = u.maxSteps) : Aborts s exit v := by
  have ht : t.isExhausted = s.isExhausted := by
    rw [isExhausted, hbefore, any_isExhausted_cons _ hplain.1, isExhausted]
  have hv : v.isExhausted = u.isExhausted := by
    rw [isExhausted, hafter, any_isExhausted_cons _ hplain.2, isExhausted]
  obtain ⟨new, hnew⟩ := inner.trace
  refine ⟨⟨after :: new ++ [before], by simp [hafter, hnew, hbefore]⟩, fun hexit => ?_,
    fun hs => ?_, fun hs hunguarded hexhausted => ?_⟩
  · rw [hafter, openGuards_cons _ hplain.2, inner.guards hexit, hbefore,
      openGuards_cons _ hplain.1]
  · rw [hv, hleft.1, hleft.2]
    exact inner.budget (by rw [ht, hentered.1, hentered.2]; exact hs)
  · obtain ⟨hexit, hopen, hhost⟩ := inner.aborted (ht ▸ hs)
      (exhaustedUnguarded_of_cons (hafter ▸ hunguarded)) (hv ▸ hexhausted)
    rw [hbefore, openGuards_cons _ hplain.1] at hopen
    refine ⟨hexit, hopen, ?_⟩
    rw [hafter]
    cases after <;> first | exact hhost | cases hplain.2

theorem not_exhausted_of_guarded {s t u : Realm η} {guard : Guard}
    (inner : Aborts t exit u) (htrace : t.trace = .guarded guard :: s.trace)
    (hs : s.isExhausted = false) (hunguarded : exhaustedUnguarded u.trace) :
    u.isExhausted = false := by
  rw [Bool.eq_false_iff]
  intro hu
  have ht : t.isExhausted = false := by rw [isExhausted, htrace]; exact hs
  have hopen := (inner.aborted ht hunguarded hu).2.1
  rw [htrace] at hopen
  cases hopen

theorem guarded {s u : Realm η} (guard : Guard) (isOk : Bool)
    (hexit : exit ≠ .unfinished) (inner : Aborts (s.record (.guarded guard)) exit u) :
    Aborts s .returned (u.record (.unguarded guard isOk)) := by
  obtain ⟨new, hnew⟩ := inner.trace
  refine ⟨⟨.unguarded guard isOk :: new ++ [.guarded guard], ?_⟩, fun _ => ?_,
    fun hs => inner.budget hs, fun hs hunguarded hexhausted => ?_⟩
  · simp [record, hnew]
  · show openGuards u.trace - 1 = openGuards s.trace
    rw [inner.guards hexit]
    rfl
  · have hu : u.isExhausted = false :=
      not_exhausted_of_guarded inner rfl hs (exhaustedUnguarded_of_cons hunguarded)
    have hsame : (u.record (.unguarded guard isOk)).isExhausted = u.isExhausted := rfl
    simp [hsame, hu] at hexhausted

end Aborts

variable [Platform]

theorem entered_budget {scope : Scope} {s t : Realm η} {answer : Except String Unit}
    (h : s.enter scope = (answer, t)) : t.steps = s.steps ∧ t.maxSteps = s.maxSteps := by
  simpa [h] using enter_budget scope s

/-- One operation, one scope and one guard keep the contract of the step budget. -/
theorem aborts_contract [JsvHost η] : Contract (engine η) Aborts where
  done := Aborts.refl
  next := Aborts.trans
  perform op s := .of_advance (performJob_advance op s)
  refused {s t error} scope h := by
    have hbudget := entered_budget h
    have htrace := (enter_error h).1
    exact .of_same ⟨[_], htrace⟩ (by rw [htrace]; rfl) (by rw [isExhausted, htrace]; rfl) hbudget
  returned {s t u} scope h inner := by
    exact inner.enclosed (enter_ok h).1 (leave_trace scope true u) ⟨rfl, rfl⟩ (entered_budget h)
      (leave_budget scope true u)
  failed {s t u} scope h inner := by
    exact inner.enclosed (enter_ok h).1 (leave_trace scope false u) ⟨rfl, rfl⟩ (entered_budget h)
      (leave_budget scope false u)
  unfinished {s t u} scope h inner := by
    have hbudget := entered_budget h
    have htrace := (enter_ok h).1
    have hsame : t.isExhausted = s.isExhausted := by rw [isExhausted, htrace]; rfl
    obtain ⟨new, hnew⟩ := inner.trace
    refine ⟨⟨new ++ [_], by rw [hnew, htrace, List.append_assoc]; rfl⟩, nofun, fun hs => ?_,
      fun hs hunguarded hu => ?_⟩
    · exact inner.budget (by rw [hsame, hbudget.1, hbudget.2]; exact hs)
    · cases (inner.aborted (hsame ▸ hs) hunguarded hu).1
  guarded guard inner := .guarded guard true (by decide) inner
  caught guard inner := .guarded guard false (by decide) inner
  cut {s t} guard inner := by
    obtain ⟨new, hnew⟩ := inner.trace
    refine ⟨⟨new ++ [_], by rw [hnew, List.append_assoc]; rfl⟩, nofun,
      fun hs => inner.budget hs, fun hs hunguarded ht => ?_⟩
    have hnot := inner.not_exhausted_of_guarded rfl hs hunguarded
    simp [hnot] at ht

end Realm

/-- In a turn that exceeds the step limit only while no guard is open, the turn ends with
an error, and the host is asked for nothing after that moment. -/
theorem exhaustion_aborts_turn [Platform] [JsvHost η] (fuel : Nat) (turn : Eval JsvValue)
    (limit : Nat) (view : HostView η)
    (hexceeded : (runTurn fuel turn limit view).2.maxSteps < (runTurn fuel turn limit view).2.steps)
    (hunguarded : exhaustedUnguarded (runTurn fuel turn limit view).2.trace) :
    (runTurn fuel turn limit view).1.exit = .failed ∧
      hostUntilExhausted (runTurn fuel turn limit view).2.trace := by
  have aborts := Realm.aborts_contract.run fuel (turn.lift .script) (Realm.start view limit)
  have hexhausted := (aborts.budget (by simp [Realm.isExhausted, Realm.start])).mpr hexceeded
  obtain ⟨hfailed, -, hhost⟩ := aborts.aborted rfl hunguarded hexhausted
  exact ⟨hfailed, hhost⟩

/-! ## Runs of a release build -/

section ReleaseBuild

attribute [local instance] releaseBuild

theorem exhaustion_aborts_turn_twoStatements :
    (runTurn 4 (scriptTurn [.bool true, .bool true]) 1 ⟨Store.new, [], ()⟩).1.exit = .failed ∧
      hostUntilExhausted
        (runTurn 4 (scriptTurn [.bool true, .bool true]) 1 ⟨Store.new, [], ()⟩).2.trace :=
  exhaustion_aborts_turn 4 (scriptTurn [.bool true, .bool true]) 1 ⟨Store.new, [], ()⟩
    (by decide) (by decide)

/-- `try { true; true; true; } catch (e) {}` -/
def caughtExhaustion : List JsvExpr :=
  [.tryCatchFinally [.bool true, .bool true, .bool true] (some "e") [] []]

/-- A host that accepts every write, and remembers how many there were. -/
local instance : JsvHost Nat where
  getProperty _ _ view := (.ok .undefined, view)
  setProperty _ _ value view := (.ok value, { view with host := view.host + 1 })
  call _ _ _ view := (.ok .undefined, view)

/-- `async function f() { true; true; }  document.title = f();` -/
def exhaustedWrite : List JsvExpr :=
  [.asyncFunctionDef "f" [] (.block [.bool true, .bool true]),
    .memberAssignment (.identifier "document") "title" (.call (.identifier "f") [])]

/-- The turn of `caughtExhaustion` with three steps. -/
def caughtExhaustionTurn : Ending String JsvValue (Realm Unit) :=
  runTurn 4 (scriptTurn caughtExhaustion) 3 ⟨Store.new, [], ()⟩

/-- The turn of `exhaustedWrite` with seven steps. -/
def exhaustedWriteTurn : Ending String JsvValue (Realm Nat) :=
  runTurn 6 (scriptTurn exhaustedWrite) 7 ⟨installHost Store.new, [], 0⟩

/-- A `catch` swallows the exceeded limit, and the turn succeeds; after an `async`
function has turned it into a rejected promise, the turn goes on to write to the host. -/
theorem exhaustion_is_caught :
    (caughtExhaustionTurn.2.maxSteps < caughtExhaustionTurn.2.steps ∧
      caughtExhaustionTurn.1.exit = .returned) ∧
    (exhaustedWriteTurn.2.maxSteps < exhaustedWriteTurn.2.steps ∧
      exhaustedWriteTurn.1.exit = .returned ∧ exhaustedWriteTurn.2.host = 1 ∧
      hostUntilExhausted exhaustedWriteTurn.2.trace = false) := by
  decide +kernel

end ReleaseBuild

end GhitaBrowser.Js
