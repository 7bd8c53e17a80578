import GhitaBrowser.Js.Iterate

/-!
# Promises

Registering reactions and the promise combinators. A reaction on a settled promise
is queued at once, one on a pending promise waits in the table until the promise is
settled.
-/

namespace GhitaBrowser.Js

variable [Platform]

def maxPromiseJobs : Nat := 2048

/-- The job of a reaction once its promise is settled; a pending promise has none.
A `finally` reaction becomes the same kind of job on both outcomes. -/
def registeredJob (reaction : PendingPromiseReaction) :
    JsvPromiseState → Option PromiseReactionJob
  | .fulfilled value =>
    match reaction.completionOverride with
    | some (kind, override) => some ⟨kind, none, override, reaction.result⟩
    | none =>
      if reaction.onFinally.isSome then
        some ⟨.finally, reaction.onFinally, value, reaction.result⟩
      else some ⟨.fulfill, reaction.onFulfilled, value, reaction.result⟩
  | .rejected reason =>
    if reaction.onFinally.isSome then
      some ⟨.finally, reaction.onFinally, reason, reaction.result⟩
    else some ⟨.reject, reaction.onRejected, reason, reaction.result⟩
  | .pending => none

/-! ## then, catch and finally -/

def callableArgument (args : List JsvValue) (index : Nat) : Option JsvValue :=
  args[index]?.filter isCallable

/-- `Promise.then`, `Promise.catch` and `Promise.finally`. -/
def promiseMethod (method : String) (promise : Nat) (args : List JsvValue) : Eval JsvValue := do
  let result ← Program.op <| match method with
    | "Promise.then" => .react promise (callableArgument args 0) (callableArgument args 1) none
    | "Promise.catch" => .react promise none (callableArgument args 0) none
    | _ => .react promise none none (callableArgument args 0)
  return .promise result

/-! ## Combinators -/

/-- The values of the array argument of a combinator. -/
def combinatorValues (name : String) (args : List JsvValue) : Eval (List JsvValue) :=
  match args.head? with
  | some (.array ref) => readStore fun store => store.arrayAt ref
  | _ => fail ("TypeError: " ++ name ++ " requires an array")

/-- The state a combinator sees behind a value. -/
def stateOf : JsvValue → Eval JsvPromiseState
  | .promise ref => .op (.promiseState ref)
  | value => return .fulfilled value

/-- The loop of `Promise.all`. -/
def promiseAll : List JsvValue → List JsvValue → Eval JsvValue
  | [], output => do
    let values ← arrayValue output
    promiseValue (.fulfilled values)
  | value :: values, output => do
    match ← stateOf value with
    | .fulfilled value => promiseAll values (output ++ [value])
    | .rejected reason => promiseValue (.rejected reason)
    | .pending => promiseValue .pending

/-- The loop of `Promise.race`: the first settled state. -/
def promiseRace : List JsvValue → Eval JsvValue
  | [] => promiseValue .pending
  | value :: values => do
    match ← stateOf value with
    | .pending => promiseRace values
    | state => promiseValue state

/-- The loop of `Promise.allSettled`. -/
def promiseAllSettled : List JsvValue → List JsvValue → Eval JsvValue
  | [], output => do
    let values ← arrayValue output
    promiseValue (.fulfilled values)
  | value :: values, output => do
    let (status, key, value) ← match ← stateOf value with
      | .fulfilled value => pure ("fulfilled", "value", value)
      | .rejected reason => pure ("rejected", "reason", reason)
      | .pending => pure ("fulfilled", "value", .undefined)
    let entry ← objectValue [("status", .string status), (key, value)]
    promiseAllSettled values (output ++ [entry])

/-- The search of `Promise.any`; the first value that is not a promise counts. -/
def promiseAny : List JsvValue → Eval JsvValue
  | [] => promiseValue (.rejected (.string "AggregateError: All promises were rejected"))
  | value :: values => do
    match ← stateOf value with
    | .fulfilled value => promiseValue (.fulfilled value)
    | _ => promiseAny values

/-- The `Promise.*` constructors of settled and combined promises. -/
def promiseNative (name : String) (args : List JsvValue) : Eval JsvValue :=
  match name with
  | "Promise.resolve" =>
    match args.head?.getD .undefined with
    | .promise ref => return .promise ref
    | value => promiseValue (.fulfilled value)
  | "Promise.reject" => promiseValue (.rejected (args.head?.getD .undefined))
  | "Promise.all" => do promiseAll (← combinatorValues name args) []
  | "Promise.race" => do promiseRace (← combinatorValues name args)
  | "Promise.allSettled" => do promiseAllSettled (← combinatorValues name args) []
  | _ => do
    match ← combinatorValues name args with
    | [] => promiseValue (.rejected (.string "All promises were rejected"))
    | values => promiseAny values

end GhitaBrowser.Js

/-!
## The microtask loop

Jobs are run in the order they were queued. A job calls its handler, or has none and
passes its argument on, and resolves the promise of its reaction with the outcome.
-/

namespace GhitaBrowser.Js

variable [Platform]

/-- A reaction that hands the outcome of its promise to `result`. -/
def followingReaction (result : Nat) : PendingPromiseReaction := ⟨none, none, none, none, result⟩

/-- `resolve_promise`; the outcome is a value or a rejection reason. -/
def resolvePromise (target : Nat) : Except JsvValue JsvValue → JobEval Unit
  | .error reason => .op (.settle target (.rejected reason))
  | .ok (.promise source) =>
    if target = source then
      .op (.settle target (.rejected (.string "TypeError: Promise cannot resolve to itself")))
    else do
      match ← Program.op (.script (.promiseState source)) with
      | .pending => .op (.registerPending source (followingReaction target))
      | state => .op (.settle target state)
  | .ok value => .op (.settle target (.fulfilled value))

/-- What the call of a handler means for the promise of its job. -/
def handlerOutcome : Except String JsvValue → Except JsvValue JsvValue
  | .ok (.throwSignal reason) => .error reason
  | .ok (.returnSignal value) => .ok value
  | .ok .breakSignal =>
    .error (.string "SyntaxError: illegal break statement in Promise handler")
  | .ok .continueSignal =>
    .error (.string "SyntaxError: illegal continue statement in Promise handler")
  | .ok value => .ok value
  | .error error => .error (.string error)

def jobArguments (job : PromiseReactionJob) : List JsvValue :=
  if job.kind = .finally then [] else [job.argument]

def originalRejected (job : PromiseReactionJob) : Bool := job.kind = .reject

/-- The outcome a job without an answer of its own passes on. -/
def passedOn (job : PromiseReactionJob) : Except JsvValue JsvValue :=
  if originalRejected job then .error job.argument else .ok job.argument

/-- Run the handler of a job. -/
def jobOutcome (env : JsvEnvironment) (job : PromiseReactionJob) :
    JobEval (Except JsvValue JsvValue) :=
  match job.handler with
  | some handler => do
    let called ← Program.caught .promiseHandler
      (.invoke (.callFunction handler (jobArguments job) env .undefined))
    return handlerOutcome called
  | none => return passedOn job

/-- What a `finally` job settles its promise with. -/
def finallySettlement (job : PromiseReactionJob) : Except JsvValue JsvValue → JobEval Unit
  | .error reason => resolvePromise job.result (.error reason)
  | .ok (.promise source) => do
    match ← Program.op (.script (.promiseState source)) with
    | .rejected reason => resolvePromise job.result (.error reason)
    | .fulfilled _ => resolvePromise job.result (passedOn job)
    | .pending =>
      let kind := if originalRejected job then PromiseReactionKind.reject else .fulfill
      .op (.registerPending source ⟨none, none, none, some (kind, job.argument), job.result⟩)
  | .ok _ => resolvePromise job.result (passedOn job)

def runJob (env : JsvEnvironment) (job : PromiseReactionJob) : JobEval Unit := do
  let outcome ← jobOutcome env job
  if job.kind = .finally then finallySettlement job outcome
  else resolvePromise job.result outcome

/-- The loop of `drain_promise_jobs`: `remaining` jobs may still run. -/
def drainFrom (env : JsvEnvironment) : Nat → JobEval Unit
  | 0 => do
    match ← Program.op .takeJob with
    | none => pure ()
    | some job => do
      Program.op (.putBackJob job)
      .throw "Promise job execution budget exceeded"
  | remaining + 1 => do
    match ← Program.op .takeJob with
    | none => pure ()
    | some job => do
      runJob env job
      drainFrom env remaining

/-- `drain_promise_jobs`. -/
def drainPromiseJobsBody (env : JsvEnvironment) : JobEval Unit := drainFrom env maxPromiseJobs

end GhitaBrowser.Js
