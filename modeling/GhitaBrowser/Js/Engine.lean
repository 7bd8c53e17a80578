import GhitaBrowser.Js.Generator
import GhitaBrowser.Js.Promise

/-!
# The engine

What the operations, the calls and the scopes of the evaluator mean: the execution
context of a turn with its budgets, the promise table and the microtask queue, and
the host. A turn runs a parsed script or a callback, then the microtasks.

`trace` is not part of the engine. It records, newest first, what the operations and
scopes of a run did, so that results can be stated about the course of a run.
-/

namespace GhitaBrowser.Js

variable [Platform]

def maxEvalSteps : Nat := 5000000

def maxCallDepth : Nat := if Platform.debugAssertions then 8 else 32

def maxProxyDepth : Nat := 64

def stepBudgetExceeded : String := "Script timed out (step budget exceeded)"

/-- What happened in a run. -/
inductive TraceEvent where
  | entered (scope : Scope)
  | refused (scope : Scope)
  | left (scope : Scope) (isOk : Bool)
  | guarded (guard : Guard)
  | unguarded (guard : Guard) (isOk : Bool)
  /-- A step was taken beyond the limit. -/
  | exhausted
  | hostOperation
  | created (promise : Nat) (state : JsvPromiseState) (source : Option Nat)
  | reacted (promise result : Nat) (onFulfilled onRejected onFinally : Option JsvValue)
  | registered (promise : Nat) (reaction : PendingPromiseReaction)
  | queued (job : PromiseReactionJob)
  | took (job : PromiseReactionJob)
  | settled (promise : Nat) (state : JsvPromiseState)

/-- What a host call may read and change besides its own state. -/
structure HostView (η : Type) where
  store : Store
  promises : List JsvPromiseState
  host : η

/-- The browser behind the script. -/
class JsvHost (η : Type) where
  getProperty : Nat → String → HostView η → Except String JsvValue × HostView η
  setProperty : Nat → String → JsvValue → HostView η → Except String JsvValue × HostView η
  call : Nat → String → List JsvValue → HostView η → Except String JsvValue × HostView η

/-- The engine during a turn: what lives across turns (`store`, `promises`, `host`) and
the `EvalCtx` of this one. The table of pending reactions is flat, in the order of
registration, each entry with the address of its promise. -/
structure Realm (η : Type) where
  store : Store
  promises : List JsvPromiseState
  host : η
  steps : Nat
  maxSteps : Nat
  callDepth : Nat
  maxCallDepth : Nat
  microtasks : List PromiseReactionJob
  microtasksQueued : Nat
  pendingPromiseReactions : List (Nat × PendingPromiseReaction)
  trace : List TraceEvent

namespace Realm

variable {η : Type}

def record (r : Realm η) (event : TraceEvent) : Realm η := { r with trace := event :: r.trace }

/-! ## Budgets and scopes -/

/-- The step at the start of `eval_expr`. -/
def enterExpr (r : Realm η) : Except String Unit × Realm η :=
  let r := { r with steps := r.steps + 1 }
  if r.steps > r.maxSteps then (.error stepBudgetExceeded, r.record .exhausted)
  else (.ok (), { r with maxCallDepth := max r.maxCallDepth r.callDepth })

def step (r : Realm η) : Except String Unit × Realm η :=
  let r := { r with steps := r.steps + 1 }
  if r.steps > r.maxSteps then (.error stepBudgetExceeded, r.record .exhausted)
  else (.ok (), r)

/-- One level deeper. At the limit the level is given back when `isRestored`. -/
def deeper (scope : Scope) (isRestored : Bool) (message : String) (r : Realm η) :
    Except String Unit × Realm η :=
  if r.callDepth + 1 > Js.maxCallDepth then
    let r := if isRestored then r else { r with callDepth := r.callDepth + 1 }
    (.error message, r.record (.refused scope))
  else (.ok (), { r with callDepth := r.callDepth + 1 }.record (.entered scope))

def enter (scope : Scope) (r : Realm η) : Except String Unit × Realm η :=
  match scope with
  | .ifCondition => r.deeper scope false "Maximum call depth exceeded in if statement"
  | .whileCondition => r.deeper scope false "Maximum call depth exceeded in while loop"
  | .loopBody => r.deeper scope true "Maximum call depth exceeded in while loop"
  | .call => r.deeper scope true "Maximum call stack size exceeded"
  | .proxyTrap =>
    if r.store.proxyDepth ≥ maxProxyDepth then
      (.error "Proxy trap recursion limit exceeded", r.record (.refused scope))
    else
      let store := { r.store with proxyDepth := r.store.proxyDepth + 1 }
      (.ok (), { r with store := store }.record (.entered scope))
  | _ => (.ok (), r.record (.entered scope))

/-- What is undone when a scope is left. An error inside a condition leaves at once, past
the line that gives its level back. -/
def undo (scope : Scope) (isOk : Bool) (r : Realm η) : Realm η :=
  match scope with
  | .ifCondition | .whileCondition =>
    if isOk then { r with callDepth := r.callDepth - 1 } else r
  | .loopBody | .call => { r with callDepth := r.callDepth - 1 }
  | .proxyTrap =>
    { r with store := { r.store with proxyDepth := r.store.proxyDepth - 1 } }
  | .resumed generator =>
    { r with store := r.store.modifyGenerator generator fun state =>
        { state with running := false } }
  | .generatorStatement generator =>
    if isOk then r
    else { r with store := (r.store.finishGenerator generator).leaveGeneratorBody }

def leave (scope : Scope) (isOk : Bool) (r : Realm η) : Realm η :=
  (r.undo scope isOk).record (.left scope isOk)

/-! ## Promises -/

def promiseState (r : Realm η) (promise : Nat) : JsvPromiseState :=
  r.promises[promise]?.getD .pending

def newPromise (state : JsvPromiseState) (source : Option Nat) (r : Realm η) : Nat × Realm η :=
  (r.promises.length,
    { r with promises := r.promises ++ [state] }.record
      (.created r.promises.length state source))

/-- `enqueue_promise_reaction`. -/
def enqueueJob (job : PromiseReactionJob) (r : Realm η) : Except String Unit × Realm η :=
  if r.microtasksQueued ≥ maxPromiseJobs then (.error "Promise microtask budget exceeded", r)
  else
    let r := { r with
      microtasks := r.microtasks ++ [job], microtasksQueued := r.microtasksQueued + 1 }
    (.ok (), r.record (.queued job))

def enqueueRegisteredReaction (reaction : PendingPromiseReaction) (state : JsvPromiseState)
    (r : Realm η) : Except String Unit × Realm η :=
  match registeredJob reaction state with
  | some job => r.enqueueJob job
  | none => (.error "InvalidStateError: cannot enqueue a pending Promise", r)

/-- `register_pending_reaction`. -/
def registerPending (promise : Nat) (reaction : PendingPromiseReaction) (r : Realm η) :
    Except String Unit × Realm η :=
  if r.pendingPromiseReactions.length ≥ maxPromiseJobs then
    (.error "Promise pending-reaction budget exceeded", r)
  else
    let entry := (Platform.promiseAddress promise, reaction)
    let r := { r with pendingPromiseReactions := r.pendingPromiseReactions ++ [entry] }
    (.ok (), r.record (.registered promise reaction))

/-- Queue the reactions of a settled promise, until one does not fit. -/
def enqueueReactions (state : JsvPromiseState) :
    List PendingPromiseReaction → Realm η → Except String Unit × Realm η
  | [], r => (.ok (), r)
  | reaction :: reactions, r =>
    match r.enqueueRegisteredReaction reaction state with
    | (.error error, r) => (.error error, r)
    | (.ok _, r) => enqueueReactions state reactions r

def reactionsAt (r : Realm η) (address : Nat) : List PendingPromiseReaction :=
  (r.pendingPromiseReactions.filter fun entry => entry.1 == address).map Prod.snd

/-- `settle_promise`. -/
def settle (promise : Nat) (state : JsvPromiseState) (r : Realm η) :
    Except String Unit × Realm η :=
  let r := { r with promises := r.promises.set promise state }.record (.settled promise state)
  if state.isPending then (.ok (), r)
  else
    let address := Platform.promiseAddress promise
    let reactions := r.reactionsAt address
    enqueueReactions state reactions { r with
      pendingPromiseReactions :=
        r.pendingPromiseReactions.filter fun entry => entry.1 != address }

/-- `Promise.then`, `Promise.catch` and `Promise.finally` on the state of the promise. -/
def react (promise : Nat) (onFulfilled onRejected onFinally : Option JsvValue) (r : Realm η) :
    Except String Nat × Realm η :=
  let (result, r) := r.newPromise .pending none
  let r := r.record (.reacted promise result onFulfilled onRejected onFinally)
  let reaction : PendingPromiseReaction := ⟨onFulfilled, onRejected, onFinally, none, result⟩
  let (outcome, r) := match r.promiseState promise with
    | .pending => r.registerPending promise reaction
    | state => r.enqueueRegisteredReaction reaction state
  (outcome.map fun _ => result, r)

/-! ## Operations -/

/-- Hand the host what it may change and take it back. -/
def hostOperation (f : HostView η → Except String JsvValue × HostView η) (r : Realm η) :
    Except String JsvValue × Realm η :=
  let (reply, view) := f ⟨r.store, r.promises, r.host⟩
  (reply, { r with store := view.store, promises := view.promises, host := view.host }.record
    .hostOperation)

variable [JsvHost η]

def perform : ∀ {β : Type}, Op β → Realm η → Except String β × Realm η
  | _, .store f, r =>
    let (reply, store) := f r.store
    (reply, { r with store := store })
  | _, .enterExpr, r => r.enterExpr
  | _, .step, r => r.step
  | _, .hostGet object property, r => r.hostOperation (JsvHost.getProperty object property)
  | _, .hostSet object property value, r =>
    r.hostOperation (JsvHost.setProperty object property value)
  | _, .hostCall object method arguments, r =>
    r.hostOperation (JsvHost.call object method arguments)
  | _, .newPromise state source, r =>
    let (promise, r) := r.newPromise state source
    (.ok promise, r)
  | _, .promiseState promise, r => (.ok (r.promiseState promise), r)
  | _, .react promise onFulfilled onRejected onFinally, r =>
    r.react promise onFulfilled onRejected onFinally

def performJob : ∀ {β : Type}, JobOp β → Realm η → Except String β × Realm η
  | _, .script op, r => r.perform op
  | _, .takeJob, r =>
    match r.microtasks with
    | [] => (.ok none, r)
    | job :: jobs => (.ok (some job), { r with microtasks := jobs }.record (.took job))
  | _, .putBackJob job, r => (.ok (), { r with microtasks := job :: r.microtasks })
  | _, .settle promise state, r => r.settle promise state
  | _, .registerPending promise reaction, r => r.registerPending promise reaction

end Realm

/-! ## Calls -/

/-- `eval_expr`. -/
def evalExprCall (expr : JsvExpr) (env : JsvEnvironment) : Eval JsvValue := do
  Program.op .enterExpr
  evalExprBody expr env

/-- The promise an async function answers with: a promise that was returned hands over
the state it has now. -/
def asyncResult : Except String JsvValue → Eval (JsvPromiseState × Option Nat)
  | .ok (.returnSignal (.promise promise)) => do
    let state ← Program.op (.promiseState promise)
    return (state, some promise)
  | .ok (.returnSignal value) => return (.fulfilled value, none)
  | .ok (.throwSignal reason) => return (.rejected reason, none)
  | .ok .breakSignal =>
    return (.rejected (.string "SyntaxError: illegal break statement in async function"), none)
  | .ok .continueSignal =>
    return (.rejected (.string "SyntaxError: illegal continue statement in async function"), none)
  | .ok (.yieldSignal ..) =>
    return (.rejected (.string "SyntaxError: yield is not allowed in async functions"), none)
  | .ok value => return (.fulfilled value, none)
  | .error error => return (.rejected (.string error), none)

/-- The scope a function body runs in. -/
def functionScope (name : String) (params : List ParamBinding) (body : JsvExpr)
    (captured : JsvEnvironment) (args : List JsvValue) (thisArg : JsvValue) :
    Eval JsvEnvironment := do
  let fnEnv ← functionEnvironment name params body captured args
  define fnEnv "this" thisArg
  return fnEnv

/-- `call_function`. -/
def callFunctionBody (func : JsvValue) (args : List JsvValue) (env : JsvEnvironment)
    (thisArg : JsvValue) : Eval JsvValue :=
  .inside .call <| match func with
  | .nativeFn name => callNativeFn invokeNew name args env
  | .boundNativeFn name receiver => callBoundNative name receiver args env
  | .hostFunction object method => .op (.hostCall object method args)
  | .function name params body captured => do
    let fnEnv ← functionScope name params body captured args thisArg
    evalExpr 0 body fnEnv
  | .asyncFunction name params body captured => do
    let fnEnv ← functionScope name params body captured args thisArg
    let result ← Program.caught .asyncBody (evalExpr 0 body fnEnv)
    let (state, source) ← asyncResult result
    let ref ← Program.op (.newPromise state source)
    return .promise ref
  | .generatorFn name params body captured =>
    updateStore fun store =>
      (.generatorObject store.generators.length,
        { store with generators := store.generators ++
          [⟨name, params, body, captured, false, false, none, false⟩] })
  | .class ref => do
    let name ← readStore fun store => (store.classes[ref]?.map JsvClass.name).getD ""
    fail ("TypeError: Class constructor " ++ name ++ " cannot be invoked without 'new'")
  | other => do
    fail ("TypeError: " ++ (← display other) ++ " is not a function")

/-- `construct_class_with_this`. -/
def constructClassWithThisBody (ref : Nat) (args : List JsvValue) (thisValue : JsvValue)
    (env : JsvEnvironment) : Eval JsvValue :=
  .inside .call (constructClassWithThisInner ref args thisValue env)

/-- What the functions of the evaluator do. -/
def callBody : ∀ {β : Type}, Call β → JobEval β
  | _, .drainPromiseJobs env => drainPromiseJobsBody env
  | _, .evalExpr _ expr env => (evalExprCall expr env).lift .script
  | _, .callFunction func args env thisArg => (callFunctionBody func args env thisArg).lift .script
  | _, .constructClassWithThis ref args thisValue env =>
    (constructClassWithThisBody ref args thisValue env).lift .script
  | _, .generatorNext generator argument => (generatorNextBody generator argument).lift .script
  | _, .proxyGet proxy key env => (proxyGetBody proxy key env).lift .script
  | _, .proxySet proxy key value env => (proxySetBody proxy key value env).lift .script

/-! ## Turns -/

variable {η : Type} [JsvHost η]

/-- The evaluator over realms. -/
def engine (η : Type) [JsvHost η] : Handler String JobOp Call Scope Guard (Realm η) where
  perform := Realm.performJob
  body := callBody
  enter := Realm.enter
  leave := Realm.leave
  enterGuard guard r := r.record (.guarded guard)
  leaveGuard guard isOk r := r.record (.unguarded guard isOk)

def globalEnv : JsvEnvironment := ⟨0⟩

/-- The completion of a turn as a result; `place` is empty or ` in callback`. -/
def turnResult (place : String) : JsvValue → Eval JsvValue
  | .returnSignal value => return value
  | .throwSignal reason => do
    fail ("Uncaught exception" ++ place ++ ": " ++ (← display reason))
  | .breakSignal => fail ("SyntaxError: illegal break statement" ++ place)
  | .continueSignal => fail ("SyntaxError: illegal continue statement" ++ place)
  | value => return value

/-- The turn of a script: `eval_with_host_limit` after parsing. -/
def scriptTurn (exprs : List JsvExpr) : Eval JsvValue := do
  let result ← evalProgram globalEnv 0 exprs .undefined
  drainPromiseJobs globalEnv
  turnResult "" result

def Store.startTurn (store : Store) : Store :=
  { store with
    stringBytes := 0, inGenerator := 0, currentGenerator := none, proxyDepth := 0
    modulesBusy := false, modulesEvaluated := 0 }

/-- `EvalCtx::with_step_limit`: a new context around what lives on. -/
def Realm.start (view : HostView η) (maxSteps : Nat) : Realm η where
  store := view.store.startTurn
  promises := view.promises
  host := view.host
  steps := 0
  maxSteps := min maxSteps maxEvalSteps
  callDepth := 0
  maxCallDepth := 0
  microtasks := []
  microtasksQueued := 0
  pendingPromiseReactions := []
  trace := []

def runTurn (fuel : Nat) (turn : Eval JsvValue) (maxSteps : Nat) (view : HostView η) :
    Ending String JsvValue (Realm η) :=
  (engine η).run fuel (turn.lift .script) (Realm.start view maxSteps)

end GhitaBrowser.Js
