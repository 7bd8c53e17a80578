import GhitaBrowser.Lib.OrdMap
import GhitaBrowser.Runtime.Heap

/-!
# Promise records and reaction jobs

A promise keeps its reactions until it is settled. Then every reaction becomes a job and
a microtask that names it. `drain_jobs` runs the jobs; the handlers are outside of the
runtime, so a drain takes what each of them answers.
-/

namespace GhitaBrowser.Runtime

def maxIdentifier : Nat := 2 ^ 64 - 1

/-! ## The event loop of an agent -/

inductive TaskSource where
  | javascript
  | domManipulation
  | networking
  | timer
  | userInteraction
  | media
deriving DecidableEq

structure QueuedJob where
  source : TaskSource
  callbackId : Nat
  dueMs : Nat
  sequence : Nat
deriving DecidableEq

def maxMicrotasksPerTurn : Nat := 100

/-- A promise runtime queues no task and its task limit is zero, so its `tasks` stays empty. -/
structure AgentEventLoop where
  nowMs : Nat
  nextSequence : Nat
  maxMicrotasks : Nat
  tasks : List QueuedJob
  microtasks : List QueuedJob
  truncated : Bool
  consecutiveMicrotasks : Nat
  maxTasks : Nat := 0

namespace AgentEventLoop

def new (maxMicrotasks : Nat) : AgentEventLoop where
  nowMs := 0
  nextSequence := 0
  maxMicrotasks := maxMicrotasks
  tasks := []
  microtasks := []
  truncated := false
  consecutiveMicrotasks := 0

def queueMicrotask (loop : AgentEventLoop) (callbackId : Nat) :
    Except String Unit × AgentEventLoop :=
  if loop.microtasks.length ≥ loop.maxMicrotasks then
    (.error "Runtime microtask budget exceeded", { loop with truncated := true })
  else
    (.ok (),
      { loop with
        nextSequence := min (loop.nextSequence + 1) maxIdentifier
        microtasks := loop.microtasks ++
          [{ source := .javascript, callbackId := callbackId, dueMs := loop.nowMs,
             sequence := loop.nextSequence }] })

/-- The order of `min_by_key` in `ready_task_index`. -/
def earlier (first second : QueuedJob) : Bool :=
  decide (first.dueMs < second.dueMs
    ∨ (first.dueMs = second.dueMs ∧ first.sequence ≤ second.sequence))

/-- The task of `ready_task_index` and the tasks without it. -/
def takeReadyTask (loop : AgentEventLoop) : Option (QueuedJob × AgentEventLoop) :=
  match (loop.tasks.filter fun task => task.dueMs ≤ loop.nowMs).mergeSort earlier with
  | [] => none
  | task :: _ => some (task, { loop with tasks := loop.tasks.erase task, consecutiveMicrotasks := 0 })

def popMicrotask (loop : AgentEventLoop) : Option (QueuedJob × AgentEventLoop) :=
  match loop.microtasks with
  | [] => takeReadyTask loop
  | microtask :: microtasks =>
    some (microtask,
      { loop with
        microtasks := microtasks
        consecutiveMicrotasks := loop.consecutiveMicrotasks + 1 })

def popNextReady (loop : AgentEventLoop) : Option (QueuedJob × AgentEventLoop) :=
  if loop.consecutiveMicrotasks ≥ maxMicrotasksPerTurn then
    match takeReadyTask loop with
    | some taken => some taken
    | none => popMicrotask loop
  else popMicrotask loop

end AgentEventLoop

/-! ## Records -/

abbrev PromiseId := Nat

inductive PromiseState where
  | pending
  | fulfilled (value : RuntimeValue)
  | rejected (reason : RuntimeValue)

def PromiseState.isPending : PromiseState → Bool
  | .pending => true
  | _ => false

structure PromiseReaction where
  onFulfilled : Option Nat
  onRejected : Option Nat
  result : PromiseId

structure PromiseRecord where
  state : PromiseState
  reactions : List PromiseReaction

structure QueuedReaction where
  handlerId : Option Nat
  argument : RuntimeValue
  result : PromiseId
  rejectedInput : Bool

structure PromiseRuntime where
  maxPromises : Nat
  nextPromiseId : PromiseId
  nextJobId : Nat
  records : IdMap PromiseRecord
  jobs : IdMap QueuedReaction
  eventLoop : AgentEventLoop
  truncated : Bool

namespace PromiseRuntime

def new (maxPromises maxMicrotasks : Nat) : PromiseRuntime where
  maxPromises := maxPromises
  nextPromiseId := 1
  nextJobId := 1
  records := ∅
  jobs := ∅
  eventLoop := .new maxMicrotasks
  truncated := false

def state (runtime : PromiseRuntime) (id : PromiseId) : Option PromiseState :=
  runtime.records[id]?.map PromiseRecord.state

def create (runtime : PromiseRuntime) : Except String PromiseId × PromiseRuntime :=
  if runtime.records.size ≥ runtime.maxPromises then
    (.error "Promise record budget exceeded", runtime)
  else if runtime.nextPromiseId ≥ maxIdentifier then
    (.error "Promise identifier space exhausted", runtime)
  else
    (.ok runtime.nextPromiseId,
      { runtime with
        nextPromiseId := runtime.nextPromiseId + 1
        records := runtime.records.insert runtime.nextPromiseId ⟨.pending, []⟩ })

def enqueueReaction (runtime : PromiseRuntime) (reaction : PromiseReaction) (argument : RuntimeValue)
    (rejectedInput : Bool) : Except String Unit × PromiseRuntime :=
  if runtime.nextJobId ≥ maxIdentifier then
    (.error "Promise job identifier space exhausted", runtime)
  else
    match runtime.eventLoop.queueMicrotask runtime.nextJobId with
    | (.error error, eventLoop) => (.error error, { runtime with eventLoop := eventLoop })
    | (.ok (), eventLoop) =>
      (.ok (),
        { runtime with
          eventLoop := eventLoop
          nextJobId := runtime.nextJobId + 1
          jobs := runtime.jobs.insert runtime.nextJobId
            { handlerId := if rejectedInput then reaction.onRejected else reaction.onFulfilled
              argument := argument
              result := reaction.result
              rejectedInput := rejectedInput } })

/-- The write to the dependent of a reaction that could not be queued. -/
def rejectDirectly (runtime : PromiseRuntime) (promise : PromiseId) (error : String) : PromiseRuntime :=
  { runtime with
    records := runtime.records.modify promise fun record =>
      { record with state := .rejected (.string error) } }

/-- The loop of `settle` over the reactions. -/
def enqueueAll (argument : RuntimeValue) (rejectedInput : Bool) :
    List PromiseReaction → PromiseRuntime → Option String → Option String × PromiseRuntime
  | [], runtime, firstError => (firstError, runtime)
  | reaction :: reactions, runtime, firstError =>
    match runtime.enqueueReaction reaction argument rejectedInput with
    | (.ok (), runtime) => enqueueAll argument rejectedInput reactions runtime firstError
    | (.error error, runtime) =>
      enqueueAll argument rejectedInput reactions (runtime.rejectDirectly reaction.result error)
        (firstError <|> some error)

def settle (runtime : PromiseRuntime) (promise : PromiseId) (state : PromiseState) :
    Except String Unit × PromiseRuntime :=
  match state with
  | .pending => (.error "Cannot settle a Promise as pending", runtime)
  | .fulfilled value => settleWith runtime promise (.fulfilled value) value false
  | .rejected reason => settleWith runtime promise (.rejected reason) reason true
where
  settleWith (runtime : PromiseRuntime) (promise : PromiseId) (state : PromiseState)
      (argument : RuntimeValue) (rejectedInput : Bool) : Except String Unit × PromiseRuntime :=
    match runtime.records[promise]? with
    | none => (.error "Unknown Promise record", runtime)
    | some record =>
      if record.state.isPending then
        let runtime := { runtime with records := runtime.records.insert promise ⟨state, []⟩ }
        match enqueueAll argument rejectedInput record.reactions runtime none with
        | (none, runtime) => (.ok (), runtime)
        | (some error, runtime) => (.error error, runtime)
      else (.ok (), runtime)

def resolve (runtime : PromiseRuntime) (promise : PromiseId) (value : RuntimeValue) :
    Except String Unit × PromiseRuntime := runtime.settle promise (.fulfilled value)

def reject (runtime : PromiseRuntime) (promise : PromiseId) (reason : RuntimeValue) :
    Except String Unit × PromiseRuntime := runtime.settle promise (.rejected reason)

/-- Register a reaction on a promise that was found in `state`. -/
def register (runtime : PromiseRuntime) (promise : PromiseId) (reaction : PromiseReaction) :
    PromiseState → Except String Unit × PromiseRuntime
  | .pending =>
    (.ok (),
      { runtime with
        records := runtime.records.modify promise fun record =>
          { record with reactions := record.reactions ++ [reaction] } })
  | .fulfilled value => runtime.enqueueReaction reaction value false
  | .rejected reason => runtime.enqueueReaction reaction reason true

def thenReact (runtime : PromiseRuntime) (promise : PromiseId) (onFulfilled onRejected : Option Nat) :
    Except String PromiseId × PromiseRuntime :=
  match runtime.state promise with
  | none => (.error "Unknown Promise record", runtime)
  | some state =>
    match runtime.create with
    | (.error error, runtime) => (.error error, runtime)
    | (.ok result, runtime) =>
      match runtime.register promise ⟨onFulfilled, onRejected, result⟩ state with
      | (.ok (), runtime) => (.ok result, runtime)
      | (.error error, runtime) => (.error error, { runtime with records := runtime.records.erase result })

/-! ## The jobs -/

/-- What `invoke` answers in its `n`-th call of a drain. -/
abbrev Handlers := Nat → Nat → RuntimeValue → Except RuntimeValue RuntimeValue

def outcome (handlers : Handlers) (processed : Nat) (reaction : QueuedReaction) :
    Except RuntimeValue RuntimeValue :=
  match reaction.handlerId with
  | some handlerId => handlers processed handlerId reaction.argument
  | none => if reaction.rejectedInput then .error reaction.argument else .ok reaction.argument

/-- What one turn of the drain loop comes to before it settles a promise. -/
inductive Turn where
  | idle
  | failed (error : String) (runtime : PromiseRuntime)
  | settles (runtime : PromiseRuntime) (promise : PromiseId) (state : PromiseState)

def outcomeState : Except RuntimeValue RuntimeValue → PromiseState
  | .ok value => .fulfilled value
  | .error reason => .rejected reason

def turn (runtime : PromiseRuntime) (handlers : Handlers) (processed : Nat) : Turn :=
  match runtime.eventLoop.popNextReady with
  | none => .idle
  | some (job, eventLoop) =>
    if job.source ≠ .javascript then
      .failed "Promise runtime received a non-JavaScript job" { runtime with eventLoop := eventLoop }
    else
      match runtime.jobs[job.callbackId]? with
      | none =>
        .failed "Promise reaction job is missing" { runtime with eventLoop := eventLoop }
      | some reaction =>
        .settles { runtime with eventLoop := eventLoop, jobs := runtime.jobs.erase job.callbackId }
          reaction.result (outcomeState (outcome handlers processed reaction))

/-- The loop of `drain_jobs`; `remaining` turns may still follow. -/
def drainLoop (handlers : Handlers) : Nat → Nat → PromiseRuntime → Except String Nat × PromiseRuntime
  | 0, processed, runtime => finish processed runtime
  | remaining + 1, processed, runtime =>
    match runtime.turn handlers processed with
    | .idle => finish processed runtime
    | .failed error runtime => (.error error, runtime)
    | .settles runtime promise state =>
      match runtime.settle promise state with
      | (.error error, runtime) => (.error error, runtime)
      | (.ok (), runtime) => drainLoop handlers remaining (processed + 1) runtime
where
  finish (processed : Nat) (runtime : PromiseRuntime) : Except String Nat × PromiseRuntime :=
    (.ok processed, { runtime with truncated := decide (runtime.jobs.size > 0) })

def drainJobs (runtime : PromiseRuntime) (maxJobs : Nat) (handlers : Handlers) :
    Except String Nat × PromiseRuntime :=
  drainLoop handlers maxJobs 0 { runtime with truncated := false }

end PromiseRuntime

/-! ## Runs -/

inductive PromiseOperation where
  | create
  | thenReact (promise : PromiseId) (onFulfilled onRejected : Option Nat)
  | resolve (promise : PromiseId) (value : RuntimeValue)
  | reject (promise : PromiseId) (reason : RuntimeValue)
  | drainJobs (maxJobs : Nat) (handlers : PromiseRuntime.Handlers)

/-- The runtime after a call, also when the call fails. -/
def PromiseOperation.run (runtime : PromiseRuntime) : PromiseOperation → PromiseRuntime
  | .create => runtime.create.2
  | .thenReact promise onFulfilled onRejected => (runtime.thenReact promise onFulfilled onRejected).2
  | .resolve promise value => (runtime.resolve promise value).2
  | .reject promise reason => (runtime.reject promise reason).2
  | .drainJobs maxJobs handlers => (runtime.drainJobs maxJobs handlers).2

def promiseRun (runtime : PromiseRuntime) (operations : List PromiseOperation) : PromiseRuntime :=
  operations.foldl PromiseOperation.run runtime

end GhitaBrowser.Runtime
