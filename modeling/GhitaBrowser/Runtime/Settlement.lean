import GhitaBrowser.Runtime.PromiseRuntime

/-!
# Settled promises

A promise is settled once, except that `settle` writes to the dependents it finds no room
for in the queue without looking at their state. In a run in which it writes to pending
dependents only, every settled promise keeps its state.
-/

namespace GhitaBrowser.Runtime

namespace PromiseRuntime

/-- How many reactions can still be queued. -/
def room (runtime : PromiseRuntime) : Nat :=
  min (runtime.eventLoop.maxMicrotasks - runtime.eventLoop.microtasks.length)
    (maxIdentifier - runtime.nextJobId)

/-- The reactions of a pending promise that `settle` finds no room for. -/
def refused (runtime : PromiseRuntime) (promise : PromiseId) : List PromiseReaction :=
  match runtime.records[promise]? with
  | some record => if record.state.isPending then record.reactions.drop runtime.room else []
  | none => []

/-! ## Conditions on the settlements of a run -/

/-- Every settlement of a drain meets a condition on the state before it. -/
def DrainMeets (condition : PromiseRuntime → PromiseId → Prop) (handlers : Handlers) :
    Nat → Nat → PromiseRuntime → Prop
  | 0, _, _ => True
  | remaining + 1, processed, runtime =>
    match runtime.turn handlers processed with
    | .idle => True
    | .failed _ _ => True
    | .settles runtime promise state =>
      condition runtime promise ∧
        match runtime.settle promise state with
        | (.error _, _) => True
        | (.ok (), runtime) => DrainMeets condition handlers remaining (processed + 1) runtime

end PromiseRuntime

open PromiseRuntime

/-- Every settlement of a call meets a condition on the state before it. -/
def PromiseOperation.Meets (condition : PromiseRuntime → PromiseId → Prop) (runtime : PromiseRuntime) :
    PromiseOperation → Prop
  | .create => True
  | .thenReact _ _ _ => True
  | .resolve promise _ => condition runtime promise
  | .reject promise _ => condition runtime promise
  | .drainJobs maxJobs handlers =>
    DrainMeets condition handlers maxJobs 0 { runtime with truncated := false }

/-- Every settlement of a run meets a condition on the state before it. -/
def RunMeets (condition : PromiseRuntime → PromiseId → Prop) :
    List PromiseOperation → PromiseRuntime → Prop
  | [], _ => True
  | operation :: operations, runtime =>
    operation.Meets condition runtime ∧ RunMeets condition operations (operation.run runtime)

/-! ## Invariants of runs -/

/-- The dependent a call registers, with the promise it depends on. -/
def PromiseOperation.registers (runtime : PromiseRuntime) :
    PromiseOperation → List (PromiseId × PromiseId)
  | .thenReact promise onFulfilled onRejected =>
    match (runtime.thenReact promise onFulfilled onRejected).1 with
    | .ok result => [(promise, result)]
    | .error _ => []
  | _ => []

def registrations : List PromiseOperation → PromiseRuntime → List (PromiseId × PromiseId)
  | [], _ => []
  | operation :: operations, runtime =>
    operation.registers runtime ++ registrations operations (operation.run runtime)

/-- What each step of a run has to keep, given what was registered so far. -/
structure RunInvariant (condition : PromiseRuntime → PromiseId → Prop)
    (Inv : List (PromiseId × PromiseId) → PromiseRuntime → Prop) : Prop where
  create : ∀ {history runtime}, Inv history runtime → Inv history runtime.create.2
  thenReact : ∀ {history runtime} promise onFulfilled onRejected, Inv history runtime →
    Inv (history ++ PromiseOperation.registers runtime (.thenReact promise onFulfilled onRejected))
      (runtime.thenReact promise onFulfilled onRejected).2
  settle : ∀ {history runtime} promise state, Inv history runtime → condition runtime promise →
    Inv history (runtime.settle promise state).2
  turn : ∀ {history runtime after handlers processed promise state}, Inv history runtime →
    runtime.turn handlers processed = .settles after promise state → condition after promise →
    Inv history (after.settle promise state).2
  failed : ∀ {history runtime after handlers processed error}, Inv history runtime →
    runtime.turn handlers processed = .failed error after → Inv history after
  truncated : ∀ {history runtime} flag, Inv history runtime →
    Inv history { runtime with truncated := flag }

namespace RunInvariant

variable {condition : PromiseRuntime → PromiseId → Prop}
  {Inv : List (PromiseId × PromiseId) → PromiseRuntime → Prop}
  {history : List (PromiseId × PromiseId)}

variable {runtime : PromiseRuntime}

theorem drain (hinv : RunInvariant condition Inv) {handlers : Handlers} {remaining processed : Nat}
    (h : Inv history runtime)
    (hmeets : DrainMeets condition handlers remaining processed runtime) :
    Inv history (drainLoop handlers remaining processed runtime).2 := by
  induction remaining generalizing processed runtime with
  | zero => exact hinv.truncated _ h
  | succ remaining ih =>
    unfold drainLoop
    unfold DrainMeets at hmeets
    split
    · exact hinv.truncated _ h
    · next error after hturn => exact hinv.failed h hturn
    · next after promise state hturn =>
      rw [hturn] at hmeets
      have hsettled := hinv.turn h hturn hmeets.1
      split
      · next error final hsettle => rwa [hsettle] at hsettled
      · next final hsettle =>
        rw [hsettle] at hsettled
        have hrest := hmeets.2
        rw [hsettle] at hrest
        exact ih hsettled hrest

theorem step (hinv : RunInvariant condition Inv) (h : Inv history runtime)
    (operation : PromiseOperation) (hmeets : operation.Meets condition runtime) :
    Inv (history ++ operation.registers runtime) (operation.run runtime) := by
  have hnone : Inv (history ++ []) (operation.run runtime) ↔ Inv history (operation.run runtime) := by
    rw [List.append_nil]
  cases operation with
  | create => exact hnone.mpr (hinv.create h)
  | thenReact promise onFulfilled onRejected => exact hinv.thenReact promise _ _ h
  | resolve promise value => exact hnone.mpr (hinv.settle promise _ h hmeets)
  | reject promise reason => exact hnone.mpr (hinv.settle promise _ h hmeets)
  | drainJobs maxJobs handlers => exact hnone.mpr (hinv.drain (hinv.truncated false h) hmeets)

theorem run (hinv : RunInvariant condition Inv) {operations : List PromiseOperation}
    (h : Inv history runtime) (hmeets : RunMeets condition operations runtime) :
    Inv (history ++ registrations operations runtime) (promiseRun runtime operations) := by
  induction operations generalizing history runtime with
  | nil =>
    rw [registrations, List.append_nil]
    exact h
  | cons operation operations ih =>
    rw [registrations, ← List.append_assoc]
    exact ih (hinv.step h operation hmeets.1) hmeets.2

/-- An invariant that is not about what was registered. -/
theorem of_run {Inv : PromiseRuntime → Prop} (hinv : RunInvariant condition fun _ => Inv)
    {operations : List PromiseOperation} (h : Inv runtime)
    (hmeets : RunMeets condition operations runtime) : Inv (promiseRun runtime operations) :=
  @run condition (fun _ => Inv) [] runtime hinv operations h hmeets

end RunInvariant

/-! ## Queueing reactions -/

namespace PromiseRuntime

section

variable {runtime : PromiseRuntime} {reaction : PromiseReaction} {argument : RuntimeValue}
  {rejectedInput : Bool}

/-- The runtime with one more job. -/
def withJob (runtime : PromiseRuntime) (reaction : PromiseReaction) (argument : RuntimeValue)
    (rejectedInput : Bool) : PromiseRuntime :=
  { runtime with
    eventLoop := { runtime.eventLoop with
      nextSequence := min (runtime.eventLoop.nextSequence + 1) maxIdentifier
      microtasks := runtime.eventLoop.microtasks ++
        [{ source := .javascript, callbackId := runtime.nextJobId, dueMs := runtime.eventLoop.nowMs,
           sequence := runtime.eventLoop.nextSequence }] }
    nextJobId := runtime.nextJobId + 1
    jobs := runtime.jobs.insert runtime.nextJobId
      { handlerId := if rejectedInput then reaction.onRejected else reaction.onFulfilled
        argument := argument
        result := reaction.result
        rejectedInput := rejectedInput } }

/-- The runtime after a reaction was refused. -/
def withTruncated (runtime : PromiseRuntime) (flag : Bool) : PromiseRuntime :=
  { runtime with eventLoop := { runtime.eventLoop with truncated := flag } }

theorem enqueueReaction_cases (runtime : PromiseRuntime) (reaction : PromiseReaction)
    (argument : RuntimeValue) (rejectedInput : Bool) :
    (0 < runtime.room ∧ runtime.enqueueReaction reaction argument rejectedInput =
      (.ok (), runtime.withJob reaction argument rejectedInput)) ∨
    (runtime.room = 0 ∧ ∃ error flag, runtime.enqueueReaction reaction argument rejectedInput =
      (.error error, runtime.withTruncated flag)) := by
  unfold enqueueReaction room
  split
  · exact .inr ⟨by omega, _, runtime.eventLoop.truncated, rfl⟩
  · unfold AgentEventLoop.queueMicrotask
    by_cases hfull : runtime.eventLoop.microtasks.length ≥ runtime.eventLoop.maxMicrotasks
    · rw [if_pos hfull]
      exact .inr ⟨by omega, _, true, rfl⟩
    · rw [if_neg hfull]
      exact .inl ⟨by omega, rfl⟩

theorem room_withJob : (runtime.withJob reaction argument rejectedInput).room = runtime.room - 1 := by
  simp only [room, withJob, List.length_append, List.length_singleton]
  omega

theorem room_withTruncated {flag : Bool} : (runtime.withTruncated flag).room = runtime.room := rfl

theorem room_rejectDirectly {promise : PromiseId} {error : String} :
    (runtime.rejectDirectly promise error).room = runtime.room := rfl

theorem records_rejectDirectly {promise other : PromiseId} {error : String} :
    (runtime.rejectDirectly promise error).records[other]? =
      if other = promise then
        runtime.records[promise]?.map fun record =>
          { record with state := .rejected (.string error) }
      else runtime.records[other]? := IdMap.getElem?_modify _ _ _ _

end

theorem enqueueAll_records (argument : RuntimeValue) (rejectedInput : Bool)
    {reactions : List PromiseReaction} {runtime : PromiseRuntime} (firstError : Option String)
    {promise : PromiseId} (h : ∀ reaction ∈ reactions.drop runtime.room, reaction.result ≠ promise) :
    (enqueueAll argument rejectedInput reactions runtime firstError).2.records[promise]? =
      runtime.records[promise]? := by
  induction reactions generalizing runtime firstError with
  | nil => rfl
  | cons reaction reactions ih =>
    unfold enqueueAll
    rcases enqueueReaction_cases runtime reaction argument rejectedInput with
      ⟨hroom, hqueued⟩ | ⟨hfull, error, flag, hrefused⟩
    rotate_left
    · -- from here on there is no room
      rw [hfull, List.drop_zero] at h
      rw [hrefused]
      have hrest : ∀ other ∈ reactions.drop
          ((runtime.withTruncated flag).rejectDirectly reaction.result error).room,
          other.result ≠ promise := by
        rw [room_rejectDirectly, room_withTruncated, hfull, List.drop_zero]
        exact fun other hother => h other (List.mem_cons_of_mem _ hother)
      show (enqueueAll argument rejectedInput reactions _ _).2.records[promise]? = _
      rw [ih _ hrest, records_rejectDirectly, if_neg (Ne.symm (h reaction List.mem_cons_self))]
      rfl
    · rw [hqueued]
      have hrest : ∀ other ∈ reactions.drop (runtime.withJob reaction argument rejectedInput).room,
          other.result ≠ promise := by
        rw [room_withJob]
        intro other hother
        refine h other ?_
        rw [← Nat.succ_pred_eq_of_pos hroom, List.drop_succ_cons]
        exact hother
      show (enqueueAll argument rejectedInput reactions _ _).2.records[promise]? = _
      rw [ih _ hrest]
      rfl

/-- No operation on the queue takes a record away, adds one or moves the id counter. -/
structure SameIds (runtime after : PromiseRuntime) : Prop where
  next : after.nextPromiseId = runtime.nextPromiseId
  known : ∀ id : PromiseId, (after.records[id]?).isSome = (runtime.records[id]?).isSome

theorem SameIds.trans {first second third : PromiseRuntime} (h : SameIds first second)
    (h' : SameIds second third) : SameIds first third :=
  ⟨h'.next.trans h.next, fun id => (h'.known id).trans (h.known id)⟩

theorem sameIds_rejectDirectly (runtime : PromiseRuntime) (promise : PromiseId) (error : String) :
    SameIds runtime (runtime.rejectDirectly promise error) := by
  refine ⟨rfl, fun id => ?_⟩
  rw [records_rejectDirectly]
  split
  · next hsame => rw [Option.isSome_map, hsame]
  · rfl

theorem sameIds_enqueueAll (argument : RuntimeValue) (rejectedInput : Bool)
    (reactions : List PromiseReaction) (runtime : PromiseRuntime) (firstError : Option String) :
    SameIds runtime (enqueueAll argument rejectedInput reactions runtime firstError).2 := by
  induction reactions generalizing runtime firstError with
  | nil => exact ⟨rfl, fun _ => rfl⟩
  | cons reaction reactions ih =>
    unfold enqueueAll
    rcases enqueueReaction_cases runtime reaction argument rejectedInput with
      ⟨-, hqueued⟩ | ⟨-, error, flag, hrefused⟩
    · rw [hqueued]
      have hrest := ih (runtime.withJob reaction argument rejectedInput) firstError
      exact ⟨hrest.next, hrest.known⟩
    · rw [hrefused]
      have hreject := sameIds_rejectDirectly (runtime.withTruncated flag) reaction.result error
      exact SameIds.trans ⟨hreject.next, hreject.known⟩ (ih _ _)

/-! ## Settling -/

/-- The runtime with a promise settled and its reactions taken. -/
def settledAs (runtime : PromiseRuntime) (promise : PromiseId) (state : PromiseState) : PromiseRuntime :=
  { runtime with records := runtime.records.insert promise ⟨state, []⟩ }

/-- The runtime without a job and its microtask. -/
def popped (runtime : PromiseRuntime) (jobId : Nat) (eventLoop : AgentEventLoop) : PromiseRuntime :=
  { runtime with eventLoop := eventLoop, jobs := runtime.jobs.erase jobId }

/-- What `settle` can do: nothing, or queue the reactions of a pending promise. -/
theorem settle_cases (runtime : PromiseRuntime) (promise : PromiseId) (state : PromiseState) :
    ((runtime.settle promise state).2 = runtime ∧
      (state.isPending = true ∨ ∀ record, runtime.records[promise]? = some record →
        record.state.isPending = false)) ∨
    ∃ record argument rejectedInput, runtime.records[promise]? = some record ∧
      record.state.isPending = true ∧ state.isPending = false ∧
      (runtime.settle promise state).2 =
        (enqueueAll argument rejectedInput record.reactions (runtime.settledAs promise state) none).2 := by
  have hwith : ∀ argument rejectedInput, state.isPending = false →
      ((settle.settleWith runtime promise state argument rejectedInput).2 = runtime ∧
        ∀ record, runtime.records[promise]? = some record → record.state.isPending = false) ∨
      ∃ record, runtime.records[promise]? = some record ∧ record.state.isPending = true ∧
        (settle.settleWith runtime promise state argument rejectedInput).2 =
          (enqueueAll argument rejectedInput record.reactions (runtime.settledAs promise state) none).2 := by
    intro argument rejectedInput hstate
    unfold settle.settleWith
    split
    · next hnone => exact .inl ⟨rfl, by simp [hnone]⟩
    · next record hrecord =>
      split
      · next hpending =>
        refine .inr ⟨record, hrecord, hpending, ?_⟩
        dsimp only
        split
        · next after hqueued => rw [settledAs, hqueued]
        · next error after hqueued => rw [settledAs, hqueued]
      · next hsettled =>
        refine .inl ⟨rfl, fun other hother => ?_⟩
        obtain rfl := Option.some.inj (hrecord.symm.trans hother)
        simpa using hsettled
  cases state with
  | pending => exact .inl ⟨rfl, .inl rfl⟩
  | fulfilled value =>
    rcases hwith value false rfl with ⟨hsame, hsettled⟩ | ⟨record, hrecord, hpending, hafter⟩
    · exact .inl ⟨hsame, .inr hsettled⟩
    · exact .inr ⟨record, value, false, hrecord, hpending, rfl, hafter⟩
  | rejected reason =>
    rcases hwith reason true rfl with ⟨hsame, hsettled⟩ | ⟨record, hrecord, hpending, hafter⟩
    · exact .inl ⟨hsame, .inr hsettled⟩
    · exact .inr ⟨record, reason, true, hrecord, hpending, rfl, hafter⟩

theorem turn_settles {runtime after : PromiseRuntime} {handlers : Handlers} {processed : Nat}
    {promise : PromiseId} {state : PromiseState}
    (h : runtime.turn handlers processed = .settles after promise state) :
    ∃ job eventLoop reaction, runtime.eventLoop.popNextReady = some (job, eventLoop) ∧
      runtime.jobs[job.callbackId]? = some reaction ∧ promise = reaction.result ∧
      state.isPending = false ∧
      after = runtime.popped job.callbackId eventLoop := by
  unfold turn at h
  split at h
  · cases h
  · next job eventLoop hpop =>
    split at h
    · cases h
    · split at h
      · cases h
      · next reaction hreaction =>
        obtain ⟨rfl, rfl, rfl⟩ := Turn.settles.inj h
        refine ⟨job, eventLoop, reaction, hpop, hreaction, rfl, ?_, rfl⟩
        cases outcome handlers processed reaction <;> rfl

theorem turn_failed {runtime after : PromiseRuntime} {handlers : Handlers} {processed : Nat}
    {error : String} (h : runtime.turn handlers processed = .failed error after) :
    ∃ job eventLoop, runtime.eventLoop.popNextReady = some (job, eventLoop) ∧
      (job.source ≠ .javascript ∨ runtime.jobs[job.callbackId]? = none) ∧
      after = { runtime with eventLoop := eventLoop } := by
  unfold turn at h
  split at h
  · cases h
  · next job eventLoop hpop =>
    split at h
    · next hsource =>
      obtain ⟨-, rfl⟩ := Turn.failed.inj h
      exact ⟨job, eventLoop, hpop, .inl hsource, rfl⟩
    · split at h
      · next hmissing =>
        obtain ⟨-, rfl⟩ := Turn.failed.inj h
        exact ⟨job, eventLoop, hpop, .inr hmissing, rfl⟩
      · cases h

/-! ## Registering -/

/-- The runtime with a new pending promise. -/
def created (runtime : PromiseRuntime) : PromiseRuntime :=
  { runtime with
    nextPromiseId := runtime.nextPromiseId + 1
    records := runtime.records.insert runtime.nextPromiseId ⟨.pending, []⟩ }

/-- The runtime with a reaction on a pending promise. -/
def waiting (runtime : PromiseRuntime) (promise : PromiseId) (reaction : PromiseReaction) :
    PromiseRuntime :=
  { runtime with
    records := runtime.records.modify promise fun record =>
      { record with reactions := record.reactions ++ [reaction] } }

/-- The runtime without a record. -/
def forgets (runtime : PromiseRuntime) (promise : PromiseId) : PromiseRuntime :=
  { runtime with records := runtime.records.erase promise }

theorem create_cases (runtime : PromiseRuntime) :
    (∃ error, runtime.create = (.error error, runtime)) ∨
      runtime.create = (.ok runtime.nextPromiseId, runtime.created) := by
  unfold create
  split
  · exact .inl ⟨_, rfl⟩
  · split
    · exact .inl ⟨_, rfl⟩
    · exact .inr rfl

theorem register_settled (runtime : PromiseRuntime) (promise : PromiseId) (reaction : PromiseReaction)
    {state : PromiseState} (h : state.isPending = false) :
    (∃ argument rejectedInput, runtime.register promise reaction state =
      (.ok (), runtime.withJob reaction argument rejectedInput)) ∨
    ∃ error flag, runtime.register promise reaction state =
      (.error error, runtime.withTruncated flag) := by
  cases state with
  | pending => cases h
  | fulfilled value =>
    rcases enqueueReaction_cases runtime reaction value false with ⟨-, hqueued⟩ | ⟨-, hrefused⟩
    · exact .inl ⟨value, false, hqueued⟩
    · exact .inr hrefused
  | rejected reason =>
    rcases enqueueReaction_cases runtime reaction reason true with ⟨-, hqueued⟩ | ⟨-, hrefused⟩
    · exact .inl ⟨reason, true, hqueued⟩
    · exact .inr hrefused

/-- What `then` can do: nothing, or register a new promise in one of two ways, or take the
new promise back. -/
theorem thenReact_cases (runtime : PromiseRuntime) (promise : PromiseId)
    (onFulfilled onRejected : Option Nat) :
    (∃ error, runtime.thenReact promise onFulfilled onRejected = (.error error, runtime)) ∨
    ∃ record, runtime.records[promise]? = some record ∧
      ((record.state.isPending = true ∧
          runtime.thenReact promise onFulfilled onRejected =
            (.ok runtime.nextPromiseId,
              runtime.created.waiting promise ⟨onFulfilled, onRejected, runtime.nextPromiseId⟩)) ∨
        (record.state.isPending = false ∧ ∃ argument rejectedInput,
          runtime.thenReact promise onFulfilled onRejected =
            (.ok runtime.nextPromiseId,
              runtime.created.withJob ⟨onFulfilled, onRejected, runtime.nextPromiseId⟩ argument
                rejectedInput)) ∨
        ∃ error flag, runtime.thenReact promise onFulfilled onRejected =
          (.error error, (runtime.created.withTruncated flag).forgets runtime.nextPromiseId)) := by
  unfold thenReact
  cases hrecord : runtime.records[promise]? with
  | none =>
    rw [state, hrecord]
    exact .inl ⟨_, rfl⟩
  | some record =>
    rw [state, hrecord, Option.map_some]
    rcases create_cases runtime with ⟨error, hcreate⟩ | hcreate
    · rw [hcreate]
      exact .inl ⟨error, rfl⟩
    · rw [hcreate]
      refine .inr ⟨record, rfl, ?_⟩
      cases hpending : record.state.isPending with
      | true =>
        cases hstate : record.state with
        | pending => exact .inl ⟨rfl, rfl⟩
        | fulfilled value => rw [hstate] at hpending; cases hpending
        | rejected reason => rw [hstate] at hpending; cases hpending
      | false =>
        right
        dsimp only
        rcases register_settled runtime.created promise ⟨onFulfilled, onRejected, runtime.nextPromiseId⟩
          hpending with ⟨argument, rejectedInput, hqueued⟩ | ⟨error, flag, hrefused⟩
        · rw [hqueued]
          exact .inl ⟨rfl, argument, rejectedInput, rfl⟩
        · rw [hrefused]
          exact .inr ⟨error, flag, rfl⟩

/-! ## Ids -/

/-- No record has an id that is still to be given out. -/
def Fresh (runtime : PromiseRuntime) : Prop :=
  ∀ id : PromiseId, (runtime.records[id]?).isSome = true → id < runtime.nextPromiseId

section

variable {runtime : PromiseRuntime}

theorem Fresh.created (h : Fresh runtime) : Fresh runtime.created := by
  intro id hid
  show id < runtime.nextPromiseId + 1
  rw [PromiseRuntime.created, IdMap.getElem?_insert] at hid
  split at hid
  · next hsame => exact hsame ▸ Nat.lt_succ_self id
  · exact (h id hid).trans (Nat.lt_succ_self _)

theorem Fresh.create (h : Fresh runtime) : Fresh runtime.create.2 := by
  rcases create_cases runtime with ⟨error, hcreate⟩ | hcreate
  · rw [hcreate]
    exact h
  · rw [hcreate]
    exact h.created

theorem Fresh.waiting (h : Fresh runtime) (promise : PromiseId) (reaction : PromiseReaction) :
    Fresh (runtime.waiting promise reaction) := by
  intro id hid
  refine h id ?_
  rw [PromiseRuntime.waiting, IdMap.getElem?_modify] at hid
  split at hid
  · next hsame => rwa [Option.isSome_map, ← hsame] at hid
  · exact hid

theorem Fresh.forgets (h : Fresh runtime) (promise : PromiseId) : Fresh (runtime.forgets promise) := by
  intro id hid
  rw [PromiseRuntime.forgets, IdMap.getElem?_erase] at hid
  split at hid
  · cases hid
  · exact h id hid

theorem Fresh.thenReact (h : Fresh runtime) (promise : PromiseId) (onFulfilled onRejected : Option Nat) :
    Fresh (runtime.thenReact promise onFulfilled onRejected).2 := by
  rcases thenReact_cases runtime promise onFulfilled onRejected with
    ⟨error, hsame⟩ | ⟨record, -, ⟨-, hwaits⟩ | ⟨-, argument, rejectedInput, hqueued⟩ | ⟨error, flag, hrefused⟩⟩
  · rw [hsame]
    exact h
  · rw [hwaits]
    exact h.created.waiting promise _
  · rw [hqueued]
    exact h.created
  · rw [hrefused]
    have htruncated : Fresh (runtime.created.withTruncated flag) := h.created
    exact htruncated.forgets _

theorem Fresh.settle (h : Fresh runtime) (promise : PromiseId) (state : PromiseState) :
    Fresh (runtime.settle promise state).2 := by
  rcases settle_cases runtime promise state with
    ⟨hsame, -⟩ | ⟨record, argument, rejectedInput, hrecord, -, -, hafter⟩
  · rw [hsame]
    exact h
  · have hids := sameIds_enqueueAll argument rejectedInput record.reactions
      (runtime.settledAs promise state) none
    rw [hafter]
    intro id hid
    rw [hids.known, settledAs, IdMap.getElem?_insert] at hid
    rw [hids.next]
    split at hid
    · next hsame =>
      subst hsame
      exact h id (by rw [hrecord]; rfl)
    · exact h id hid

end

theorem runInvariant_fresh : RunInvariant (fun _ _ => True) fun _ => Fresh where
  create := Fresh.create
  thenReact := fun promise onFulfilled onRejected h => h.thenReact promise onFulfilled onRejected
  settle := fun promise state h _ => h.settle promise state
  turn := by
    intro _ runtime after handlers processed promise state h hturn _
    obtain ⟨job, eventLoop, reaction, -, -, -, -, rfl⟩ := turn_settles hturn
    have hpopped : Fresh (runtime.popped job.callbackId eventLoop) := h
    exact hpopped.settle promise state
  failed := by
    intro _ runtime after handlers processed error h hturn
    obtain ⟨job, eventLoop, -, -, rfl⟩ := turn_failed hturn
    exact h
  truncated := fun flag h => h

theorem drainMeets_true (handlers : Handlers) (remaining processed : Nat) (runtime : PromiseRuntime) :
    DrainMeets (fun _ _ => True) handlers remaining processed runtime := by
  induction remaining generalizing processed runtime with
  | zero => exact True.intro
  | succ remaining ih =>
    unfold DrainMeets
    split
    · exact True.intro
    · exact True.intro
    · refine ⟨True.intro, ?_⟩
      split
      · exact True.intro
      · exact ih _ _

theorem runMeets_true (operations : List PromiseOperation) (runtime : PromiseRuntime) :
    RunMeets (fun _ _ => True) operations runtime := by
  induction operations generalizing runtime with
  | nil => exact True.intro
  | cons operation operations ih =>
    refine ⟨?_, ih _⟩
    cases operation with
    | drainJobs maxJobs handlers => exact drainMeets_true handlers maxJobs 0 _
    | _ => exact True.intro

theorem fresh_run (maxPromises maxMicrotasks : Nat) (operations : List PromiseOperation) :
    Fresh (promiseRun (new maxPromises maxMicrotasks) operations) := by
  have hnew : Fresh (new maxPromises maxMicrotasks) := by
    intro id hid
    simp [new] at hid
  exact runInvariant_fresh.of_run hnew (runMeets_true operations _)

/-! ## Settled promises -/

/-- `settle` writes to pending dependents only: it finds room for every reaction whose
dependent is settled already. -/
def WritesToPending (runtime : PromiseRuntime) (promise : PromiseId) : Prop :=
  ∀ reaction ∈ runtime.refused promise, ∀ state, runtime.state reaction.result = some state →
    state.isPending = true

section

variable {runtime : PromiseRuntime} {promise : PromiseId} {state : PromiseState}

theorem exists_record (h : runtime.state promise = some state) :
    ∃ record, runtime.records[promise]? = some record ∧ record.state = state :=
  Option.map_eq_some_iff.mp h

theorem ne_next (hfresh : Fresh runtime) (h : runtime.state promise = some state) :
    promise ≠ runtime.nextPromiseId := by
  obtain ⟨record, hrecord, -⟩ := exists_record h
  exact Nat.ne_of_lt (hfresh promise (by rw [hrecord]; rfl))

theorem state_created (h : promise ≠ runtime.nextPromiseId) :
    runtime.created.state promise = runtime.state promise := by
  rw [PromiseRuntime.state, created, IdMap.getElem?_insert, if_neg h]
  rfl

theorem state_waiting (target : PromiseId) (reaction : PromiseReaction) :
    (runtime.waiting target reaction).state promise = runtime.state promise := by
  rw [PromiseRuntime.state, waiting, IdMap.getElem?_modify]
  split
  · next hsame =>
    rw [Option.map_map, ← hsame]
    rfl
  · rfl

theorem state_forgets {other : PromiseId} (h : promise ≠ other) :
    (runtime.forgets other).state promise = runtime.state promise := by
  rw [PromiseRuntime.state, forgets, IdMap.getElem?_erase, if_neg h]
  rfl

theorem state_thenReact (h : promise ≠ runtime.nextPromiseId) (target : PromiseId)
    (onFulfilled onRejected : Option Nat) :
    (runtime.thenReact target onFulfilled onRejected).2.state promise = runtime.state promise := by
  rcases thenReact_cases runtime target onFulfilled onRejected with
    ⟨error, hsame⟩ | ⟨record, -, ⟨-, hwaits⟩ | ⟨-, argument, rejectedInput, hqueued⟩ | ⟨error, flag, hrefused⟩⟩
  · rw [hsame]
  · rw [hwaits, state_waiting, state_created h]
  · rw [hqueued]
    exact state_created h
  · rw [hrefused, state_forgets h]
    exact state_created h

theorem state_settle (h : runtime.state promise = some state) (hsettled : state.isPending = false)
    {target : PromiseId} (hwrites : WritesToPending runtime target) (next : PromiseState) :
    (runtime.settle target next).2.state promise = some state := by
  rcases settle_cases runtime target next with
    ⟨hsame, -⟩ | ⟨record, argument, rejectedInput, hrecord, hpending, -, hafter⟩
  · rw [hsame]
    exact h
  · have hne : promise ≠ target := by
      rintro rfl
      obtain ⟨found, hfound, rfl⟩ := exists_record h
      obtain rfl := Option.some.inj (hrecord.symm.trans hfound)
      rw [hpending] at hsettled
      cases hsettled
    have hspared : ∀ reaction ∈ record.reactions.drop runtime.room, reaction.result ≠ promise := by
      intro reaction hreaction heq
      have hrefused : reaction ∈ runtime.refused target := by
        unfold refused
        rw [hrecord]
        simp only [hpending, if_true]
        exact hreaction
      have hcontra := hwrites reaction hrefused state (heq ▸ h)
      rw [hsettled] at hcontra
      cases hcontra
    rw [hafter, PromiseRuntime.state,
      @enqueueAll_records argument rejectedInput _ (runtime.settledAs target next) none _ hspared,
      settledAs, IdMap.getElem?_insert, if_neg hne]
    exact h

end

theorem runInvariant_state {promise : PromiseId} {state : PromiseState}
    (hsettled : state.isPending = false) :
    RunInvariant WritesToPending fun _ runtime =>
      Fresh runtime ∧ runtime.state promise = some state where
  create := by
    intro history runtime h
    refine ⟨h.1.create, ?_⟩
    rcases create_cases runtime with ⟨error, hcreate⟩ | hcreate
    · rw [hcreate]
      exact h.2
    · rw [hcreate]
      exact (state_created (ne_next h.1 h.2)).trans h.2
  thenReact := by
    intro _ runtime target onFulfilled onRejected h
    exact ⟨h.1.thenReact target onFulfilled onRejected,
      (state_thenReact (ne_next h.1 h.2) target onFulfilled onRejected).trans h.2⟩
  settle := fun target next h hwrites => ⟨h.1.settle target next, state_settle h.2 hsettled hwrites next⟩
  turn := by
    intro history runtime after handlers processed target next h hturn hwrites
    obtain ⟨job, eventLoop, reaction, -, -, -, -, rfl⟩ := turn_settles hturn
    have hpopped : (runtime.popped job.callbackId eventLoop).state promise = some state := h.2
    have hfresh : Fresh (runtime.popped job.callbackId eventLoop) := h.1
    exact ⟨hfresh.settle target next, state_settle hpopped hsettled hwrites next⟩
  failed := by
    intro _ runtime after handlers processed error h hturn
    obtain ⟨job, eventLoop, -, -, rfl⟩ := turn_failed hturn
    exact h
  truncated := fun flag h => h

end PromiseRuntime

/-- A promise that is settled keeps its state and value in every run whose settlements write
to pending dependents only. -/
theorem settled_promises_keep_their_state (maxPromises maxMicrotasks : Nat)
    (before after : List PromiseOperation) (promise : PromiseId) (state : PromiseState)
    (hstate : (promiseRun (new maxPromises maxMicrotasks) before).state promise = some state)
    (hsettled : state.isPending = false)
    (hmeets : RunMeets WritesToPending after (promiseRun (new maxPromises maxMicrotasks) before)) :
    (promiseRun (new maxPromises maxMicrotasks) (before ++ after)).state promise = some state := by
  have hfresh := fresh_run maxPromises maxMicrotasks before
  have hrun := (runInvariant_state hsettled).of_run ⟨hfresh, hstate⟩ hmeets
  unfold promiseRun at hrun ⊢
  rw [List.foldl_append]
  exact hrun.2

/-- A promise with a dependent is fulfilled, the dependent later. -/
theorem settled_promises_keep_their_state_chain :
    (promiseRun (new 8 8)
        ([.create, .thenReact 1 none none, .resolve 1 .null] ++
          [.drainJobs 1 fun _ _ value => .ok value, .reject 1 .undefined])).state 1
      = some (.fulfilled .null) := by
  have hnone : ∀ {runtime : PromiseRuntime} {promise}, runtime.refused promise = [] →
      WritesToPending runtime promise := by
    intro runtime promise h reaction hreaction
    rw [h] at hreaction
    cases hreaction
  refine settled_promises_keep_their_state 8 8 _ _ 1 (.fulfilled .null) rfl rfl ?_
  exact ⟨⟨hnone rfl, True.intro⟩, hnone rfl, True.intro⟩
/-- With a queue of no microtasks, `settle` overwrites a dependent that was fulfilled. -/
theorem settled_promise_is_overwritten :
    (promiseRun (new 8 0) [.create, .thenReact 1 none none, .resolve 2 .null]).state 2
      = some (.fulfilled .null) ∧
    (promiseRun (new 8 0)
        ([.create, .thenReact 1 none none, .resolve 2 .null] ++ [.resolve 1 .undefined])).state 2
      = some (.rejected (.string "Runtime microtask budget exceeded")) := by
  constructor
  · rfl
  · rfl

end GhitaBrowser.Runtime
