import GhitaBrowser.Runtime.Settlement

/-!
# Reactions that are not lost

A dependent waits at its promise, has a job, or is settled. `settle` breaks this when it
rejects a dependent it has no room for: it leaves the dependent's own reactions where
they are. In a run in which no such dependent has reactions, nothing is stranded.
-/

namespace GhitaBrowser.Runtime

open List

namespace PromiseRuntime

/-- The condition: no dependent that `settle` finds no room for has reactions of its own. -/
def RefusesLeaves (runtime : PromiseRuntime) (promise : PromiseId) : Prop :=
  ∀ reaction ∈ runtime.refused promise, ∀ record, runtime.records[reaction.result]? = some record →
    record.reactions = []

/-- A microtask in the queue names a job for a promise. -/
def HasQueuedJob (runtime : PromiseRuntime) (promise : PromiseId) : Prop :=
  ∃ microtask ∈ runtime.eventLoop.microtasks, ∃ job,
    runtime.jobs[microtask.callbackId]? = some job ∧ job.result = promise

def IsSettled (runtime : PromiseRuntime) (promise : PromiseId) : Prop :=
  ∃ record, runtime.records[promise]? = some record ∧ record.state.isPending = false

/-- A dependent among the reactions of its promise. -/
def WaitsAt (runtime : PromiseRuntime) (promise dependent : PromiseId) : Prop :=
  ∃ record, runtime.records[promise]? = some record ∧
    ∃ reaction ∈ record.reactions, reaction.result = dependent

/-- A dependent is somewhere, `inHand` being those that are on their way. -/
def Placed (inHand : List PromiseId) (runtime : PromiseRuntime) (promise dependent : PromiseId) : Prop :=
  runtime.WaitsAt promise dependent ∨ runtime.HasQueuedJob dependent ∨ runtime.IsSettled dependent ∨
    dependent ∈ inHand

/-- The queue names each of its jobs once, and nothing but jobs. -/
structure QueueSound (runtime : PromiseRuntime) : Prop where
  no_tasks : runtime.eventLoop.tasks = []
  javascript : ∀ microtask ∈ runtime.eventLoop.microtasks, microtask.source = .javascript
  named : ∀ microtask ∈ runtime.eventLoop.microtasks,
    ∃ job, runtime.jobs[microtask.callbackId]? = some job
  nodup : (runtime.eventLoop.microtasks.map QueuedJob.callbackId).Nodup
  fresh : ∀ id, (runtime.jobs[id]?).isSome = true → id < runtime.nextJobId

/-- The promises that reactions and jobs are to settle are there. -/
structure TargetsKnown (runtime : PromiseRuntime) : Prop where
  reactions : ∀ {promise : PromiseId} {record : PromiseRecord}, runtime.records[promise]? = some record →
    ∀ reaction ∈ record.reactions, (runtime.records[reaction.result]?).isSome = true
  jobs : ∀ {id : Nat} {job : QueuedReaction}, runtime.jobs[id]? = some job →
    (runtime.records[job.result]?).isSome = true

structure NotStranded (inHand : List PromiseId) (history : List (PromiseId × PromiseId))
    (runtime : PromiseRuntime) : Prop where
  ids : Fresh runtime
  queue : QueueSound runtime
  targets : TargetsKnown runtime
  settled : ∀ {promise : PromiseId} {record : PromiseRecord}, runtime.records[promise]? = some record →
    record.state.isPending = false → record.reactions = []
  placed : ∀ {promise dependent}, (promise, dependent) ∈ history →
    Placed inHand runtime promise dependent
  known : ∀ {promise dependent}, (promise, dependent) ∈ history →
    (runtime.records[dependent]?).isSome = true

section

variable {runtime : PromiseRuntime} {inHand : List PromiseId} {history : List (PromiseId × PromiseId)}
  {reaction : PromiseReaction} {argument : RuntimeValue} {rejectedInput : Bool}

/-! ## One more job -/

theorem QueueSound.withJob (h : QueueSound runtime) :
    QueueSound (runtime.withJob reaction argument rejectedInput) where
  no_tasks := h.no_tasks
  javascript := by
    intro microtask hmem
    rcases mem_append.mp hmem with hold | hnew
    · exact h.javascript microtask hold
    · obtain rfl := mem_singleton.mp hnew
      rfl
  named := by
    intro microtask hmem
    simp only [PromiseRuntime.withJob, IdMap.getElem?_insert]
    split
    · exact ⟨_, rfl⟩
    · next hne =>
      rcases mem_append.mp hmem with hold | hnew
      · exact h.named microtask hold
      · obtain rfl := mem_singleton.mp hnew
        exact absurd rfl hne
  nodup := by
    simp only [PromiseRuntime.withJob, map_append, map_cons, map_nil]
    refine nodup_append.mpr ⟨h.nodup, by simp, ?_⟩
    intro id hid other hother heq
    obtain rfl := mem_singleton.mp hother
    obtain ⟨microtask, hmem, rfl⟩ := mem_map.mp hid
    obtain ⟨job, hjob⟩ := h.named microtask hmem
    have hlt := h.fresh microtask.callbackId (by rw [hjob]; rfl)
    exact absurd heq (Nat.ne_of_lt hlt)
  fresh := by
    intro id hid
    show id < runtime.nextJobId + 1
    simp only [PromiseRuntime.withJob, IdMap.getElem?_insert] at hid
    split at hid
    · next hsame => exact hsame ▸ Nat.lt_succ_self id
    · exact (h.fresh id hid).trans (Nat.lt_succ_self _)

theorem hasQueuedJob_withJob : (runtime.withJob reaction argument rejectedInput).HasQueuedJob reaction.result := by
  refine ⟨_, mem_append_right _ (mem_singleton.mpr rfl),
    ⟨if rejectedInput then reaction.onRejected else reaction.onFulfilled, argument, reaction.result,
      rejectedInput⟩, ?_, rfl⟩
  simp only [withJob, IdMap.getElem?_insert]
  rfl

variable {promise : PromiseId}

theorem HasQueuedJob.withJob (hqueue : QueueSound runtime) (h : runtime.HasQueuedJob promise) :
    (runtime.withJob reaction argument rejectedInput).HasQueuedJob promise := by
  obtain ⟨microtask, hmem, job, hjob, hresult⟩ := h
  refine ⟨microtask, mem_append_left _ hmem, job, ?_, hresult⟩
  have hlt := hqueue.fresh microtask.callbackId (by rw [hjob]; rfl)
  simp only [PromiseRuntime.withJob, IdMap.getElem?_insert, if_neg (Nat.ne_of_lt hlt)]
  exact hjob

theorem NotStranded.withJob (h : NotStranded (reaction.result :: inHand) history runtime)
    (hknown : (runtime.records[reaction.result]?).isSome = true) :
    NotStranded inHand history (runtime.withJob reaction argument rejectedInput) where
  ids := h.ids
  queue := h.queue.withJob
  targets := by
    refine ⟨h.targets.reactions, ?_⟩
    intro id job hjob
    simp only [PromiseRuntime.withJob, IdMap.getElem?_insert] at hjob
    split at hjob
    · obtain rfl := Option.some.inj hjob
      exact hknown
    · exact h.targets.jobs hjob
  settled := h.settled
  placed := by
    intro promise dependent hmem
    rcases h.placed hmem with hwaits | hjob | hsettled | hhand
    · exact .inl hwaits
    · exact .inr (.inl (hjob.withJob h.queue))
    · exact .inr (.inr (.inl hsettled))
    · rcases mem_cons.mp hhand with rfl | hrest
      · exact .inr (.inl hasQueuedJob_withJob)
      · exact .inr (.inr (.inr hrest))
  known := h.known

/-! ## A refused dependent -/

theorem NotStranded.withTruncated (h : NotStranded inHand history runtime) (flag : Bool) :
    NotStranded inHand history (runtime.withTruncated flag) where
  ids := h.ids
  queue := ⟨h.queue.no_tasks, h.queue.javascript, h.queue.named, h.queue.nodup, h.queue.fresh⟩
  targets := ⟨h.targets.reactions, h.targets.jobs⟩
  settled := h.settled
  placed := h.placed
  known := h.known

theorem NotStranded.rejectDirectly (h : NotStranded (promise :: inHand) history runtime)
    (hknown : (runtime.records[promise]?).isSome = true)
    (hleaf : ∀ record, runtime.records[promise]? = some record → record.reactions = [])
    (error : String) : NotStranded inHand history (runtime.rejectDirectly promise error) := by
  have hids := sameIds_rejectDirectly runtime promise error
  obtain ⟨target, htarget⟩ := Option.isSome_iff_exists.mp hknown
  have hreactions : ∀ {id : PromiseId} {record},
      (runtime.rejectDirectly promise error).records[id]? = some record →
      ∃ old, runtime.records[id]? = some old ∧ record.reactions = old.reactions ∧
        (record.state.isPending = true → record = old) := by
    intro id record hrecord
    rw [records_rejectDirectly] at hrecord
    split at hrecord
    · next hsame =>
      subst hsame
      rw [htarget] at hrecord
      obtain rfl := Option.some.inj hrecord
      exact ⟨target, htarget, rfl, fun hpending => by cases hpending⟩
    · exact ⟨record, hrecord, rfl, fun _ => rfl⟩
  have hsettled : (runtime.rejectDirectly promise error).IsSettled promise := by
    refine ⟨{ target with state := .rejected (.string error) }, ?_, rfl⟩
    rw [records_rejectDirectly, if_pos rfl, htarget]
    rfl
  constructor
  · intro id hid
    rw [hids.known] at hid
    exact h.ids id hid
  · exact ⟨h.queue.no_tasks, h.queue.javascript, h.queue.named, h.queue.nodup, h.queue.fresh⟩
  · refine ⟨?_, ?_⟩
    · intro id record hrecord reaction hmem
      obtain ⟨old, hold, hsame, -⟩ := hreactions hrecord
      rw [hids.known]
      exact h.targets.reactions hold reaction (hsame ▸ hmem)
    · intro id job hjob
      rw [hids.known]
      exact h.targets.jobs hjob
  · intro id record hrecord hstate
    rw [records_rejectDirectly] at hrecord
    split at hrecord
    · rw [htarget] at hrecord
      obtain rfl := Option.some.inj hrecord
      exact hleaf target htarget
    · exact h.settled hrecord hstate
  · intro waited dependent hmem
    rcases h.placed hmem with ⟨record, hrecord, reaction, hreaction, hresult⟩ | hjob |
      ⟨record, hrecord, hstate⟩ | hhand
    · left
      by_cases hsame : waited = promise
      · subst hsame
        rw [hleaf record hrecord] at hreaction
        cases hreaction
      · refine ⟨record, ?_, reaction, hreaction, hresult⟩
        rw [records_rejectDirectly, if_neg hsame, hrecord]
    · exact .inr (.inl hjob)
    · refine .inr (.inr (.inl ?_))
      by_cases hsame : dependent = promise
      · subst hsame
        exact hsettled
      · refine ⟨record, ?_, hstate⟩
        rw [records_rejectDirectly, if_neg hsame, hrecord]
    · rcases mem_cons.mp hhand with rfl | hrest
      · exact .inr (.inr (.inl hsettled))
      · exact .inr (.inr (.inr hrest))
  · intro waited dependent hmem
    rw [hids.known]
    exact h.known hmem

/-- The loop of `settle` finds a place for every reaction it has in hand. -/
theorem NotStranded.enqueueAll {reactions : List PromiseReaction}
    (h : NotStranded (reactions.map PromiseReaction.result ++ inHand) history runtime)
    (hknown : ∀ reaction ∈ reactions, (runtime.records[reaction.result]?).isSome = true)
    (hleaves : ∀ reaction ∈ reactions.drop runtime.room, ∀ record,
      runtime.records[reaction.result]? = some record → record.reactions = [])
    (argument : RuntimeValue) (rejectedInput : Bool) (firstError : Option String) :
    NotStranded inHand history
      (PromiseRuntime.enqueueAll argument rejectedInput reactions runtime firstError).2 := by
  induction reactions generalizing runtime firstError with
  | nil => exact h
  | cons reaction reactions ih =>
    have hfirst := hknown reaction mem_cons_self
    unfold PromiseRuntime.enqueueAll
    rcases enqueueReaction_cases runtime reaction argument rejectedInput with
      ⟨hroom, hqueued⟩ | ⟨hfull, error, flag, hrefused⟩
    · rw [hqueued]
      refine ih (NotStranded.withJob h hfirst)
        (fun other hother => hknown other (mem_cons_of_mem _ hother)) ?_ firstError
      rw [room_withJob]
      intro other hother
      refine hleaves other ?_
      rw [← Nat.succ_pred_eq_of_pos hroom, drop_succ_cons]
      exact hother
    · -- the rest is refused as well, and the records that are read keep their reactions
      rw [hfull, drop_zero] at hleaves
      rw [hrefused]
      have hids := sameIds_rejectDirectly (runtime.withTruncated flag) reaction.result error
      refine ih ((h.withTruncated flag).rejectDirectly hfirst
        (fun record hrecord => hleaves reaction mem_cons_self record hrecord) error) ?_ ?_ _
      · intro other hother
        rw [hids.known]
        exact hknown other (mem_cons_of_mem _ hother)
      · rw [room_rejectDirectly, room_withTruncated, hfull, drop_zero]
        intro other hother record hrecord
        have hleaf := hleaves other (mem_cons_of_mem _ hother)
        rw [records_rejectDirectly] at hrecord
        split at hrecord
        · next hsame =>
          rw [← hsame] at hrecord
          obtain ⟨old, hold, rfl⟩ := Option.map_eq_some_iff.mp hrecord
          exact hleaf old hold
        · exact hleaf record hrecord

theorem IsSettled.enqueueAll (h : runtime.IsSettled promise) (argument : RuntimeValue)
    (rejectedInput : Bool) (reactions : List PromiseReaction) (firstError : Option String) :
    (PromiseRuntime.enqueueAll argument rejectedInput reactions runtime firstError).2.IsSettled promise := by
  induction reactions generalizing runtime firstError with
  | nil => exact h
  | cons reaction reactions ih =>
    unfold PromiseRuntime.enqueueAll
    rcases enqueueReaction_cases runtime reaction argument rejectedInput with
      ⟨-, hqueued⟩ | ⟨-, error, flag, hrefused⟩
    · rw [hqueued]
      exact @ih (runtime.withJob reaction argument rejectedInput) h firstError
    · rw [hrefused]
      refine @ih ((runtime.withTruncated flag).rejectDirectly reaction.result error) ?_ _
      obtain ⟨record, hrecord, hstate⟩ := h
      by_cases hsame : promise = reaction.result
      · refine ⟨{ record with state := .rejected (.string error) }, ?_, rfl⟩
        rw [records_rejectDirectly, if_pos hsame, ← hsame]
        exact congrArg (Option.map _) hrecord
      · refine ⟨record, ?_, hstate⟩
        rw [records_rejectDirectly, if_neg hsame]
        exact hrecord

/-! ## Settling -/

variable {state : PromiseState} {other : PromiseId}

theorem records_settledAs :
    (runtime.settledAs promise state).records[other]? =
      if other = promise then some ⟨state, []⟩ else runtime.records[other]? :=
  IdMap.getElem?_insert _ _ _ _

theorem known_settledAs (h : (runtime.records[other]?).isSome = true) :
    ((runtime.settledAs promise state).records[other]?).isSome = true := by
  rw [records_settledAs]
  split
  · rfl
  · exact h

variable {record : PromiseRecord}

theorem NotStranded.settledAs (h : NotStranded inHand history runtime)
    (hrecord : runtime.records[promise]? = some record) (hstate : state.isPending = false) :
    NotStranded (record.reactions.map PromiseReaction.result ++ inHand) history
      (runtime.settledAs promise state) := by
  constructor
  · intro id hid
    refine h.ids id ?_
    rw [records_settledAs] at hid
    split at hid
    · next hsame => rw [hsame, hrecord]; rfl
    · exact hid
  · exact ⟨h.queue.no_tasks, h.queue.javascript, h.queue.named, h.queue.nodup, h.queue.fresh⟩
  · refine ⟨?_, fun hjob => known_settledAs (h.targets.jobs hjob)⟩
    intro id found hfound reaction hmem
    rw [records_settledAs] at hfound
    split at hfound
    · obtain rfl := Option.some.inj hfound
      cases hmem
    · exact known_settledAs (h.targets.reactions hfound reaction hmem)
  · intro id found hfound hsettled
    rw [records_settledAs] at hfound
    split at hfound
    · obtain rfl := Option.some.inj hfound
      rfl
    · exact h.settled hfound hsettled
  · intro waited dependent hmem
    rcases h.placed hmem with ⟨found, hfound, reaction, hreaction, hresult⟩ | hjob | ⟨found, hfound, hsettled⟩ | hhand
    · by_cases hsame : waited = promise
      · subst hsame
        obtain rfl := Option.some.inj (hrecord.symm.trans hfound)
        exact .inr (.inr (.inr (mem_append_left _ (mem_map.mpr ⟨reaction, hreaction, hresult⟩))))
      · refine .inl ⟨found, ?_, reaction, hreaction, hresult⟩
        rw [records_settledAs, if_neg hsame, hfound]
    · exact .inr (.inl hjob)
    · refine .inr (.inr (.inl ?_))
      by_cases hsame : dependent = promise
      · exact ⟨⟨state, []⟩, by rw [records_settledAs, if_pos hsame], hstate⟩
      · exact ⟨found, by rw [records_settledAs, if_neg hsame, hfound], hsettled⟩
    · exact .inr (.inr (.inr (mem_append_right _ hhand)))
  · exact fun hmem => known_settledAs (h.known hmem)

theorem NotStranded.settle (h : NotStranded inHand history runtime)
    (hrefuses : RefusesLeaves runtime promise) (state : PromiseState) :
    NotStranded inHand history (runtime.settle promise state).2 := by
  rcases settle_cases runtime promise state with
    ⟨hsame, -⟩ | ⟨record, argument, rejectedInput, hrecord, hpending, hstate, hafter⟩
  · rw [hsame]
    exact h
  · rw [hafter]
    refine (h.settledAs hrecord hstate).enqueueAll
      (fun reaction hmem => known_settledAs (h.targets.reactions hrecord reaction hmem)) ?_
      argument rejectedInput none
    intro reaction hmem found hfound
    have hrefused : reaction ∈ runtime.refused promise := by
      unfold refused
      rw [hrecord]
      simp only [hpending, if_true]
      exact hmem
    rw [records_settledAs] at hfound
    split at hfound
    · obtain rfl := Option.some.inj hfound
      rfl
    · exact hrefuses reaction hrefused found hfound

theorem isSettled_settle (hknown : (runtime.records[promise]?).isSome = true) (hstate : state.isPending = false) :
    (runtime.settle promise state).2.IsSettled promise := by
  obtain ⟨found, hfound⟩ := Option.isSome_iff_exists.mp hknown
  rcases settle_cases runtime promise state with
    ⟨hsame, hor⟩ | ⟨record, argument, rejectedInput, hrecord, -, -, hafter⟩
  · rw [hsame]
    rcases hor with hpending | hsettled
    · rw [hstate] at hpending
      cases hpending
    · exact ⟨found, hfound, hsettled found hfound⟩
  · rw [hafter]
    refine IsSettled.enqueueAll ⟨⟨state, []⟩, ?_, hstate⟩ argument rejectedInput _ none
    rw [records_settledAs, if_pos rfl]

theorem NotStranded.lets_go (h : NotStranded (promise :: inHand) history runtime)
    (hsettled : runtime.IsSettled promise) : NotStranded inHand history runtime where
  ids := h.ids
  queue := h.queue
  targets := h.targets
  settled := h.settled
  placed := by
    intro waited dependent hmem
    rcases h.placed hmem with hwaits | hjob | hdone | hhand
    · exact .inl hwaits
    · exact .inr (.inl hjob)
    · exact .inr (.inr (.inl hdone))
    · rcases mem_cons.mp hhand with rfl | hrest
      · exact .inr (.inr (.inl hsettled))
      · exact .inr (.inr (.inr hrest))
  known := h.known

/-! ## Taking a job -/

theorem takeReadyTask_of_no_tasks {loop : AgentEventLoop} (h : loop.tasks = []) :
    loop.takeReadyTask = none := by
  unfold AgentEventLoop.takeReadyTask
  rw [h, filter_nil, mergeSort_nil]

theorem popNextReady_of_no_tasks {loop eventLoop : AgentEventLoop} {job : QueuedJob}
    (h : loop.tasks = []) (hpop : loop.popNextReady = some (job, eventLoop)) :
    loop.microtasks = job :: eventLoop.microtasks ∧ eventLoop.tasks = [] := by
  have hpopped : loop.popMicrotask = some (job, eventLoop) := by
    unfold AgentEventLoop.popNextReady at hpop
    rw [takeReadyTask_of_no_tasks h] at hpop
    split at hpop
    · exact hpop
    · exact hpop
  unfold AgentEventLoop.popMicrotask at hpopped
  rw [takeReadyTask_of_no_tasks h] at hpopped
  split at hpopped
  · cases hpopped
  · next microtask microtasks hqueue =>
    obtain ⟨rfl, rfl⟩ := Prod.mk.inj (Option.some.inj hpopped)
    exact ⟨hqueue, h⟩

theorem NotStranded.popped {job : QueuedJob} {eventLoop : AgentEventLoop} {taken : QueuedReaction}
    (h : NotStranded inHand history runtime)
    (hpop : runtime.eventLoop.popNextReady = some (job, eventLoop))
    (htaken : runtime.jobs[job.callbackId]? = some taken) :
    NotStranded (taken.result :: inHand) history (runtime.popped job.callbackId eventLoop) := by
  obtain ⟨hqueue, htasks⟩ := popNextReady_of_no_tasks h.queue.no_tasks hpop
  have hnodup := h.queue.nodup
  rw [hqueue, map_cons, nodup_cons] at hnodup
  have hjobs : ∀ {id : Nat} {found : QueuedReaction},
      (runtime.popped job.callbackId eventLoop).jobs[id]? = some found →
      runtime.jobs[id]? = some found := by
    intro id found hfound
    rw [PromiseRuntime.popped, IdMap.getElem?_erase] at hfound
    split at hfound
    · cases hfound
    · exact hfound
  have hothers : ∀ microtask ∈ eventLoop.microtasks,
      (runtime.popped job.callbackId eventLoop).jobs[microtask.callbackId]? =
        runtime.jobs[microtask.callbackId]? := by
    intro microtask hmem
    rw [PromiseRuntime.popped, IdMap.getElem?_erase, if_neg]
    exact fun heq => hnodup.1 (mem_map.mpr ⟨microtask, hmem, heq⟩)
  constructor
  · exact h.ids
  · constructor
    · exact htasks
    · exact fun microtask hmem => h.queue.javascript microtask (hqueue ▸ mem_cons_of_mem _ hmem)
    · intro microtask hmem
      rw [hothers microtask hmem]
      exact h.queue.named microtask (hqueue ▸ mem_cons_of_mem _ hmem)
    · exact hnodup.2
    · intro id hid
      obtain ⟨found, hfound⟩ := Option.isSome_iff_exists.mp hid
      exact h.queue.fresh id (by rw [hjobs hfound]; rfl)
  · exact ⟨h.targets.reactions, fun hjob => h.targets.jobs (hjobs hjob)⟩
  · exact h.settled
  · intro waited dependent hmem
    rcases h.placed hmem with hwaits | ⟨microtask, hmicrotask, found, hfound, hresult⟩ | hdone | hhand
    · exact .inl hwaits
    · rw [hqueue] at hmicrotask
      rcases mem_cons.mp hmicrotask with rfl | hrest
      · obtain rfl := Option.some.inj (htaken.symm.trans hfound)
        exact .inr (.inr (.inr (hresult ▸ mem_cons_self)))
      · exact .inr (.inl ⟨microtask, hrest, found, by rw [hothers microtask hrest, hfound], hresult⟩)
    · exact .inr (.inr (.inl hdone))
    · exact .inr (.inr (.inr (mem_cons_of_mem _ hhand)))
  · exact h.known

theorem NotStranded.turn {after : PromiseRuntime} {handlers : Handlers} {processed : Nat}
    (h : NotStranded inHand history runtime)
    (hturn : runtime.turn handlers processed = .settles after promise state)
    (hrefuses : RefusesLeaves after promise) :
    NotStranded inHand history (after.settle promise state).2 := by
  obtain ⟨job, eventLoop, taken, hpop, htaken, rfl, hstate, rfl⟩ := turn_settles hturn
  have hknown : ((runtime.popped job.callbackId eventLoop).records[taken.result]?).isSome = true :=
    h.targets.jobs htaken
  exact ((h.popped hpop htaken).settle hrefuses state).lets_go (isSettled_settle hknown hstate)

theorem NotStranded.turn_ne_failed {after : PromiseRuntime} {handlers : Handlers} {processed : Nat}
    {error : String} (h : NotStranded inHand history runtime) :
    runtime.turn handlers processed ≠ .failed error after := by
  intro hturn
  obtain ⟨job, eventLoop, hpop, hor, -⟩ := turn_failed hturn
  obtain ⟨hqueue, -⟩ := popNextReady_of_no_tasks h.queue.no_tasks hpop
  have hmem : job ∈ runtime.eventLoop.microtasks := by
    rw [hqueue]
    exact mem_cons_self
  rcases hor with hsource | hmissing
  · exact hsource (h.queue.javascript job hmem)
  · obtain ⟨found, hfound⟩ := h.queue.named job hmem
    rw [hmissing] at hfound
    cases hfound

/-! ## Registering -/

theorem records_created :
    runtime.created.records[other]? =
      if other = runtime.nextPromiseId then some ⟨.pending, []⟩ else runtime.records[other]? :=
  IdMap.getElem?_insert _ _ _ _

theorem known_created (h : (runtime.records[other]?).isSome = true) :
    (runtime.created.records[other]?).isSome = true := by
  rw [records_created]
  split
  · rfl
  · exact h

theorem record_created (h : Fresh runtime) (hrecord : runtime.records[other]? = some record) :
    runtime.created.records[other]? = some record := by
  rw [records_created, if_neg, hrecord]
  exact Nat.ne_of_lt (h other (by rw [hrecord]; rfl))

theorem NotStranded.created (h : NotStranded inHand history runtime) :
    NotStranded inHand history runtime.created where
  ids := h.ids.created
  queue := ⟨h.queue.no_tasks, h.queue.javascript, h.queue.named, h.queue.nodup, h.queue.fresh⟩
  targets := by
    refine ⟨?_, fun hjob => known_created (h.targets.jobs hjob)⟩
    intro id record hrecord reaction hmem
    rw [records_created] at hrecord
    split at hrecord
    · obtain rfl := Option.some.inj hrecord
      cases hmem
    · exact known_created (h.targets.reactions hrecord reaction hmem)
  settled := by
    intro id record hrecord hstate
    rw [records_created] at hrecord
    split at hrecord
    · obtain rfl := Option.some.inj hrecord
      rfl
    · exact h.settled hrecord hstate
  placed := by
    intro waited dependent hmem
    rcases h.placed hmem with ⟨record, hrecord, hreaction⟩ | hjob | ⟨record, hrecord, hstate⟩ | hhand
    · exact .inl ⟨record, record_created h.ids hrecord, hreaction⟩
    · exact .inr (.inl hjob)
    · exact .inr (.inr (.inl ⟨record, record_created h.ids hrecord, hstate⟩))
    · exact .inr (.inr (.inr hhand))
  known := fun hmem => known_created (h.known hmem)

theorem NotStranded.registers (h : NotStranded inHand history runtime) (promise : PromiseId)
    {dependent : PromiseId} (hknown : (runtime.records[dependent]?).isSome = true) :
    NotStranded (dependent :: inHand) (history ++ [(promise, dependent)]) runtime where
  ids := h.ids
  queue := h.queue
  targets := h.targets
  settled := h.settled
  placed := by
    intro waited other hmem
    rcases mem_append.mp hmem with hold | hnew
    · rcases h.placed hold with hwaits | hjob | hdone | hhand
      · exact .inl hwaits
      · exact .inr (.inl hjob)
      · exact .inr (.inr (.inl hdone))
      · exact .inr (.inr (.inr (mem_cons_of_mem _ hhand)))
    · obtain ⟨rfl, rfl⟩ := Prod.mk.inj (mem_singleton.mp hnew)
      exact .inr (.inr (.inr mem_cons_self))
  known := by
    intro waited other hmem
    rcases mem_append.mp hmem with hold | hnew
    · exact h.known hold
    · obtain ⟨rfl, rfl⟩ := Prod.mk.inj (mem_singleton.mp hnew)
      exact hknown

theorem records_waiting {reaction : PromiseReaction} :
    (runtime.waiting promise reaction).records[other]? =
      if other = promise then
        runtime.records[promise]?.map fun record =>
          { record with reactions := record.reactions ++ [reaction] }
      else runtime.records[other]? := IdMap.getElem?_modify _ _ _ _

theorem NotStranded.waiting (h : NotStranded inHand history runtime)
    (hrecord : runtime.records[promise]? = some record) (hpending : record.state.isPending = true)
    (hknown : (runtime.records[reaction.result]?).isSome = true) :
    NotStranded inHand (history ++ [(promise, reaction.result)])
      (runtime.waiting promise reaction) := by
  have hwaits : (runtime.waiting promise reaction).records[promise]? =
      some { record with reactions := record.reactions ++ [reaction] } := by
    rw [records_waiting, if_pos rfl, hrecord]
    rfl
  have hothers : ∀ {other : PromiseId}, other ≠ promise →
      (runtime.waiting promise reaction).records[other]? = runtime.records[other]? :=
    fun hne => by rw [records_waiting, if_neg hne]
  have hkept : ∀ {other : PromiseId}, (runtime.records[other]?).isSome = true →
      ((runtime.waiting promise reaction).records[other]?).isSome = true := by
    intro other hsome
    by_cases hsame : other = promise
    · rw [hsame, hwaits]
      rfl
    · rwa [hothers hsame]
  constructor
  · exact h.ids.waiting promise reaction
  · exact ⟨h.queue.no_tasks, h.queue.javascript, h.queue.named, h.queue.nodup, h.queue.fresh⟩
  · refine ⟨?_, fun hjob => hkept (h.targets.jobs hjob)⟩
    intro id found hfound other hmem
    by_cases hsame : id = promise
    · rw [hsame, hwaits] at hfound
      obtain rfl := Option.some.inj hfound
      rcases mem_append.mp hmem with hold | hnew
      · exact hkept (h.targets.reactions hrecord other hold)
      · obtain rfl := mem_singleton.mp hnew
        exact hkept hknown
    · rw [hothers hsame] at hfound
      exact hkept (h.targets.reactions hfound other hmem)
  · intro id found hfound hstate
    by_cases hsame : id = promise
    · rw [hsame, hwaits] at hfound
      obtain rfl := Option.some.inj hfound
      rw [hpending] at hstate
      cases hstate
    · rw [hothers hsame] at hfound
      exact h.settled hfound hstate
  · intro waited dependent hmem
    rcases mem_append.mp hmem with hold | hnew
    · rcases h.placed hold with ⟨found, hfound, other, hother, hresult⟩ | hjob | ⟨found, hfound, hstate⟩ | hhand
      · by_cases hsame : waited = promise
        · subst hsame
          obtain rfl := Option.some.inj (hrecord.symm.trans hfound)
          exact .inl ⟨_, hwaits, other, mem_append_left _ hother, hresult⟩
        · exact .inl ⟨found, by rw [hothers hsame, hfound], other, hother, hresult⟩
      · exact .inr (.inl hjob)
      · refine .inr (.inr (.inl ?_))
        by_cases hsame : dependent = promise
        · subst hsame
          obtain rfl := Option.some.inj (hrecord.symm.trans hfound)
          exact ⟨_, hwaits, hstate⟩
        · exact ⟨found, by rw [hothers hsame, hfound], hstate⟩
      · exact .inr (.inr (.inr hhand))
    · obtain ⟨rfl, rfl⟩ := Prod.mk.inj (mem_singleton.mp hnew)
      exact .inl ⟨_, hwaits, reaction, mem_append_right _ (mem_singleton.mpr rfl), rfl⟩
  · intro waited dependent hmem
    rcases mem_append.mp hmem with hold | hnew
    · exact hkept (h.known hold)
    · obtain ⟨rfl, rfl⟩ := Prod.mk.inj (mem_singleton.mp hnew)
      exact hkept hknown

theorem records_taken_back (h : Fresh runtime) (flag : Bool) :
    ((runtime.created.withTruncated flag).forgets runtime.nextPromiseId).records = runtime.records := by
  have habsent : runtime.records[runtime.nextPromiseId]? = none := by
    cases hrecord : runtime.records[runtime.nextPromiseId]? with
    | none => rfl
    | some record => exact absurd (h _ (by rw [hrecord]; rfl)) (Nat.lt_irrefl _)
  show (runtime.records.insert runtime.nextPromiseId _).erase runtime.nextPromiseId = _
  rw [OrdMap.erase_insert, OrdMap.erase_of_absent habsent]

theorem NotStranded.taken_back (h : NotStranded inHand history runtime) (flag : Bool) :
    NotStranded inHand history
      ((runtime.created.withTruncated flag).forgets runtime.nextPromiseId) := by
  have hrecords := records_taken_back h.ids flag
  constructor
  · intro id hid
    rw [hrecords] at hid
    exact (h.ids id hid).trans (Nat.lt_succ_self _)
  · exact ⟨h.queue.no_tasks, h.queue.javascript, h.queue.named, h.queue.nodup, h.queue.fresh⟩
  · constructor
    · rw [hrecords]
      exact h.targets.reactions
    · rw [hrecords]
      exact h.targets.jobs
  · rw [hrecords]
    exact h.settled
  · intro waited dependent hmem
    rcases h.placed hmem with ⟨record, hrecord, hreaction⟩ | hjob | ⟨record, hrecord, hstate⟩ | hhand
    · exact .inl ⟨record, by rw [hrecords, hrecord], hreaction⟩
    · exact .inr (.inl hjob)
    · exact .inr (.inr (.inl ⟨record, by rw [hrecords, hrecord], hstate⟩))
    · exact .inr (.inr (.inr hhand))
  · rw [hrecords]
    exact h.known

theorem NotStranded.thenReact (h : NotStranded inHand history runtime) (promise : PromiseId)
    (onFulfilled onRejected : Option Nat) :
    NotStranded inHand
      (history ++ PromiseOperation.registers runtime (.thenReact promise onFulfilled onRejected))
      (runtime.thenReact promise onFulfilled onRejected).2 := by
  have hnew : (runtime.created.records[runtime.nextPromiseId]?).isSome = true := by
    rw [records_created, if_pos rfl]
    rfl
  rw [PromiseOperation.registers]
  rcases thenReact_cases runtime promise onFulfilled onRejected with
    ⟨error, hsame⟩ | ⟨record, hrecord, ⟨hpending, hwaits⟩ | ⟨-, argument, rejectedInput, hqueued⟩ |
      ⟨error, flag, hrefused⟩⟩
  · rw [hsame]
    exact (append_nil history).symm ▸ h
  · rw [hwaits]
    exact @NotStranded.waiting _ inHand history ⟨onFulfilled, onRejected, runtime.nextPromiseId⟩ _ _
      h.created (record_created h.ids hrecord) hpending hnew
  · rw [hqueued]
    exact NotStranded.withJob (h.created.registers promise hnew) hnew
  · rw [hrefused]
    exact (append_nil history).symm ▸ h.taken_back flag

end

theorem runInvariant_notStranded : RunInvariant RefusesLeaves (NotStranded []) where
  create := by
    intro _ runtime h
    rcases create_cases runtime with ⟨error, hcreate⟩ | hcreate
    · rw [hcreate]
      exact h
    · rw [hcreate]
      exact h.created
  thenReact := fun promise onFulfilled onRejected h => h.thenReact promise onFulfilled onRejected
  settle := fun promise state h hrefuses => h.settle hrefuses state
  turn := fun h hturn hrefuses => h.turn hturn hrefuses
  failed := fun h hturn => absurd hturn h.turn_ne_failed
  truncated := fun flag h => ⟨h.ids,
    ⟨h.queue.no_tasks, h.queue.javascript, h.queue.named, h.queue.nodup, h.queue.fresh⟩,
    ⟨h.targets.reactions, h.targets.jobs⟩, h.settled, h.placed, h.known⟩

theorem notStranded_new (maxPromises maxMicrotasks : Nat) :
    NotStranded [] [] (new maxPromises maxMicrotasks) where
  ids := fresh_run maxPromises maxMicrotasks []
  queue := ⟨rfl, by simp [new, AgentEventLoop.new], by simp [new, AgentEventLoop.new],
    nodup_nil, by simp [new]⟩
  targets := ⟨by simp [new], by simp [new]⟩
  settled := by simp [new]
  placed := by simp
  known := by simp

end PromiseRuntime

open PromiseRuntime

/-- What holds of the dependents that were registered so far. -/
structure NothingStranded (history : List (PromiseId × PromiseId)) (runtime : PromiseRuntime) : Prop where
  no_reactions : ∀ (promise : PromiseId) (record : PromiseRecord),
    runtime.records[promise]? = some record → record.state.isPending = false → record.reactions = []
  dependents : ∀ promise dependent, (promise, dependent) ∈ history → runtime.IsSettled promise →
    runtime.HasQueuedJob dependent ∨ runtime.IsSettled dependent

/-- No reaction is stranded in a run whose settlements refuse only dependents without
reactions of their own. -/
theorem no_reaction_is_stranded (maxPromises maxMicrotasks : Nat) (operations : List PromiseOperation)
    (hmeets : RunMeets RefusesLeaves operations (new maxPromises maxMicrotasks)) :
    NothingStranded (registrations operations (new maxPromises maxMicrotasks))
      (promiseRun (new maxPromises maxMicrotasks) operations) := by
  have hrun := runInvariant_notStranded.run (notStranded_new maxPromises maxMicrotasks) hmeets
  rw [nil_append] at hrun
  constructor
  · exact fun promise record hrecord hstate => hrun.settled hrecord hstate
  · intro promise dependent hmem ⟨record, hrecord, hstate⟩
    rcases hrun.placed hmem with ⟨found, hfound, reaction, hreaction, -⟩ | hjob | hdone | hhand
    · -- a settled promise has no reactions left to wait among
      obtain rfl := Option.some.inj (hrecord.symm.trans hfound)
      rw [hrun.settled hrecord hstate] at hreaction
      cases hreaction
    · exact .inl hjob
    · exact .inr hdone
    · cases hhand

/-- Two dependents, one registered on a settled promise, after the first job has run. -/
theorem no_reaction_is_stranded_chain :
    NothingStranded [(1, 2), (2, 3), (1, 4)]
      (promiseRun (new 8 8)
        [.create, .thenReact 1 none none, .thenReact 2 none none, .resolve 1 .null,
          .thenReact 1 none none, .drainJobs 1 fun _ _ value => .ok value]) := by
  have hnone : ∀ {runtime : PromiseRuntime} {promise}, runtime.refused promise = [] →
      RefusesLeaves runtime promise := by
    intro runtime promise h reaction hreaction
    rw [h] at hreaction
    cases hreaction
  have hmeets : RunMeets RefusesLeaves
      [.create, .thenReact 1 none none, .thenReact 2 none none, .resolve 1 .null,
        .thenReact 1 none none, .drainJobs 1 fun _ _ value => .ok value] (new 8 8) :=
    ⟨True.intro, True.intro, True.intro, hnone rfl, True.intro, ⟨hnone rfl, True.intro⟩, True.intro⟩
  exact no_reaction_is_stranded 8 8 _ hmeets

/-- With no room in the queue, a dependent is rejected and its own dependent left behind: it
is pending, there are no jobs, and the reaction stays at a settled promise. -/
theorem refused_dependent_strands_its_own :
    ¬ NothingStranded
      (registrations [.create, .thenReact 1 none none, .thenReact 2 none none, .resolve 1 .null] (new 8 0))
      (promiseRun (new 8 0)
        [.create, .thenReact 1 none none, .thenReact 2 none none, .resolve 1 .null]) := by
  intro h
  have hreactions := h.no_reactions 2
    ⟨.rejected (.string "Runtime microtask budget exceeded"), [⟨none, none, 3⟩]⟩ rfl rfl
  cases hreactions

end GhitaBrowser.Runtime
