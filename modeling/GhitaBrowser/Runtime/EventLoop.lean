import GhitaBrowser.Lib.History
import GhitaBrowser.Runtime.PromiseRuntime

/-!
# The event loop of an agent

Tasks wait for their time, microtasks for nothing. A pop takes the oldest microtask, and after
too many of them in a row a task whose time has come. Nothing that was accepted is lost or comes
twice.
-/

namespace GhitaBrowser.Runtime

open List

namespace AgentEventLoop

def withLimits (maxTasks maxMicrotasks : Nat) : AgentEventLoop := { new maxMicrotasks with maxTasks }

def queueTask (loop : AgentEventLoop) (source : TaskSource) (callbackId delayMs : Nat) :
    Except String Unit × AgentEventLoop :=
  if loop.maxTasks ≤ loop.tasks.length then
    (.error "Runtime task budget exceeded", { loop with truncated := true })
  else
    (.ok (),
      { loop with
        nextSequence := min (loop.nextSequence + 1) maxIdentifier
        tasks := loop.tasks ++
          [{ source, callbackId, dueMs := min (loop.nowMs + min delayMs 60000) maxIdentifier
             sequence := loop.nextSequence }] })

def advanceTime (loop : AgentEventLoop) (elapsedMs : Nat) : AgentEventLoop :=
  { loop with nowMs := min (loop.nowMs + elapsedMs) maxIdentifier }

end AgentEventLoop

/-! ## Runs -/

inductive LoopAction where
  | queueTask (source : TaskSource) (callbackId delayMs : Nat)
  | queueMicrotask (callbackId : Nat)
  | advanceTime (elapsedMs : Nat)
  | pop

/-- A job that has left the loop, and when. -/
structure PoppedJob where
  job : QueuedJob
  isMicrotask : Bool
  nowMs : Nat

/-- A loop with the jobs that it has accepted and those that have left. -/
structure LoopRun where
  loop : AgentEventLoop
  acceptedTasks : List QueuedJob
  acceptedMicrotasks : List QueuedJob
  popped : List PoppedJob

namespace LoopRun

def new (maxTasks maxMicrotasks : Nat) : LoopRun :=
  { loop := .withLimits maxTasks maxMicrotasks, acceptedTasks := [], acceptedMicrotasks := []
    popped := [] }

/-- The job that a queue has at its end. -/
def lastJob (jobs : List QueuedJob) : List QueuedJob := jobs.getLast?.toList

def step (run : LoopRun) : LoopAction → LoopRun
  | .queueTask source callbackId delayMs =>
    match run.loop.queueTask source callbackId delayMs with
    | (.ok (), loop) =>
      { run with loop, acceptedTasks := run.acceptedTasks ++ lastJob loop.tasks }
    | (.error _, loop) => { run with loop }
  | .queueMicrotask callbackId =>
    match run.loop.queueMicrotask callbackId with
    | (.ok (), loop) =>
      { run with loop, acceptedMicrotasks := run.acceptedMicrotasks ++ lastJob loop.microtasks }
    | (.error _, loop) => { run with loop }
  | .advanceTime elapsedMs => { run with loop := run.loop.advanceTime elapsedMs }
  | .pop =>
    match run.loop.popNextReady with
    | none => run
    | some (job, loop) =>
      -- a pop that leaves the tasks alone takes a microtask
      { run with
        loop
        popped := run.popped ++
          [{ job, isMicrotask := loop.tasks.length == run.loop.tasks.length
             nowMs := run.loop.nowMs }] }

/-- The tasks and the microtasks that have left, in order. -/
def poppedTasks (run : LoopRun) : List QueuedJob :=
  (run.popped.filter (!·.isMicrotask)).map PoppedJob.job

def poppedMicrotasks (run : LoopRun) : List QueuedJob :=
  (run.popped.filter (·.isMicrotask)).map PoppedJob.job

/-- The microtasks that have left since the last task. -/
def turn (run : LoopRun) : Nat := (run.popped.reverse.takeWhile (·.isMicrotask)).length

end LoopRun

/-- Nothing is lost or comes twice, microtasks leave in the order in which they came, and nothing
leaves before its time. -/
structure Kept (run : LoopRun) : Prop where
  tasks : run.acceptedTasks.Perm (run.poppedTasks ++ run.loop.tasks)
  microtasks : run.acceptedMicrotasks = run.poppedMicrotasks ++ run.loop.microtasks
  due : ∀ popped ∈ run.popped, popped.job.dueMs ≤ popped.nowMs

/-- The order of ready tasks. -/
def Before (first second : QueuedJob) : Prop :=
  first.dueMs < second.dueMs ∨ first.dueMs = second.dueMs ∧ first.sequence ≤ second.sequence

def AgentEventLoop.ready (loop : AgentEventLoop) : List QueuedJob :=
  loop.tasks.filter fun task => task.dueMs ≤ loop.nowMs

/-- What a pop may take: the oldest microtask, unless a task is ready and the turn of the microtasks
is over; or the first of the ready tasks, when there is no microtask or their turn is over. A pop
that takes nothing finds nothing. -/
inductive Takes (run : LoopRun) : Option QueuedJob → Prop where
  | microtask (job : QueuedJob) (later : List QueuedJob) : run.loop.microtasks = job :: later →
    (run.loop.ready ≠ [] → run.turn < maxMicrotasksPerTurn) → Takes run (some job)
  | task (job : QueuedJob) : job ∈ run.loop.ready → (∀ other ∈ run.loop.ready, Before job other) →
    (run.loop.microtasks = [] ∨ maxMicrotasksPerTurn ≤ run.turn) → Takes run (some job)
  | nothing : run.loop.microtasks = [] → run.loop.ready = [] → Takes run none

/-! ## A pop -/

theorem earlier_iff {first second : QueuedJob} :
    AgentEventLoop.earlier first second = true ↔ Before first second := decide_eq_true_iff

theorem Before.trans {first second third : QueuedJob} (h : Before first second)
    (h' : Before second third) : Before first third := by
  obtain h | ⟨h, hseq⟩ := h <;> obtain h' | ⟨h', hseq'⟩ := h'
  · exact .inl (Nat.lt_trans h h')
  · exact .inl (h' ▸ h)
  · exact .inl (h ▸ h')
  · exact .inr ⟨h.trans h', Nat.le_trans hseq hseq'⟩

theorem Before.total (first second : QueuedJob) : Before first second ∨ Before second first := by
  obtain h | h | h := Nat.lt_trichotomy first.dueMs second.dueMs
  · exact .inl (.inl h)
  · exact (Nat.le_total first.sequence second.sequence).imp (fun hseq => .inr ⟨h, hseq⟩)
      fun hseq => .inr ⟨h.symm, hseq⟩
  · exact .inr (.inl h)

namespace AgentEventLoop

variable {loop next : AgentEventLoop} {job : QueuedJob}

theorem takeReadyTask_none : loop.takeReadyTask = none ↔ loop.ready = [] := by
  unfold takeReadyTask
  have length : (loop.ready.mergeSort earlier).length = loop.ready.length := length_mergeSort _
  rw [← length_eq_zero_iff, ← length]
  split
  · next hnil => exact iff_of_true rfl (congrArg List.length hnil)
  · next hcons =>
    refine iff_of_false nofun fun hzero => ?_
    rw [ready, hcons] at hzero
    cases hzero

theorem takeReadyTask_some (h : loop.takeReadyTask = some (job, next)) :
    job ∈ loop.ready ∧ (∀ other ∈ loop.ready, Before job other) ∧
      next = { loop with tasks := loop.tasks.erase job, consecutiveMicrotasks := 0 } := by
  unfold takeReadyTask at h
  split at h
  · cases h
  · next first rest hsorted =>
    cases h
    have hmem (other : QueuedJob) : other ∈ job :: rest ↔ other ∈ loop.ready := by
      rw [← hsorted, mem_mergeSort]
      rfl
    have hpairwise := @pairwise_mergeSort _ earlier
      (fun first second third h h' =>
        earlier_iff.2 ((earlier_iff.1 h).trans (earlier_iff.1 h')))
      (fun first second => by
        rw [Bool.or_eq_true, earlier_iff, earlier_iff]
        exact Before.total first second)
      (loop.tasks.filter fun task => task.dueMs ≤ loop.nowMs)
    rw [hsorted, pairwise_cons] at hpairwise
    refine ⟨(hmem job).1 (mem_cons_self ..), fun other hother => ?_, rfl⟩
    obtain rfl | hrest := mem_cons.1 ((hmem other).2 hother)
    · exact .inr ⟨rfl, Nat.le_refl _⟩
    · exact earlier_iff.1 (hpairwise.1 other hrest)

/-- What a pop does to the loop. -/
inductive Pops (loop : AgentEventLoop) : Option (QueuedJob × AgentEventLoop) → Prop where
  | microtask (job : QueuedJob) (later : List QueuedJob) : loop.microtasks = job :: later →
    (loop.ready ≠ [] → loop.consecutiveMicrotasks < maxMicrotasksPerTurn) →
    Pops loop (some (job, { loop with
      microtasks := later
      consecutiveMicrotasks := loop.consecutiveMicrotasks + 1 }))
  | task (job : QueuedJob) : job ∈ loop.ready → (∀ other ∈ loop.ready, Before job other) →
    (loop.microtasks = [] ∨ maxMicrotasksPerTurn ≤ loop.consecutiveMicrotasks) →
    Pops loop (some (job, { loop with
      tasks := loop.tasks.erase job
      consecutiveMicrotasks := 0 }))
  | nothing : loop.microtasks = [] → loop.ready = [] → Pops loop none

theorem popMicrotask_pops
    (hturn : loop.ready ≠ [] → loop.consecutiveMicrotasks < maxMicrotasksPerTurn) :
    Pops loop loop.popMicrotask := by
  unfold popMicrotask
  split
  · next hmicrotasks =>
    cases htake : loop.takeReadyTask with
    | none => exact .nothing hmicrotasks (takeReadyTask_none.1 htake)
    | some taken =>
      obtain ⟨job, next⟩ := taken
      obtain ⟨hready, hfirst, rfl⟩ := takeReadyTask_some htake
      exact .task job hready hfirst (.inl hmicrotasks)
  · next microtask microtasks hmicrotasks => exact .microtask microtask microtasks hmicrotasks hturn

theorem popNextReady_pops (loop : AgentEventLoop) : Pops loop loop.popNextReady := by
  unfold popNextReady
  split
  · next hover =>
    split
    · next taken htake =>
      obtain ⟨job, next⟩ := taken
      obtain ⟨hready, hfirst, rfl⟩ := takeReadyTask_some htake
      exact .task job hready hfirst (.inr hover)
    · next htake =>
      exact popMicrotask_pops fun hready => absurd (takeReadyTask_none.1 htake) hready
  · next hover => exact popMicrotask_pops fun _ => Nat.not_le.1 hover

end AgentEventLoop

/-! ## Runs of the loop -/

namespace LoopRun

/-- What holds of a run besides. -/
structure Consistent (run : LoopRun) : Prop where
  kept : Kept run
  turn : run.loop.consecutiveMicrotasks = run.turn
  queued : ∀ job ∈ run.loop.microtasks, job.dueMs ≤ run.loop.nowMs
  clock : run.loop.nowMs ≤ maxIdentifier

theorem turn_concat (run : LoopRun) (popped : PoppedJob) (loop : AgentEventLoop) :
    ({ run with loop, popped := run.popped ++ [popped] } : LoopRun).turn =
      if popped.isMicrotask then run.turn + 1 else 0 := by
  rw [turn, reverse_append, reverse_singleton, singleton_append, takeWhile_cons]
  split <;> rfl

variable {run : LoopRun}

theorem popMicrotask_consistent (h : run.Consistent) {job : QueuedJob}
    {later : List QueuedJob} (hmicrotasks : run.loop.microtasks = job :: later) :
    Consistent { run with
      loop := { run.loop with
        microtasks := later
        consecutiveMicrotasks := run.loop.consecutiveMicrotasks + 1 }
      popped := run.popped ++ [{ job, isMicrotask := true, nowMs := run.loop.nowMs }] } := by
  refine ⟨⟨?_, ?_, ?_⟩, ?_, fun other hother => ?_, h.clock⟩
  · rw [poppedTasks, filter_append]
    exact (append_nil _).symm ▸ h.kept.tasks
  · rw [poppedMicrotasks, filter_append, map_append, append_assoc]
    rw [h.kept.microtasks, hmicrotasks]
    rfl
  · intro popped hpopped
    obtain hpopped | hpopped := mem_append.1 hpopped
    · exact h.kept.due popped hpopped
    · obtain rfl := mem_singleton.1 hpopped
      exact h.queued job (hmicrotasks ▸ mem_cons_self ..)
  · rw [turn_concat, ← h.turn]
    rfl
  · exact h.queued other (hmicrotasks ▸ mem_cons_of_mem _ hother)

theorem popTask_consistent (h : run.Consistent) {job : QueuedJob} (hready : job ∈ run.loop.ready) :
    Consistent { run with
      loop := { run.loop with tasks := run.loop.tasks.erase job, consecutiveMicrotasks := 0 }
      popped := run.popped ++ [{ job, isMicrotask := false, nowMs := run.loop.nowMs }] } := by
  obtain ⟨hmem, hdue⟩ := mem_filter.1 hready
  refine ⟨⟨?_, ?_, ?_⟩, ?_, h.queued, h.clock⟩
  · rw [poppedTasks, filter_append, map_append, append_assoc]
    exact h.kept.tasks.trans (List.Perm.append_left _ (perm_cons_erase hmem))
  · rw [poppedMicrotasks, filter_append]
    exact (append_nil _).symm ▸ h.kept.microtasks
  · intro popped hpopped
    obtain hpopped | hpopped := mem_append.1 hpopped
    · exact h.kept.due popped hpopped
    · obtain rfl := mem_singleton.1 hpopped
      exact of_decide_eq_true hdue
  · rw [turn_concat]
    rfl

theorem pop_consistent (h : run.Consistent) : (run.step .pop).Consistent := by
  have hpops := run.loop.popNextReady_pops
  dsimp only [step]
  revert hpops
  generalize run.loop.popNextReady = taken
  rintro (⟨job, later, hmicrotasks, -⟩ | ⟨job, hready, -, -⟩ | -)
  · have hsame : (run.loop.tasks.length == run.loop.tasks.length) = true := beq_self_eq_true _
    dsimp only
    rw [hsame]
    exact popMicrotask_consistent h hmicrotasks
  · have hshorter : ((run.loop.tasks.erase job).length == run.loop.tasks.length) = false := by
      have hmem := (mem_filter.1 hready).1
      rw [length_erase_of_mem hmem, beq_eq_false_iff_ne]
      exact Nat.ne_of_lt (Nat.sub_lt (length_pos_of_mem hmem) Nat.one_pos)
    dsimp only
    rw [hshorter]
    exact popTask_consistent h hready
  · exact h

theorem lastJob_concat (jobs : List QueuedJob) (job : QueuedJob) : lastJob (jobs ++ [job]) = [job] := by
  rw [lastJob, getLast?_concat]
  rfl

theorem step_consistent (run : LoopRun) (action : LoopAction) (h : run.Consistent) :
    (run.step action).Consistent := by
  cases action with
  | queueTask source callbackId delayMs =>
    dsimp only [step, AgentEventLoop.queueTask]
    by_cases hfull : run.loop.maxTasks ≤ run.loop.tasks.length
    · rw [if_pos hfull]
      exact ⟨⟨h.kept.tasks, h.kept.microtasks, h.kept.due⟩, h.turn, h.queued, h.clock⟩
    · rw [if_neg hfull]
      dsimp only
      rw [lastJob_concat]
      refine ⟨⟨?_, h.kept.microtasks, h.kept.due⟩, h.turn, h.queued, h.clock⟩
      have htasks := h.kept.tasks.append_right
        [{ source, callbackId, dueMs := min (run.loop.nowMs + min delayMs 60000) maxIdentifier
           sequence := run.loop.nextSequence }]
      rwa [append_assoc] at htasks
  | queueMicrotask callbackId =>
    dsimp only [step, AgentEventLoop.queueMicrotask]
    by_cases hfull : run.loop.microtasks.length ≥ run.loop.maxMicrotasks
    · rw [if_pos hfull]
      exact ⟨⟨h.kept.tasks, h.kept.microtasks, h.kept.due⟩, h.turn, h.queued, h.clock⟩
    · rw [if_neg hfull]
      dsimp only
      rw [lastJob_concat]
      refine ⟨⟨h.kept.tasks, ?_, h.kept.due⟩, h.turn, fun job hjob => ?_, h.clock⟩
      · rw [h.kept.microtasks, append_assoc]
        rfl
      · obtain hjob | hjob := mem_append.1 hjob
        · exact h.queued job hjob
        · obtain rfl := mem_singleton.1 hjob
          exact Nat.le_refl _
  | advanceTime elapsedMs =>
    refine ⟨⟨h.kept.tasks, h.kept.microtasks, h.kept.due⟩, h.turn, fun job hjob => ?_,
      Nat.min_le_right _ _⟩
    exact Nat.le_trans (h.queued job hjob) (Nat.le_min.2 ⟨Nat.le_add_right _ _, h.clock⟩)
  | pop => exact pop_consistent h

theorem consistent_new (maxTasks maxMicrotasks : Nat) : (new maxTasks maxMicrotasks).Consistent :=
  ⟨⟨.refl _, rfl, nofun⟩, rfl, nofun, Nat.zero_le _⟩

/-- A pop of a consistent run takes what it may. -/
theorem Consistent.takes (h : run.Consistent) :
    Takes run (run.loop.popNextReady.map Prod.fst) := by
  have hpops := run.loop.popNextReady_pops
  revert hpops
  generalize run.loop.popNextReady = taken
  rintro (⟨job, later, hmicrotasks, hturn⟩ | ⟨job, hready, hfirst, hturn⟩ | ⟨hmicrotasks, hready⟩)
  · exact .microtask job later hmicrotasks fun hready => h.turn ▸ hturn hready
  · exact .task job hready hfirst (h.turn ▸ hturn)
  · exact .nothing hmicrotasks hready

/-- In every state of a run all jobs are kept, and the next pop takes what it may. -/
theorem run_kept (maxTasks maxMicrotasks : Nat) (actions : List LoopAction) :
    let run := History.run step (new maxTasks maxMicrotasks) actions
    Kept run ∧ Takes run (run.loop.popNextReady.map Prod.fst) :=
  have h := History.run_invariant step (consistent_new maxTasks maxMicrotasks) step_consistent actions
  ⟨h.kept, h.takes⟩

end LoopRun

end GhitaBrowser.Runtime
