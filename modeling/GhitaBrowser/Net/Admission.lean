import GhitaBrowser.Lib.History

/-!
# Admission to the network

The scheduler counts the callers that wait for a permit: a caller adds itself before it awaits
the semaphore and takes itself out afterwards. The steps are those of the atomic counter and of
the semaphore, in any order, and a caller can be dropped where it is suspended.
-/

namespace GhitaBrowser.Net

structure SchedulerLimits where
  maxConcurrency : Nat
  maxQueued : Nat

/-- Where a caller of `fetch` stands. -/
inductive CallerPhase where
  /-- It has added itself and holds the count from before. -/
  | counted (queuedBefore : Nat)
  /-- The queue was full; it has not taken itself out yet. -/
  | refused
  /-- It is suspended until there is a permit or the time is up. -/
  | waiting
  /-- It has stopped waiting, with a permit or without, and has not taken itself out yet. -/
  | leaving (permit : Bool)
  | running
  | finished
deriving DecidableEq

structure Scheduler where
  limits : SchedulerLimits
  permits : Nat
  queued : Nat
  callers : List CallerPhase

def Scheduler.new (limits : SchedulerLimits) : Scheduler :=
  { limits, permits := limits.maxConcurrency, queued := 0, callers := [] }

/-- The steps of callers, each named by its place in the list. -/
inductive SchedulerAction where
  /-- A request that is valid and not cancelled adds itself: `fetch_add`. -/
  | arrive
  | decide (caller : Nat)
  | refuse (caller : Nat)
  /-- The semaphore gives out a permit. -/
  | grant (caller : Nat)
  | expire (caller : Nat)
  /-- `fetch_sub` behind the wait; a cancelled request gives its permit back at once. -/
  | leave (caller : Nat) (cancelled : Bool)
  /-- The work is over, or the caller is dropped in it. -/
  | finish (caller : Nat)
  /-- The future of the caller is dropped while it is suspended. -/
  | drop (caller : Nat)

namespace Scheduler

/-- A caller goes on to its next phase. -/
def put (scheduler : Scheduler) (caller : Nat) (phase : CallerPhase) : Scheduler :=
  { scheduler with callers := scheduler.callers.set caller phase }

def step (scheduler : Scheduler) : SchedulerAction → Scheduler
  | .arrive =>
    { scheduler with
      queued := scheduler.queued + 1
      callers := scheduler.callers ++ [.counted scheduler.queued] }
  | .decide caller =>
    match scheduler.callers[caller]? with
    | some (.counted queuedBefore) =>
      if scheduler.limits.maxQueued ≤ queuedBefore then scheduler.put caller .refused
      else scheduler.put caller .waiting
    | _ => scheduler
  | .refuse caller =>
    match scheduler.callers[caller]? with
    | some .refused => { scheduler with queued := scheduler.queued - 1 }.put caller .finished
    | _ => scheduler
  | .grant caller =>
    match scheduler.callers[caller]?, scheduler.permits with
    | some .waiting, permits + 1 => { scheduler with permits }.put caller (.leaving true)
    | _, _ => scheduler
  | .expire caller =>
    match scheduler.callers[caller]? with
    | some .waiting => scheduler.put caller (.leaving false)
    | _ => scheduler
  | .leave caller cancelled =>
    match scheduler.callers[caller]? with
    | some (.leaving true) =>
      if cancelled then
        { scheduler with queued := scheduler.queued - 1, permits := scheduler.permits + 1 }.put caller
          .finished
      else { scheduler with queued := scheduler.queued - 1 }.put caller .running
    | some (.leaving false) => { scheduler with queued := scheduler.queued - 1 }.put caller .finished
    | _ => scheduler
  | .finish caller =>
    match scheduler.callers[caller]? with
    | some .running => { scheduler with permits := scheduler.permits + 1 }.put caller .finished
    | _ => scheduler
  | .drop caller =>
    match scheduler.callers[caller]? with
    | some .waiting => scheduler.put caller .finished
    | _ => scheduler

end Scheduler

/-! ## The counter -/

/-- A caller that is let in counts as waiting from the step that adds it to the step that takes it
out. One that finds the queue full never waits. -/
def CallerPhase.waits (limits : SchedulerLimits) : CallerPhase → Bool
  | .counted queuedBefore => queuedBefore < limits.maxQueued
  | .waiting | .leaving _ => true
  | .refused | .running | .finished => false

/-- It found the queue full and has not taken itself out yet. -/
def CallerPhase.turnedAway (limits : SchedulerLimits) : CallerPhase → Bool
  | .counted queuedBefore => limits.maxQueued ≤ queuedBefore
  | .refused => true
  | .waiting | .leaving _ | .running | .finished => false

def Scheduler.waiting (scheduler : Scheduler) : Nat :=
  scheduler.callers.countP (CallerPhase.waits scheduler.limits)

def Scheduler.turnedAway (scheduler : Scheduler) : Nat :=
  scheduler.callers.countP (CallerPhase.turnedAway scheduler.limits)

/-- The counter is the number of callers that wait, so that a caller is only turned away where
so many others wait. -/
structure Counted (scheduler : Scheduler) : Prop where
  queued : scheduler.queued = scheduler.waiting
  admits : scheduler.limits.maxQueued ≤ scheduler.queued →
    scheduler.limits.maxQueued ≤ scheduler.waiting

/-- No caller arrives where the counter has reached the limit, and none is dropped while it is
suspended. -/
def KeepsWaiting (scheduler : Scheduler) : SchedulerAction → Prop
  | .arrive => scheduler.queued < scheduler.limits.maxQueued
  | .drop caller => scheduler.callers[caller]? ≠ some .waiting
  | _ => True

theorem counted_iff {scheduler : Scheduler} :
    Counted scheduler ↔ scheduler.queued = scheduler.waiting :=
  ⟨Counted.queued, fun h => ⟨h, fun hfull => h ▸ hfull⟩⟩

theorem countP_goesOn {callers : List CallerPhase} {caller : Nat} {old : CallerPhase}
    (p : CallerPhase → Bool) (phase : CallerPhase) (h : callers[caller]? = some old) :
    (callers.set caller phase).countP p + (p old).toNat =
      callers.countP p + (p phase).toNat := by
  obtain ⟨hcaller, rfl⟩ := List.getElem?_eq_some_iff.1 h
  have hle := List.boole_getElem_le_countP (p := p) hcaller
  have htoNat (b : Bool) : b.toNat = if b then 1 else 0 := by cases b <;> rfl
  rw [List.countP_set hcaller, htoNat, htoNat]
  omega

/-- The counts move with the phase of one caller. -/
structure Moves (scheduler after : Scheduler) (old phase : CallerPhase) : Prop where
  waiting : after.waiting + (old.waits scheduler.limits).toNat =
    scheduler.waiting + (phase.waits scheduler.limits).toNat
  turnedAway : after.turnedAway + (old.turnedAway scheduler.limits).toNat =
    scheduler.turnedAway + (phase.turnedAway scheduler.limits).toNat

theorem moves_arrive (scheduler : Scheduler) :
    Moves scheduler (scheduler.step .arrive) .finished (.counted scheduler.queued) := by
  constructor
  all_goals
    dsimp only [Scheduler.step, Scheduler.waiting, Scheduler.turnedAway]
    rw [List.countP_append, List.countP_singleton, ← Bool.cond_eq_ite]
    rfl

theorem moves_put {scheduler : Scheduler} {caller : Nat} {old : CallerPhase}
    (h : scheduler.callers[caller]? = some old) (phase : CallerPhase) (queued permits : Nat) :
    Moves scheduler ({ scheduler with queued, permits }.put caller phase) old phase :=
  ⟨countP_goesOn _ phase h, countP_goesOn _ phase h⟩

/-- The counter covers the callers that wait and those turned away. -/
def Covered (scheduler : Scheduler) : Prop :=
  scheduler.waiting + scheduler.turnedAway ≤ scheduler.queued

/-- The counter still covers the callers, and it is exact if it was. -/
def KeepsCount (scheduler after : Scheduler) : Prop :=
  Covered after ∧ (scheduler.queued = scheduler.waiting → after.queued = after.waiting)

section

variable {scheduler after : Scheduler} {old phase : CallerPhase}

theorem Moves.goesOn (h : Moves scheduler after old phase) (hcovered : Covered scheduler)
    (hwaits : phase.waits scheduler.limits = old.waits scheduler.limits)
    (hturned : phase.turnedAway scheduler.limits = old.turnedAway scheduler.limits)
    (hqueued : after.queued = scheduler.queued) : KeepsCount scheduler after := by
  have hwaiting := h.waiting
  have hturnedAway := h.turnedAway
  rw [hwaits] at hwaiting
  rw [hturned] at hturnedAway
  unfold KeepsCount Covered at *
  omega

/-- A caller that was counted takes itself out. -/
theorem Moves.leaves (h : Moves scheduler after old phase) (hcovered : Covered scheduler)
    (hold : old.waits scheduler.limits = true ∨ old.turnedAway scheduler.limits = true)
    (hphase : phase.waits scheduler.limits = false ∧ phase.turnedAway scheduler.limits = false)
    (hqueued : after.queued = scheduler.queued - 1) : KeepsCount scheduler after := by
  have hwaiting := h.waiting
  have hturnedAway := h.turnedAway
  rw [hphase.1, Bool.toNat_false] at hwaiting
  rw [hphase.2, Bool.toNat_false] at hturnedAway
  unfold KeepsCount Covered at *
  obtain hold | hold := hold
  · rw [hold, Bool.toNat_true] at hwaiting
    omega
  · -- then the counter was above the number of those that wait
    rw [hold, Bool.toNat_true] at hturnedAway
    omega

end

section

variable {scheduler : Scheduler} (hcovered : Covered scheduler)

include hcovered

theorem keepsCount_same : KeepsCount scheduler scheduler := ⟨hcovered, id⟩

theorem step_decide (caller : Nat) : KeepsCount scheduler (scheduler.step (.decide caller)) := by
  dsimp only [Scheduler.step]
  split
  · next queuedBefore hcaller =>
    split
    · next hfull =>
      exact (moves_put hcaller .refused _ _).goesOn hcovered
        (decide_eq_false (Nat.not_lt.2 hfull)).symm (decide_eq_true hfull).symm rfl
    · next hfull =>
      exact (moves_put hcaller .waiting _ _).goesOn hcovered
        (decide_eq_true (Nat.not_le.1 hfull)).symm (decide_eq_false hfull).symm rfl
  · exact keepsCount_same hcovered

theorem step_refuse (caller : Nat) : KeepsCount scheduler (scheduler.step (.refuse caller)) := by
  dsimp only [Scheduler.step]
  split
  · next hcaller => exact (moves_put hcaller .finished _ _).leaves hcovered (.inr rfl) ⟨rfl, rfl⟩ rfl
  · exact keepsCount_same hcovered

theorem step_grant (caller : Nat) : KeepsCount scheduler (scheduler.step (.grant caller)) := by
  dsimp only [Scheduler.step]
  split
  · next hcaller _ => exact (moves_put hcaller (.leaving true) _ _).goesOn hcovered rfl rfl rfl
  · exact keepsCount_same hcovered

theorem step_expire (caller : Nat) : KeepsCount scheduler (scheduler.step (.expire caller)) := by
  dsimp only [Scheduler.step]
  split
  · next hcaller => exact (moves_put hcaller (.leaving false) _ _).goesOn hcovered rfl rfl rfl
  · exact keepsCount_same hcovered

theorem step_leave (caller : Nat) (cancelled : Bool) :
    KeepsCount scheduler (scheduler.step (.leave caller cancelled)) := by
  dsimp only [Scheduler.step]
  split
  · next hcaller =>
    split
    · exact (moves_put hcaller .finished _ _).leaves hcovered (.inl rfl) ⟨rfl, rfl⟩ rfl
    · exact (moves_put hcaller .running _ _).leaves hcovered (.inl rfl) ⟨rfl, rfl⟩ rfl
  · next hcaller => exact (moves_put hcaller .finished _ _).leaves hcovered (.inl rfl) ⟨rfl, rfl⟩ rfl
  · exact keepsCount_same hcovered

theorem step_finish (caller : Nat) : KeepsCount scheduler (scheduler.step (.finish caller)) := by
  dsimp only [Scheduler.step]
  split
  · next hcaller => exact (moves_put hcaller .finished _ _).goesOn hcovered rfl rfl rfl
  · exact keepsCount_same hcovered

/-- One more is counted; it waits exactly if the counter was below the limit. -/
theorem step_arrive : Covered (scheduler.step .arrive) ∧
    (scheduler.queued = scheduler.waiting →
      ((scheduler.step .arrive).queued = (scheduler.step .arrive).waiting ↔
        scheduler.queued < scheduler.limits.maxQueued)) := by
  obtain ⟨hwaiting, hturned⟩ := moves_arrive scheduler
  have hqueued : (scheduler.step .arrive).queued = scheduler.queued + 1 := rfl
  dsimp only [CallerPhase.waits, CallerPhase.turnedAway, Bool.toNat_false] at hwaiting hturned
  unfold Covered at *
  by_cases hfull : scheduler.queued < scheduler.limits.maxQueued
  · rw [decide_eq_true hfull, Bool.toNat_true] at hwaiting
    rw [decide_eq_false (Nat.not_le.2 hfull), Bool.toNat_false] at hturned
    omega
  · rw [decide_eq_false hfull, Bool.toNat_false] at hwaiting
    rw [decide_eq_true (Nat.not_lt.1 hfull), Bool.toNat_true] at hturned
    omega

/-- The counter stays when a caller is dropped, and one caller less waits. -/
theorem step_drop (caller : Nat) : Covered (scheduler.step (.drop caller)) ∧
    (scheduler.queued = scheduler.waiting →
      ((scheduler.step (.drop caller)).queued = (scheduler.step (.drop caller)).waiting ↔
        scheduler.callers[caller]? ≠ some .waiting)) := by
  dsimp only [Scheduler.step]
  split
  · next hcaller =>
    obtain ⟨hwaiting, hturned⟩ := moves_put hcaller .finished scheduler.queued scheduler.permits
    have hqueued : (scheduler.put caller .finished).queued = scheduler.queued := rfl
    have hput : (scheduler.put caller .finished).waiting + 1 = scheduler.waiting := hwaiting
    have hrest : (scheduler.put caller .finished).turnedAway = scheduler.turnedAway := hturned
    unfold Covered at *
    simp only [hcaller, ne_eq, not_true_eq_false, iff_false]
    omega
  · next hcaller => exact ⟨hcovered, fun hexact => iff_of_true hexact hcaller⟩

/-- From an exact count, the step keeps it exact unless it lets a caller find the queue full or
drops one that waits. -/
theorem step_counted (action : SchedulerAction) : Covered (scheduler.step action) ∧
    (scheduler.queued = scheduler.waiting →
      ((scheduler.step action).queued = (scheduler.step action).waiting ↔
        KeepsWaiting scheduler action)) := by
  have hkeeps {after : Scheduler} (h : KeepsCount scheduler after) :
      Covered after ∧ (scheduler.queued = scheduler.waiting →
        (after.queued = after.waiting ↔ True)) :=
    ⟨h.1, fun hexact => iff_of_true (h.2 hexact) trivial⟩
  cases action with
  | arrive => exact step_arrive hcovered
  | decide caller => exact hkeeps (step_decide hcovered caller)
  | refuse caller => exact hkeeps (step_refuse hcovered caller)
  | grant caller => exact hkeeps (step_grant hcovered caller)
  | expire caller => exact hkeeps (step_expire hcovered caller)
  | leave caller cancelled => exact hkeeps (step_leave hcovered caller cancelled)
  | finish caller => exact hkeeps (step_finish hcovered caller)
  | drop caller => exact step_drop hcovered caller

end

/-- In every state of a run the counter is that of the callers that wait, exactly when no caller
of the run finds the queue full and none that waits is dropped. -/
theorem scheduler_counted (limits : SchedulerLimits) (actions : List SchedulerAction) :
    (∀ scheduler ∈ History.visited Scheduler.step (.new limits) actions, Counted scheduler) ↔
      ∀ moment ∈ History.history Scheduler.step (.new limits) actions,
        KeepsWaiting moment.1 moment.2 := by
  refine History.visited_iff Scheduler.step (I := Covered)
    (fun _ action hcovered => (step_counted hcovered action).1)
    (fun scheduler action hcovered h => ?_) (show Covered (.new limits) from Nat.le_refl 0)
    (counted_iff.2 rfl) actions
  rw [counted_iff]
  exact (step_counted hcovered action).2 h.queued

/-- One caller in the queue is dropped; the next is turned away although nobody waits. -/
theorem scheduler_phantom :
    ¬∀ scheduler ∈ History.visited Scheduler.step (.new { maxConcurrency := 1, maxQueued := 1 })
        [.arrive, .decide 0, .drop 0],
      Counted scheduler := by
  intro hcounted
  have hlast := hcounted _ (History.run_mem_visited Scheduler.step _ _)
  exact absurd hlast.queued (by decide)

example : (History.run Scheduler.step (.new { maxConcurrency := 1, maxQueued := 1 })
    [.arrive, .decide 0, .drop 0, .arrive, .decide 1]).callers = [.finished, .refused] := by decide

end GhitaBrowser.Net
