import GhitaBrowser.Page.Timers

/-!
# Timers keep their law

The tables agree with the history: a timer is in the table as it is armed, a frame
callback is in the table or in the batch of a running drain only when it is awaited.
With that each event of a run is allowed, as long as no interval is due again at the
moment it fires and no drain is told to cancel a callback of its own batch.
-/

namespace GhitaBrowser.Page

open List

/-! ## What the law gives -/

section Law

variable {id : Nat}

theorem Lawful.past {later past : List TimerEvent} (h : Lawful (later ++ past)) : Lawful past := by
  induction later with
  | nil => exact h
  | cons event later ih => exact ih h.2

/-- Frame callbacks run no more often than they were awaited or are requested. -/
theorem Lawful.count_frame (id : Nat) (later past : List TimerEvent) (h : Lawful (later ++ past)) :
    later.count (.frame id) + framesAwaited (later ++ past) id ≤
      framesAwaited past id + later.count (.requestFrame id) := by
  induction later with
  | nil => exact Nat.le_of_eq (Nat.add_comm 0 _)
  | cons event later ih =>
    have hle := ih h.2
    rw [cons_append]
    cases event with
    | requestFrame other =>
      simp only [framesAwaited, count_cons, beq_iff_eq, reduceCtorEq, if_false,
        TimerEvent.requestFrame.injEq, @eq_comm _ other id]
      omega
    | cancelFrame other =>
      simp only [framesAwaited, count_cons, beq_iff_eq, reduceCtorEq, if_false]
      split
      · omega
      · exact hle
    | frame other =>
      have hawaited : 0 < framesAwaited (later ++ past) other := h.1
      simp only [framesAwaited, count_cons, beq_iff_eq, reduceCtorEq, if_false,
        TimerEvent.frame.injEq, @eq_comm _ other id]
      by_cases heq : id = other
      · rw [← heq] at hawaited
        rw [if_pos heq]
        omega
      · rw [if_neg heq]
        exact hle
    | _ =>
      simpa only [framesAwaited, count_cons, beq_iff_eq, reduceCtorEq, if_false, Nat.add_zero]
        using hle

@[simp] theorem fires_fire (other : Nat) (arming : Arming) (now : Nat) :
    (TimerEvent.fire other arming now).fires id = true ↔ id = other :=
  beq_iff_eq.trans eq_comm

theorem Lawful.not_set {log : List TimerEvent} (h : Lawful log)
    (hset : ∀ arming, TimerEvent.setTimer id arming ∉ log) :
    timerArmed log id = none ∧ log.countP (TimerEvent.fires id) = 0 := by
  induction log with
  | nil => exact ⟨rfl, rfl⟩
  | cons event log ih =>
    obtain ⟨harmed, hcount⟩ := ih h.2 fun arming hmem => hset arming (mem_cons_of_mem _ hmem)
    cases event with
    | setTimer other arming =>
      have hne : id ≠ other := fun heq => hset arming (heq ▸ mem_cons_self)
      exact ⟨(if_neg hne).trans harmed, hcount⟩
    | clearTimer other =>
      refine ⟨?_, hcount⟩
      rw [timerArmed, harmed, ite_self]
    | fire other arming now =>
      have hfired : timerArmed log other = some arming := h.1.1
      have hne : id ≠ other := fun heq => by rw [← heq, harmed] at hfired; cases hfired
      refine ⟨(if_neg hne).trans harmed, ?_⟩
      rw [countP_cons_of_neg (mt (fires_fire other arming now).mp hne)]
      exact hcount
    | _ => exact ⟨harmed, hcount⟩

theorem Lawful.count_fire {later past : List TimerEvent} (h : Lawful (later ++ past))
    {given : Arming} (hgiven : .setTimer id given ∈ past)
    (hpast : ∀ arming, timerArmed past id = some arming → arming.interval = false) :
    later.countP (TimerEvent.fires id) + (timerArmed (later ++ past) id).toList.length ≤
        (timerArmed past id).toList.length ∧
      ∀ arming, timerArmed (later ++ past) id = some arming → arming.interval = false := by
  induction later with
  | nil => exact ⟨Nat.le_of_eq (Nat.zero_add _), hpast⟩
  | cons event later ih =>
    obtain ⟨hle, htimeout⟩ := ih h.2
    rw [cons_append]
    cases event with
    | setTimer other arming =>
      have hne : id ≠ other := fun heq =>
        h.1 given (mem_append_right later (heq ▸ hgiven))
      rw [timerArmed, if_neg hne]
      exact ⟨hle, htimeout⟩
    | clearTimer other =>
      rw [timerArmed]
      split
      · exact ⟨Nat.le_trans (Nat.le_add_right _ _) hle, nofun⟩
      · exact ⟨hle, htimeout⟩
    | fire other arming now =>
      have hfired : timerArmed (later ++ past) other = some arming := h.1.1
      rw [timerArmed]
      by_cases heq : id = other
      · rw [← heq] at hfired
        rw [if_pos heq, htimeout arming hfired,
          countP_cons_of_pos ((fires_fire other arming now).mpr heq)]
        rw [hfired] at hle
        exact ⟨hle, nofun⟩
      · rw [if_neg heq, countP_cons_of_neg (mt (fires_fire other arming now).mp heq)]
        exact ⟨hle, htimeout⟩
    | _ => exact ⟨hle, htimeout⟩

theorem Lawful.reliable {log : List TimerEvent} (h : Lawful log) : Reliable log where
  lawful := h
  timeoutOnce := by
    intro id arming hmem htimeout
    obtain ⟨later, past, rfl⟩ := append_of_mem hmem
    have hpast : Lawful (.setTimer id arming :: past) := h.past
    have hnot := (Lawful.not_set hpast.2 hpast.1).2
    have harmed : timerArmed (.setTimer id arming :: past) id = some arming := if_pos rfl
    have hcount := (Lawful.count_fire h mem_cons_self fun other hother => by
      rw [harmed] at hother
      exact Option.some.inj hother ▸ htimeout).1
    rw [harmed] at hcount
    rw [countP_append, countP_cons_of_neg Bool.false_ne_true, hnot]
    exact Nat.le_trans (Nat.le_add_right _ _) hcount
  timerCleared := by
    rintro later past id arming rfl hmem
    have harmed : timerArmed (.clearTimer id :: past) id = none := if_pos rfl
    have hcount := (Lawful.count_fire h (mem_cons_of_mem _ hmem) fun other hother => by
      rw [harmed] at hother
      cases hother).1
    rw [harmed] at hcount
    exact Nat.eq_zero_of_add_eq_zero_right (Nat.le_zero.mp hcount)
  frameOnce := by
    intro id
    have hcount := Lawful.count_frame id log []
      ((append_nil log).symm ▸ h)
    rw [framesAwaited, Nat.zero_add] at hcount
    exact Nat.le_trans (Nat.le_add_right _ _) hcount
  frameCancelled := by
    rintro later past id rfl
    have hcount := Lawful.count_frame id later (.cancelFrame id :: past) h
    have hnone : framesAwaited (.cancelFrame id :: past) id = 0 := if_pos rfl
    rw [hnone, Nat.zero_add] at hcount
    exact Nat.le_trans (Nat.le_add_right _ _) hcount

end Law

namespace Timers

variable {κ : Type}

/-- Whether a frame callback is in the table, as a number. -/
def stored (s : Timers κ) (id : Nat) : Nat :=
  if s.animationFrameCallbacks.contains id then 1 else 0

/-- The tables agree with the history. `batch` are the frame callbacks a running drain has
still to run. -/
structure Agrees (batch : List Nat) (s : Timers κ) : Prop where
  lawful : Lawful s.log
  armed : ∀ id : Nat, (s.timers[id]?).map TimerEntry.arming = timerArmed s.log id
  awaited : ∀ id : Nat, s.stored id + batch.count id ≤ framesAwaited s.log id
  batched : ∀ id ∈ batch, awaitsDrain s.log id = true
  given : ∀ id arming, .setTimer id arming ∈ s.log → id < s.nextTimerId
  numbered : ∀ id arming, timerArmed s.log id = some arming → id < s.nextTimerId
  issued : ∀ id ∈ firedInPump s.log, id < s.nextTimerId

theorem Agrees.given_cons {batch : List Nat} {s : Timers κ} (agrees : s.Agrees batch)
    {event : TimerEvent} (hevent : ∀ id arming, event ≠ .setTimer id arming) (id : Nat)
    (arming : Arming) (h : .setTimer id arming ∈ event :: s.log) : id < s.nextTimerId := by
  rcases mem_cons.mp h with h | h
  · exact absurd h.symm (hevent id arming)
  · exact agrees.given id arming h

/-- During a pump a timer that has fired is not due again. -/
def Rearmed (s : Timers κ) : Prop :=
  ∀ id ∈ firedInPump s.log, ∀ arming, timerArmed s.log id = some arming → s.nowMs < arming.dueMs

theorem stored_insert (s : Timers κ) (id other : Nat) (callback : κ) :
    ({ s with animationFrameCallbacks := s.animationFrameCallbacks.insert id callback } :
      Timers κ).stored other = if other = id then 1 else s.stored other := by
  simp only [stored, IdMap.contains_iff, IdMap.getElem?_insert]
  split <;> simp

theorem stored_erase (s : Timers κ) (id other : Nat) :
    ({ s with animationFrameCallbacks := s.animationFrameCallbacks.erase id } :
      Timers κ).stored other = if other = id then 0 else s.stored other := by
  simp only [stored, IdMap.contains_iff, IdMap.getElem?_erase]
  split <;> simp

/-! ## Host calls -/

section Calls

variable {batch : List Nat} {s : Timers κ}

theorem setTimer_agrees (callback : κ) (delayMs : Nat) (interval : Bool)
    (agrees : s.Agrees batch) : (s.setTimer callback delayMs interval).Agrees batch := by
  simp only [setTimer]
  split
  · exact agrees
  split
  · exact agrees
  refine ⟨⟨fun arming h => ?_, agrees.lawful⟩, fun id => ?_, agrees.awaited, agrees.batched,
    fun id arming h => ?_, fun id arming harmed => ?_, fun id h => ?_⟩
  · exact Nat.lt_irrefl _ (agrees.given s.nextTimerId arming h)
  · simp only [record, timerArmed, IdMap.getElem?_insert]
    split
    · rfl
    · exact agrees.armed id
  · rcases mem_cons.mp h with h | h
    · cases h
      exact Nat.lt_succ_self s.nextTimerId
    · exact Nat.lt_succ_of_lt (agrees.given id arming h)
  · simp only [record, timerArmed] at harmed
    split at harmed
    · next heq => exact heq ▸ Nat.lt_succ_self s.nextTimerId
    · exact Nat.lt_succ_of_lt (agrees.numbered id arming harmed)
  · exact Nat.lt_succ_of_lt (agrees.issued id h)

theorem setTimer_rearmed (callback : κ) (delayMs : Nat) (interval : Bool)
    (agrees : s.Agrees batch) (rearmed : s.Rearmed) :
    (s.setTimer callback delayMs interval).Rearmed := by
  simp only [setTimer]
  split
  · exact rearmed
  split
  · exact rearmed
  intro id hfired arming harmed
  -- The new id has not fired.
  have hlt : id < s.nextTimerId := agrees.issued id hfired
  simp only [record, timerArmed, if_neg (Nat.ne_of_lt hlt)] at harmed
  exact rearmed id hfired arming harmed

theorem clearTimer_agrees (id : Nat) (agrees : s.Agrees batch) :
    (s.clearTimer id).Agrees batch := by
  refine ⟨⟨trivial, agrees.lawful⟩, fun other => ?_, agrees.awaited, agrees.batched,
    agrees.given_cons nofun, fun other arming harmed => ?_, agrees.issued⟩
  · simp only [clearTimer, record, timerArmed, IdMap.getElem?_erase]
    split
    · rfl
    · exact agrees.armed other
  · simp only [clearTimer, record, timerArmed] at harmed
    split at harmed
    · cases harmed
    · exact agrees.numbered other arming harmed

theorem clearTimer_rearmed (id : Nat) (rearmed : s.Rearmed) : (s.clearTimer id).Rearmed := by
  intro other hfired arming harmed
  simp only [clearTimer, record, timerArmed] at harmed
  split at harmed
  · cases harmed
  · exact rearmed other hfired arming harmed

theorem requestAnimationFrame_agrees (callback : κ) (agrees : s.Agrees batch) :
    (s.requestAnimationFrame callback).Agrees batch := by
  simp only [requestAnimationFrame]
  split
  · exact agrees
  refine ⟨⟨trivial, agrees.lawful⟩, agrees.armed, fun id => ?_, agrees.batched,
    agrees.given_cons nofun, agrees.numbered, agrees.issued⟩
  have hold := agrees.awaited id
  show stored _ id + _ ≤ framesAwaited s.log id + _
  have hstored := stored_insert s s.nextRafId id callback
  calc stored _ id + batch.count id
      = (if id = s.nextRafId then 1 else s.stored id) + batch.count id :=
        congrArg (· + batch.count id) hstored
    _ ≤ framesAwaited s.log id + if id = s.nextRafId then 1 else 0 := by split <;> omega

theorem cancelAnimationFrame_agrees (id : Nat) (agrees : s.Agrees batch)
    (harmless : (TimerEvent.cancelFrame id).Harmless s.log) :
    (s.cancelAnimationFrame id).Agrees batch := by
  have hbatch : id ∉ batch := fun h =>
    Bool.false_ne_true (harmless.symm.trans (agrees.batched id h))
  refine ⟨⟨trivial, agrees.lawful⟩, agrees.armed, fun other => ?_, agrees.batched,
    agrees.given_cons nofun, agrees.numbered, agrees.issued⟩
  have hold := agrees.awaited other
  show stored _ other + _ ≤ if other = id then 0 else framesAwaited s.log other
  have hstored := stored_erase s id other
  calc stored _ other + batch.count other
      = (if other = id then 0 else s.stored other) + batch.count other :=
        congrArg (· + batch.count other) hstored
    _ ≤ if other = id then 0 else framesAwaited s.log other := by
        split
        · next heq => rw [heq, count_eq_zero_of_not_mem hbatch]
        · exact hold

/-- What a state keeps while its history is harmless. -/
def Keeps (batch : List Nat) (s : Timers κ) : Prop := Harmless s.log → s.Agrees batch

/-- The same during a pump in which `fired` timers have fired. -/
def KeepsPump (fired : Nat) (s : Timers κ) : Prop :=
  Harmless s.log → s.Agrees [] ∧ s.Rearmed ∧ (firedInPump s.log).length = fired

theorem harmless_of_setTimer {callback : κ} {delayMs : Nat} {interval : Bool}
    (harmless : Harmless (s.setTimer callback delayMs interval).log) : Harmless s.log := by
  simp only [setTimer] at harmless
  split at harmless
  · exact harmless
  split at harmless
  · exact harmless
  · exact harmless.2

theorem harmless_of_requestAnimationFrame {callback : κ}
    (harmless : Harmless (s.requestAnimationFrame callback).log) : Harmless s.log := by
  simp only [requestAnimationFrame] at harmless
  split at harmless
  · exact harmless
  · exact harmless.2

theorem firedInPump_call (c : TimerCall κ) : firedInPump (s.call c).log = firedInPump s.log := by
  cases c with
  | setTimer callback delayMs interval =>
    simp only [call, setTimer]
    split
    · rfl
    · split <;> rfl
  | clearTimer id => rfl
  | requestAnimationFrame callback =>
    simp only [call, requestAnimationFrame]
    split <;> rfl
  | cancelAnimationFrame id => rfl

theorem requestAnimationFrame_rearmed (callback : κ) (rearmed : s.Rearmed) :
    (s.requestAnimationFrame callback).Rearmed := by
  simp only [requestAnimationFrame]
  split
  · exact rearmed
  · exact rearmed

theorem call_keeps (c : TimerCall κ) (keeps : s.Keeps batch) : (s.call c).Keeps batch := by
  intro harmless
  cases c with
  | setTimer callback delayMs interval =>
    exact setTimer_agrees callback delayMs interval (keeps (harmless_of_setTimer harmless))
  | clearTimer id => exact clearTimer_agrees id (keeps harmless.2)
  | requestAnimationFrame callback =>
    exact requestAnimationFrame_agrees callback (keeps (harmless_of_requestAnimationFrame harmless))
  | cancelAnimationFrame id =>
    exact cancelAnimationFrame_agrees id (keeps harmless.2) harmless.1

theorem call_keepsPump {fired : Nat} (c : TimerCall κ) (keeps : s.KeepsPump fired) :
    (s.call c).KeepsPump fired := by
  intro harmless
  have agrees : (s.call c).Agrees [] → (s.call c).Rearmed → (firedInPump s.log).length = fired →
      (s.call c).Agrees [] ∧ (s.call c).Rearmed ∧ (firedInPump (s.call c).log).length = fired :=
    fun hagrees hrearmed hfired => ⟨hagrees, hrearmed, by rw [firedInPump_call]; exact hfired⟩
  cases c with
  | setTimer callback delayMs interval =>
    obtain ⟨hagrees, hrearmed, hfired⟩ := keeps (harmless_of_setTimer harmless)
    exact agrees (setTimer_agrees callback delayMs interval hagrees)
      (setTimer_rearmed callback delayMs interval hagrees hrearmed) hfired
  | clearTimer id =>
    obtain ⟨hagrees, hrearmed, hfired⟩ := keeps harmless.2
    exact agrees (clearTimer_agrees id hagrees) (clearTimer_rearmed id hrearmed) hfired
  | requestAnimationFrame callback =>
    obtain ⟨hagrees, hrearmed, hfired⟩ := keeps (harmless_of_requestAnimationFrame harmless)
    exact agrees (requestAnimationFrame_agrees callback hagrees)
      (requestAnimationFrame_rearmed callback hrearmed) hfired
  | cancelAnimationFrame id =>
    obtain ⟨hagrees, hrearmed, hfired⟩ := keeps harmless.2
    exact agrees (cancelAnimationFrame_agrees id hagrees harmless.1) hrearmed hfired

theorem calls_keeps (list : List (TimerCall κ)) (keeps : s.Keeps batch) :
    (s.calls list).Keeps batch := by
  induction list generalizing s with
  | nil => exact keeps
  | cons c list ih => exact ih (call_keeps c keeps)

theorem calls_keepsPump {fired : Nat} (list : List (TimerCall κ)) (keeps : s.KeepsPump fired) :
    (s.calls list).KeepsPump fired := by
  induction list generalizing s with
  | nil => exact keeps
  | cons c list ih => exact ih (call_keepsPump c keeps)

end Calls

/-! ## Animation frames -/

variable {id : Nat}

/-- A frame callback of the batch runs, so it is no longer awaited. -/
theorem frame_agrees {batch : List Nat} {s : Timers κ} (hnodup : (id :: batch).Nodup)
    (agrees : s.Agrees (id :: batch)) : (s.record (.frame id)).Agrees batch := by
  refine ⟨⟨?_, agrees.lawful⟩, agrees.armed, fun other => ?_, fun other hother => ?_,
    agrees.given_cons nofun, agrees.numbered, agrees.issued⟩
  · show 0 < framesAwaited s.log id
    have hold := agrees.awaited id
    rw [count_cons_self] at hold
    omega
  · show s.stored other + batch.count other ≤ framesAwaited s.log other - if other = id then 1 else 0
    have hold := agrees.awaited other
    by_cases heq : other = id
    · rw [heq, count_cons_self] at hold
      rw [if_pos heq, heq]
      omega
    · rw [count_cons_of_ne (Ne.symm heq)] at hold
      rw [if_neg heq]
      exact hold
  · have hne : other ≠ id := fun heq => (nodup_cons.mp hnodup).1 (heq ▸ hother)
    show (other != id && awaitsDrain s.log other) = true
    rw [bne_iff_ne.mpr hne, agrees.batched other (mem_cons_of_mem id hother)]
    rfl

theorem postpone_agrees {callback : κ} {batch : List Nat} {s : Timers κ}
    (agrees : s.Agrees (id :: batch)) :
    ({ s with animationFrameCallbacks := s.animationFrameCallbacks.insert id callback } :
      Timers κ).Agrees batch := by
  refine ⟨agrees.lawful, agrees.armed, fun other => ?_,
    fun other hother => agrees.batched other (mem_cons_of_mem id hother),
    agrees.given, agrees.numbered, agrees.issued⟩
  have hold := agrees.awaited other
  show stored _ other + batch.count other ≤ framesAwaited s.log other
  have hstored := stored_insert s id other callback
  by_cases heq : other = id
  · rw [heq, count_cons_self] at hold
    rw [if_pos heq] at hstored
    rw [hstored, heq, Nat.add_comm]
    exact Nat.le_of_add_left_le hold
  · rw [count_cons_of_ne (Ne.symm heq)] at hold
    rw [if_neg heq] at hstored
    rw [hstored]
    exact hold

variable (script : Script κ)

theorem drainLoop_keeps (callbacks : List (Nat × κ)) (hnodup : (callbacks.map Prod.fst).Nodup)
    (executed : Nat) (s : Timers κ) (keeps : s.Keeps (callbacks.map Prod.fst)) :
    (drainLoop script executed callbacks s).Keeps [] := by
  induction callbacks generalizing executed s with
  | nil => exact keeps
  | cons entry callbacks ih =>
    obtain ⟨id, callback⟩ := entry
    have hrest : (callbacks.map Prod.fst).Nodup := (nodup_cons.mp hnodup).2
    rw [drainLoop]
    split
    · exact ih hrest executed _ fun harmless => postpone_agrees (keeps harmless)
    · refine ih hrest (executed + 1) _ (calls_keeps _ ?_)
      exact fun harmless => frame_agrees hnodup (keeps harmless.2)

theorem nodup_keys (m : IdMap κ) : (m.toList.map Prod.fst).Nodup := by
  rw [Std.ExtTreeMap.map_fst_toList_eq_keys]
  exact Std.ExtTreeMap.nodup_keys

theorem count_keys (s : Timers κ) (id : Nat) :
    (s.animationFrameCallbacks.toList.map Prod.fst).count id = s.stored id := by
  have hmem : id ∈ s.animationFrameCallbacks.toList.map Prod.fst ↔
      s.animationFrameCallbacks.contains id = true := by
    rw [Std.ExtTreeMap.map_fst_toList_eq_keys, Std.ExtTreeMap.mem_keys,
      Std.ExtTreeMap.contains_iff_mem]
  rw [List.Nodup.count (nodup_keys _), stored]
  simp only [hmem]

theorem drainStart_agrees {s : Timers κ} (agrees : s.Agrees []) :
    (({ s with animationFrameCallbacks := ∅ } : Timers κ).record .drainStart).Agrees
      (s.animationFrameCallbacks.toList.map Prod.fst) := by
  have hawaited : ∀ id, s.stored id ≤ framesAwaited s.log id := agrees.awaited
  refine ⟨⟨trivial, agrees.lawful⟩, agrees.armed, fun id => ?_, fun id hid => ?_,
    agrees.given_cons nofun, agrees.numbered, agrees.issued⟩
  · have hnone : (({ s with animationFrameCallbacks := ∅ } : Timers κ).record .drainStart).stored
        id = 0 := if_neg (by simp [record])
    rw [hnone, count_keys, Nat.zero_add]
    exact hawaited id
  · have hcount := count_pos_iff.mpr hid
    rw [count_keys] at hcount
    exact decide_eq_true (Nat.lt_of_lt_of_le hcount (hawaited id))

theorem drainAnimationFrames_keeps {s : Timers κ} (keeps : s.Keeps []) :
    (s.drainAnimationFrames script).Keeps [] := by
  intro harmless
  have hloop := drainLoop_keeps script s.animationFrameCallbacks.toList (nodup_keys _) 0 _
    (fun harmless => drainStart_agrees (keeps harmless.2)) harmless.2
  exact ⟨⟨trivial, hloop.lawful⟩, hloop.armed, hloop.awaited, (fun _ h => nomatch h),
    hloop.given_cons nofun, hloop.numbered, hloop.issued⟩

/-! ## Timers -/

variable {timer : TimerEntry κ}

theorem nextDue_some {s : Timers κ} (h : s.nextDue = some (id, timer)) :
    s.timers[id]? = some timer ∧ timer.arming.dueMs ≤ s.nowMs ∧
      ∀ (other : Nat) (entry : TimerEntry κ), s.timers[other]? = some entry →
        entry.arming.dueMs ≤ s.nowMs →
          toLex (timer.arming.dueMs, id) ≤ toLex (entry.arming.dueMs, other) := by
  have hmem := argmin_mem h
  simp only [mem_filter, decide_eq_true_eq, Std.ExtTreeMap.mem_toList_iff_getElem?_eq_some]
    at hmem
  refine ⟨hmem.1, hmem.2, fun other entry hentry hdue => ?_⟩
  have hother : (other, entry) ∈ s.timers.toList.filter fun entry =>
      entry.2.arming.dueMs ≤ s.nowMs :=
    mem_filter.mpr
      ⟨Std.ExtTreeMap.mem_toList_iff_getElem?_eq_some.mpr hentry, decide_eq_true hdue⟩
  exact le_of_mem_argmin (f := fun entry : Nat × TimerEntry κ =>
    toLex (entry.2.arming.dueMs, entry.1)) hother h

theorem nextDue_none {s : Timers κ} (h : s.nextDue = none)
    (htimer : s.timers[id]? = some timer) : s.nowMs < timer.arming.dueMs := by
  rw [nextDue, argmin_eq_none, filter_eq_nil_iff] at h
  have hdue := h (id, timer) (Std.ExtTreeMap.mem_toList_iff_getElem?_eq_some.mpr htimer)
  exact Nat.lt_of_not_le fun hle => hdue (decide_eq_true hle)

theorem getElem?_rearm {s : Timers κ} (htimer : s.timers[id]? = some timer) (other : Nat) :
    ((s.rearm id timer).timers[other]?).map TimerEntry.arming =
      if other = id then
        if timer.arming.interval then some (timer.arming.again s.nowMs) else none
      else (s.timers[other]?).map TimerEntry.arming := by
  rw [rearm]
  by_cases hinterval : timer.arming.interval
  · rw [if_pos hinterval, if_pos hinterval, IdMap.getElem?_modify, htimer]
    split <;> rfl
  · rw [if_neg hinterval, if_neg hinterval, IdMap.getElem?_erase]
    split <;> rfl

theorem lt_again {arming : Arming} {now : Nat}
    (harmless : arming.interval → 0 < arming.delayMs ∧ now < maxU64)
    (hinterval : arming.interval = true) : now < (arming.again now).dueMs := by
  obtain ⟨hdelay, hnow⟩ := harmless hinterval
  show now < min (now + arming.delayMs) maxU64
  exact Nat.lt_min.mpr ⟨Nat.lt_add_of_pos_right hdelay, hnow⟩

theorem fire_keepsPump {s : Timers κ} {fired : Nat}
    (hnext : s.nextDue = some (id, timer)) (keeps : s.KeepsPump fired) :
    ((s.rearm id timer).record (.fire id timer.arming s.nowMs)).KeepsPump (fired + 1) := by
  obtain ⟨htimer, hdue, hleast⟩ := nextDue_some hnext
  have hlog : (s.rearm id timer).log = s.log := by rw [rearm]; split <;> rfl
  have hnow : (s.rearm id timer).nowMs = s.nowMs := by rw [rearm]; split <;> rfl
  have hnext : (s.rearm id timer).nextTimerId = s.nextTimerId := by rw [rearm]; split <;> rfl
  have hstored : ∀ other, (s.rearm id timer).stored other = s.stored other := by
    intro other
    rw [rearm]
    split <;> rfl
  intro harmless
  rw [record, hlog] at harmless
  obtain ⟨agrees, rearmed, hfired⟩ := keeps harmless.2
  have harmed : timerArmed s.log id = some timer.arming := by
    rw [← agrees.armed id, htimer]
    rfl
  have hallowed : (TimerEvent.fire id timer.arming s.nowMs).Allowed s.log := by
    refine ⟨harmed, hdue, fun hmem => ?_, fun other arming hother hdueOther => ?_⟩
    · exact Nat.not_lt.mpr hdue (rearmed id hmem timer.arming harmed)
    · rw [← agrees.armed other, Option.map_eq_some_iff] at hother
      obtain ⟨entry, hentry, rfl⟩ := hother
      exact hleast other entry hentry hdueOther
  have hafter : ∀ other arming, timerArmed (.fire id timer.arming s.nowMs :: s.log) other =
      some arming → (other = id ∧ timer.arming.interval = true ∧
        arming = timer.arming.again s.nowMs) ∨ (other ≠ id ∧ timerArmed s.log other = some arming) := by
    intro other arming h
    rw [timerArmed] at h
    split at h
    · next heq =>
      split at h
      · next hinterval => exact .inl ⟨heq, hinterval, (Option.some.inj h).symm⟩
      · cases h
    · next hne => exact .inr ⟨hne, h⟩
  refine ⟨⟨?_, fun other => ?_, fun other => ?_, (fun _ h => nomatch h), ?_,
    fun other arming h => ?_, fun other h => ?_⟩, fun other hmem arming h => ?_, ?_⟩
  · rw [record, hlog]
    exact ⟨hallowed, agrees.lawful⟩
  · show ((s.rearm id timer).timers[other]?).map TimerEntry.arming = _
    rw [getElem?_rearm htimer, record, hlog, timerArmed, agrees.armed other]
  · show (s.rearm id timer).stored other + _ ≤ _
    rw [hstored, record, hlog]
    exact agrees.awaited other
  · rw [record, hlog]
    show ∀ other arming, _ → other < (s.rearm id timer).nextTimerId
    rw [hnext]
    exact agrees.given_cons nofun
  · rw [record, hlog] at h
    show other < (s.rearm id timer).nextTimerId
    rw [hnext]
    rcases hafter other arming h with ⟨rfl, -, -⟩ | ⟨-, h⟩
    · exact agrees.numbered other timer.arming harmed
    · exact agrees.numbered other arming h
  · rw [record, hlog] at h
    show other < (s.rearm id timer).nextTimerId
    rw [hnext]
    rcases mem_cons.mp h with rfl | h
    · exact agrees.numbered other timer.arming harmed
    · exact agrees.issued other h
  · show (s.rearm id timer).nowMs < _
    rw [record, hlog] at hmem h
    rw [hnow]
    rcases hafter other arming h with ⟨-, hinterval, rfl⟩ | ⟨hne, h⟩
    · exact lt_again harmless.1 hinterval
    · exact rearmed other ((mem_cons.mp hmem).resolve_left hne) arming h
  · rw [record, hlog]
    exact congrArg (· + 1) hfired

theorem pumpLoop_keepsPump (room fired : Nat) (s : Timers κ)
    (hroom : fired + room = maxTimersPerPump) (keeps : s.KeepsPump fired) :
    Harmless (pumpLoop script room s).log →
      (pumpLoop script room s).Agrees [] ∧
        (TimerEvent.pumpEnd (pumpLoop script room s).nowMs).Allowed (pumpLoop script room s).log := by
  induction room generalizing fired s with
  | zero =>
    intro harmless
    obtain ⟨agrees, -, hfired⟩ := keeps harmless
    exact ⟨agrees, .inr (hfired.trans hroom)⟩
  | succ room ih =>
    rw [pumpLoop]
    split
    · next hnone =>
      intro harmless
      obtain ⟨agrees, -, -⟩ := keeps harmless
      refine ⟨agrees, .inl fun id arming harmed => ?_⟩
      rw [← agrees.armed id, Option.map_eq_some_iff] at harmed
      obtain ⟨entry, hentry, rfl⟩ := harmed
      exact nextDue_none hnone hentry
    · next id timer hnext =>
      exact ih (fired + 1) _ (by omega) (calls_keepsPump _ (fire_keepsPump hnext keeps))

theorem pumpStart_keepsPump {s : Timers κ} (elapsedMs : Nat) (keeps : s.Keeps []) :
    (({ s with nowMs := saturatingAdd s.nowMs elapsedMs } : Timers κ).record .pumpStart).KeepsPump
      0 := by
  intro harmless
  have agrees := keeps harmless.2
  exact ⟨⟨⟨trivial, agrees.lawful⟩, agrees.armed, agrees.awaited, (fun _ h => nomatch h),
    agrees.given_cons nofun, agrees.numbered, fun _ h => nomatch h⟩, (fun _ h => nomatch h), rfl⟩

theorem pumpTimers_keeps (elapsedMs : Nat) {s : Timers κ}
    (keeps : s.Keeps []) : (s.pumpTimers script elapsedMs).Keeps [] := by
  intro harmless
  obtain ⟨agrees, hallowed⟩ := pumpLoop_keepsPump script maxTimersPerPump 0 _ (Nat.zero_add _)
    (pumpStart_keepsPump elapsedMs keeps) harmless.2
  exact ⟨⟨hallowed, agrees.lawful⟩, agrees.armed, agrees.awaited, (fun _ h => nomatch h),
    agrees.given_cons nofun, agrees.numbered, agrees.issued⟩

/-! ## Runs -/

theorem turn_keeps (turn : TimerTurn κ) {s : Timers κ} (keeps : s.Keeps []) :
    (s.turn script turn).Keeps [] := by
  cases turn with
  | script list => exact calls_keeps list keeps
  | drainAnimationFrames => exact drainAnimationFrames_keeps script keeps
  | pumpTimers elapsedMs => exact pumpTimers_keeps script elapsedMs keeps

theorem new_keeps : (new : Timers κ).Keeps [] := fun _ =>
  ⟨trivial, fun _ => rfl, fun _ => Nat.le_refl 0, (fun _ h => nomatch h), (fun _ _ h => nomatch h),
    (fun _ _ h => nomatch h), fun _ h => nomatch h⟩

theorem run_keeps (turns : List (TimerTurn κ)) : (run script turns).Keeps [] := by
  have hfold : ∀ s : Timers κ, s.Keeps [] → (turns.foldl (turn script) s).Keeps [] := by
    induction turns with
    | nil => exact fun s keeps => keeps
    | cons t turns ih => exact fun s keeps => ih _ (turn_keeps script t keeps)
  exact hfold new new_keeps

/-- In a run in which no interval is due again at the moment it fires and no drain is told
to cancel a callback of its own batch, script can rely on its timers and frames. -/
theorem timers_reliable (script : Script κ) (turns : List (TimerTurn κ))
    (harmless : Harmless (run script turns).log) : Reliable (run script turns).log :=
  (run_keeps script turns harmless).lawful.reliable

/-- An interval of 10 ms and a frame callback that requests the next frame. -/
theorem timers_reliable_ticking :
    Reliable (run (fun frame _ => if frame then [TimerCall.requestAnimationFrame true] else [])
      [.script [.setTimer false 10 true, .requestAnimationFrame true],
        .drainAnimationFrames, .pumpTimers 30, .drainAnimationFrames, .pumpTimers 30]).log :=
  timers_reliable _ _ (by decide)

/-- An interval without delay fires again and again in one pump and holds up the timeout set
after it; a drain runs a callback that the one before it has cancelled. -/
theorem timers_held_up :
    ¬ Reliable (run (fun _ _ => ([] : List (TimerCall Unit)))
      [.script [.setTimer () 0 true, .setTimer () 0 false], .pumpTimers 0]).log ∧
    ¬ Reliable (run (fun cancels _ => if cancels then [TimerCall.cancelAnimationFrame 1] else [])
      [.script [.requestAnimationFrame true, .requestAnimationFrame false],
        .drainAnimationFrames]).log := by
  constructor
  · intro reliable
    have hlog : (run (fun _ _ => ([] : List (TimerCall Unit)))
        [.script [.setTimer () 0 true, .setTimer () 0 false], .pumpTimers 0]).log.take 3 =
          [.pumpEnd 0, .fire 0 ⟨0, 0, true⟩ 0, .fire 0 ⟨0, 0, true⟩ 0] := by decide
    have lawful := reliable.lawful
    rw [← take_append_drop 3 (run _ _).log, hlog] at lawful
    exact lawful.2.1.2.2.1 mem_cons_self
  · intro reliable
    have hcount := reliable.frameCancelled [.drainEnd, .frame 1]
      [.frame 0, .drainStart, .requestFrame 1, .requestFrame 0] 1 (by decide)
    exact absurd hcount (by decide)

end Timers

end GhitaBrowser.Page
