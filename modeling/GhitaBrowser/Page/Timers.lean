import GhitaBrowser.Lib.OrdMap
import Mathlib.Data.List.MinMax
import Mathlib.Data.Prod.Lex

/-!
# Timers and animation frames

The timer table and the animation frame callbacks of a page, the host calls that edit
them and the two pumps. What a callback does to the tables is a list of host calls; a
`Script` gives it for every callback and every state the page can be in, its history
included, so a run with an arbitrary script is an arbitrary run.

`log` records, newest first, what happened. The tables never read it.
-/

namespace GhitaBrowser.Page

def maxTimerDelayMs : Nat := 60000
def maxActiveTimers : Nat := 256
def maxTimersPerPump : Nat := 64
def maxFrameCallbacks : Nat := 1024
def maxFramesPerPump : Nat := 256
def maxU64 : Nat := 2 ^ 64 - 1

def saturatingAdd (a b : Nat) : Nat := min (a + b) maxU64

/-- When a timer is due, and how it repeats. -/
structure Arming where
  dueMs : Nat
  delayMs : Nat
  interval : Bool
deriving DecidableEq

/-- How an interval is armed when it fires. -/
def Arming.again (arming : Arming) (now : Nat) : Arming :=
  { arming with dueMs := saturatingAdd now arming.delayMs }

structure TimerEntry (κ : Type) where
  callback : κ
  arming : Arming

inductive TimerEvent where
  | setTimer (id : Nat) (arming : Arming)
  | clearTimer (id : Nat)
  | requestFrame (id : Nat)
  | cancelFrame (id : Nat)
  | drainStart
  | frame (id : Nat)
  | drainEnd
  | pumpStart
  | fire (id : Nat) (arming : Arming) (now : Nat)
  | pumpEnd (now : Nat)
deriving DecidableEq

/-- The part of `PageRuntimeState` the timers live in. -/
structure Timers (κ : Type) where
  timers : IdMap (TimerEntry κ)
  nextTimerId : Nat
  nowMs : Nat
  animationFrameCallbacks : IdMap κ
  nextRafId : Nat
  log : List TimerEvent

/-- The host calls that edit the tables, with their arguments checked and converted. -/
inductive TimerCall (κ : Type) where
  | setTimer (callback : κ) (delayMs : Nat) (interval : Bool)
  | clearTimer (id : Nat)
  | requestAnimationFrame (callback : κ)
  | cancelAnimationFrame (id : Nat)

namespace Timers

variable {κ : Type}

def new : Timers κ where
  timers := ∅
  nextTimerId := 0
  nowMs := 0
  animationFrameCallbacks := ∅
  nextRafId := 0
  log := []

def record (event : TimerEvent) (s : Timers κ) : Timers κ := { s with log := event :: s.log }

/-! ## Host calls -/

def setTimer (callback : κ) (delayMs : Nat) (interval : Bool) (s : Timers κ) : Timers κ :=
  if s.timers.size ≥ maxActiveTimers then s
  else if s.nextTimerId + 1 > maxU64 then s
  else
    let delay := min delayMs maxTimerDelayMs
    let arming : Arming := ⟨saturatingAdd s.nowMs delay, delay, interval⟩
    { s with
      nextTimerId := s.nextTimerId + 1
      timers := s.timers.insert s.nextTimerId ⟨callback, arming⟩ }.record
        (.setTimer s.nextTimerId arming)

def clearTimer (id : Nat) (s : Timers κ) : Timers κ :=
  { s with timers := s.timers.erase id }.record (.clearTimer id)

def requestAnimationFrame (callback : κ) (s : Timers κ) : Timers κ :=
  if s.animationFrameCallbacks.size ≥ maxFrameCallbacks then s
  else
    { s with
      nextRafId := (s.nextRafId + 1) % 2 ^ 64
      animationFrameCallbacks := s.animationFrameCallbacks.insert s.nextRafId callback }.record
        (.requestFrame s.nextRafId)

def cancelAnimationFrame (id : Nat) (s : Timers κ) : Timers κ :=
  { s with animationFrameCallbacks := s.animationFrameCallbacks.erase id }.record (.cancelFrame id)

def call (s : Timers κ) : TimerCall κ → Timers κ
  | .setTimer callback delayMs interval => s.setTimer callback delayMs interval
  | .clearTimer id => s.clearTimer id
  | .requestAnimationFrame callback => s.requestAnimationFrame callback
  | .cancelAnimationFrame id => s.cancelAnimationFrame id

def calls (s : Timers κ) (list : List (TimerCall κ)) : Timers κ := list.foldl call s

end Timers

/-- The host calls a callback makes in a state. -/
abbrev Script (κ : Type) := κ → Timers κ → List (TimerCall κ)

namespace Timers

variable {κ : Type}

/-- `invoke_callback`. -/
def invoke (script : Script κ) (callback : κ) (s : Timers κ) : Timers κ :=
  s.calls (script callback s)

/-! ## Pumps -/

/-- The loop of `drain_animation_frames`. -/
def drainLoop (script : Script κ) : Nat → List (Nat × κ) → Timers κ → Timers κ
  | _, [], s => s
  | executed, (id, callback) :: callbacks, s =>
    if executed ≥ maxFramesPerPump then
      drainLoop script executed callbacks
        { s with animationFrameCallbacks := s.animationFrameCallbacks.insert id callback }
    else
      drainLoop script (executed + 1) callbacks ((s.record (.frame id)).invoke script callback)

def drainAnimationFrames (script : Script κ) (s : Timers κ) : Timers κ :=
  let callbacks := s.animationFrameCallbacks.toList
  let s := { s with animationFrameCallbacks := ∅ }.record .drainStart
  (drainLoop script 0 callbacks s).record .drainEnd

/-- The due timer with the least due time and, among these, the least id. -/
def nextDue (s : Timers κ) : Option (Nat × TimerEntry κ) :=
  (s.timers.toList.filter fun entry => entry.2.arming.dueMs ≤ s.nowMs).argmin fun entry =>
    toLex (entry.2.arming.dueMs, entry.1)

/-- Take a due timer out of the table, or arm it again. -/
def rearm (id : Nat) (timer : TimerEntry κ) (s : Timers κ) : Timers κ :=
  if timer.arming.interval then
    { s with timers := s.timers.modify id fun entry =>
        { entry with arming := entry.arming.again s.nowMs } }
  else { s with timers := s.timers.erase id }

/-- The loop of `pump_timers` with `room` timers before the limit. -/
def pumpLoop (script : Script κ) : Nat → Timers κ → Timers κ
  | 0, s => s
  | room + 1, s =>
    match s.nextDue with
    | none => s
    | some (id, timer) =>
      pumpLoop script room
        (((s.rearm id timer).record (.fire id timer.arming s.nowMs)).invoke script timer.callback)

/-- `pump_timers` up to its flush, which is a script turn of its own. -/
def pumpTimers (script : Script κ) (elapsedMs : Nat) (s : Timers κ) : Timers κ :=
  let s := { s with nowMs := saturatingAdd s.nowMs elapsedMs }.record .pumpStart
  let s := pumpLoop script maxTimersPerPump s
  s.record (.pumpEnd s.nowMs)

/-! ## Runs -/

end Timers

/-- A script turn or an event dispatch with the calls it makes, or a pump. -/
inductive TimerTurn (κ : Type) where
  | script (calls : List (TimerCall κ))
  | drainAnimationFrames
  | pumpTimers (elapsedMs : Nat)

namespace Timers

variable {κ : Type}

def turn (script : Script κ) (s : Timers κ) : TimerTurn κ → Timers κ
  | .script list => s.calls list
  | .drainAnimationFrames => s.drainAnimationFrames script
  | .pumpTimers elapsedMs => s.pumpTimers script elapsedMs

def run (script : Script κ) (turns : List (TimerTurn κ)) : Timers κ :=
  turns.foldl (turn script) new

end Timers

/-! ## What timers promise -/

/-- How a timer is armed after a history, newest event first. -/
def timerArmed : List TimerEvent → Nat → Option Arming
  | [], _ => none
  | .setTimer other arming :: past, id => if id = other then some arming else timerArmed past id
  | .clearTimer other :: past, id => if id = other then none else timerArmed past id
  | .fire other arming now :: past, id =>
    if id = other then
      if arming.interval then some (arming.again now) else none
    else timerArmed past id
  | _ :: past, id => timerArmed past id

/-- How often an animation frame was requested and neither cancelled nor run since. -/
def framesAwaited : List TimerEvent → Nat → Nat
  | [], _ => 0
  | .requestFrame other :: past, id => framesAwaited past id + if id = other then 1 else 0
  | .cancelFrame other :: past, id => if id = other then 0 else framesAwaited past id
  | .frame other :: past, id => framesAwaited past id - if id = other then 1 else 0
  | _ :: past, id => framesAwaited past id

/-- The timers that have fired since the pump started, latest first. -/
def firedInPump : List TimerEvent → List Nat
  | [] => []
  | .pumpStart :: _ => []
  | .fire id _ _ :: past => id :: firedInPump past
  | _ :: past => firedInPump past

/-- Whether the callback is one of those that a running drain has still to run. -/
def awaitsDrain : List TimerEvent → Nat → Bool
  | [], _ => false
  | .drainStart :: past, id => framesAwaited past id > 0
  | .drainEnd :: _, _ => false
  | .frame other :: past, id => id != other && awaitsDrain past id
  | _ :: past, id => awaitsDrain past id

/-- The event is in order after this history: a timer has a new id, a callback runs only
when it is armed or awaited, a timer runs when it is due and before the due timers with a
later due time or id, once in a pump, and a pump that leaves a due timer has run 64
others. -/
def TimerEvent.Allowed (past : List TimerEvent) : TimerEvent → Prop
  | setTimer id _ => ∀ arming : Arming, setTimer id arming ∉ past
  | frame id => 0 < framesAwaited past id
  | fire id arming now =>
    timerArmed past id = some arming ∧ arming.dueMs ≤ now ∧ id ∉ firedInPump past ∧
      ∀ (other : Nat) (due : Arming), timerArmed past other = some due → due.dueMs ≤ now →
        toLex (arming.dueMs, id) ≤ toLex (due.dueMs, other)
  | pumpEnd now =>
    (∀ (id : Nat) (arming : Arming), timerArmed past id = some arming → now < arming.dueMs) ∨
      (firedInPump past).length = maxTimersPerPump
  | _ => True

def Lawful : List TimerEvent → Prop
  | [] => True
  | event :: past => event.Allowed past ∧ Lawful past

def TimerEvent.fires (id : Nat) : TimerEvent → Bool
  | fire other _ _ => other == id
  | _ => false

/-- What script relies on, in terms of the calls and the callbacks of a whole history. -/
structure Reliable (log : List TimerEvent) : Prop where
  lawful : Lawful log
  timeoutOnce : ∀ (id : Nat) (arming : Arming), .setTimer id arming ∈ log →
    arming.interval = false → log.countP (TimerEvent.fires id) ≤ 1
  timerCleared : ∀ (later past : List TimerEvent) (id : Nat) (arming : Arming),
    log = later ++ .clearTimer id :: past → .setTimer id arming ∈ past →
      later.countP (TimerEvent.fires id) = 0
  frameOnce : ∀ id : Nat, log.count (.frame id) ≤ log.count (.requestFrame id)
  frameCancelled : ∀ (later past : List TimerEvent) (id : Nat),
    log = later ++ .cancelFrame id :: past → later.count (.frame id) ≤ later.count (.requestFrame id)

/-- An interval that fires is due again later than now, and no drain is told to cancel a
callback it has still to run. -/
def TimerEvent.Harmless (past : List TimerEvent) : TimerEvent → Prop
  | fire _ arming now => arming.interval → 0 < arming.delayMs ∧ now < maxU64
  | cancelFrame id => awaitsDrain past id = false
  | _ => True

def Harmless : List TimerEvent → Prop
  | [] => True
  | event :: past => event.Harmless past ∧ Harmless past

instance TimerEvent.decidableHarmless (past : List TimerEvent) :
    (event : TimerEvent) → Decidable (event.Harmless past)
  | fire _ arming now =>
    inferInstanceAs (Decidable (arming.interval → 0 < arming.delayMs ∧ now < maxU64))
  | cancelFrame id => inferInstanceAs (Decidable (awaitsDrain past id = false))
  | setTimer _ _ | clearTimer _ | requestFrame _ | drainStart | frame _ | drainEnd | pumpStart
  | pumpEnd _ => isTrue trivial

instance decidableHarmless : (log : List TimerEvent) → Decidable (Harmless log)
  | [] => isTrue trivial
  | event :: past => @instDecidableAnd _ _ (event.decidableHarmless past) (decidableHarmless past)

end GhitaBrowser.Page
