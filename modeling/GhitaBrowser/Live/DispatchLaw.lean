import GhitaBrowser.Lib.Propagation
import GhitaBrowser.Live.Interaction
import GhitaBrowser.Page.EventRuns

/-!
# The order of a native dispatch

Capture listeners from the root down, the listeners of the target, bubble listeners up to
the root. The dispatch keeps this order and honours the stop methods unless a listener
stops the event on the way down, or the target has capture listeners that come after
others or halt the event before others.
-/

namespace GhitaBrowser.Live

open Dom Page List

variable {κ σ ς : Type}

/-! ## The plan -/

namespace Invocation

def Stops (i : Invocation κ) : Prop :=
  .stopPropagation ∈ i.calls ∨ .stopImmediatePropagation ∈ i.calls

def Halts (i : Invocation κ) : Prop := .stopImmediatePropagation ∈ i.calls

end Invocation

/-- A place is a node with a phase: the way down, the target or the way up. -/
def propagation (κ : Type) : Propagation (Turn κ) (Invocation κ) (NodeId × EventPhase) where
  turn := Invocation.turn
  place t := (t.node, t.phase)
  Stops := Invocation.Stops
  Halts := Invocation.Halts

namespace ListenerTable

/-- The turns of one pass over a node. -/
def turns (table : ListenerTable κ) (eventType : String) (phase : EventPhase) (capture : Bool)
    (node : NodeId) : List (Turn κ) :=
  (table.due node eventType capture).map (Turn.mk node phase)

/-- The listeners of the target in registration order, capture or not. -/
def targetListeners (table : ListenerTable κ) (eventType : String) (target : NodeId) :
    List (EventListener κ) :=
  (table.listeners target).filter fun l => l.eventType == eventType

end ListenerTable

structure DomEvent.Fresh (event : DomEvent) : Prop where
  currentTarget : event.currentTarget = none
  phase : event.phase = .none
  going : event.propagationStopped = false
  going' : event.immediatePropagationStopped = false

namespace EventDocument

/-- The nodes above the target, from its parent up. -/
def ancestors (document : EventDocument κ σ ς) (target : NodeId) : List NodeId :=
  ((eventPath document.toLiveDocument maxEventPath target).getD []).drop 1

/-- The capture listeners above the target, from the root down. -/
def wayDown (document : EventDocument κ σ ς) (eventType : String) (target : NodeId) :
    List (Turn κ) :=
  (document.ancestors target).reverse.flatMap
    (document.listeners.turns eventType .capturing true)

/-- The bubble listeners above the target, from its parent up. -/
def wayUp (document : EventDocument κ σ ς) (eventType : String) (target : NodeId) :
    List (Turn κ) :=
  (document.ancestors target).flatMap (document.listeners.turns eventType .bubbling false)

/-- Every listener that an event has to reach, in order. -/
def plan (document : EventDocument κ σ ς) (event : DomEvent) (target : NodeId) : List (Turn κ) :=
  document.wayDown event.eventType target ++
    ((document.listeners.targetListeners event.eventType target).map (Turn.mk target .atTarget) ++
      if event.bubbles then document.wayUp event.eventType target else [])

/-- The event is not dispatched at all. -/
def Refuses (document : EventDocument κ σ ς) (event : DomEvent) (target : NodeId) : Prop :=
  document.nodes.contains target = false ∨ event.target ≠ target ∨
    eventPath document.toLiveDocument maxEventPath target = none

end EventDocument

structure Dispatched.Lawful (dispatched : Dispatched κ σ ς) (document : EventDocument κ σ ς)
    (event : DomEvent) (target : NodeId) : Prop where
  inOrder : ∀ report, dispatched.result = .ok report →
    (propagation κ).InOrder (document.plan event target) dispatched.log
  refused : ∀ failure, dispatched.result = .error failure → dispatched.log = []
  currentTarget : dispatched.event.currentTarget = none
  phase : dispatched.event.phase = .none

/-! ## One turn -/

namespace DomEvent

theorem foldl_perform (calls : List EventCall) (event : DomEvent) :
    calls.foldl perform event =
      { event with
        defaultPrevented := (calls.foldl perform event).defaultPrevented
        propagationStopped := event.propagationStopped ||
          decide (EventCall.stopPropagation ∈ calls ∨ EventCall.stopImmediatePropagation ∈ calls)
        immediatePropagationStopped := event.immediatePropagationStopped ||
          decide (EventCall.stopImmediatePropagation ∈ calls) } := by
  induction calls generalizing event with
  | nil => simp
  | cons first rest ih =>
    rw [foldl_cons, ih]
    cases first with
    | preventDefault =>
      simp only [perform]
      split <;> simp
    | stopPropagation => simp [perform]
    | stopImmediatePropagation => simp [perform]

end DomEvent

variable {list : List (EventListener κ)}

namespace Dispatch

variable (call : Callbacks κ σ)

/-- The entry of a turn in the log. -/
def entry (turn : Turn κ) (d : Dispatch κ σ) : Invocation κ where
  turn := turn
  calls := (call turn.listener.callback
    { d.event with
      currentTarget := some turn.node
      phase := turn.phase
      passiveListener := turn.listener.options.passive } d.world).1

variable {call} (turn : Turn κ) (d : Dispatch κ σ)

@[simp] theorem callListener_log :
    (d.callListener call turn).log = d.log ++ [d.entry call turn] := rfl

@[simp] theorem callListener_eventType :
    (d.callListener call turn).event.eventType = d.event.eventType := by
  simp only [callListener]
  rw [DomEvent.foldl_perform]

@[simp] theorem callListener_bubbles :
    (d.callListener call turn).event.bubbles = d.event.bubbles := by
  simp only [callListener]
  rw [DomEvent.foldl_perform]

@[simp] theorem callListener_currentTarget :
    (d.callListener call turn).event.currentTarget = some turn.node := by
  simp only [callListener]
  rw [DomEvent.foldl_perform]

theorem callListener_stopped :
    (d.callListener call turn).event.propagationStopped = true ↔
      d.event.propagationStopped = true ∨ (d.entry call turn).Stops := by
  simp only [callListener]
  rw [DomEvent.foldl_perform]
  simp only [Bool.or_eq_true, decide_eq_true_eq, Invocation.Stops, entry]

theorem callListener_halted :
    (d.callListener call turn).event.immediatePropagationStopped = true ↔
      d.event.immediatePropagationStopped = true ∨ (d.entry call turn).Halts := by
  simp only [callListener]
  rw [DomEvent.foldl_perform]
  simp only [Bool.or_eq_true, decide_eq_true_eq, Invocation.Halts, entry]

/-! ## Turns one after the other -/

/-- What turns add to a dispatch. -/
structure Grows (d d' : Dispatch κ σ) (log : List (Invocation κ)) : Prop where
  log_eq : d'.log = d.log ++ log
  eventType : d'.event.eventType = d.event.eventType
  bubbles : d'.event.bubbles = d.event.bubbles
  stopped : d'.event.propagationStopped = true ↔
    d.event.propagationStopped = true ∨ ∃ i ∈ log, i.Stops

theorem Grows.refl (d : Dispatch κ σ) : Grows d d [] := by
  refine ⟨(append_nil _).symm, rfl, rfl, ?_⟩
  simp

theorem Grows.trans {d d' d'' : Dispatch κ σ} {log log' : List (Invocation κ)}
    (h : Grows d d' log) (h' : Grows d' d'' log') : Grows d d'' (log ++ log') where
  log_eq := by rw [h'.log_eq, h.log_eq, append_assoc]
  eventType := h'.eventType.trans h.eventType
  bubbles := h'.bubbles.trans h.bubbles
  stopped := by simp only [h'.stopped, h.stopped, mem_append, or_and_right, exists_or, or_assoc]

theorem Grows.going {d d' : Dispatch κ σ} {log : List (Invocation κ)} (h : Grows d d' log)
    (hgoing : d'.event.propagationStopped = false) : ∀ i ∈ log, ¬ i.Stops := by
  intro i hi hstops
  rw [h.stopped.mpr (.inr ⟨i, hi, hstops⟩)] at hgoing
  cases hgoing

theorem callListener_grows : Grows d (d.callListener call turn) [d.entry call turn] where
  log_eq := callListener_log turn d
  eventType := callListener_eventType turn d
  bubbles := callListener_bubbles turn d
  stopped := by simp [callListener_stopped]

theorem stops_of_halts {i : Invocation κ} (h : i.Halts) : i.Stops := .inr h

variable (call) in
/-- The turns one after the other, whatever the callbacks call. -/
def callAll : List (Turn κ) → Dispatch κ σ → Dispatch κ σ
  | [], d => d
  | turn :: rest, d => callAll rest (d.callListener call turn)

theorem callAll_append (first second : List (Turn κ)) (d : Dispatch κ σ) :
    callAll call (first ++ second) d = callAll call second (callAll call first d) := by
  induction first generalizing d with
  | nil => rfl
  | cons turn rest ih => exact ih _

theorem callAll_withListeners (turns : List (Turn κ)) (d : Dispatch κ σ) (table : ListenerTable κ) :
    callAll call turns { d with listeners := table } =
      { callAll call turns d with listeners := table } := by
  induction turns generalizing d with
  | nil => rfl
  | cons turn rest ih => exact ih (d.callListener call turn)

variable (call) in
theorem callAll_grows (turns : List (Turn κ)) (d : Dispatch κ σ) :
    ∃ log, log.map Invocation.turn = turns ∧ Grows d (callAll call turns d) log ∧
      ((callAll call turns d).event.immediatePropagationStopped = true ↔
        d.event.immediatePropagationStopped = true ∨ ∃ i ∈ log, i.Halts) := by
  induction turns generalizing d with
  | nil => exact ⟨[], rfl, .refl d, by simp [callAll]⟩
  | cons turn rest ih =>
    obtain ⟨log, hturns, hgrows, hhalted⟩ := ih (d.callListener call turn)
    refine ⟨d.entry call turn :: log, ?_, (callListener_grows turn d).trans hgrows, ?_⟩
    · rw [map_cons, hturns]
      rfl
    · simp only [callAll, hhalted, callListener_halted, mem_cons, exists_eq_or_imp, or_assoc]

variable {turns : List (Turn κ)}

variable {d : Dispatch κ σ}

theorem unhalted_of_callAll (h : (callAll call turns d).event.immediatePropagationStopped = false) :
    d.event.immediatePropagationStopped = false := by
  obtain ⟨log, -, -, hhalted⟩ := callAll_grows call turns d
  rw [← Bool.not_eq_true] at h ⊢
  exact fun hd => h (hhalted.mpr (.inl hd))

theorem going_of_callAll (h : (callAll call turns d).event.propagationStopped = false) :
    d.event.propagationStopped = false := by
  obtain ⟨log, -, hgrows, -⟩ := callAll_grows call turns d
  rw [← Bool.not_eq_true] at h ⊢
  exact fun hd => h (hgrows.stopped.mpr (.inl hd))

theorem unhalted_of_going (hd : d.event.immediatePropagationStopped = false)
    (h : (callAll call turns d).event.propagationStopped = false) :
    (callAll call turns d).event.immediatePropagationStopped = false := by
  obtain ⟨log, -, hgrows, hhalted⟩ := callAll_grows call turns d
  rw [← Bool.not_eq_true, hhalted]
  rintro (hd' | ⟨i, hi, hi'⟩)
  · rw [hd] at hd'
    cases hd'
  · exact hgrows.going h i hi (stops_of_halts hi')

/-! ## One pass over a node -/

section Pass

variable {node : NodeId} {phase : EventPhase}

@[simp] theorem listenerLoop_listeners (list : List (EventListener κ)) (removeOnce : List Nat)
    (d : Dispatch κ σ) :
    (listenerLoop call node phase list removeOnce d).2.listeners = d.listeners := by
  induction list generalizing removeOnce d with
  | nil => rfl
  | cons l rest ih =>
    simp only [listenerLoop]
    split
    · rfl
    · exact ih _ _

theorem mem_listenerLoop {removeOnce : List Nat}
    {id : Nat} (h : id ∈ (listenerLoop call node phase list removeOnce d).1) :
    id ∈ removeOnce ∨ id ∈ list.map EventListener.id := by
  induction list generalizing removeOnce d with
  | nil => exact .inl h
  | cons l rest ih =>
    have hhead (h : id ∈ if l.options.once then l.id :: removeOnce else removeOnce) :
        id ∈ removeOnce ∨ id ∈ (l :: rest).map EventListener.id := by
      split at h
      · rcases mem_cons.mp h with rfl | h
        · exact .inr mem_cons_self
        · exact .inl h
      · exact .inl h
    simp only [listenerLoop] at h
    split at h
    · exact hhead h
    · rcases ih h with h | h
      · exact hhead h
      · exact .inr (mem_cons_of_mem _ h)

/-- A loop in which nothing halts takes all turns. -/
theorem listenerLoop_quiet (removeOnce : List Nat)
    (h : (callAll call (list.map (Turn.mk node phase)) d).event.immediatePropagationStopped = false)
    :
    (listenerLoop call node phase list removeOnce d).2 =
      callAll call (list.map (Turn.mk node phase)) d := by
  induction list generalizing removeOnce d with
  | nil => rfl
  | cons l rest ih =>
    have hfirst : (d.callListener call ⟨node, phase, l⟩).event.immediatePropagationStopped = false :=
      unhalted_of_callAll h
    simp only [listenerLoop, hfirst, Bool.false_eq_true, if_false]
    exact ih _ h

variable (call node phase) in
/-- A loop takes turns until one of them halts. -/
theorem listenerLoop_grows (list : List (EventListener κ)) (removeOnce : List Nat)
    (hd : d.event.immediatePropagationStopped = false) :
    ∃ log, Grows d (listenerLoop call node phase list removeOnce d).2 log ∧
      (propagation κ).Segment (list.map (Turn.mk node phase)) log ∧
      ((∃ i ∈ log, i.Halts) ↔ (callAll call (list.map (Turn.mk node phase))
        d).event.immediatePropagationStopped = true) := by
  induction list generalizing removeOnce d with
  | nil =>
    refine ⟨[], .refl d, .nil, iff_of_false (fun ⟨_, hi, _⟩ => nomatch hi) ?_⟩
    rw [map_nil, callAll, hd]
    exact Bool.false_ne_true
  | cons l rest ih =>
    have hfirst : (d.callListener call ⟨node, phase, l⟩).event.immediatePropagationStopped = true ↔ _ :=
      callListener_halted _ d
    simp only [hd, Bool.false_eq_true, false_or] at hfirst
    simp only [listenerLoop]
    split
    · next hhalted =>
      have hhalts : (propagation κ).Halts (d.entry call ⟨node, phase, l⟩) := hfirst.mp hhalted
      refine ⟨_, callListener_grows _ d, Propagation.Segment.halt hhalts (rest.map _),
        iff_of_true ⟨_, mem_singleton_self _, hhalts⟩ ?_⟩
      refine Bool.of_not_eq_false fun h => ?_
      have hgoing : (d.callListener call ⟨node, phase, l⟩).event.immediatePropagationStopped =
          false := unhalted_of_callAll h
      rw [hgoing] at hhalted
      cases hhalted
    · next hgoing =>
      have hnot : ¬ (propagation κ).Halts (d.entry call ⟨node, phase, l⟩) := mt hfirst.mpr hgoing
      obtain ⟨log, hgrows, hsegment, hhalted⟩ :=
        ih (if l.options.once then l.id :: removeOnce else removeOnce) (Bool.not_eq_true _ ▸ hgoing)
      refine ⟨_, (callListener_grows _ d).trans hgrows, hsegment.cons hnot, ?_⟩
      rw [map_cons, callAll, ← hhalted]
      simp only [singleton_append, mem_cons, exists_eq_or_imp]
      exact or_iff_right hnot

theorem listenerLoop_currentTarget (hlist : list ≠ []) (removeOnce : List Nat) (d : Dispatch κ σ) :
    (listenerLoop call node phase list removeOnce d).2.event.currentTarget = some node := by
  induction list generalizing removeOnce d with
  | nil => exact absurd rfl hlist
  | cons l rest ih =>
    simp only [listenerLoop]
    split
    · exact callListener_currentTarget _ d
    · cases rest with
      | nil => exact callListener_currentTarget _ d
      | cons next rest => exact ih (cons_ne_nil _ _) _ _

theorem listenerLoop_stopped {removeOnce : List Nat}
    (hd : d.event.immediatePropagationStopped = false)
    (h : (callAll call (list.map (Turn.mk node phase)) d).event.propagationStopped = true) :
    (listenerLoop call node phase list removeOnce d).2.event.propagationStopped = true := by
  induction list generalizing removeOnce d with
  | nil => exact h
  | cons l rest ih =>
    simp only [listenerLoop]
    split
    · next hhalted =>
      rcases (callListener_halted _ d).mp hhalted with hd' | hhalts
      · rw [hd] at hd'
        cases hd'
      · exact (callListener_stopped _ d).mpr (.inr (stops_of_halts hhalts))
    · next hgoing => exact ih (Bool.not_eq_true _ ▸ hgoing) h

end Pass

end Dispatch

/-! ## The table after a pass -/

namespace ListenerTable

theorem listeners_remove (table : ListenerTable κ) (node other : NodeId) (ids : List Nat) :
    (table.remove node ids).listeners other =
      if other = node then (table.listeners node).filter fun l => l.id ∉ ids
      else table.listeners other := by
  simp only [listeners, remove, IdMap.getElem?_modify]
  split
  · cases table.entries[node]? <;> rfl
  · rfl

theorem due_remove {table : ListenerTable κ} {node other : NodeId} {ids : List Nat}
    {eventType : String} {capture flag : Bool}
    (hids : ∀ id ∈ ids, id ∈ (table.due node eventType capture).map EventListener.id)
    (hother : other ≠ node ∨ flag ≠ capture) (eventType' : String) :
    (table.remove node ids).due other eventType' flag = table.due other eventType' flag := by
  rw [due, listeners_remove]
  split
  · next heq =>
    subst heq
    rw [due, filter_filter]
    refine filter_congr fun l hl => ?_
    rw [Bool.and_eq_left_iff_imp]
    intro hdue
    refine decide_eq_true fun hmem => ?_
    obtain ⟨l', hl', hid⟩ := mem_map.mp (hids l.id hmem)
    obtain ⟨hl', hdue'⟩ := mem_filter.mp hl'
    obtain rfl := inj_on_of_nodup_map (table.listeners_distinct other) hl' hl hid
    simp only [Bool.and_eq_true, beq_iff_eq] at hdue hdue'
    exact hother.elim (fun h => h rfl) fun h => h (hdue.2.symm.trans hdue'.2)
  · rfl

end ListenerTable

namespace Dispatch

variable {call : Callbacks κ σ} {node : NodeId} {phase : EventPhase} {capture : Bool}

theorem due_invokeListeners (d : Dispatch κ σ) {other : NodeId} {flag : Bool}
    (hother : other ≠ node ∨ flag ≠ capture) (eventType : String) :
    (d.invokeListeners call node phase capture).listeners.due other eventType flag =
      d.listeners.due other eventType flag := by
  simp only [invokeListeners, retire, listenerLoop_listeners]
  split
  · rfl
  · have hids : ∀ id ∈ (listenerLoop call node phase
        (d.listeners.due node d.event.eventType capture) [] d).1,
        id ∈ (d.listeners.due node d.event.eventType capture).map EventListener.id := by
      intro id hid
      rcases mem_listenerLoop hid with h | h
      · cases h
      · exact h
    exact ListenerTable.due_remove hids hother eventType

variable (call node phase capture) in
theorem invokeListeners_halted (d : Dispatch κ σ) :
    (d.invokeListeners call node phase capture).event.immediatePropagationStopped = false := rfl

variable {d : Dispatch κ σ}

variable (call node phase capture) in
theorem invokeListeners_grows (hd : d.event.immediatePropagationStopped = false) :
    ∃ log, Grows d (d.invokeListeners call node phase capture) log ∧
      (propagation κ).Segment (d.listeners.turns d.event.eventType phase capture node) log ∧
      ((∃ i ∈ log, i.Halts) ↔ (callAll call (d.listeners.turns d.event.eventType phase capture node)
        d).event.immediatePropagationStopped = true) := by
  obtain ⟨log, hgrows, hsegment⟩ := listenerLoop_grows call node phase
    (d.listeners.due node d.event.eventType capture) [] hd
  exact ⟨log, ⟨hgrows.log_eq, hgrows.eventType, hgrows.bubbles, hgrows.stopped⟩, hsegment⟩

theorem invokeListeners_quiet
    (h : (callAll call (d.listeners.turns d.event.eventType phase capture node)
      d).event.immediatePropagationStopped = false) :
    d.invokeListeners call node phase capture =
      { callAll call (d.listeners.turns d.event.eventType phase capture node) d with
        listeners := (d.invokeListeners call node phase capture).listeners } := by
  have hloop := listenerLoop_quiet [] h
  simp only [invokeListeners, retire]
  rw [hloop]
  have hevent : { (callAll call (d.listeners.turns d.event.eventType phase capture node) d).event with
      immediatePropagationStopped := false } =
      (callAll call (d.listeners.turns d.event.eventType phase capture node) d).event := by
    rw [← h]
  rw [ListenerTable.turns] at hevent
  rw [hevent]
  rfl

theorem invokeListeners_stopped (hd : d.event.immediatePropagationStopped = false)
    (hgoing : d.event.propagationStopped = false)
    (h : (callAll call (d.listeners.turns d.event.eventType phase capture node)
      d).event.propagationStopped = true) :
    (d.invokeListeners call node phase capture).event.propagationStopped = true ∧
      (d.invokeListeners call node phase capture).event.currentTarget = some node := by
  refine ⟨listenerLoop_stopped hd h, listenerLoop_currentTarget (fun hnil => ?_) [] d⟩
  rw [ListenerTable.turns, hnil, map_nil, callAll, hgoing] at h
  cases h

/-! ## The way down -/

variable {nodes : List NodeId}

theorem flatMap_turns_congr {table table' : ListenerTable κ} {eventType : String} {flag : Bool}
    (h : ∀ node ∈ nodes, table'.due node eventType flag = table.due node eventType flag) :
    nodes.flatMap (table'.turns eventType phase flag) =
      nodes.flatMap (table.turns eventType phase flag) := by
  refine flatMap_congr fun node hnode => ?_
  rw [ListenerTable.turns, h node hnode, ListenerTable.turns]

variable (call) in
/-- The state after turns that stop nothing, with the table of the passes. -/
structure Descended (nodes : List NodeId) (d d' : Dispatch κ σ) (turns : List (Turn κ)) : Prop where
  state : d' = { callAll call turns d with listeners := d'.listeners }
  upper : ∀ node eventType, d'.listeners.due node eventType false =
    d.listeners.due node eventType false
  lower : ∀ node ∉ nodes, ∀ eventType, d'.listeners.due node eventType true =
    d.listeners.due node eventType true

section WayDown

variable {node : NodeId} {rest : List NodeId} {d : Dispatch κ σ}

variable (call) in
theorem invokeListeners_descended
    (hd : d.event.immediatePropagationStopped = false)
    (h : (callAll call (d.listeners.turns d.event.eventType .capturing true node)
      d).event.propagationStopped = false) :
    Descended call [node] d (d.invokeListeners call node .capturing true)
      (d.listeners.turns d.event.eventType .capturing true node) where
  state := invokeListeners_quiet (unhalted_of_going hd h)
  upper _ eventType := due_invokeListeners d (.inr Bool.false_ne_true) eventType
  lower _ hother eventType :=
    due_invokeListeners d (.inl (mt mem_singleton.mpr hother)) eventType

theorem Descended.turns_eq {d' : Dispatch κ σ} {turns : List (Turn κ)}
    (h : Descended call [node] d d' turns) (hnode : node ∉ rest) :
    rest.flatMap (d'.listeners.turns d'.event.eventType .capturing true) =
      rest.flatMap (d.listeners.turns d.event.eventType .capturing true) := by
  have htype : d'.event.eventType = d.event.eventType := by
    obtain ⟨log, -, hgrows, -⟩ := callAll_grows call turns d
    rw [h.state]
    exact hgrows.eventType
  rw [htype]
  refine flatMap_turns_congr fun other hother => h.lower other ?_ _
  rintro hmem
  rw [mem_singleton.mp hmem] at hother
  exact hnode hother

theorem Descended.callAll_eq {d' : Dispatch κ σ} {turns : List (Turn κ)}
    (h : Descended call [node] d d' turns) (more : List (Turn κ)) :
    callAll call more d' = { callAll call (turns ++ more) d with listeners := d'.listeners } := by
  rw [callAll_append, ← callAll_withListeners, ← h.state]

end WayDown

theorem captureLoop_going (hnodes : nodes.Nodup)
    (hd : d.event.immediatePropagationStopped = false)
    (h : (callAll call (nodes.flatMap (d.listeners.turns d.event.eventType .capturing true))
      d).event.propagationStopped = false) :
    (captureLoop call nodes d).1 = false ∧
      Descended call nodes d (captureLoop call nodes d).2
        (nodes.flatMap (d.listeners.turns d.event.eventType .capturing true)) := by
  induction nodes generalizing d with
  | nil => exact ⟨rfl, rfl, fun _ _ => rfl, fun _ _ _ => rfl⟩
  | cons node rest ih =>
    obtain ⟨hnode, hrest⟩ := nodup_cons.mp hnodes
    rw [flatMap_cons, callAll_append] at h
    have hfirst := going_of_callAll h
    have hstep := invokeListeners_descended call hd hfirst
    have hgoing : (d.invokeListeners call node .capturing true).event.propagationStopped = false := by
      rw [hstep.state]
      exact hfirst
    rw [← callAll_append] at h
    have hturns := hstep.turns_eq hnode
    have hall := hstep.callAll_eq (rest.flatMap
      (d.listeners.turns d.event.eventType .capturing true))
    obtain ⟨hreturn, hdown⟩ := ih hrest rfl (by rw [hturns, hall]; exact h)
    rw [hturns] at hdown
    simp only [captureLoop, hgoing, Bool.false_eq_true, if_false]
    refine ⟨hreturn, ?_, fun other eventType => ?_, fun other hother eventType => ?_⟩
    · rw [hdown.state, hall, flatMap_cons]
    · exact (hdown.upper other eventType).trans (hstep.upper other eventType)
    · obtain ⟨hne, hother⟩ := not_or.mp (mt mem_cons.mpr hother)
      exact (hdown.lower other hother eventType).trans
        (hstep.lower other (mt mem_singleton.mp hne) eventType)

theorem captureLoop_stopped (hnodes : nodes.Nodup)
    (hd : d.event.immediatePropagationStopped = false)
    (hgoing : d.event.propagationStopped = false)
    (h : (callAll call (nodes.flatMap (d.listeners.turns d.event.eventType .capturing true))
      d).event.propagationStopped = true) :
    (captureLoop call nodes d).1 = true ∧
      ∃ node, (captureLoop call nodes d).2.event.currentTarget = some node := by
  induction nodes generalizing d with
  | nil =>
    rw [flatMap_nil, callAll, hgoing] at h
    cases h
  | cons node rest ih =>
    obtain ⟨hnode, hrest⟩ := nodup_cons.mp hnodes
    cases hfirst : (callAll call (d.listeners.turns d.event.eventType .capturing true node)
      d).event.propagationStopped with
    | true =>
      obtain ⟨hstopped, htarget⟩ := invokeListeners_stopped hd hgoing hfirst
      simp only [captureLoop, hstopped, if_true]
      exact ⟨trivial, node, htarget⟩
    | false =>
      have hstep := invokeListeners_descended call hd hfirst
      have hgoing' : (d.invokeListeners call node .capturing true).event.propagationStopped =
          false := by
        rw [hstep.state]
        exact hfirst
      simp only [captureLoop, hgoing', Bool.false_eq_true, if_false]
      refine ih hrest rfl hgoing' ?_
      rw [hstep.turns_eq hnode, hstep.callAll_eq]
      exact h

/-! ## The way up -/

variable (call) in
theorem bubbleLoop_inOrder (hnodes : nodes.Nodup)
    (hd : d.event.immediatePropagationStopped = false)
    (hgoing : d.event.propagationStopped = false) :
    ∃ log, (bubbleLoop call nodes d).log = d.log ++ log ∧ (propagation κ).InOrder
      (nodes.flatMap (d.listeners.turns d.event.eventType .bubbling false)) log := by
  induction nodes generalizing d with
  | nil => exact ⟨[], (append_nil _).symm, .of_quiet rfl (fun _ h => nomatch h) fun _ h => nomatch h⟩
  | cons node rest ih =>
    obtain ⟨hnode, hrest⟩ := nodup_cons.mp hnodes
    obtain ⟨log, hgrows, hsegment, -⟩ := invokeListeners_grows call node .bubbling false hd
    have hplace : ∀ t ∈ d.listeners.turns d.event.eventType .bubbling false node,
        (propagation κ).place t = (node, .bubbling) := by
      intro t ht
      obtain ⟨l, -, rfl⟩ := mem_map.mp ht
      rfl
    have hhere := hsegment.inOrder hplace
    have hturns : rest.flatMap ((d.invokeListeners call node .bubbling false).listeners.turns
        (d.invokeListeners call node .bubbling false).event.eventType .bubbling false) =
        rest.flatMap (d.listeners.turns d.event.eventType .bubbling false) := by
      rw [hgrows.eventType]
      refine flatMap_turns_congr fun other hother => due_invokeListeners d (.inl ?_) _
      rintro rfl
      exact hnode hother
    simp only [bubbleLoop, flatMap_cons]
    cases hstopped : (d.invokeListeners call node .bubbling false).event.propagationStopped with
    | true =>
      rw [if_pos rfl]
      rcases hgrows.stopped.mp hstopped with hd' | ⟨i, hi, hstops⟩
      · rw [hgoing] at hd'
        cases hd'
      · refine ⟨log, hgrows.log_eq, hhere.append_shut hi hstops fun t ht heq => ?_⟩
        obtain ⟨other, hother, ht⟩ := mem_flatMap.mp ht
        obtain ⟨l, -, rfl⟩ := mem_map.mp ht
        have hitself := hplace _ (hsegment.started.subset (mem_map_of_mem hi))
        rw [hitself] at heq
        have hsame : other = node := congrArg Prod.fst heq
        exact hnode (hsame ▸ hother)
    | false =>
      obtain ⟨more, hlog, hmore⟩ := ih hrest (d := d.invokeListeners call node .bubbling false) rfl
        hstopped
      rw [hturns] at hmore
      rw [if_neg Bool.false_ne_true]
      refine ⟨log ++ more, ?_, hhere.append hmore (hgrows.going hstopped)
        fun i hi hhalts => hgrows.going hstopped i hi (stops_of_halts hhalts)⟩
      rw [hlog, hgrows.log_eq, append_assoc]

/-! ## The target -/

/-- A list whose front, with the first of the others behind it, is a sublist, has its front
first. -/
theorem eq_filter_append {α : Type} {p : α → Bool} {list others : List α} {first : α}
    (hlist : list.Nodup) (hothers : list.filter (!p ·) = first :: others)
    (h : (list.filter p ++ [first]).Sublist list) :
    list = list.filter p ++ list.filter (!p ·) := by
  induction list with
  | nil => cases hothers
  | cons head rest ih =>
    obtain ⟨hhead, hrest⟩ := nodup_cons.mp hlist
    cases hp : p head with
    | true =>
      simp only [filter_cons, hp, if_true, Bool.not_true, Bool.false_eq_true, if_false] at hothers h ⊢
      rw [cons_append, cons_sublist_cons] at h
      rw [cons_append, ← ih hrest hothers h]
    | false =>
      simp only [filter_cons, hp, Bool.false_eq_true, if_false, Bool.not_false, if_true,
        List.cons.injEq] at hothers h ⊢
      obtain ⟨rfl, -⟩ := hothers
      cases hfront : rest.filter p with
      | nil =>
        have hall : ∀ x ∈ rest, (!p x) = true := by
          intro x hx
          rw [Bool.not_eq_true', Bool.eq_false_iff]
          exact filter_eq_nil_iff.mp hfront x hx
        rw [nil_append, filter_eq_self.mpr hall]
      | cons next front =>
        rw [hfront, cons_append] at h
        have hnext : p next = true := by
          have hmem : next ∈ rest.filter p := hfront ▸ mem_cons_self
          exact (mem_filter.mp hmem).2
        cases h with
        | cons _ h =>
          exact absurd (h.subset (mem_cons_of_mem _ (mem_append_right _
            (mem_singleton_self _)))) hhead
        | cons_cons _ _ =>
          rw [hp] at hnext
          cases hnext

theorem atTarget_eq (target : NodeId) (d : Dispatch κ σ) :
    d.atTarget call target =
      (d.invokeListeners call target .atTarget true).invokeListeners call target .atTarget false := by
  rw [atTarget, invokeListeners_halted]
  rfl

variable (call) in
theorem atTarget_grows (target : NodeId) (hd : d.event.immediatePropagationStopped = false) :
    ∃ first second, Grows d (d.atTarget call target) (first ++ second) ∧
      (propagation κ).Segment (d.listeners.turns d.event.eventType .atTarget true target) first ∧
      ((∃ i ∈ first, i.Halts) ↔ (callAll call (d.listeners.turns d.event.eventType .atTarget true target)
        d).event.immediatePropagationStopped = true) ∧
      (propagation κ).Segment (d.listeners.turns d.event.eventType .atTarget false target) second := by
  obtain ⟨first, hfirst, hsegment, hhalts⟩ := invokeListeners_grows call target .atTarget true hd
  obtain ⟨second, hsecond, hsegment', -⟩ := invokeListeners_grows call target .atTarget false
    (invokeListeners_halted call target .atTarget true d)
  rw [ListenerTable.turns, due_invokeListeners d (.inr Bool.false_ne_true), hfirst.eventType]
    at hsegment'
  rw [atTarget_eq]
  exact ⟨first, second, hfirst.trans hsecond, hsegment, hhalts, hsegment'⟩

theorem due_atTarget (target : NodeId) (d : Dispatch κ σ) {other : NodeId} (hother : other ≠ target)
    (eventType : String) (flag : Bool) :
    (d.atTarget call target).listeners.due other eventType flag =
      d.listeners.due other eventType flag := by
  rw [atTarget_eq, due_invokeListeners _ (.inl hother), due_invokeListeners _ (.inl hother)]

variable (call) in
theorem bubble_inOrder (hnodes : nodes.Nodup)
    (hd : d.event.immediatePropagationStopped = false) :
    ∃ up, (d.bubble call nodes).log = d.log ++ up ∧
      (d.event.propagationStopped = true → up = []) ∧
      (d.event.propagationStopped = false → (propagation κ).InOrder
        (if d.event.bubbles then nodes.flatMap (d.listeners.turns d.event.eventType .bubbling false)
          else []) up) := by
  have hempty : (propagation κ).InOrder [] [] :=
    .of_quiet rfl (fun _ h => nomatch h) fun _ h => nomatch h
  rw [bubble]
  cases hgoing : d.event.propagationStopped with
  | true =>
    rw [Bool.not_true, Bool.and_false, if_neg Bool.false_ne_true]
    exact ⟨[], (append_nil _).symm, fun _ => rfl, nofun⟩
  | false =>
    cases hbubbles : d.event.bubbles with
    | false => exact ⟨[], (append_nil _).symm, nofun, fun _ => hempty⟩
    | true =>
      obtain ⟨up, hup, horder⟩ := bubbleLoop_inOrder call hnodes hd hgoing
      exact ⟨up, hup, nofun, fun _ => horder⟩

end Dispatch

/-! ## The whole dispatch -/

namespace ListenerTable

theorem filter_targetListeners (table : ListenerTable κ) (eventType : String) (target : NodeId)
    (capture : Bool) :
    (table.targetListeners eventType target).filter (·.options.capture == capture) =
      table.due target eventType capture := by
  rw [targetListeners, due, filter_filter]
  exact filter_congr fun l _ => Bool.and_comm _ _

theorem targetListeners_nodup (table : ListenerTable κ) (eventType : String) (target : NodeId) :
    (table.targetListeners eventType target).Nodup :=
  (List.Nodup.of_map _ (table.listeners_distinct target)).filter _

end ListenerTable

theorem ancestry_of_eventPath {document : LiveDocument} {room : Nat} {node : NodeId}
    {path : List NodeId} (h : eventPath document room node = some path) :
    Ancestry document node path := by
  induction room generalizing node path with
  | zero => cases h
  | succ room ih =>
    rw [eventPath] at h
    split at h
    · cases h
    · next entry hentry =>
      split at h
      · next hparent =>
        cases h
        exact .root hentry hparent
      · next parent hparent =>
        obtain ⟨rest, hrest, rfl⟩ := Option.map_eq_some_iff.mp h
        exact .child hentry hparent (ih hrest)

namespace EventDocument

variable (call : Callbacks κ σ) (document : EventDocument κ σ ς) (event : DomEvent)
  (target : NodeId)

/-- The state below the root when all capture listeners above the target were called. -/
def descended : Dispatch κ σ :=
  Dispatch.callAll call (document.wayDown event.eventType target) (document.start event)

/-- The capture listeners above the target do not stop the event. At the target there are
only capture listeners, or they come first and none of them halts the event. -/
def Orderly : Prop :=
  (document.descended call event target).event.propagationStopped = false ∧
    (document.listeners.due target event.eventType false = [] ∨
      document.listeners.targetListeners event.eventType target =
          document.listeners.due target event.eventType true ++
            document.listeners.due target event.eventType false ∧
        (Dispatch.callAll call
          (document.listeners.turns event.eventType .atTarget true target)
          (document.descended call event target)).event.immediatePropagationStopped = false)

/-- The four parts of the log of a dispatch that nothing stops on the way down. -/
structure Course (log down first second up : List (Invocation κ)) : Prop where
  log_eq : log = down ++ ((first ++ second) ++ up)
  down_turns : down.map Invocation.turn = document.wayDown event.eventType target
  down_going : ∀ i ∈ down, ¬ i.Stops
  first_segment :
    (propagation κ).Segment (document.listeners.turns event.eventType .atTarget true target) first
  first_halts : (∃ i ∈ first, i.Halts) ↔ (Dispatch.callAll call
    (document.listeners.turns event.eventType .atTarget true target)
    (document.descended call event target)).event.immediatePropagationStopped = true
  second_segment :
    (propagation κ).Segment (document.listeners.turns event.eventType .atTarget false target) second
  up_going : (∀ i ∈ first ++ second, ¬ i.Stops) → (propagation κ).InOrder
    (if event.bubbles then document.wayUp event.eventType target else []) up
  up_stopped : (∃ i ∈ first ++ second, i.Stops) → up = []

variable {call document event target} {path : List NodeId}

theorem ancestors_eq (h : eventPath document.toLiveDocument maxEventPath target = some path) :
    path = target :: document.ancestors target := by
  rw [ancestors, h, Option.getD_some, drop_one]
  exact (ancestry_of_eventPath h).eq_cons

theorem nodup_ancestors (h : eventPath document.toLiveDocument maxEventPath target = some path) :
    target ∉ document.ancestors target ∧ (document.ancestors target).Nodup := by
  have hpath := (ancestry_of_eventPath h).nodup
  rw [ancestors_eq h] at hpath
  exact nodup_cons.mp hpath

theorem wayDown_path (h : eventPath document.toLiveDocument maxEventPath target = some path) :
    path.reverse.take (path.length - 1) = (document.ancestors target).reverse := by
  rw [ancestors_eq h, reverse_cons, length_cons, Nat.add_sub_cancel,
    ← length_reverse, take_left']
  rfl

theorem exists_course (hfresh : event.Fresh)
    (hpath : eventPath document.toLiveDocument maxEventPath target = some path)
    (hgoing : (document.descended call event target).event.propagationStopped = false) :
    ∃ down first second up, Course call document event target
      ((document.start event).propagate call target path).log down first second up ∧
      ((document.start event).propagate call target path).event.currentTarget = none ∧
      ((document.start event).propagate call target path).event.phase = .none := by
  obtain ⟨htarget, hnodup⟩ := nodup_ancestors hpath
  obtain ⟨hreturn, hdown⟩ := Dispatch.captureLoop_going (nodup_reverse.mpr hnodup)
    (d := document.start event) hfresh.going' hgoing
  obtain ⟨down, hturns, hgrows, -⟩ := Dispatch.callAll_grows call
    (document.wayDown event.eventType target) (document.start event)
  rw [Dispatch.propagate, wayDown_path hpath]
  generalize hstart : Dispatch.captureLoop call (document.ancestors target).reverse
    (document.start event) = descent at hreturn hdown
  obtain ⟨returned, d⟩ := descent
  cases hreturn
  have hstate : d = { document.descended call event target with listeners := d.listeners } :=
    hdown.state
  have hevent : d.event = (document.descended call event target).event := by rw [hstate]
  have hlog : d.log = down := by
    rw [hstate]
    exact hgrows.log_eq
  have htype : d.event.eventType = event.eventType := hevent ▸ hgrows.eventType
  have hbubbles : d.event.bubbles = event.bubbles := hevent ▸ hgrows.bubbles
  have hunhalted : d.event.immediatePropagationStopped = false :=
    hevent ▸ Dispatch.unhalted_of_going hfresh.going' hgoing
  have hcapture : d.listeners.turns d.event.eventType .atTarget true target =
      document.listeners.turns event.eventType .atTarget true target := by
    rw [ListenerTable.turns, htype, hdown.lower target (mt mem_reverse.mp htarget)]
    rfl
  have hothers : d.listeners.turns d.event.eventType .atTarget false target =
      document.listeners.turns event.eventType .atTarget false target := by
    rw [ListenerTable.turns, htype, hdown.upper target]
    rfl
  obtain ⟨first, second, htargetGrows, hfirst, hhalts, hsecond⟩ :=
    Dispatch.atTarget_grows call target hunhalted
  rw [hcapture] at hfirst hhalts
  rw [hothers] at hsecond
  rw [hstate, Dispatch.callAll_withListeners] at hhalts
  obtain ⟨up, hup, hstopped, hrises⟩ := Dispatch.bubble_inOrder call hnodup
    (d := d.atTarget call target) (by rw [Dispatch.atTarget_eq]; rfl)
  have hdrop : path.drop 1 = document.ancestors target := by
    rw [ancestors, hpath]
    rfl
  have hwayUp : (document.ancestors target).flatMap ((d.atTarget call target).listeners.turns
      (d.atTarget call target).event.eventType .bubbling false) =
      document.wayUp event.eventType target := by
    rw [htargetGrows.eventType, htype]
    refine Dispatch.flatMap_turns_congr fun node hnode => ?_
    have hne : node ≠ target := by
      rintro rfl
      exact htarget hnode
    exact (Dispatch.due_atTarget target d hne _ _).trans (hdown.upper node _)
  rw [hwayUp, htargetGrows.bubbles, hbubbles] at hrises
  have hgoing' : d.event.propagationStopped = false := hevent ▸ hgoing
  refine ⟨down, first, second, up, ⟨?_, hturns, hgrows.going hgoing, hfirst, hhalts, hsecond,
    fun h => hrises ?_, fun h => hstopped ?_⟩, rfl, rfl⟩
  · show (((d.atTarget call target).bubble call (path.drop 1)).log = _)
    rw [hdrop, hup, htargetGrows.log_eq, hlog, append_assoc]
  · rw [← Bool.not_eq_true, htargetGrows.stopped, hgoing']
    rintro (h' | ⟨i, hi, hstops⟩)
    · cases h'
    · exact h i hi hstops
  · exact htargetGrows.stopped.mpr (.inr h)

theorem place_wayUp {t : Turn κ}
    (ht : t ∈ if event.bubbles then document.wayUp event.eventType target else []) :
    ∃ node, (propagation κ).place t = (node, .bubbling) := by
  split at ht
  · obtain ⟨node, -, ht⟩ := mem_flatMap.mp ht
    obtain ⟨l, -, rfl⟩ := mem_map.mp ht
    exact ⟨node, rfl⟩
  · cases ht

theorem place_target :
    ∀ t ∈ list.map (Turn.mk target .atTarget), (propagation κ).place t = (target, .atTarget) := by
  intro t ht
  obtain ⟨l, -, rfl⟩ := mem_map.mp ht
  rfl

section Course

variable {log down first second up : List (Invocation κ)}

theorem Course.target_segment (course : Course call document event target log down first second up)
    (horderly : document.Orderly call event target) :
    (propagation κ).Segment ((document.listeners.targetListeners event.eventType target).map
      (Turn.mk target .atTarget)) (first ++ second) := by
  rcases horderly.2 with hnone | ⟨hlist, hunhalted⟩
  · have hsecond : second = [] := by
      have hstarted := course.second_segment.started
      rw [ListenerTable.turns, hnone, map_nil, prefix_nil] at hstarted
      exact map_eq_nil_iff.mp hstarted
    have hall : document.listeners.targetListeners event.eventType target =
        document.listeners.due target event.eventType true := by
      rw [← ListenerTable.filter_targetListeners, filter_eq_nil_iff] at hnone
      rw [← ListenerTable.filter_targetListeners, filter_eq_self.mpr]
      intro l hl
      have hcapture := hnone l hl
      cases hflag : l.options.capture with
      | true => rfl
      | false =>
        rw [hflag] at hcapture
        exact absurd rfl hcapture
    rw [hsecond, append_nil, hall]
    exact course.first_segment
  · rw [hlist, map_append]
    refine course.first_segment.append course.second_segment fun i hi hhalts => ?_
    rw [course.first_halts.mp ⟨i, hi, hhalts⟩] at hunhalted
    cases hunhalted

theorem Course.inOrder (course : Course call document event target log down first second up)
    (horderly : document.Orderly call event target) :
    (propagation κ).InOrder (document.plan event target) log := by
  have htarget := (course.target_segment horderly).inOrder place_target
  have hdown : (propagation κ).InOrder (document.wayDown event.eventType target) down :=
    .of_quiet course.down_turns course.down_going fun i hi hhalts =>
      course.down_going i hi (Dispatch.stops_of_halts hhalts)
  rw [plan, course.log_eq]
  refine hdown.append ?_ course.down_going fun i hi hhalts =>
    course.down_going i hi (Dispatch.stops_of_halts hhalts)
  by_cases hstopped : ∃ i ∈ first ++ second, i.Stops
  · rw [course.up_stopped hstopped, append_nil]
    obtain ⟨i, hi, hstops⟩ := hstopped
    refine htarget.append_shut hi hstops fun t ht heq => ?_
    obtain ⟨node, hnode⟩ := place_wayUp ht
    have hplace := place_target _ ((course.target_segment horderly).started.subset
      (mem_map_of_mem hi))
    rw [hnode, hplace] at heq
    cases heq
  · have hgoing : ∀ i ∈ first ++ second, ¬ i.Stops := fun i hi hstops => hstopped ⟨i, hi, hstops⟩
    exact htarget.append (course.up_going hgoing) hgoing fun i hi hhalts =>
      hgoing i hi (Dispatch.stops_of_halts hhalts)

theorem filter_plan :
    (document.plan event target).filter (fun t => decide (t.phase = .atTarget)) =
      (document.listeners.targetListeners event.eventType target).map (Turn.mk target .atTarget) := by
  have hdown : (document.wayDown event.eventType target).filter
      (fun t => decide (t.phase = .atTarget)) = [] := by
    refine filter_eq_nil_iff.mpr fun t ht => ?_
    obtain ⟨node, -, ht⟩ := mem_flatMap.mp ht
    obtain ⟨l, -, rfl⟩ := mem_map.mp ht
    simp
  have hup : (if event.bubbles then document.wayUp event.eventType target else []).filter
      (fun t => decide (t.phase = .atTarget)) = [] := by
    refine filter_eq_nil_iff.mpr fun t ht => ?_
    obtain ⟨node, hnode⟩ := place_wayUp ht
    have hphase : t.phase = .bubbling := congrArg Prod.snd hnode
    simp [hphase]
  have htarget : ((document.listeners.targetListeners event.eventType target).map
      (Turn.mk target .atTarget)).filter (fun t => decide (t.phase = .atTarget)) =
      (document.listeners.targetListeners event.eventType target).map (Turn.mk target .atTarget) := by
    refine filter_eq_self.mpr fun t ht => ?_
    obtain ⟨l, -, rfl⟩ := mem_map.mp ht
    rfl
  rw [plan, filter_append, filter_append, hdown, hup, htarget, nil_append,
    append_nil]

theorem Course.orderly (course : Course call document event target log down first second up)
    (hgoing : (document.descended call event target).event.propagationStopped = false)
    (h : (propagation κ).InOrder (document.plan event target) log) :
    document.Orderly call event target := by
  refine ⟨hgoing, or_iff_not_imp_left.mpr fun hsome => ?_⟩
  obtain ⟨other, others, hothers⟩ := exists_cons_of_ne_nil hsome
  -- the second pass has run its first listener
  have hsecond : ∃ rest, second.map Invocation.turn = Turn.mk target .atTarget other :: rest := by
    have hsegment := course.second_segment
    rw [ListenerTable.turns, hothers, map_cons] at hsegment
    rcases hsegment.full with hfull | ⟨i, hi, -⟩
    · exact ⟨_, hfull⟩
    · obtain ⟨j, rest, rfl⟩ := exists_cons_of_ne_nil (ne_nil_of_mem hi)
      have hfirst : j.turn = Turn.mk target .atTarget other :=
        (cons_prefix_cons.mp hsegment.started).1
      exact ⟨rest.map Invocation.turn, by rw [map_cons, hfirst]⟩
  obtain ⟨rest, hrest⟩ := hsecond
  -- so nothing has halted in the first one
  have hunhalted : ∀ i ∈ first, ¬ i.Halts := by
    have hhalted := h.halted
    rw [course.log_eq, append_assoc] at hhalted
    have hparts := (pairwise_append.mp (pairwise_append.mp hhalted).2.1).2.2
    intro i hi
    cases second with
    | nil => cases hrest
    | cons j more => exact hparts i hi j (mem_append_left _ mem_cons_self)
  refine ⟨?_, Bool.eq_false_iff.mpr fun hhalted => ?_⟩
  · have hfirst : first.map Invocation.turn =
        (document.listeners.due target event.eventType true).map (Turn.mk target .atTarget) :=
      course.first_segment.eq_of_quiet hunhalted
    have hlog : (first.map Invocation.turn ++ [Turn.mk target .atTarget other]).Sublist
        (log.map Invocation.turn) := by
      rw [course.log_eq, map_append, map_append, map_append, hrest]
      refine List.Sublist.trans ?_ (sublist_append_right _ _)
      refine List.Sublist.trans ?_ (sublist_append_left _ _)
      exact (List.Sublist.refl _).append (singleton_sublist.mpr mem_cons_self)
    -- both are turns at the target, and so are those of the plan that are kept
    have hsub := (hlog.trans h.order).filter fun t => decide (t.phase = .atTarget)
    rw [filter_plan, hfirst, ← map_singleton, ← map_append, filter_map] at hsub
    have hlisteners := hsub.map Turn.listener
    simp only [map_map, Function.comp_def, decide_true, filter_true, map_id'] at hlisteners
    have hfront : (document.listeners.targetListeners event.eventType target).filter
        (fun l => l.options.capture) = document.listeners.due target event.eventType true := by
      rw [← ListenerTable.filter_targetListeners]
      simp only [beq_true]
    have hback : (document.listeners.targetListeners event.eventType target).filter
        (fun l => !l.options.capture) = document.listeners.due target event.eventType false := by
      rw [← ListenerTable.filter_targetListeners]
      simp only [beq_false]
    rw [← hfront] at hlisteners
    have heq := Dispatch.eq_filter_append
      (document.listeners.targetListeners_nodup event.eventType target) (hback.trans hothers) hlisteners
    rwa [hfront, hback] at heq
  · obtain ⟨i, hi, hhalts⟩ := course.first_halts.mpr hhalted
    exact hunhalted i hi hhalts

end Course

theorem lawful_of_refuses (hfresh : event.Fresh) (h : document.Refuses event target) :
    (document.dispatchEvent call target event).Lawful document event target := by
  have hrefused : ∃ message, document.dispatchEvent call target event =
      ⟨.error (.error message), event, document, []⟩ := by
    simp only [dispatchEvent]
    split
    · exact ⟨_, rfl⟩
    · next hnode =>
      split
      · exact ⟨_, rfl⟩
      · next htarget =>
        rcases h with h | h | h
        · rw [h] at hnode
          exact absurd rfl hnode
        · exact absurd h htarget
        · rw [h]
          exact ⟨_, rfl⟩
  obtain ⟨message, hrefused⟩ := hrefused
  rw [hrefused]
  exact ⟨nofun, fun _ _ => rfl, hfresh.currentTarget, hfresh.phase⟩

theorem dispatchEvent_path (hnode : document.nodes.contains target = true)
    (htarget : event.target = target)
    (hpath : eventPath document.toLiveDocument maxEventPath target = some path) :
    document.dispatchEvent call target event =
      let d := (document.start event).propagate call target path
      ⟨.ok d.report, d.event, { document with listeners := d.listeners, world := d.world }, d.log⟩ := by
  simp only [dispatchEvent, hnode, Bool.not_true, Bool.false_eq_true, if_false]
  rw [if_neg (not_not_intro htarget), hpath]

/-- A fresh event is dispatched in order, and comes back with no current target, if and
only if it is refused, or nothing stops it on the way down and its target is orderly. -/
theorem dispatchEvent_lawful_iff (call : Callbacks κ σ) (document : EventDocument κ σ ς)
    (event : DomEvent) (target : NodeId) (hfresh : event.Fresh) :
    (document.dispatchEvent call target event).Lawful document event target ↔
      document.Refuses event target ∨ document.Orderly call event target := by
  by_cases hrefuses : document.Refuses event target
  · exact iff_of_true (lawful_of_refuses hfresh hrefuses) (.inl hrefuses)
  · simp only [Refuses, not_or, Bool.not_eq_false, not_not] at hrefuses
    obtain ⟨hnode, htarget, hpath⟩ := hrefuses
    obtain ⟨path, hpath⟩ := Option.ne_none_iff_exists'.mp hpath
    have hrefuses : ¬ document.Refuses event target := by
      rintro (h | h | h)
      · rw [hnode] at h
        cases h
      · exact h htarget
      · rw [hpath] at h
        cases h
    rw [or_iff_right hrefuses, dispatchEvent_path hnode htarget hpath]
    cases hgoing : (document.descended call event target).event.propagationStopped with
    | true =>
      refine iff_of_false (fun h => ?_) fun h => ?_
      · obtain ⟨hreturn, node, hcurrent⟩ := Dispatch.captureLoop_stopped
          (d := document.start event) (nodup_reverse.mpr (nodup_ancestors hpath).2)
          hfresh.going' hfresh.going hgoing
        have hcleared := h.currentTarget
        dsimp only at hcleared
        rw [Dispatch.propagate, wayDown_path hpath] at hcleared
        split at hcleared
        · next d hd =>
          rw [hd] at hcurrent
          rw [Dispatch.settle, hcurrent] at hcleared
          cases hcleared
        · next d hd =>
          rw [hd] at hreturn
          cases hreturn
      · rw [h.1] at hgoing
        cases hgoing
    | false =>
      obtain ⟨down, first, second, up, course, hcurrent, hphase⟩ := exists_course hfresh hpath hgoing
      constructor
      · intro h
        exact course.orderly hgoing (h.inOrder _ rfl)
      · intro h
        exact ⟨fun _ _ => course.inOrder h, nofun, hcurrent, hphase⟩

/-- A button in a form, with the listeners of a table. A callback is what it calls. -/
def buttonInForm (table : ListenerTable (List EventCall)) :
    EventDocument (List EventCall) Unit Unit where
  root := 1
  nodes := .ofList [(1, ⟨1, none, [2], .element "form" ∅ false⟩),
    (2, ⟨2, some 1, [], .element "button" ∅ false⟩)] compare
  nextNodeId := 3
  shadows := ∅
  focused := none
  listeners := table
  canvasShapes := ∅
  world := ()

/-- What the callbacks of `buttonInForm` do. -/
def performs : Callbacks (List EventCall) Unit := fun calls _ _ => (calls, ())

/-- One capture and one other listener of the button, none of which halts. -/
theorem dispatchEvent_lawful_iff_sample :
    let page := buttonInForm
      ((ListenerTable.empty.add 2 "click" ⟨true, false, false⟩ []).add 2 "click"
        ⟨false, true, false⟩ [.stopPropagation])
    (page.dispatchEvent performs 2 (.new "click" 2)).Lawful page (.new "click" 2) 2 :=
  (dispatchEvent_lawful_iff _ _ _ _ ⟨rfl, rfl, rfl, rfl⟩).mpr
    (.inr ⟨by decide, .inr ⟨by rfl, by decide⟩⟩)

/-- A capture listener of the form stops the event. -/
def stoppedAbove : EventDocument (List EventCall) Unit Unit :=
  buttonInForm (ListenerTable.empty.add 1 "click" ⟨true, false, false⟩ [.stopPropagation])

/-- A capture listener of the button halts the event before another listener. -/
def haltedAtTarget : EventDocument (List EventCall) Unit Unit :=
  buttonInForm ((ListenerTable.empty.add 2 "click" ⟨true, false, false⟩
    [.stopImmediatePropagation]).add 2 "click" ⟨false, false, false⟩ [])

/-- The form stays the current target; and the listener after the one that halts runs. -/
theorem dispatchEvent_unlawful :
    ¬ (stoppedAbove.dispatchEvent performs 2 (.new "click" 2)).Lawful stoppedAbove
        (.new "click" 2) 2 ∧
      ¬ (haltedAtTarget.dispatchEvent performs 2 (.new "click" 2)).Lawful haltedAtTarget
        (.new "click" 2) 2 := by
  refine ⟨fun h => ?_, fun h => ?_⟩
  · have hcurrent : (stoppedAbove.dispatchEvent performs 2
        (.new "click" 2)).event.currentTarget = some 1 := by decide
    rw [h.currentTarget] at hcurrent
    cases hcurrent
  · have hlog : (haltedAtTarget.dispatchEvent performs 2 (.new "click" 2)).log.map
        Invocation.calls = [[.stopImmediatePropagation], []] := by decide
    have hhalted := (h.inOrder _ rfl).halted
    obtain ⟨i, rest, hcons, hcalls, hrest⟩ := map_eq_cons_iff.mp hlog
    obtain ⟨j, more, hcons', -, -⟩ := map_eq_cons_iff.mp hrest
    rw [hcons, hcons'] at hhalted
    refine (pairwise_cons.mp hhalted).1 j mem_cons_self ?_
    show EventCall.stopImmediatePropagation ∈ i.calls
    rw [hcalls]
    exact mem_cons_self

end EventDocument

end GhitaBrowser.Live
