import GhitaBrowser.Page.Activation

/-!
# Listeners and interaction

The listener table of a live document and `dispatch_event`. A callback reaches the event
through its three methods, and what it shares with its embedder is the `world`: `call`
gives, for a callback, an event and a world, what it calls and the world it leaves. The
callbacks never see the document, so the table changes only where the dispatch removes
`once` listeners.
-/

namespace GhitaBrowser.Live

open Dom Page

def maxEventListeners : Nat := 10000

/-! ## Events -/

inductive EventPhase where
  | none | capturing | atTarget | bubbling
deriving DecidableEq

structure DomEvent where
  eventType : String
  target : NodeId
  currentTarget : Option NodeId
  phase : EventPhase
  bubbles : Bool
  cancelable : Bool
  defaultPrevented : Bool
  propagationStopped : Bool
  immediatePropagationStopped : Bool
  key : Option String
  pointerX : Option Int
  pointerY : Option Int
  detail : Option String
  passiveListener : Bool

inductive EventCall where
  | preventDefault | stopPropagation | stopImmediatePropagation
deriving DecidableEq

namespace DomEvent

def new (eventType : String) (target : NodeId) : DomEvent where
  eventType := eventType
  target := target
  currentTarget := none
  phase := .none
  bubbles := true
  cancelable := true
  defaultPrevented := false
  propagationStopped := false
  immediatePropagationStopped := false
  key := none
  pointerX := none
  pointerY := none
  detail := none
  passiveListener := false

def perform (event : DomEvent) : EventCall → DomEvent
  | .preventDefault =>
    if event.cancelable && !event.passiveListener then { event with defaultPrevented := true }
    else event
  | .stopPropagation => { event with propagationStopped := true }
  | .stopImmediatePropagation =>
    { event with immediatePropagationStopped := true, propagationStopped := true }

end DomEvent

/-! ## The listener table -/

structure ListenerOptions where
  capture : Bool
  once : Bool
  passive : Bool

structure EventListener (κ : Type) where
  id : Nat
  eventType : String
  options : ListenerOptions
  callback : κ

/-- The listeners of every node. The ids of one node's listeners are distinct, and the
next id is new. -/
structure ListenerTable (κ : Type) where
  entries : IdMap (List (EventListener κ))
  nextListenerId : Nat
  distinct : ∀ (node : NodeId) (list : List (EventListener κ)), entries[node]? = some list →
    (list.map EventListener.id).Nodup
  below : ∀ (node : NodeId) (list : List (EventListener κ)), entries[node]? = some list →
    ∀ l ∈ list, l.id < nextListenerId

namespace ListenerTable

variable {κ : Type}

def empty : ListenerTable κ where
  entries := ∅
  nextListenerId := 1
  distinct _ _ h := by simp at h
  below _ _ h := by simp at h

/-- The listeners of a node in registration order. -/
def listeners (table : ListenerTable κ) (node : NodeId) : List (EventListener κ) :=
  (table.entries[node]?).getD []

/-- The listeners of a node that a pass over it invokes. -/
def due (table : ListenerTable κ) (node : NodeId) (eventType : String) (capture : Bool) :
    List (EventListener κ) :=
  (table.listeners node).filter fun l => l.eventType == eventType && l.options.capture == capture

def listenerCount (table : ListenerTable κ) : Nat :=
  (table.entries.toList.map fun entry => entry.2.length).sum

theorem listeners_distinct (table : ListenerTable κ) (node : NodeId) :
    ((table.listeners node).map EventListener.id).Nodup := by
  rw [listeners]
  cases h : table.entries[node]? with
  | none => exact List.nodup_nil
  | some list => exact table.distinct node list h

theorem listeners_below (table : ListenerTable κ) (node : NodeId) :
    ∀ l ∈ table.listeners node, l.id < table.nextListenerId := by
  rw [listeners]
  cases h : table.entries[node]? with
  | none => exact fun _ hl => nomatch hl
  | some list => exact table.below node list h

/-- The table with one more listener at the end of the node's list. -/
def add (table : ListenerTable κ) (node : NodeId) (eventType : String) (options : ListenerOptions)
    (callback : κ) : ListenerTable κ where
  entries := table.entries.insert node
    (table.listeners node ++ [⟨table.nextListenerId, eventType, options, callback⟩])
  nextListenerId := table.nextListenerId + 1
  distinct other list h := by
    rw [IdMap.getElem?_insert] at h
    split at h
    · obtain rfl := Option.some.inj h
      rw [List.map_append, List.nodup_append]
      refine ⟨table.listeners_distinct node, List.pairwise_singleton _ _, ?_⟩
      rintro id hid _ hnew rfl
      obtain ⟨l, hl, rfl⟩ := List.mem_map.mp hid
      exact Nat.ne_of_lt (table.listeners_below node l hl) (List.mem_singleton.mp hnew)
    · exact table.distinct other list h
  below other list h l hl := by
    rw [IdMap.getElem?_insert] at h
    split at h
    · obtain rfl := Option.some.inj h
      rcases List.mem_append.mp hl with hl | hl
      · exact Nat.lt_succ_of_lt (table.listeners_below node l hl)
      · rw [List.mem_singleton.mp hl]
        exact Nat.lt_succ_self _
    · exact Nat.lt_succ_of_lt (table.below other list h l hl)

/-- The table without the listeners of a node that have one of the ids. The list of the
node stays, also when it is empty. -/
def remove (table : ListenerTable κ) (node : NodeId) (ids : List Nat) : ListenerTable κ where
  entries := table.entries.modify node fun list => list.filter fun l => l.id ∉ ids
  nextListenerId := table.nextListenerId
  distinct other list h := by
    rw [IdMap.getElem?_modify] at h
    split at h
    · obtain ⟨all, hall, rfl⟩ := Option.map_eq_some_iff.mp h
      exact (table.distinct node all hall).sublist (List.filter_sublist.map _)
    · exact table.distinct other list h
  below other list h l hl := by
    rw [IdMap.getElem?_modify] at h
    split at h
    · obtain ⟨all, hall, rfl⟩ := Option.map_eq_some_iff.mp h
      exact table.below node all hall l (List.mem_of_mem_filter hl)
    · exact table.below other list h l hl

end ListenerTable

/-! ## The dispatch -/

/-- A listener that is invoked at a node in a phase. -/
structure Turn (κ : Type) where
  node : NodeId
  phase : EventPhase
  listener : EventListener κ

/-- A turn that was taken, with what the callback called. -/
structure Invocation (κ : Type) where
  turn : Turn κ
  calls : List EventCall

structure DispatchReport where
  invokedListeners : Nat
  defaultPrevented : Bool

/-- The state of a dispatch, with the invocations so far as ghost state. -/
structure Dispatch (κ σ : Type) where
  event : DomEvent
  listeners : ListenerTable κ
  world : σ
  report : DispatchReport
  log : List (Invocation κ)

abbrev Callbacks (κ σ : Type) := κ → DomEvent → σ → List EventCall × σ

namespace Dispatch

variable {κ σ : Type} (call : Callbacks κ σ)

/-- One turn of the loop of `invoke_listeners`. -/
def callListener (turn : Turn κ) (d : Dispatch κ σ) : Dispatch κ σ :=
  let event := { d.event with
    currentTarget := some turn.node
    phase := turn.phase
    passiveListener := turn.listener.options.passive }
  let (calls, world) := call turn.listener.callback event d.world
  { d with
    event := { calls.foldl DomEvent.perform event with passiveListener := false }
    world := world
    report := { d.report with invokedListeners := min (d.report.invokedListeners + 1) (2 ^ 64 - 1) }
    log := d.log ++ [⟨turn, calls⟩] }

/-- The loop of `invoke_listeners`, with the `once` listeners it has run. -/
def listenerLoop (node : NodeId) (phase : EventPhase) :
    List (EventListener κ) → List Nat → Dispatch κ σ → List Nat × Dispatch κ σ
  | [], removeOnce, d => (removeOnce, d)
  | l :: rest, removeOnce, d =>
    let d := d.callListener call ⟨node, phase, l⟩
    let removeOnce := if l.options.once then l.id :: removeOnce else removeOnce
    if d.event.immediatePropagationStopped then (removeOnce, d)
    else listenerLoop node phase rest removeOnce d

/-- The end of `invoke_listeners`: the flag is cleared, whoever has set it. -/
def retire (node : NodeId) (result : List Nat × Dispatch κ σ) : Dispatch κ σ :=
  { result.2 with
    event := { result.2.event with immediatePropagationStopped := false }
    listeners := if result.1 = [] then result.2.listeners
      else result.2.listeners.remove node result.1 }

def invokeListeners (node : NodeId) (phase : EventPhase) (capture : Bool) (d : Dispatch κ σ) :
    Dispatch κ σ :=
  retire node
    (listenerLoop call node phase (d.listeners.due node d.event.eventType capture) [] d)

/-- The way down, with whether a listener has stopped the event on it. -/
def captureLoop : List NodeId → Dispatch κ σ → Bool × Dispatch κ σ
  | [], d => (false, d)
  | node :: rest, d =>
    let d := d.invokeListeners call node .capturing true
    if d.event.propagationStopped then (true, d) else captureLoop rest d

/-- The way up. -/
def bubbleLoop : List NodeId → Dispatch κ σ → Dispatch κ σ
  | [], d => d
  | node :: rest, d =>
    let d := d.invokeListeners call node .bubbling false
    if d.event.propagationStopped then d else bubbleLoop rest d

def atTarget (target : NodeId) (d : Dispatch κ σ) : Dispatch κ σ :=
  let d := d.invokeListeners call target .atTarget true
  if d.event.immediatePropagationStopped then d
  else d.invokeListeners call target .atTarget false

def bubble (ancestors : List NodeId) (d : Dispatch κ σ) : Dispatch κ σ :=
  if d.event.bubbles && !d.event.propagationStopped then d.bubbleLoop call ancestors else d

def finish (d : Dispatch κ σ) : Dispatch κ σ :=
  { d with event := { d.event with currentTarget := none, phase := .none } }

/-- The report takes over whether the default action is prevented. -/
def settle (d : Dispatch κ σ) : Dispatch κ σ :=
  { d with report := { d.report with defaultPrevented := d.event.defaultPrevented } }

/-- `dispatch_event` over the path of the target. It returns from the way down without
`finish`. -/
def propagate (target : NodeId) (path : List NodeId) (d : Dispatch κ σ) : Dispatch κ σ :=
  match captureLoop call (path.reverse.take (path.length - 1)) d with
  | (true, d) => d.settle
  | (false, d) => (((d.atTarget call target).bubble call (path.drop 1)).finish).settle

end Dispatch

/-- A live document with its focus, listeners and canvas shapes. -/
structure EventDocument (κ σ ς : Type) extends FocusedDocument where
  listeners : ListenerTable κ
  canvasShapes : IdMap (List ς)
  world : σ

/-- What a dispatch leaves: its answer, the event and the document. -/
structure Dispatched (κ σ ς : Type) where
  result : Except Failure DispatchReport
  event : DomEvent
  document : EventDocument κ σ ς
  log : List (Invocation κ)

namespace EventDocument

variable {κ σ ς : Type}

/-- The state at the start of a dispatch. -/
def start (document : EventDocument κ σ ς) (event : DomEvent) : Dispatch κ σ :=
  ⟨event, document.listeners, document.world, ⟨0, false⟩, []⟩

/-- `dispatch_event`. A node of the path is never missing. -/
def dispatchEvent (call : Callbacks κ σ) (target : NodeId) (event : DomEvent)
    (document : EventDocument κ σ ς) : Dispatched κ σ ς :=
  let refuse (message : String) : Dispatched κ σ ς := ⟨.error (.error message), event, document, []⟩
  if !document.nodes.contains target then
    refuse "NotFoundError: node does not belong to this document"
  else if event.target ≠ target then
    refuse "InvalidStateError: event target does not match dispatch target"
  else
    match eventPath document.toLiveDocument maxEventPath target with
    | none => refuse "QuotaExceededError: event path depth exceeded"
    | some path =>
      let d := (document.start event).propagate call target path
      ⟨.ok d.report, d.event, { document with listeners := d.listeners, world := d.world }, d.log⟩

end EventDocument

end GhitaBrowser.Live

/-!
## Interaction with a live document

Focus, default actions and canvas shapes, and runs of all operations of a live document.
Layout is not modelled: what it answers for a point is an argument of the operation.
-/

namespace GhitaBrowser.Live

open Dom Page

def maxListenerId : Nat := 2 ^ 64 - 1
def maxCanvasShapes : Nat := 256

abbrev Interaction (κ σ ς : Type) := EStateM Failure (EventDocument κ σ ς)

inductive InputAction where
  | page (action : DefaultAction)
  | insertText (node : NodeId) (text : String)

variable {κ σ ς α : Type}

/-- Edit the nodes and leave the side tables alone. -/
def lift (change : Edit α) : Interaction κ σ ς α := fun s =>
  match change s.toLiveDocument with
  | .ok value document => .ok value { s with toLiveDocument := document }
  | .error failure document => .error failure { s with toLiveDocument := document }

/-- A default action that dispatches no event. -/
def activate (action : Activation α) : Interaction κ σ ς α := fun s =>
  match action s.toFocusedDocument with
  | .ok value document => .ok value { s with toFocusedDocument := document }
  | .error failure document => .error failure { s with toFocusedDocument := document }

/-! ## Listeners and shapes -/

/-- An event type passes the same test as a tag. -/
def normalizeEventType (eventType : String) : Edit String :=
  if isElementTag (toAsciiLowercase (trim eventType)) then return toAsciiLowercase (trim eventType)
  else fail "InvalidCharacterError: invalid event type"

def addEventListener (node : NodeId) (eventType : String) (options : ListenerOptions)
    (callback : κ) : Interaction κ σ ς Nat := do
  let _ ← lift (requireNode node)
  let s ← get
  if s.listeners.listenerCount ≥ maxEventListeners then
    lift (fail "QuotaExceededError: event listener budget exceeded")
  else do
    let eventType ← lift (normalizeEventType eventType)
    if s.listeners.nextListenerId + 1 > maxListenerId then
      lift (fail "Event listener identifier space exhausted")
    else do
      modify fun s => { s with listeners := s.listeners.add node eventType options callback }
      return s.listeners.nextListenerId

def removeEventListener (node : NodeId) (listener : Nat) : Interaction κ σ ς Bool := do
  let s ← get
  modify fun s => { s with listeners := s.listeners.remove node [listener] }
  return (s.listeners.listeners node).any fun l => l.id == listener

def addCanvasShape (canvas : NodeId) (shape : ς) : Interaction κ σ ς Unit := do
  let _ ← lift (requireNode canvas)
  let entries := ((← get).canvasShapes[canvas]?).getD []
  if entries.length ≥ maxCanvasShapes then
    lift (fail "QuotaExceededError: canvas shape budget exceeded")
  else modify fun s => { s with canvasShapes := s.canvasShapes.insert canvas (entries ++ [shape]) }

def clearCanvasShapes (canvas : NodeId) : Interaction κ σ ς Unit := do
  let _ ← lift (requireNode canvas)
  modify fun s => { s with canvasShapes := s.canvasShapes.erase canvas }

/-! ## Focus and default actions -/

variable (call : Callbacks κ σ)

/-- `dispatch_event` as a step: the event it leaves is a result. -/
def dispatch (target : NodeId) (event : DomEvent) : Interaction κ σ ς (DomEvent × DispatchReport) :=
  fun s =>
    let dispatched := s.dispatchEvent call target event
    match dispatched.result with
    | .ok report => .ok (dispatched.event, report) dispatched.document
    | .error failure => .error failure dispatched.document

/-- `blur` and `focusout` of the node that loses the focus. -/
def blur : Option NodeId → Interaction κ σ ς Unit
  | none => return ()
  | some previous => do
    let _ ← dispatch call previous { DomEvent.new "blur" previous with bubbles := false }
    let _ ← dispatch call previous (.new "focusout" previous)
    return ()

def focus (node : NodeId) : Interaction κ σ ς Unit := do
  let _ ← lift (requireNode node)
  let s ← get
  if !isFocusable s.toLiveDocument node then
    lift (fail "InvalidStateError: node is not focusable")
  else if s.focused = some node then return ()
  else do
    blur call s.focused
    modify fun s => { s with focused := some node }
    let _ ← dispatch call node { DomEvent.new "focus" node with bubbles := false }
    let _ ← dispatch call node (.new "focusin" node)
    return ()

def takeFocus (target : NodeId) : Interaction κ σ ς (List DefaultAction) := do
  focus call target
  return [.focus target]

def applyClickDefault (target : NodeId) : Interaction κ σ ς (List DefaultAction) := do
  let document := (← get).toLiveDocument
  match elementTag document target with
  | some "input" =>
    match (getAttribute document target "type").getD "text" with
    | "checkbox" => activate (toggleCheckbox target)
    | "radio" => do
      activate (activateRadio target)
      return [.toggleChecked target true]
    | "submit" => activate (markSubmitted target)
    | _ => takeFocus call target
  | some "button" =>
    if (getAttribute document target "type").getD "submit" = "submit" then
      activate (markSubmitted target)
    else takeFocus call target
  | some "select" => activate (advanceSelection target)
  | some "a" =>
    match getAttribute document target "href" with
    | some href => return [.navigate href]
    | none => return []
  | _ => return []

def click (target : NodeId) : Interaction κ σ ς (DispatchReport × List DefaultAction) := do
  let (event, report) ← dispatch call target (.new "click" target)
  if event.defaultPrevented then return (report, [])
  else do
    let actions ← applyClickDefault call target
    return (report, actions)

/-- The focusable node after `current` in document order, around the end. -/
def nextFocusable (document : LiveDocument) (current : NodeId) : Option NodeId :=
  let candidates := (documentOrder document).filter (isFocusable document)
  (candidates.findIdx? (· == current)).bind fun index =>
    candidates[(index + 1) % candidates.length]?

def isTextEntry (document : LiveDocument) (node : NodeId) : Bool :=
  elementTag document node == some "textarea" ||
    elementTag document node == some "input" &&
      !(["checkbox", "radio", "submit", "button"].any fun type =>
        getAttribute document node "type" == some type)

/-- A textarea has its text as its children, an input as an attribute. -/
def typeInto (target : NodeId) (key : String) : Edit Unit := do
  let document ← get
  if elementTag document target = some "textarea" then
    setTextContent target ((textContent document target).getD "" ++ key)
  else setAttribute target "value" ((getAttribute document target "value").getD "" ++ key)

def applyKeyDefault (target : NodeId) (key : String) : Interaction κ σ ς (List InputAction) := do
  let document := (← get).toLiveDocument
  if key = "Tab" then
    match nextFocusable document target with
    | some next => do
      focus call next
      return [.page (.focus next)]
    | none => return []
  else if (key = "Enter" || key = " ") && isFocusable document target then do
    let (_, actions) ← click call target
    return actions.map .page
  else if key.length = 1 && isTextEntry document target then do
    lift (typeInto target key)
    let _ ← dispatch call target (.new "input" target)
    return [.insertText target key]
  else return []

/-- The event that `dispatch_keyboard` dispatches. -/
def keyEvent (eventType : String) (target : NodeId) (key : String) : DomEvent :=
  { DomEvent.new eventType target with key := some (takeChars 128 key) }

/-- The target of a key is the focused node or the root. -/
def keyTarget (s : EventDocument κ σ ς) : NodeId := s.focused.getD s.root

def dispatchKeyboard (eventType key : String) : Interaction κ σ ς (DispatchReport × List InputAction) := do
  let target := keyTarget (← get)
  let (event, report) ← dispatch call target (keyEvent eventType target key)
  if eventType = "keydown" && !event.defaultPrevented then do
    let actions ← applyKeyDefault call target key
    return (report, actions)
  else return (report, [])

/-- `dispatch_pointer`, where the layout has found `hit` at the point. -/
def dispatchPointer (eventType : String) (hit : Option NodeId) (x y : Int) :
    Interaction κ σ ς (Option DispatchReport) :=
  match hit with
  | none => return none
  | some target => do
    let (_, report) ← dispatch call target
      { DomEvent.new eventType target with pointerX := some x, pointerY := some y }
    return some report

/-! ## Runs -/

inductive Operation (κ ς : Type) where
  | edit (operation : Dom.Operation)
  | addEventListener (node : NodeId) (eventType : String) (options : ListenerOptions) (callback : κ)
  | removeEventListener (node : NodeId) (listener : Nat)
  | addCanvasShape (canvas : NodeId) (shape : ς)
  | clearCanvasShapes (canvas : NodeId)
  | dispatchEvent (target : NodeId) (event : DomEvent)
  | focus (node : NodeId)
  | click (target : NodeId)
  | applyClickDefault (target : NodeId)
  | applyKeyDefault (target : NodeId) (key : String)
  | dispatchKeyboard (eventType key : String)
  | dispatchPointer (eventType : String) (hit : Option NodeId) (x y : Int)

variable [HtmlParser]

/-- The effect of an operation, whatever it answers. -/
def Operation.perform : Operation κ ς → Interaction κ σ ς Unit
  | edit operation => lift operation.edit
  | addEventListener node eventType options callback =>
    discard (Live.addEventListener node eventType options callback)
  | removeEventListener node listener => discard (Live.removeEventListener node listener)
  | addCanvasShape canvas shape => Live.addCanvasShape canvas shape
  | clearCanvasShapes canvas => Live.clearCanvasShapes canvas
  | dispatchEvent target event => discard (Live.dispatch call target event)
  | focus node => Live.focus call node
  | click target => discard (Live.click call target)
  | applyClickDefault target => discard (Live.applyClickDefault call target)
  | applyKeyDefault target key => discard (Live.applyKeyDefault call target key)
  | dispatchKeyboard eventType key => discard (Live.dispatchKeyboard call eventType key)
  | dispatchPointer eventType hit x y => discard (Live.dispatchPointer call eventType hit x y)

namespace EventDocument

def fromElement (root : Element) (world : σ) : EventDocument κ σ ς where
  toLiveDocument := LiveDocument.fromElement root
  focused := none
  listeners := .empty
  canvasShapes := ∅
  world := world

end EventDocument

end GhitaBrowser.Live
