import GhitaBrowser.Lib.Keeps
import GhitaBrowser.Page.Activation

/-!
# Pending events and clicks

The host calls that queue an event for the end of the turn, `flush_pending`, which
delivers the queue, and the click of the user. A `PageScript` gives the host calls of
every callback in every state of the page, so a run with an arbitrary script is an
arbitrary run. The state of the script engine is one of its own, that only callbacks
change.

`history` records, newest first, the events that calls made and the ones that were
delivered. Nothing reads it.
-/

namespace GhitaBrowser.Page

open Dom

def maxPendingTasks : Nat := 1024
def maxDetailChars : Nat := 64 * 1024

/-- `LISTENER_WINDOW` as the node of an entry. -/
def listenerWindow : Nat := maxU64

/-- A `DomEvent`, with what default actions and payloads need of it. -/
structure PageEvent extends DomEvent where
  cancelable : Bool
  defaultPrevented : Bool
  detail : Option String

def PageEvent.new (eventType : String) (detail : Option String) : PageEvent where
  eventType := eventType
  bubbles := true
  propagationStopped := false
  immediatePropagationStopped := false
  cancelable := true
  defaultPrevented := false
  detail := detail

structure PendingDispatch where
  node : Nat
  eventType : String
  detail : Option String
deriving DecidableEq

/-- Where an entry is delivered: a window event at the root, for the window. -/
def PendingDispatch.place (entry : PendingDispatch) : ListenerKey :=
  if entry.node = listenerWindow then .window else .node entry.node

/-- An event as a call makes it, or as a dispatch delivers it. -/
structure SentEvent where
  place : ListenerKey
  eventType : String
  detail : Option String
  bubbles : Bool
  cancelable : Bool
deriving DecidableEq

inductive EventStep where
  | made (event : SentEvent) (entry : Option PendingDispatch)
  | delivered (event : SentEvent)
  | skipped (entry : PendingDispatch)
  | aborted (entry : PendingDispatch)
  | truncated
  | flushed
deriving DecidableEq

/-! ## Host calls -/

/-- What host calls on the tree and the queue edit. `performed` lists the default actions
that were carried out, latest last. -/
structure Host where
  dom : FocusedDocument
  elements : IdMap NodeId
  handles : IdMap Nat
  nextElementId : Nat
  pendingDispatches : List PendingDispatch
  performed : List DefaultAction
  history : List EventStep

inductive EventObject where
  | window | document
  | element (handle : Nat)

/-- The record of an event that script has made. -/
structure EventRecord where
  eventType : String
  bubbles : Bool
  cancelable : Bool
  detail : Option String

/-- The host calls on the tree and the queue, with handles as the script gives them. -/
inductive HostCall where
  | edit (operation : Operation)
  | elementFor (node : NodeId)
  | nextHostId
  | appendChild (element child : Nat)
  | removeChild (element child : Nat)
  | focus (element : Nat)
  | click (element : Nat)
  | dispatchEvent (object : EventObject) (record : EventRecord)
  | submit (form : Nat)
  | historyMove (state : Option String)
  | setHash (hash : String)

abbrev HostM := EStateM Failure Host

namespace Host

def onDom {α : Type} (program : Activation α) : HostM α := fun host =>
  match program host.dom with
  | .ok value dom => .ok value { host with dom := dom }
  | .error failure dom => .error failure { host with dom := dom }

def fail {α : Type} (message : String) : HostM α := throw (.error message)

def locator (object : Nat) : HostM NodeId := do
  match (← get).elements[object]? with
  | some node => return node
  | none => fail "SecurityError: unknown host object"

/-- `queue_pending_dispatch`, for the event that the call makes. -/
def queuePendingDispatch (node : Nat) (event : SentEvent) : HostM Unit :=
  modify fun host =>
    if host.pendingDispatches.length ≥ maxPendingTasks then
      { host with history := .made event none :: host.history }
    else
      let entry : PendingDispatch := ⟨node, event.eventType, event.detail⟩
      { host with
        pendingDispatches := host.pendingDispatches ++ [entry]
        history := .made event (some entry) :: host.history }

/-- The next identifier of `next_element_id`. -/
def nextHostId : HostM Nat := do
  let id := (← get).nextElementId
  if id + 1 > maxU64 then fail "Host element identifier space exhausted"
  else do
    modify fun host => { host with nextElementId := id + 1 }
    return id

def elementFor (node : NodeId) : HostM Unit := do
  let host ← get
  if !host.dom.nodes.contains node then
    fail "InvalidStateError: node is no longer in the document"
  else if host.handles.contains node then return ()
  else do
    let id ← nextHostId
    modify fun host => { host with
      elements := host.elements.insert id node
      handles := host.handles.insert node id }

def appendChild (element child : Nat) : HostM Unit := do
  let parent ← locator element
  let node ← locator child
  onDom (Page.edit (Dom.appendChild parent node))
  queuePendingDispatch child ⟨.node node, "connected", none, true, true⟩

def removeChild (element child : Nat) : HostM Unit := do
  let parent ← locator element
  let node ← locator child
  onDom (Page.edit (Dom.removeChild parent node))
  queuePendingDispatch child ⟨.node node, "disconnected", none, true, true⟩

/-- `LiveDocument::focus` makes its `focus` event one that does not bubble. -/
def focus (element : Nat) : HostM Unit := do
  let node ← locator element
  onDom (Page.focus node)
  queuePendingDispatch node ⟨.node node, "focus", none, false, true⟩

/-- Note the default actions that `apply_click_default` has carried out. -/
def perform (actions : List DefaultAction) : HostM Unit :=
  modify fun host =>
    { host with performed := host.performed ++ actions.filter DefaultAction.isCarriedOut }

/-- The host call `click` on a node. -/
def clickNode (node : NodeId) : HostM Unit := do
  let actions ← onDom (nativeClick node)
  perform actions
  queuePendingDispatch node ⟨.node node, "click", none, true, true⟩
  if actions.any DefaultAction.isToggle then
    queuePendingDispatch node ⟨.node node, "change", none, true, true⟩

def click (element : Nat) : HostM Unit := do
  let node ← locator element
  clickNode node

def eventTarget : EventObject → HostM NodeId
  | .window | .document => return (← get).dom.root
  | .element handle => locator handle

def dispatchEvent (object : EventObject) (record : EventRecord) : HostM Unit := do
  let target ← eventTarget object
  onDom (Page.dispatchEvent target)
  queuePendingDispatch target
    ⟨.node target, record.eventType, record.detail, record.bubbles, record.cancelable⟩

def submit (form : Nat) : HostM Unit := do
  let node ← locator form
  if elementTag (← get).dom.toLiveDocument node ≠ some "form" then
    fail "TypeError: submit is only available on form elements"
  else queuePendingDispatch form ⟨.node node, "submit", none, true, true⟩

/-- `after_history_move` with an entry. -/
def historyMove (state : Option String) : HostM Unit :=
  queuePendingDispatch listenerWindow
    ⟨.window, "popstate", some (takeChars maxDetailChars (state.getD "")), true, true⟩

def setHash (hash : String) : HostM Unit :=
  queuePendingDispatch listenerWindow ⟨.window, "hashchange", some hash, true, true⟩

/-- The event that the end of loading queues. -/
def load : HostM Unit := queuePendingDispatch listenerWindow ⟨.window, "load", none, true, true⟩

def call [HtmlParser] : HostCall → HostM Unit
  | .edit operation => onDom (Page.edit operation.edit)
  | .elementFor node => elementFor node
  | .nextHostId => do
    let _ ← nextHostId
  | .appendChild element child => appendChild element child
  | .removeChild element child => removeChild element child
  | .focus element => focus element
  | .click element => click element
  | .dispatchEvent object record => dispatchEvent object record
  | .submit form => submit form
  | .historyMove state => historyMove state
  | .setHash hash => setHash hash

/-- The state after a list of calls. A call that fails keeps the edits it has made. -/
def calls [HtmlParser] (host : Host) (list : List HostCall) : Host :=
  list.foldl (fun host c => endState (call c) host) host

end Host

/-! ## The page -/

/-- Whether the active event can be cancelled and has been. -/
structure Canceling where
  cancelable : Bool
  defaultPrevented : Bool

structure PageRuntime (σ κ : Type) where
  host : Host
  listeners : Listeners κ
  canceling : Option Canceling
  submittedForms : List Submission
  validationErrors : List String
  engine : σ

inductive PageCall (κ : Type) where
  | listener (call : ListenerCall κ)
  | preventDefault
  | host (call : HostCall)

/-- What the callbacks of a page do, and the observer callbacks that are due at the end of
a turn. -/
structure PageScript (σ κ : Type) where
  handler : κ → PageRuntime σ κ → List (PageCall κ) × σ
  observers : PageRuntime σ κ → List κ

namespace PageRuntime

variable {σ κ : Type} [DecidableEq κ]

/-- The page as a callback sees it. -/
def erase (page : PageRuntime σ κ) : PageRuntime σ κ := { page with host := { page.host with history := [] } }

def preventDefault (page : PageRuntime σ κ) : PageRuntime σ κ :=
  { page with
    canceling := page.canceling.map fun active =>
      { active with defaultPrevented := active.defaultPrevented || active.cancelable } }

def call [HtmlParser] (page : PageRuntime σ κ) : PageCall κ → PageRuntime σ κ
  | .listener c => { page with listeners := page.listeners.call c }
  | .preventDefault => page.preventDefault
  | .host c => { page with host := endState (Host.call c) page.host }

def calls [HtmlParser] (page : PageRuntime σ κ) (list : List (PageCall κ)) : PageRuntime σ κ :=
  list.foldl call page

/-- `invoke_callback`, and the run of a script. -/
def runCallback [HtmlParser] (script : PageScript σ κ) (callback : κ) (page : PageRuntime σ κ) :
    PageRuntime σ κ :=
  let result := script.handler callback page.erase
  { page with engine := result.2 }.calls result.1

def runCallbacks [HtmlParser] (script : PageScript σ κ) (list : List κ) (page : PageRuntime σ κ) :
    PageRuntime σ κ :=
  list.foldl (fun page callback => page.runCallback script callback) page

def beginEvent (key : ListenerKey) (l : JsListener κ) (event : PageEvent)
    (page : PageRuntime σ κ) : PageRuntime σ κ :=
  { page with
    listeners := { page.listeners with
      activeEvent := some event.toDomEvent
      log := ⟨key, l.capture, l.id, l.once⟩ :: page.listeners.log }
    canceling := some ⟨event.cancelable, event.defaultPrevented⟩ }

/-- The event with what its listener has done to it. -/
def mergeEvent (event : PageEvent) (page : PageRuntime σ κ) : PageEvent :=
  match page.listeners.activeEvent, page.canceling with
  | some active, some canceling =>
    { event with
      propagationStopped := active.propagationStopped
      immediatePropagationStopped := active.immediatePropagationStopped
      defaultPrevented := canceling.defaultPrevented }
  | _, _ => event

def finishEvent (page : PageRuntime σ κ) : PageRuntime σ κ :=
  { page with listeners := { page.listeners with activeEvent := none }, canceling := none }

end PageRuntime

/-! ## The dispatch pass -/

/-- An event in flight, and how many listeners it has invoked. -/
structure PageDispatch (σ κ : Type) where
  event : PageEvent
  page : PageRuntime σ κ
  invoked : Nat

namespace PageDispatch

variable {σ κ : Type} [DecidableEq κ] [HtmlParser]

/-- `begin_event`, `invoke_callback` and `finish_event`. -/
def invoke (script : PageScript σ κ) (key : ListenerKey) (l : JsListener κ)
    (d : PageDispatch σ κ) : PageDispatch σ κ :=
  let page := (d.page.beginEvent key l d.event).runCallback script l.callback
  ⟨page.mergeEvent d.event, page.finishEvent, d.invoked + 1⟩

/-- The loop of `invoke_js_listeners`, with the `once` listeners it has run. -/
def invokeLoop (script : PageScript σ κ) (key : ListenerKey) :
    List (JsListener κ) → List Nat → PageDispatch σ κ → List Nat × PageDispatch σ κ
  | [], removeOnce, d => (removeOnce, d)
  | l :: rest, removeOnce, d =>
    if d.event.immediatePropagationStopped then (removeOnce, d)
    else
      invokeLoop script key rest (if l.once then l.id :: removeOnce else removeOnce)
        (d.invoke script key l)

/-- The end of `invoke_js_listeners`. -/
def retire (key : ListenerKey) (result : List Nat × PageDispatch σ κ) : PageDispatch σ κ :=
  { result.2 with
    page := { result.2.page with listeners := result.2.page.listeners.retire key result.1 } }

def invokeJsListeners (script : PageScript σ κ) (key : ListenerKey) (capture : Bool)
    (d : PageDispatch σ κ) : PageDispatch σ κ :=
  retire key
    (invokeLoop script key (d.page.listeners.matching key d.event.eventType capture) [] d)

/-- Visit keys until propagation is stopped. -/
def walk (pass : ListenerKey → PageDispatch σ κ → PageDispatch σ κ) :
    List ListenerKey → PageDispatch σ κ → PageDispatch σ κ
  | [], d => d
  | key :: keys, d => if d.event.propagationStopped then d else walk pass keys (pass key d)

/-- Capture and bubble listeners both fire at the target. -/
def atTarget (script : PageScript σ κ) (target : NodeId) (d : PageDispatch σ κ) :
    PageDispatch σ κ :=
  let d := if d.event.immediatePropagationStopped then d
    else d.invokeJsListeners script (.node target) true
  if d.event.immediatePropagationStopped then d
  else d.invokeJsListeners script (.node target) false

/-- Ancestors, then the window. -/
def bubblePhase (script : PageScript σ κ) (ancestors : List NodeId) (d : PageDispatch σ κ) :
    PageDispatch σ κ :=
  if d.event.bubbles && !d.event.propagationStopped then
    let d := walk (fun key => invokeJsListeners script key false) (ancestors.map .node) d
    if d.event.propagationStopped then d else d.invokeJsListeners script .window false
  else d

/-- `js_dispatch_pass` over the path of a target. -/
def jsDispatchPass (script : PageScript σ κ) (target : NodeId) (ancestors : List NodeId)
    (d : PageDispatch σ κ) : PageDispatch σ κ :=
  let d := walk (fun key => invokeJsListeners script key true) (ancestors.reverse.map .node) d
  (d.atTarget script target).bubblePhase script ancestors

end PageDispatch

abbrev PageM (σ κ : Type) := EStateM Failure (PageRuntime σ κ)

namespace PageRuntime

variable {σ κ : Type} [DecidableEq κ] [HtmlParser]

def onHost {α : Type} (program : HostM α) : PageM σ κ α := fun page =>
  match program page.host with
  | .ok value host => .ok value { page with host := host }
  | .error failure host => .error failure { page with host := host }

def record (step : EventStep) : PageM σ κ Unit :=
  modify fun page => { page with host := { page.host with history := step :: page.host.history } }

/-- The pass of an event along a path. -/
def dispatchAlong (script : PageScript σ κ) (target : NodeId) (path : List NodeId)
    (event : PageEvent) : PageM σ κ (PageEvent × Nat) := fun page =>
  let d := PageDispatch.jsDispatchPass script target path.tail ⟨event, page, 0⟩
  .ok (d.event, d.invoked) d.page

/-- `js_dispatch_pass`. Without an event path it fails before the first listener. -/
def jsDispatch (script : PageScript σ κ) (target : NodeId) (event : PageEvent) :
    PageM σ κ (PageEvent × Nat) := do
  match eventPath (← get).host.dom.toLiveDocument maxEventPath target with
  | some path => dispatchAlong script target path event
  | none => onHost (Host.fail "QuotaExceededError: event path depth exceeded")

def collectSubmission (form : NodeId) : PageM σ κ Unit :=
  modify fun page =>
    if page.submittedForms.length < 128 then
      { page with
        submittedForms :=
          page.submittedForms ++ [submission page.host.dom.toLiveDocument form] }
    else page

/-! ## `flush_pending` -/

/-- The dispatch of a queued event and the submission after it. -/
def deliverAlong (script : PageScript σ κ) (entry : PendingDispatch) (target : NodeId)
    (path : List NodeId) : PageM σ κ Nat := do
  let event := PageEvent.new entry.eventType entry.detail
  record (.delivered
    ⟨entry.place, event.eventType, event.detail, event.bubbles, event.cancelable⟩)
  let (event, invoked) ← dispatchAlong script target path event
  if event.eventType = "submit" ∧ event.defaultPrevented = false then collectSubmission target
  return invoked

/-- The delivery of one entry, with the number of listeners it has invoked. -/
def deliver (script : PageScript σ κ) (entry : PendingDispatch) : PageM σ κ Nat := do
  let document := (← get).host.dom.toLiveDocument
  if entry.node ≠ listenerWindow ∧ !document.nodes.contains entry.node then do
    record (.skipped entry)
    return 0
  else
    let target := if entry.node = listenerWindow then document.root else entry.node
    match eventPath document maxEventPath target with
    | none => do
      record (.aborted entry)
      onHost (Host.fail "QuotaExceededError: event path depth exceeded")
    | some path => deliverAlong script entry target path

/-- Deliver a batch, with the number of listeners invoked. An error loses the rest. -/
def deliverAll (script : PageScript σ κ) : List PendingDispatch → PageM σ κ Nat
  | [] => return 0
  | entry :: batch => do
    let invoked ← deliver script entry
    let more ← deliverAll script batch
    return invoked + more

/-- `mem::take` of the queue. -/
def takePending : PageM σ κ (List PendingDispatch) := do
  let batch := (← get).host.pendingDispatches
  modify fun page => { page with host := { page.host with pendingDispatches := [] } }
  return batch

def flushObserverCallbacks (script : PageScript σ κ) : PageM σ κ Nat := do
  let callbacks := script.observers (← get).erase
  modify (runCallbacks script callbacks)
  return callbacks.length

/-- The loop of `flush_pending`, with the turns it has left. -/
def flushRounds (script : PageScript σ κ) : Nat → Nat → PageM σ κ Nat
  | 0, total => return total
  | rounds + 1, total =>
    if total ≥ maxPendingTasks then return total
    else do
      let batch ← takePending
      let delivered ← deliverAll script batch
      let callbacks ← flushObserverCallbacks script
      if batch.isEmpty ∧ callbacks = 0 then return total
      else flushRounds script rounds (total + delivered + callbacks)

def flushPending (script : PageScript σ κ) : PageM σ κ Nat := do
  let total ← flushRounds script maxPendingTasks 0
  if (← get).host.pendingDispatches.isEmpty then record .flushed
  else record .truncated
  return total

/-! ## The click of the user -/

def validateForm (form : NodeId) : PageM σ κ Bool := do
  let names := emptyRequired (← get).host.dom.toLiveDocument form
  modify fun page => { page with
    validationErrors := page.validationErrors ++
      (names.map fun name => "required field '" ++ name ++ "' is empty").take
        (64 - page.validationErrors.length) }
  return names.isEmpty

/-- Note that a submission was carried out. -/
def performSubmit (form : NodeId) : PageM σ κ Unit :=
  modify fun page => { page with
    host := { page.host with performed := page.host.performed ++ [.submitForm form] } }

def runSubmitFlow (script : PageScript σ κ) (form : NodeId) : PageM σ κ Unit := do
  let (submit, _) ← jsDispatch script form (.new "submit" none)
  if submit.defaultPrevented then return ()
  else do
    performSubmit form
    if ← validateForm form then collectSubmission form

/-- The events that follow the default action of a click. -/
def followDefault (script : PageScript σ κ) (target : NodeId) (actions : List DefaultAction) :
    PageM σ κ Unit := do
  if actions.any DefaultAction.isChange then do
    onHost (Host.onDom (Page.dispatchEvent target))
    let _ ← jsDispatch script target (.new "change" none)
  match submittedForm actions with
  | some form => runSubmitFlow script form
  | none => return ()

def clickDefault (script : PageScript σ κ) (target : NodeId) : PageM σ κ Unit := do
  let actions ← onHost (Host.onDom (applyClickDefault target))
  onHost (Host.perform actions)
  followDefault script target actions

def click (script : PageScript σ κ) (target : NodeId) : PageM σ κ Unit := do
  onHost (Host.onDom (Page.dispatchEvent target))
  let (event, _) ← jsDispatch script target (.new "click" none)
  if event.defaultPrevented then return ()
  else clickDefault script target

/-! ## Runs -/

end PageRuntime

/-- A turn of the page: callbacks of a script, of timers or of animation frames, a flush,
an event of the embedder, a click of the user or the end of loading. -/
inductive PageTurn (κ : Type) where
  | callbacks (list : List κ)
  | flushPending
  | dispatch (target : NodeId) (event : PageEvent)
  | click (target : NodeId)
  | load

namespace PageRuntime

variable {σ κ : Type} [DecidableEq κ] [HtmlParser]

def turn (script : PageScript σ κ) (page : PageRuntime σ κ) : PageTurn κ → PageRuntime σ κ
  | .callbacks list => page.runCallbacks script list
  | .flushPending => endState (flushPending script) page
  | .dispatch target event => endState (jsDispatch script target event) page
  | .click target => endState (click script target) page
  | .load => endState (onHost Host.load) page

/-- A page of a document before its first script. -/
def start (document : LiveDocument) (engine : σ) : PageRuntime σ κ where
  host := {
    dom := { document with focused := none }
    elements := ∅
    handles := ∅
    nextElementId := 32
    pendingDispatches := []
    performed := []
    history := [] }
  listeners := .new
  canceling := none
  submittedForms := []
  validationErrors := []
  engine := engine

def run (script : PageScript σ κ) (document : LiveDocument) (engine : σ)
    (turns : List (PageTurn κ)) : PageRuntime σ κ :=
  turns.foldl (turn script) (start document engine)

end PageRuntime

/-! ## What delivery promises -/

/-- The events made and not yet delivered after a history, oldest first. -/
def awaited : List EventStep → List SentEvent
  | [] => []
  | .made event _ :: past => awaited past ++ [event]
  | .delivered _ :: past => (awaited past).tail
  | _ :: past => awaited past

/-- The step is in order after this history: an event is delivered as the call that made
the oldest awaited event has made it, and a flush that ends leaves none behind. -/
def EventStep.InOrder (past : List EventStep) : EventStep → Prop
  | delivered event => (awaited past).head? = some event
  | flushed => awaited past = []
  | _ => True

/-- Every event is delivered once, in order, as it was made. -/
def DeliversAsMade : List EventStep → Prop
  | [] => True
  | step :: past => step.InOrder past ∧ DeliversAsMade past

/-- The entry denotes the place the call was made on, and the event is one that bubbles
and can be cancelled. No entry is dropped, without a node, without an event path or left
over by a flush. -/
def EventStep.Kept : EventStep → Prop
  | made event entry =>
    entry.map PendingDispatch.place = some event.place ∧ event.bubbles = true ∧
      event.cancelable = true
  | delivered _ | flushed => True
  | skipped _ | aborted _ | truncated => False

def AllKept (history : List EventStep) : Prop := ∀ step ∈ history, step.Kept

instance EventStep.decidableInOrder (past : List EventStep) :
    (step : EventStep) → Decidable (step.InOrder past)
  | delivered event => inferInstanceAs (Decidable ((awaited past).head? = some event))
  | flushed => inferInstanceAs (Decidable (awaited past = []))
  | made _ _ | skipped _ | aborted _ | truncated => isTrue trivial

instance decidableDeliversAsMade : (history : List EventStep) → Decidable (DeliversAsMade history)
  | [] => isTrue trivial
  | step :: past =>
    @instDecidableAnd _ _ (step.decidableInOrder past) (decidableDeliversAsMade past)

instance EventStep.decidableKept : (step : EventStep) → Decidable step.Kept
  | made event entry =>
    inferInstanceAs (Decidable (entry.map PendingDispatch.place = some event.place ∧
      event.bubbles = true ∧ event.cancelable = true))
  | delivered _ | flushed => isTrue trivial
  | skipped _ | aborted _ | truncated => isFalse id

instance (history : List EventStep) : Decidable (AllKept history) :=
  inferInstanceAs (Decidable (∀ step ∈ history, step.Kept))

end GhitaBrowser.Page
