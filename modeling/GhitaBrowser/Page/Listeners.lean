import GhitaBrowser.Dom.LiveDocument
import GhitaBrowser.Page.Timers

/-!
# Script event listeners

The listener table of a page, the host calls that edit it and `js_dispatch_pass`, which
runs the listeners of an event over the event path. What a listener does to the table and
to the event is a list of host calls; a `Handler` gives it for every callback and every
state, with all invocations so far, so a run with an arbitrary handler is an arbitrary
run. The path is taken before the first listener runs, so later edits of the tree do not
matter to a dispatch.
-/

namespace GhitaBrowser.Page

open Dom

def maxJsListenersPerNode : Nat := 128

/-- A key of the listener table. `LISTENER_WINDOW` is a sentinel that no node has as its
id. -/
inductive ListenerKey where
  | window
  | node (id : NodeId)
deriving DecidableEq

structure JsListener (κ : Type) where
  id : Nat
  eventType : String
  capture : Bool
  once : Bool
  callback : κ

/-- What the dispatch reads and writes of a `DomEvent`. -/
structure DomEvent where
  eventType : String
  bubbles : Bool
  propagationStopped : Bool
  immediatePropagationStopped : Bool

structure Invocation where
  key : ListenerKey
  capture : Bool
  id : Nat
  once : Bool
deriving DecidableEq

/-- The part of `PageRuntimeState` that listeners live in, and as ghost state the key and
`once` of each id handed out and the invocations so far, newest first. -/
structure Listeners (κ : Type) where
  listeners : ListenerKey → List (JsListener κ)
  nextListenerId : Nat
  activeEvent : Option DomEvent
  registered : List (ListenerKey × Bool)
  log : List Invocation

/-- The host calls on listeners and on the active event, with host objects resolved. -/
inductive ListenerCall (κ : Type) where
  | addEventListener (key : ListenerKey) (eventType : String) (capture once : Bool) (callback : κ)
  | removeEventListener (key : ListenerKey) (eventType : String) (callback : κ)
  | stopPropagation
  | stopImmediatePropagation

/-- The host calls a callback makes in a state. -/
abbrev Handler (κ : Type) := κ → Listeners κ → List (ListenerCall κ)

namespace Listeners

variable {κ : Type}

def new : Listeners κ where
  listeners := fun _ => []
  nextListenerId := 0
  activeEvent := none
  registered := []
  log := []

def setListeners (key : ListenerKey) (entries : List (JsListener κ)) (s : Listeners κ) :
    Listeners κ :=
  { s with listeners := fun other => if other = key then entries else s.listeners other }

/-! ## Host calls -/

def registerListener (key : ListenerKey) (eventType : String) (capture once : Bool) (callback : κ)
    (s : Listeners κ) : Listeners κ :=
  if (s.listeners key).length ≥ maxJsListenersPerNode then s
  else if s.nextListenerId + 1 > maxU64 then s
  else
    let listener : JsListener κ := ⟨s.nextListenerId, eventType, capture, once, callback⟩
    { s with
      nextListenerId := s.nextListenerId + 1
      registered := s.registered ++ [(key, once)] }.setListeners key (s.listeners key ++ [listener])

def removeListener [DecidableEq κ] (key : ListenerKey) (eventType : String) (callback : κ)
    (s : Listeners κ) : Listeners κ :=
  s.setListeners key
    ((s.listeners key).filter fun l => l.eventType != eventType || l.callback != callback)

def stopPropagation (s : Listeners κ) : Listeners κ :=
  { s with activeEvent := s.activeEvent.map fun event => { event with propagationStopped := true } }

def stopImmediatePropagation (s : Listeners κ) : Listeners κ :=
  { s with
    activeEvent := s.activeEvent.map fun event =>
      { event with immediatePropagationStopped := true, propagationStopped := true } }

def call [DecidableEq κ] (s : Listeners κ) : ListenerCall κ → Listeners κ
  | .addEventListener key eventType capture once callback =>
    s.registerListener key eventType capture once callback
  | .removeEventListener key eventType callback => s.removeListener key eventType callback
  | .stopPropagation => s.stopPropagation
  | .stopImmediatePropagation => s.stopImmediatePropagation

def calls [DecidableEq κ] (s : Listeners κ) (list : List (ListenerCall κ)) : Listeners κ :=
  list.foldl call s

/-- The listeners of a key for a type and a phase, in registration order. -/
def matching (s : Listeners κ) (key : ListenerKey) (eventType : String) (capture : Bool) :
    List (JsListener κ) :=
  (s.listeners key).filter fun l => l.eventType == eventType && l.capture == capture

/-- Remove the `once` listeners that have run. -/
def retire (key : ListenerKey) (removeOnce : List Nat) (s : Listeners κ) : Listeners κ :=
  if removeOnce = [] then s
  else s.setListeners key ((s.listeners key).filter fun l => l.id ∉ removeOnce)

end Listeners

/-- An event in flight. -/
structure Dispatch (κ : Type) where
  event : DomEvent
  page : Listeners κ

namespace Dispatch

variable {κ : Type} [DecidableEq κ]

/-! ## The dispatch pass -/

/-- `begin_event`, `invoke_callback` and `finish_event`. -/
def invoke (handler : Handler κ) (key : ListenerKey) (l : JsListener κ) (d : Dispatch κ) :
    Dispatch κ :=
  let page := { d.page with
    activeEvent := some d.event
    log := ⟨key, l.capture, l.id, l.once⟩ :: d.page.log }
  let page := page.calls (handler l.callback page)
  let event :=
    match page.activeEvent with
    | some active =>
      { d.event with
        propagationStopped := active.propagationStopped
        immediatePropagationStopped := active.immediatePropagationStopped }
    | none => d.event
  ⟨event, { page with activeEvent := none }⟩

/-- The loop of `invoke_js_listeners`, with the `once` listeners it has run. -/
def invokeLoop (handler : Handler κ) (key : ListenerKey) :
    List (JsListener κ) → List Nat → Dispatch κ → List Nat × Dispatch κ
  | [], removeOnce, d => (removeOnce, d)
  | l :: rest, removeOnce, d =>
    if d.event.immediatePropagationStopped then (removeOnce, d)
    else
      invokeLoop handler key rest (if l.once then l.id :: removeOnce else removeOnce)
        (d.invoke handler key l)

/-- The end of `invoke_js_listeners`. -/
def retire (key : ListenerKey) (result : List Nat × Dispatch κ) : Dispatch κ :=
  { result.2 with page := result.2.page.retire key result.1 }

def invokeJsListeners (handler : Handler κ) (key : ListenerKey) (capture : Bool) (d : Dispatch κ) :
    Dispatch κ :=
  retire key (invokeLoop handler key (d.page.matching key d.event.eventType capture) [] d)

/-- Visit keys until propagation is stopped. -/
def walk (pass : ListenerKey → Dispatch κ → Dispatch κ) : List ListenerKey → Dispatch κ → Dispatch κ
  | [], d => d
  | key :: keys, d => if d.event.propagationStopped then d else walk pass keys (pass key d)

/-- Capture and bubble listeners both fire at the target. -/
def atTarget (handler : Handler κ) (target : NodeId) (d : Dispatch κ) : Dispatch κ :=
  let d := if d.event.immediatePropagationStopped then d
    else d.invokeJsListeners handler (.node target) true
  if d.event.immediatePropagationStopped then d
  else d.invokeJsListeners handler (.node target) false

/-- Ancestors, then the window. -/
def bubblePhase (handler : Handler κ) (ancestors : List NodeId) (d : Dispatch κ) : Dispatch κ :=
  if d.event.bubbles && !d.event.propagationStopped then
    let d := walk (fun key => invokeJsListeners handler key false) (ancestors.map .node) d
    if d.event.propagationStopped then d else d.invokeJsListeners handler .window false
  else d

/-- `js_dispatch_pass` over the path of a target. -/
def jsDispatchPass (handler : Handler κ) (target : NodeId) (ancestors : List NodeId)
    (d : Dispatch κ) : Dispatch κ :=
  let d := walk (fun key => invokeJsListeners handler key true) (ancestors.reverse.map .node) d
  (d.atTarget handler target).bubblePhase handler ancestors

end Dispatch

/-- `event_path`, with `room` nodes before the limit. -/
def eventPath (document : LiveDocument) : Nat → NodeId → Option (List NodeId)
  | 0, _ => none
  | room + 1, node =>
    match document.nodes[node]? with
    | none => none
    | some entry =>
      match entry.parent with
      | none => some [node]
      | some parent => (eventPath document room parent).map (node :: ·)

/-- A script turn with the calls it makes, or a dispatch on the document as it then is. -/
inductive ListenerTurn (κ : Type) where
  | script (calls : List (ListenerCall κ))
  | dispatch (document : LiveDocument) (target : NodeId) (event : DomEvent)

namespace Listeners

variable {κ : Type} [DecidableEq κ]

/-- The dispatch of an event. Without an event path it fails before the first listener. -/
def dispatch (handler : Handler κ) (document : LiveDocument) (target : NodeId) (event : DomEvent)
    (s : Listeners κ) : Listeners κ :=
  match eventPath document maxEventPath target with
  | none => s
  | some path => (Dispatch.jsDispatchPass handler target path.tail ⟨event, s⟩).page

def turn (handler : Handler κ) (s : Listeners κ) : ListenerTurn κ → Listeners κ
  | .script list => s.calls list
  | .dispatch document target event => s.dispatch handler document target event

def run (handler : Handler κ) (turns : List (ListenerTurn κ)) : Listeners κ :=
  turns.foldl (turn handler) new

end Listeners

/-! ## DOM event flow -/

namespace Dispatch

variable {κ : Type} [DecidableEq κ]

/-- The listener is still in the list of its key. -/
def Registered (key : ListenerKey) (l : JsListener κ) (d : Dispatch κ) : Prop :=
  l.id ∈ (d.page.listeners key).map JsListener.id

instance (key : ListenerKey) (l : JsListener κ) (d : Dispatch κ) :
    Decidable (d.Registered key l) :=
  inferInstanceAs (Decidable (l.id ∈ (d.page.listeners key).map JsListener.id))

/-- The listeners of one node in registration order, without the ones removed meanwhile. -/
def flowLoop (handler : Handler κ) (key : ListenerKey) :
    List (JsListener κ) → List Nat → Dispatch κ → List Nat × Dispatch κ
  | [], removeOnce, d => (removeOnce, d)
  | l :: rest, removeOnce, d =>
    if d.event.immediatePropagationStopped then (removeOnce, d)
    else if d.Registered key l then
      flowLoop handler key rest (if l.once then l.id :: removeOnce else removeOnce)
        (d.invoke handler key l)
    else flowLoop handler key rest removeOnce d

def flowListeners (handler : Handler κ) (key : ListenerKey) (capture : Bool) (d : Dispatch κ) :
    Dispatch κ :=
  retire key (flowLoop handler key (d.page.matching key d.event.eventType capture) [] d)

/-- The keys of the capture phase, from the outside in. -/
def captureKeys (ancestors : List NodeId) : List ListenerKey :=
  .window :: ancestors.reverse.map .node

/-- The keys of the bubble phase, outward. -/
def bubbleKeys (ancestors : List NodeId) : List ListenerKey := ancestors.map .node ++ [.window]

def flowCapture (handler : Handler κ) (ancestors : List NodeId) (d : Dispatch κ) : Dispatch κ :=
  walk (fun key => flowListeners handler key true) (captureKeys ancestors) d

/-- The capture listeners of the target and then its others. Propagation that was stopped
before does not reach the target. -/
def flowTarget (handler : Handler κ) (target : NodeId) (d : Dispatch κ) : Dispatch κ :=
  if d.event.propagationStopped then d
  else (d.flowListeners handler (.node target) true).flowListeners handler (.node target) false

def flowBubble (handler : Handler κ) (ancestors : List NodeId) (d : Dispatch κ) : Dispatch κ :=
  if d.event.bubbles then
    walk (fun key => flowListeners handler key false) (bubbleKeys ancestors) d
  else d

/-- The dispatch as DOM event flow prescribes it: the window and the ancestors from the
outside in, the target, and for an event that bubbles the ancestors and the window
outward. -/
def flow (handler : Handler κ) (target : NodeId) (ancestors : List NodeId) (d : Dispatch κ) :
    Dispatch κ :=
  ((d.flowCapture handler ancestors).flowTarget handler target).flowBubble handler ancestors

end Dispatch

end GhitaBrowser.Page
