import GhitaBrowser.Dom.NodeStore
import GhitaBrowser.Page.Clicks
import GhitaBrowser.Page.EventFlow

/-!
# When the two clicks agree

A listener on the path of an event is invoked, and an event that no listener hears changes
nothing. Each click is followed step by step, and the two agree wherever they are alike.
-/

namespace GhitaBrowser.Page

open Dom List

variable {actions : List DefaultAction} {dom : FocusedDocument} {eventType : String} {host : Host}

/-! ## Listeners that hear an event are invoked -/

namespace PageRuntime

variable {σ κ : Type} [DecidableEq κ] [HtmlParser] {script : PageScript σ κ}

theorem log_calls (page : PageRuntime σ κ) (list : List (PageCall κ)) :
    (page.calls list).listeners.log = page.listeners.log := by
  induction list generalizing page with
  | nil => rfl
  | cons c list ih =>
    refine (ih (page.call c)).trans ?_
    cases c with
    | listener c => exact Listeners.log_call page.listeners c
    | preventDefault => rfl
    | host c => rfl

end PageRuntime

namespace PageDispatch

variable {σ κ : Type} [DecidableEq κ] [HtmlParser] {script : PageScript σ κ}
  {d : PageDispatch σ κ}

def invocations (d : PageDispatch σ κ) : Nat := d.page.listeners.log.length

theorem invocations_invoke (key : ListenerKey) (l : JsListener κ) (d : PageDispatch σ κ) :
    (d.invoke script key l).invocations = d.invocations + 1 :=
  congrArg List.length (PageRuntime.log_calls _ _)

omit [DecidableEq κ] [HtmlParser] in
theorem invocations_retire (key : ListenerKey) (removeOnce : List Nat) (d : PageDispatch σ κ) :
    (retire key (removeOnce, d)).invocations = d.invocations :=
  congrArg List.length (Listeners.log_retire d.page.listeners key removeOnce)

theorem stable_invocations (n : Nat) : Stable script fun d => n ≤ d.invocations where
  invoke key l d h := by
    rw [invocations_invoke]
    exact Nat.le_succ_of_le h
  retire key removeOnce d h := by
    rw [invocations_retire]
    exact h

theorem lt_invokeJsListeners (script : PageScript σ κ) {key : ListenerKey} {capture : Bool}
    (himmediate : d.event.immediatePropagationStopped = false)
    (h : d.page.listeners.matching key d.event.eventType capture ≠ []) :
    d.invocations < (d.invokeJsListeners script key capture).invocations := by
  obtain ⟨l, rest, hlist⟩ := exists_cons_of_ne_nil h
  have hfirst : d.invocations + 1 ≤ (d.invoke script key l).invocations :=
    Nat.le_of_eq (invocations_invoke key l d).symm
  have hstable : Stable script fun later : PageDispatch σ κ => d.invocations + 1 ≤ later.invocations :=
    stable_invocations _
  unfold invokeJsListeners
  rw [hlist, invokeLoop, himmediate, if_neg Bool.false_ne_true]
  exact hstable.retire key _ _ (hstable.invokeLoop key rest _ _ hfirst)

theorem lt_walk (script : PageScript σ κ) {capture : Bool} {keys : List ListenerKey}
    (hstopped : d.event.propagationStopped = false)
    (himmediate : d.event.immediatePropagationStopped = false)
    (h : ∃ key ∈ keys, d.page.listeners.matching key d.event.eventType capture ≠ []) :
    d.invocations <
      (walk (fun key => invokeJsListeners script key capture) keys d).invocations := by
  induction keys with
  | nil =>
    obtain ⟨key, hkey, -⟩ := h
    cases hkey
  | cons key keys ih =>
    unfold walk
    rw [if_neg (by rw [hstopped]; exact Bool.false_ne_true)]
    by_cases hidle : d.page.listeners.matching key d.event.eventType capture = []
    · rw [invokeJsListeners_idle hidle]
      obtain ⟨other, hother, hheard⟩ := h
      rcases mem_cons.mp hother with rfl | hother
      · exact absurd hidle hheard
      · exact ih ⟨other, hother, hheard⟩
    · exact (stable_invocations _).walk capture keys _ (lt_invokeJsListeners script himmediate hidle)

/-- The event bubbles and nothing has stopped it yet. -/
structure Fresh (event : PageEvent) : Prop where
  bubbles : event.bubbles = true
  propagation : event.propagationStopped = false
  immediate : event.immediatePropagationStopped = false

omit [DecidableEq κ] [HtmlParser] in
theorem hears_iff (listeners : Listeners κ) (target : NodeId) (path : List NodeId)
    (eventType : String) :
    Hears listeners target path eventType ↔
      (∃ key ∈ path.tail.reverse.map ListenerKey.node, listeners.matching key eventType true ≠ []) ∨
      listeners.matching (.node target) eventType true ≠ [] ∨
      listeners.matching (.node target) eventType false ≠ [] ∨
      (∃ key ∈ path.tail.map ListenerKey.node, listeners.matching key eventType false ≠ []) ∨
      listeners.matching .window eventType false ≠ [] := by
  unfold Hears stations
  constructor
  · rintro ⟨station, hstation, hheard⟩
    rcases mem_append.mp hstation with hstation | hstation
    · obtain ⟨node, hnode, rfl⟩ := mem_map.mp hstation
      exact .inl ⟨.node node, mem_map_of_mem hnode, hheard⟩
    rcases mem_cons.mp hstation with rfl | hstation
    · exact .inr (.inl hheard)
    rcases mem_cons.mp hstation with rfl | hstation
    · exact .inr (.inr (.inl hheard))
    rcases mem_append.mp hstation with hstation | hstation
    · obtain ⟨node, hnode, rfl⟩ := mem_map.mp hstation
      exact .inr (.inr (.inr (.inl ⟨.node node, mem_map_of_mem hnode, hheard⟩)))
    · cases mem_singleton.mp hstation
      exact .inr (.inr (.inr (.inr hheard)))
  · rintro (⟨key, hkey, hheard⟩ | hheard | hheard | ⟨key, hkey, hheard⟩ | hheard)
    · obtain ⟨node, hnode, rfl⟩ := mem_map.mp hkey
      exact ⟨(.node node, true), mem_append_left _ (mem_map_of_mem hnode), hheard⟩
    · exact ⟨(.node target, true), mem_append_right _ mem_cons_self, hheard⟩
    · exact ⟨(.node target, false),
        mem_append_right _ (mem_cons_of_mem _ mem_cons_self), hheard⟩
    · obtain ⟨node, hnode, rfl⟩ := mem_map.mp hkey
      exact ⟨(.node node, false), mem_append_right _ (mem_cons_of_mem _
        (mem_cons_of_mem _ (mem_append_left _ (mem_map_of_mem hnode)))), hheard⟩
    · exact ⟨(.window, false), mem_append_right _ (mem_cons_of_mem _
        (mem_cons_of_mem _ (mem_append_right _ mem_cons_self))), hheard⟩

omit [DecidableEq κ] [HtmlParser] in
theorem forall_idle_of_not_exists {keys : List ListenerKey} {capture : Bool}
    {listeners : Listeners κ} (h : ¬ ∃ key ∈ keys, listeners.matching key eventType capture ≠ []) :
    ∀ key ∈ keys, listeners.matching key eventType capture = [] := fun key hkey =>
  not_not.mp fun hheard => h ⟨key, hkey, hheard⟩

theorem jsDispatchPass_idle {target : NodeId} {path : List NodeId}
    (h : ¬ Hears d.page.listeners target path d.event.eventType) :
    d.jsDispatchPass script target path.tail = d := by
  rw [hears_iff, not_or, not_or, not_or, not_or, not_not, not_not, not_not] at h
  obtain ⟨hcapture, htarget, htarget', hbubble, hwindow⟩ := h
  unfold jsDispatchPass
  rw [walk_idle (forall_idle_of_not_exists hcapture)]
  show bubblePhase script path.tail (d.atTarget script target) = d
  rw [atTarget_idle htarget htarget']
  exact bubblePhase_idle (forall_idle_of_not_exists hbubble) hwindow

theorem lt_atTarget {target : NodeId} (himmediate : d.event.immediatePropagationStopped = false)
    (h : d.page.listeners.matching (.node target) d.event.eventType true ≠ [] ∨
      d.page.listeners.matching (.node target) d.event.eventType false ≠ []) :
    d.invocations < (d.atTarget script target).invocations := by
  have hstable : Stable script fun later : PageDispatch σ κ => d.invocations + 1 ≤ later.invocations :=
    stable_invocations _
  unfold atTarget
  rw [himmediate, if_neg Bool.false_ne_true]
  by_cases hcapture : d.page.listeners.matching (.node target) d.event.eventType true = []
  · rw [invokeJsListeners_idle hcapture]
    show d.invocations < (if d.event.immediatePropagationStopped then _ else _ :
      PageDispatch σ κ).invocations
    rw [himmediate, if_neg Bool.false_ne_true]
    exact lt_invokeJsListeners script himmediate (h.resolve_left (not_not_intro hcapture))
  · have hlt := lt_invokeJsListeners script himmediate hcapture
    exact iteInduction (motive := fun later => d.invocations + 1 ≤ invocations later)
      (fun _ => hlt) fun _ => hstable.invokeJsListeners _ _ _ hlt

theorem lt_bubblePhase {ancestors : List NodeId} (fresh : Fresh d.event)
    (h : (∃ key ∈ ancestors.map ListenerKey.node,
        d.page.listeners.matching key d.event.eventType false ≠ []) ∨
      d.page.listeners.matching .window d.event.eventType false ≠ []) :
    d.invocations < (d.bubblePhase script ancestors).invocations := by
  have hstable : Stable script fun later : PageDispatch σ κ => d.invocations + 1 ≤ later.invocations :=
    stable_invocations _
  unfold bubblePhase
  rw [fresh.bubbles, fresh.propagation, if_pos (show (true && !false) = true from rfl)]
  by_cases hancestors : ∃ key ∈ ancestors.map ListenerKey.node,
      d.page.listeners.matching key d.event.eventType false ≠ []
  · have hlt := lt_walk script fresh.propagation fresh.immediate hancestors
    exact iteInduction (motive := fun later => d.invocations + 1 ≤ invocations later)
      (fun _ => hlt) fun _ => hstable.invokeJsListeners _ _ _ hlt
  · rw [walk_idle (forall_idle_of_not_exists hancestors)]
    show d.invocations < (if d.event.propagationStopped then _ else _ :
      PageDispatch σ κ).invocations
    rw [fresh.propagation, if_neg Bool.false_ne_true]
    exact lt_invokeJsListeners script fresh.immediate (h.resolve_left hancestors)

theorem lt_jsDispatchPass {target : NodeId} {path : List NodeId} (fresh : Fresh d.event)
    (h : Hears d.page.listeners target path d.event.eventType) :
    d.invocations < (d.jsDispatchPass script target path.tail).invocations := by
  have hstable : Stable script fun later : PageDispatch σ κ => d.invocations + 1 ≤ later.invocations :=
    stable_invocations _
  rw [hears_iff] at h
  unfold jsDispatchPass
  by_cases hcapture : ∃ key ∈ path.tail.reverse.map ListenerKey.node,
      d.page.listeners.matching key d.event.eventType true ≠ []
  · exact hstable.bubblePhase _ _ (hstable.atTarget _ _
      (lt_walk script fresh.propagation fresh.immediate hcapture))
  rw [walk_idle (forall_idle_of_not_exists hcapture)]
  show d.invocations < (bubblePhase script path.tail (d.atTarget script target)).invocations
  by_cases htarget : d.page.listeners.matching (.node target) d.event.eventType true ≠ [] ∨
      d.page.listeners.matching (.node target) d.event.eventType false ≠ []
  · exact hstable.bubblePhase _ _ (lt_atTarget fresh.immediate htarget)
  · have hbubble := (h.resolve_left hcapture).elim (fun h => absurd (.inl h) htarget) fun h =>
      h.resolve_left fun h => htarget (.inr h)
    rw [not_or, not_not, not_not] at htarget
    rw [atTarget_idle htarget.1 htarget.2]
    exact lt_bubblePhase fresh hbubble

end PageDispatch

/-! ## The two clicks step by step -/

theorem contains_of_eventPath {document : LiveDocument} {room : Nat} {node : NodeId}
    {path : List NodeId} (h : eventPath document room node = some path) :
    ∃ entry, document.nodes[node]? = some entry := by
  cases room with
  | zero => cases h
  | succ room =>
    unfold eventPath at h
    split at h
    · cases h
    · next entry hentry => exact ⟨entry, hentry⟩

theorem edit_requireNode (dom : FocusedDocument) (target : NodeId) :
    edit (requireNode target) dom =
      match dom.toLiveDocument.nodes[target]? with
      | some entry => .ok entry dom
      | none => .error (.error "NotFoundError: node does not belong to this document") dom := by
  unfold edit
  cases hentry : dom.toLiveDocument.nodes[target]? with
  | some entry => rw [requireNode_ok hentry]
  | none => rw [requireNode_missing hentry]

theorem dispatchEvent_ok {target : NodeId} {path : List NodeId}
    (h : eventPath dom.toLiveDocument maxEventPath target = some path) :
    dispatchEvent target dom = .ok () dom := by
  obtain ⟨entry, hentry⟩ := contains_of_eventPath h
  have hrequire := edit_requireNode dom target
  rw [hentry] at hrequire
  rw [dispatchEvent, bind_ok hrequire, bind_get, h]
  rfl

theorem dispatchEvent_error {target : NodeId}
    (h : eventPath dom.toLiveDocument maxEventPath target = none) :
    ∃ failure, dispatchEvent target dom = .error failure dom := by
  have hrequire := edit_requireNode dom target
  cases hentry : dom.toLiveDocument.nodes[target]? with
  | none =>
    rw [hentry] at hrequire
    exact ⟨_, bind_error hrequire⟩
  | some entry =>
    rw [hentry] at hrequire
    refine ⟨.error "QuotaExceededError: event path depth exceeded", ?_⟩
    rw [dispatchEvent, bind_ok hrequire, bind_get, h]
    rfl

section

variable {α : Type} {value : α} {failure : Failure}

theorem onDom_ok {program : Activation α} (h : program host.dom = .ok value dom) :
    Host.onDom program host = .ok value { host with dom := dom } := by
  unfold Host.onDom
  rw [h]

theorem onDom_error {program : Activation α} (h : program host.dom = .error failure dom) :
    Host.onDom program host = .error failure { host with dom := dom } := by
  unfold Host.onDom
  rw [h]

theorem onHost_ok {σ κ : Type} {program : HostM α} {page : PageRuntime σ κ}
    (h : program page.host = .ok value host) :
    PageRuntime.onHost program page = .ok value { page with host := host } := by
  unfold PageRuntime.onHost
  rw [h]

theorem onHost_error {σ κ : Type} {program : HostM α} {page : PageRuntime σ κ}
    (h : program page.host = .error failure host) :
    PageRuntime.onHost program page = .error failure { page with host := host } := by
  unfold PageRuntime.onHost
  rw [h]

end

namespace PageRuntime

variable {σ κ : Type} [DecidableEq κ] [HtmlParser] {script : PageScript σ κ}
  {page : PageRuntime σ κ} {target : NodeId} {path : List NodeId}

omit [DecidableEq κ] [HtmlParser] in
theorem onHost_dispatchEvent_ok
    (h : eventPath page.host.dom.toLiveDocument maxEventPath target = some path) :
    onHost (Host.onDom (Page.dispatchEvent target)) page = .ok () page :=
  onHost_ok (onDom_ok (dispatchEvent_ok h))

omit [DecidableEq κ] [HtmlParser] in
theorem onHost_dispatchEvent_error
    (h : eventPath page.host.dom.toLiveDocument maxEventPath target = none) :
    ∃ failure, onHost (Host.onDom (Page.dispatchEvent target)) page = .error failure page := by
  obtain ⟨failure, hdispatch⟩ := dispatchEvent_error h
  exact ⟨failure, onHost_error (onDom_error hdispatch)⟩

/-- The dispatch of a new event. -/
def dispatched (script : PageScript σ κ) (page : PageRuntime σ κ) (target : NodeId)
    (path : List NodeId) (eventType : String) : PageDispatch σ κ :=
  PageDispatch.jsDispatchPass script target path.tail ⟨.new eventType none, page, 0⟩

theorem jsDispatch_ok (eventType : String)
    (h : eventPath page.host.dom.toLiveDocument maxEventPath target = some path) :
    jsDispatch script target (.new eventType none) page =
      .ok ((dispatched script page target path eventType).event,
          (dispatched script page target path eventType).invoked)
        (dispatched script page target path eventType).page := by
  rw [jsDispatch, bind_get, h]
  rfl

theorem userClick_none (h : eventPath page.host.dom.toLiveDocument maxEventPath target = none) :
    userClick script target page = page := by
  obtain ⟨failure, hdispatch⟩ := onHost_dispatchEvent_error h
  exact endState_bind_error hdispatch

/-- The listeners of the click run first. -/
theorem userClick_some
    (h : eventPath page.host.dom.toLiveDocument maxEventPath target = some path) :
    userClick script target page =
      if (dispatched script page target path "click").event.defaultPrevented then
        (dispatched script page target path "click").page
      else
        endState (clickDefault script target) (dispatched script page target path "click").page := by
  have hclick : userClick script target page =
      endState (if (dispatched script page target path "click").event.defaultPrevented then
          Pure.pure () else clickDefault script target : PageM σ κ Unit)
        (dispatched script page target path "click").page :=
    (endState_bind_ok (onHost_dispatchEvent_ok h)).trans (endState_bind_ok (jsDispatch_ok "click" h))
  rw [hclick]
  split <;> rfl

/-! The click of a script. -/

/-- The entries that a click queues. -/
def clickBatch (target : NodeId) (actions : List DefaultAction) : List PendingDispatch :=
  ⟨target, "click", none⟩ ::
    if actions.any DefaultAction.isToggle then [⟨target, "change", none⟩] else []

/-- The page after the default action of a click. -/
def defaulted (page : PageRuntime σ κ) (actions : List DefaultAction) (after : FocusedDocument) :
    PageRuntime σ κ :=
  { page with
    host := { page.host with
      dom := after
      performed := page.host.performed ++ actions.filter DefaultAction.isCarriedOut } }

/-- The page when no event is queued. -/
def unqueued (page : PageRuntime σ κ) : PageRuntime σ κ :=
  { page with host := { page.host with pendingDispatches := [] } }

omit [DecidableEq κ] [HtmlParser] in
theorem unqueued_eq (h : page.host.pendingDispatches = []) : page.unqueued = page := by
  obtain ⟨host, _, _, _, _, _⟩ := page
  obtain ⟨_, _, _, _, _, _, _⟩ := host
  cases h
  rfl

omit [DecidableEq κ] [HtmlParser] in
theorem click_eq {handle : Nat} (hhandle : page.host.elements[handle]? = some target) :
    Host.click handle page.host = Host.clickNode target page.host := by
  have hlocator : Host.locator handle page.host = .ok target page.host := by
    rw [Host.locator, bind_get, hhandle]
    rfl
  exact bind_ok hlocator

theorem scriptClick_eq (script : PageScript σ κ) {handle : Nat} {result : Host}
    (h : endState (Host.call (.click handle)) page.host = result) :
    scriptClick script handle page =
      endState (deliverAll script result.pendingDispatches)
        (unqueued { page with host := result }) := by
  have hcall : page.call (.host (.click handle)) = { page with host := result } :=
    congrArg (fun host => ({ page with host := host } : PageRuntime σ κ)) h
  unfold scriptClick
  rw [hcall]
  have htake : takePending ({ page with host := result } : PageRuntime σ κ) =
      .ok result.pendingDispatches (unqueued { page with host := result }) := rfl
  unfold endState
  rw [bind_ok htake]
  cases hdeliver : deliverAll script result.pendingDispatches (unqueued { page with host := result }) with
  | ok invoked after =>
    rw [bind_ok hdeliver]
    rfl
  | error failure after => rw [bind_error hdeliver]

variable {after : FocusedDocument}

theorem scriptClick_error {handle : Nat} (hhandle : page.host.elements[handle]? = some target)
    (hpending : page.host.pendingDispatches = []) {failure : Failure}
    (h : nativeClick target page.host.dom = .error failure after) :
    scriptClick script handle page = { page with host := { page.host with dom := after } } := by
  have hclick : Host.call (.click handle) page.host =
      .error failure { page.host with dom := after } :=
    (click_eq hhandle).trans (bind_error (onDom_error h))
  have hend : endState (Host.call (.click handle)) page.host = { page.host with dom := after } := by
    unfold endState
    rw [hclick]
  rw [scriptClick_eq script hend]
  show endState (deliverAll script page.host.pendingDispatches) _ = _
  rw [hpending]
  exact unqueued_eq hpending

omit [HtmlParser] in
theorem queuePendingDispatch_eq (host : Host) (node : Nat) (event : SentEvent)
    (h : host.pendingDispatches.length < maxPendingTasks) :
    Host.queuePendingDispatch node event host = .ok ()
      { host with
        pendingDispatches := host.pendingDispatches ++ [⟨node, event.eventType, event.detail⟩]
        history := .made event (some ⟨node, event.eventType, event.detail⟩) :: host.history } :=
  congrArg (EStateM.Result.ok ()) (if_neg (Nat.not_le.mpr h))

omit [HtmlParser] in
theorem clickNode_ok (hpending : host.pendingDispatches = [])
    (h : nativeClick target host.dom = .ok actions after) :
    ∃ history, Host.clickNode target host = .ok ()
      { host with
        dom := after
        performed := host.performed ++ actions.filter DefaultAction.isCarriedOut
        pendingDispatches := clickBatch target actions
        history := history } := by
  obtain ⟨dom, elements, handles, nextElementId, pending, performed, history⟩ := host
  cases hpending
  have hshort : ∀ list : List PendingDispatch, list.length ≤ 1 → list.length < maxPendingTasks :=
    fun _ hlength => Nat.lt_of_le_of_lt hlength (by decide)
  -- The states after the default action, with its actions noted and with the click queued.
  let noted : Host := ⟨after, elements, handles, nextElementId, [],
    performed ++ actions.filter DefaultAction.isCarriedOut, history⟩
  have hperform : Host.perform actions ⟨after, elements, handles, nextElementId, [], performed, history⟩ =
      .ok () noted := rfl
  let made : SentEvent := ⟨.node target, "click", none, true, true⟩
  let clicked : Host := { noted with
    pendingDispatches := [⟨target, "click", none⟩]
    history := .made made (some ⟨target, "click", none⟩) :: history }
  have hclick : Host.queuePendingDispatch target made noted = .ok () clicked :=
    queuePendingDispatch_eq noted target made (hshort _ (Nat.zero_le 1))
  let change : SentEvent := ⟨.node target, "change", none, true, true⟩
  have hstart : Host.clickNode target ⟨dom, elements, handles, nextElementId, [], performed, history⟩ =
      (if actions.any DefaultAction.isToggle then Host.queuePendingDispatch target change
        else Pure.pure () : HostM Unit) clicked :=
    (bind_ok (onDom_ok h)).trans ((bind_ok hperform).trans (bind_ok hclick))
  unfold clickBatch
  by_cases htoggle : actions.any DefaultAction.isToggle = true
  · have hchange := queuePendingDispatch_eq clicked target change (hshort _ (Nat.le_refl 1))
    rw [if_pos htoggle]
    exact ⟨_, hstart.trans ((congrFun (if_pos htoggle) clicked).trans hchange)⟩
  · rw [if_neg htoggle]
    exact ⟨_, hstart.trans (congrFun (if_neg htoggle) clicked)⟩

theorem scriptClick_ok (script : PageScript σ κ) {handle : Nat}
    (hhandle : page.host.elements[handle]? = some target)
    (hpending : page.host.pendingDispatches = [])
    (h : nativeClick target page.host.dom = .ok actions after) :
    ∃ start : PageRuntime σ κ, start.erase = (defaulted page actions after).erase ∧
      scriptClick script handle page =
        endState (deliverAll script (clickBatch target actions)) start := by
  obtain ⟨history, hclick⟩ := clickNode_ok hpending h
  have hend : endState (Host.call (.click handle)) page.host =
      { page.host with
        dom := after
        performed := page.host.performed ++ actions.filter DefaultAction.isCarriedOut
        pendingDispatches := clickBatch target actions
        history := history } := by
    unfold endState
    rw [show Host.call (.click handle) page.host = _ from (click_eq hhandle).trans hclick]
  refine ⟨_, ?_, scriptClick_eq script hend⟩
  have hunqueued : (defaulted page actions after).unqueued = defaulted page actions after :=
    unqueued_eq hpending
  rw [← hunqueued]
  rfl

theorem eventType_dispatched (script : PageScript σ κ) (page : PageRuntime σ κ) (target : NodeId)
    (path : List NodeId) (eventType : String) :
    (dispatched script page target path eventType).event.eventType = eventType := by
  have hstable : PageDispatch.Stable script fun d => d.event.eventType = eventType := by
    refine ⟨fun key l d h => ?_, fun _ _ _ h => h⟩
    show (mergeEvent d.event _).eventType = eventType
    unfold mergeEvent
    split
    · exact h
    · exact h
  exact hstable.jsDispatchPass target path.tail _ rfl

theorem deliver_eq (script : PageScript σ κ) (hwindow : target ≠ listenerWindow)
    (hsubmit : eventType ≠ "submit")
    (h : eventPath page.host.dom.toLiveDocument maxEventPath target = some path) :
    ∃ start : PageRuntime σ κ, start.erase = page.erase ∧
      deliver script ⟨target, eventType, none⟩ page =
        .ok (dispatched script start target path eventType).invoked
          (dispatched script start target path eventType).page := by
  obtain ⟨entry, hentry⟩ := contains_of_eventPath h
  have hcontains : page.host.dom.toLiveDocument.nodes.contains target = true := by
    rw [IdMap.contains_iff, hentry]
    rfl
  let sent : SentEvent := ⟨PendingDispatch.place ⟨target, eventType, none⟩, eventType, none, true, true⟩
  let start : PageRuntime σ κ :=
    { page with host := { page.host with history := .delivered sent :: page.host.history } }
  have halong : deliverAlong script ⟨target, eventType, none⟩ target path page =
      .ok (dispatched script start target path eventType).invoked
        (dispatched script start target path eventType).page := by
    have hdispatch : dispatchAlong script target path (.new eventType none) start =
        .ok ((dispatched script start target path eventType).event,
            (dispatched script start target path eventType).invoked)
          (dispatched script start target path eventType).page := rfl
    refine (bind_ok (rfl : record (.delivered sent) page = .ok () start)).trans
      ((bind_ok hdispatch).trans ?_)
    refine congrFun (if_neg ?_) _
    rw [eventType_dispatched]
    exact fun h => hsubmit h.1
  refine ⟨start, rfl, ?_⟩
  have hskip : ¬ (target ≠ listenerWindow ∧
      (!page.host.dom.toLiveDocument.nodes.contains target) = true) := by
    rw [hcontains]
    exact fun h => Bool.false_ne_true h.2
  refine (congrFun (if_neg hskip) page).trans ?_
  rw [if_neg hwindow]
  dsimp only
  rw [h]
  exact halong

theorem deliverAll_cons (script : PageScript σ κ) {start : PageRuntime σ κ}
    (hstart : start.erase = page.erase) (hwindow : target ≠ listenerWindow)
    (hsubmit : eventType ≠ "submit")
    (h : eventPath page.host.dom.toLiveDocument maxEventPath target = some path)
    (batch : List PendingDispatch) :
    ∃ after : PageRuntime σ κ,
      after.erase = (dispatched script page target path eventType).page.erase ∧
      endState (deliverAll script (⟨target, eventType, none⟩ :: batch)) start =
        endState (deliverAll script batch) after := by
  have hdom : start.host.erase.dom = page.host.erase.dom :=
    congrArg Host.dom (eq_of_erase hstart).2
  have hpath : eventPath start.host.dom.toLiveDocument maxEventPath target = some path := by
    rw [show start.host.dom = page.host.dom from hdom]
    exact h
  obtain ⟨begun, hbegun, hdeliver⟩ := deliver_eq script hwindow hsubmit hpath
  have htwins : PageDispatch.Twins ⟨.new eventType none, begun, 0⟩ ⟨.new eventType none, page, 0⟩ :=
    ⟨rfl, hbegun.trans hstart, rfl⟩
  exact ⟨_, (htwins.jsDispatchPass target path.tail).page,
    (endState_bind_ok hdeliver).trans endState_bind_pure⟩

/-! The click of the user after its listeners. -/

theorem clickDefault_error {failure : Failure}
    (h : applyClickDefault target page.host.dom = .error failure after) :
    endState (clickDefault script target) page =
      { page with host := { page.host with dom := after } } :=
  endState_bind_error (onHost_error (onDom_error h))

theorem clickDefault_ok (h : applyClickDefault target page.host.dom = .ok actions after) :
    endState (clickDefault script target) page =
      endState (followDefault script target actions) (defaulted page actions after) := by
  have hperform : onHost (Host.perform actions)
      ({ page with host := { page.host with dom := after } } : PageRuntime σ κ) =
      .ok () (defaulted page actions after) := rfl
  exact (endState_bind_ok (onHost_ok (onDom_ok h))).trans (endState_bind_ok hperform)

theorem followDefault_none
    (hchange : actions.any DefaultAction.isChange = false) (hform : submittedForm actions = none) :
    endState (followDefault script target actions) page = page := by
  have hfollow : followDefault script target actions page = .ok () page := by
    refine (congrFun (if_neg ?_) page).trans ?_
    · rw [hchange]
      exact Bool.false_ne_true
    · rw [hform]
      rfl
  unfold endState
  rw [hfollow]

theorem followDefault_change
    (hchange : actions.any DefaultAction.isChange = true) (hform : submittedForm actions = none)
    (h : eventPath page.host.dom.toLiveDocument maxEventPath target = some path) :
    endState (followDefault script target actions) page =
      (dispatched script page target path "change").page := by
  have hfollow : followDefault script target actions page = (do
      onHost (Host.onDom (Page.dispatchEvent target))
      let _ ← jsDispatch script target (.new "change" none)
      (Pure.pure () : PageM σ κ Unit)) page := by
    refine (congrFun (if_pos hchange) page).trans ?_
    rw [hform]
  have hend : followDefault script target actions page = .ok () _ :=
    hfollow.trans ((bind_ok (onHost_dispatchEvent_ok h)).trans (bind_ok (jsDispatch_ok "change" h)))
  unfold endState
  rw [hend]

theorem followDefault_submit {form : NodeId} (hchange : actions.any DefaultAction.isChange = false)
    (hform : submittedForm actions = some form) :
    endState (followDefault script target actions) page =
      endState (runSubmitFlow script form) page := by
  have hfollow : followDefault script target actions page = runSubmitFlow script form page := by
    refine (congrFun (if_neg ?_) page).trans ?_
    · rw [hchange]
      exact Bool.false_ne_true
    · rw [hform]
  unfold endState
  rw [hfollow]

end PageRuntime

/-! ## Where the two clicks agree -/

theorem isCarriedOut_of_isChange {action : DefaultAction} (h : action.isChange = true) :
    action.isCarriedOut = true := by
  cases action <;> first | rfl | cases h

theorem isCarriedOut_of_isToggle {action : DefaultAction} (h : action.isToggle = true) :
    action.isCarriedOut = true := by
  cases action <;> first | rfl | cases h

theorem submittedForm_mem {form : NodeId}
    (h : submittedForm actions = some form) : .submitForm form ∈ actions := by
  obtain ⟨action, haction, hform⟩ := exists_of_findSome?_eq_some h
  cases action with
  | submitForm other =>
    cases hform
    exact haction
  | _ => cases hform

theorem any_eq_false {p : DefaultAction → Bool}
    (hp : ∀ {action : DefaultAction}, p action = true → action.isCarriedOut = true)
    (h : ∀ action ∈ actions, action.isCarriedOut = false) : actions.any p = false := by
  refine Bool.eq_false_iff.mpr fun hany => ?_
  obtain ⟨action, haction, htrue⟩ := any_eq_true.mp hany
  have hcarried := hp htrue
  rw [h action haction] at hcarried
  cases hcarried

namespace PageRuntime

variable {σ κ : Type} [DecidableEq κ] [HtmlParser] {script : PageScript σ κ}
  {page : PageRuntime σ κ} {target : NodeId} {path : List NodeId}

omit [DecidableEq κ] [HtmlParser] in
theorem defaulted_eq {after : FocusedDocument}
    (hafter : after = page.host.dom) (h : ∀ action ∈ actions, action.isCarriedOut = false) :
    defaulted page actions after = page := by
  have hfilter : actions.filter DefaultAction.isCarriedOut = [] :=
    filter_eq_nil_iff.mpr fun action haction htrue => by
      rw [h action haction] at htrue
      cases htrue
  unfold defaulted
  rw [hafter, hfilter, append_nil]

/-- Without an event path the submission fails before a listener runs. -/
theorem runSubmitFlow_no_path {form : NodeId}
    (h : eventPath page.host.dom.toLiveDocument maxEventPath form = none) :
    endState (runSubmitFlow script form) page = page := by
  have hfails : jsDispatch script form (.new "submit" none) page =
      .error (.error "QuotaExceededError: event path depth exceeded") page := by
    rw [jsDispatch, bind_get, h]
    rfl
  exact endState_bind_error hfails

theorem clickDefault_rests (h : Rests target page.host.dom) :
    endState (clickDefault script target) page = page := by
  unfold Rests at h
  cases happly : applyClickDefault target page.host.dom with
  | error failure after =>
    rw [happly] at h
    rw [clickDefault_error happly, show after = page.host.dom from h]
  | ok actions after =>
    rw [happly] at h
    obtain ⟨hafter, hactions⟩ := h
    have hcarried := fun action haction => (hactions action haction).1
    have hchange := any_eq_false isCarriedOut_of_isChange hcarried
    rw [clickDefault_ok happly, defaulted_eq hafter hcarried]
    cases hform : submittedForm actions with
    | none => exact followDefault_none hchange hform
    | some form =>
      rw [followDefault_submit hchange hform]
      have hpath := (hactions _ (submittedForm_mem hform)).2 form rfl
      exact runSubmitFlow_no_path hpath

theorem host_dispatched (script : PageScript σ κ) (page : PageRuntime σ κ) (target : NodeId)
    (path : List NodeId) (eventType : String) :
    ∃ calls : List HostCall,
      (dispatched script page target path eventType).page.host = page.host.calls calls := by
  have hkept : KeptBy script fun host => ∃ calls : List HostCall, host = page.host.calls calls := by
    refine KeptBy.of_calls fun c => Keeps.of_endState fun host hhost => ?_
    obtain ⟨calls, rfl⟩ := hhost
    refine ⟨calls ++ [c], ?_⟩
    unfold Host.calls
    rw [foldl_append]
    rfl
  exact hkept.stable.jsDispatchPass target path.tail ⟨.new eventType none, page, 0⟩ ⟨[], rfl⟩

theorem same_of_no_path {handle : Nat} (hhandle : page.host.elements[handle]? = some target)
    (hpending : page.host.pendingDispatches = [])
    (h : eventPath page.host.dom.toLiveDocument maxEventPath target = none) :
    (scriptClick script handle page).erase = (userClick script target page).erase := by
  obtain ⟨failure, hdispatch⟩ := dispatchEvent_error h
  rw [scriptClick_error hhandle hpending (bind_error hdispatch), userClick_none h]

omit [HtmlParser] in
theorem nativeClick_eq (h : eventPath dom.toLiveDocument maxEventPath target = some path) :
    nativeClick target dom = applyClickDefault target dom := bind_ok (dispatchEvent_ok h)

omit [DecidableEq κ] [HtmlParser] in
theorem clickBatch_eq (target : NodeId) (h : ∀ action ∈ actions, action.isCarriedOut = false) :
    clickBatch target actions = [⟨target, "click", none⟩] := by
  unfold clickBatch
  rw [any_eq_false isCarriedOut_of_isToggle h, if_neg Bool.false_ne_true]

/-- The handle names a target with an event path, and no dispatch waits. -/
structure Clickable (page : PageRuntime σ κ) (handle : Nat) (target : NodeId) (path : List NodeId) :
    Prop where
  handle_eq : page.host.elements[handle]? = some target
  idle : page.host.pendingDispatches = []
  node : target ≠ listenerWindow
  path_eq : eventPath page.host.dom.toLiveDocument maxEventPath target = some path

section

variable {handle : Nat} {after : FocusedDocument}

omit [DecidableEq κ] [HtmlParser] in
theorem Clickable.defaulted (ready : Clickable page handle target path)
    (happly : applyClickDefault target page.host.dom = .ok actions after) :
    eventPath (defaulted page actions after).host.dom.toLiveDocument maxEventPath target = some path :=
  (eventPath_applyClickDefault happly _ _).trans ready.path_eq

/-- A click by script dispatches the click on the page after the default action. -/
theorem Clickable.scriptClick (ready : Clickable page handle target path)
    (happly : applyClickDefault target page.host.dom = .ok actions after) (script : PageScript σ κ) :
    ∃ ended : PageRuntime σ κ,
      ended.erase = (dispatched script (PageRuntime.defaulted page actions after) target path
        "click").page.erase ∧
      PageRuntime.scriptClick script handle page =
        endState (deliverAll script (clickBatch target actions).tail) ended := by
  obtain ⟨start, hstart, hscript⟩ := scriptClick_ok script ready.handle_eq ready.idle
    ((nativeClick_eq ready.path_eq).trans happly)
  obtain ⟨ended, hended, hdeliver⟩ := deliverAll_cons script hstart ready.node
    (show "click" ≠ "submit" by decide) (ready.defaulted happly) (clickBatch target actions).tail
  exact ⟨ended, hended, hscript.trans hdeliver⟩

theorem Clickable.scriptClick_rests (ready : Clickable page handle target path)
    (happly : applyClickDefault target page.host.dom = .ok actions after)
    (hafter : after = page.host.dom) (hcarried : ∀ action ∈ actions, action.isCarriedOut = false)
    (script : PageScript σ κ) :
    (PageRuntime.scriptClick script handle page).erase =
      (dispatched script page target path "click").page.erase := by
  obtain ⟨ended, hended, hscript⟩ := ready.scriptClick happly script
  rw [clickBatch_eq target hcarried] at hscript
  rw [defaulted_eq hafter hcarried] at hended
  rw [hscript]
  exact hended

theorem same_of_rests (ready : Clickable page handle target path)
    (happly : applyClickDefault target page.host.dom = .ok actions after)
    (hrests : ∀ calls : List HostCall, Rests target (page.host.calls calls).dom) :
    (scriptClick script handle page).erase = (userClick script target page).erase := by
  have hnow : Rests target page.host.dom := hrests []
  unfold Rests at hnow
  rw [happly] at hnow
  obtain ⟨hafter, hactions⟩ := hnow
  have hcarried := fun action haction => (hactions action haction).1
  have huser : userClick script target page = (dispatched script page target path "click").page := by
    rw [userClick_some ready.path_eq]
    split
    · rfl
    · obtain ⟨calls, hcalls⟩ := host_dispatched script page target path "click"
      exact clickDefault_rests (hcalls ▸ hrests calls)
  rw [ready.scriptClick_rests happly hafter hcarried, huser]

theorem dispatched_idle (h : ¬ Hears page.listeners target path eventType) :
    dispatched script page target path eventType = ⟨.new eventType none, page, 0⟩ :=
  PageDispatch.jsDispatchPass_idle h

/-- The two clicks do the same when no listener hears the click: the default action and
then the change. -/
theorem same_of_unheard (ready : Clickable page handle target path)
    (hclick : ¬ Hears page.listeners target path "click")
    (hsubmits : ¬ Submits page.host.dom.toLiveDocument target)
    (hselects : Selects page.host.dom.toLiveDocument target →
      ¬ Hears page.listeners target path "change") :
    (scriptClick script handle page).erase = (userClick script target page).erase := by
  have huser : userClick script target page = endState (clickDefault script target) page := by
    rw [userClick_some ready.path_eq, dispatched_idle hclick]
    exact if_neg Bool.false_ne_true
  cases happly : applyClickDefault target page.host.dom with
  | error failure after =>
    rw [huser, clickDefault_error happly,
      scriptClick_error ready.handle_eq ready.idle ((nativeClick_eq ready.path_eq).trans happly)]
  | ok actions after =>
    have hpath := ready.defaulted happly
    have hidle : ¬ Hears (defaulted page actions after).listeners target path "click" := hclick
    obtain ⟨ended, hended, hscript⟩ := ready.scriptClick happly script
    rw [dispatched_idle hidle] at hended
    rw [hscript, huser, clickDefault_ok happly]
    rcases applyClickDefault_ok happly with ⟨-, hrest⟩ | ⟨checked, rfl⟩ | rfl | ⟨hsubmit, -⟩ |
      ⟨hselect, option, rfl⟩
    · have hnone : endState (followDefault script target actions) (defaulted page actions after) =
          defaulted page actions after := by
        rcases hrest with rfl | ⟨href, rfl⟩
        · exact followDefault_none rfl rfl
        · exact followDefault_none rfl rfl
      have htail : (clickBatch target actions).tail = [] := by
        rcases hrest with rfl | ⟨href, rfl⟩ <;> rfl
      rw [hnone, htail]
      exact hended
    · -- Both dispatch the change on the page after the default action.
      obtain ⟨last, hlast, hchange⟩ := deliverAll_cons script hended ready.node
        (show "change" ≠ "submit" by decide) hpath []
      rw [followDefault_change rfl rfl hpath]
      refine (congrArg erase hchange).trans ?_
      exact hlast
    · rw [followDefault_none rfl rfl]
      exact hended
    · exact absurd hsubmit hsubmits
    · have hchange : ¬ Hears (defaulted page [.selectOption option] after).listeners target path
          "change" := hselects hselect
      rw [followDefault_change rfl rfl hpath, dispatched_idle hchange]
      exact hended

end

end PageRuntime

end GhitaBrowser.Page
