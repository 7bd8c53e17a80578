import GhitaBrowser.Page.Defaults
import GhitaBrowser.Page.EventDelivery

/-!
# Clicks by the user and by script

`PageRuntime::click` dispatches the event and then applies the default action. The host
call `click` applies the default action at once and leaves the event to the end of the
turn. Two pages are twins when they differ in their histories only; no callback can tell
them apart.
-/

namespace GhitaBrowser.Page

open Dom

/-! ## The two clicks -/

namespace PageRuntime

variable {σ κ : Type} [DecidableEq κ] [HtmlParser]

/-- A turn of a script that calls `click` on a handle, up to the delivery of what the call
has queued. -/
def scriptClick (script : PageScript σ κ) (handle : Nat) (page : PageRuntime σ κ) :
    PageRuntime σ κ :=
  endState (do
    let batch ← takePending
    let _ ← deliverAll script batch) (page.call (.host (.click handle)))

def userClick (script : PageScript σ κ) (target : NodeId) (page : PageRuntime σ κ) :
    PageRuntime σ κ :=
  endState (click script target) page

end PageRuntime

/-! ## When they agree -/

/-- The keys and phases a dispatch along a path visits. -/
def stations (target : NodeId) (path : List NodeId) : List (ListenerKey × Bool) :=
  path.tail.reverse.map (.node ·, true) ++
    ((.node target, true) :: (.node target, false) ::
      (path.tail.map (.node ·, false) ++ [(.window, false)]))

/-- Some listener of the type is on the path of the event. -/
def Hears {κ : Type} (listeners : Listeners κ) (target : NodeId) (path : List NodeId)
    (eventType : String) : Prop :=
  ∃ station ∈ stations target path, listeners.matching station.1 eventType station.2 ≠ []

instance {κ : Type} (listeners : Listeners κ) (target : NodeId) (path : List NodeId)
    (eventType : String) : Decidable (Hears listeners target path eventType) :=
  inferInstanceAs (Decidable (∃ station ∈ stations target path, _ ≠ []))

/-- The default action leaves the document alone, and so does what follows it. -/
def Rests (target : NodeId) (dom : FocusedDocument) : Prop :=
  match applyClickDefault target dom with
  | .ok actions after =>
    after = dom ∧ ∀ action ∈ actions, action.isCarriedOut = false ∧
      ∀ form, action = .submitForm form →
        eventPath dom.toLiveDocument maxEventPath form = none
  | .error _ after => after = dom

/-- The event has no path, or the target has no default action whatever host calls a
listener makes, or no listener hears the click, the target does not submit a form and no
listener hears the change of a select control. -/
def ClicksAlike [HtmlParser] {σ κ : Type} (page : PageRuntime σ κ) (target : NodeId) : Prop :=
  match eventPath page.host.dom.toLiveDocument maxEventPath target with
  | none => True
  | some path =>
    (∃ actions after, applyClickDefault target page.host.dom = .ok actions after) ∧
        (∀ calls : List HostCall, Rests target (page.host.calls calls).dom) ∨
      ¬ Hears page.listeners target path "click" ∧
        ¬ Submits page.host.dom.toLiveDocument target ∧
        (Selects page.host.dom.toLiveDocument target →
          ¬ Hears page.listeners target path "change")

/-! ## Twins -/

namespace Host

def erase (host : Host) : Host := { host with history := [] }

/-- A result without the history. -/
def hide {α : Type} : EStateM.Result Failure Host α → EStateM.Result Failure Host α
  | .ok value host => .ok value host.erase
  | .error failure host => .error failure host.erase

/-- The program does the same whatever the history. -/
def Blind {α : Type} (program : HostM α) : Prop :=
  ∀ host : Host, hide (program host) = hide (program host.erase)

namespace Blind

variable {α β : Type}

theorem pure (value : α) : Blind (Pure.pure value : HostM α) := fun _ => rfl

theorem throw (failure : Failure) : Blind (throw failure : HostM α) := fun _ => rfl

theorem modify {f : Host → Host} (h : ∀ host, (f host).erase = (f host.erase).erase) :
    Blind (modify f : HostM PUnit) := fun host => congrArg (EStateM.Result.ok PUnit.unit) (h host)

theorem bind {program : HostM α} {next : α → HostM β} (h : Blind program)
    (hnext : ∀ value, Blind (next value)) : Blind (program >>= next) := by
  intro host
  have hhide := h host
  show hide (EStateM.bind program next host) = hide (EStateM.bind program next host.erase)
  unfold EStateM.bind
  cases hprogram : program host with
  | ok value after =>
    cases hprogram' : program host.erase with
    | ok value' after' =>
      rw [hprogram, hprogram'] at hhide
      obtain ⟨rfl, hafter⟩ := EStateM.Result.ok.inj hhide
      exact (hnext value after).trans ((congrArg (hide ∘ next value) hafter).trans
        (hnext value after').symm)
    | error failure' after' =>
      rw [hprogram, hprogram'] at hhide
      cases hhide
  | error failure after =>
    cases hprogram' : program host.erase with
    | ok value' after' =>
      rw [hprogram, hprogram'] at hhide
      cases hhide
    | error failure' after' =>
      rw [hprogram, hprogram'] at hhide
      obtain ⟨rfl, hafter⟩ := EStateM.Result.error.inj hhide
      exact congrArg (EStateM.Result.error failure) hafter

theorem get_bind {next : Host → HostM β} (h : ∀ host, next host = next host.erase)
    (hnext : ∀ host, Blind (next host)) : Blind (get >>= next) := by
  intro host
  show hide (next host host) = hide (next host.erase host.erase)
  rw [← h host]
  exact hnext host host

theorem ite {c : Prop} [Decidable c] {first second : HostM α} (h : Blind first)
    (h' : Blind second) : Blind (if c then first else second) := by
  split
  · exact h
  · exact h'

end Blind

theorem onDom_blind {α : Type} (program : Activation α) : Blind (onDom program) := by
  intro host
  unfold onDom
  cases ended : program host.dom with
  | ok value dom => rw [show program host.erase.dom = _ from ended]; rfl
  | error failure dom => rw [show program host.erase.dom = _ from ended]; rfl

theorem queuePendingDispatch_blind (node : Nat) (event : SentEvent) :
    Blind (queuePendingDispatch node event) := by
  refine Blind.modify fun host => ?_
  show _ = Host.erase (if host.pendingDispatches.length ≥ maxPendingTasks then _ else _)
  split <;> rfl

theorem locator_blind (object : Nat) : Blind (locator object) := by
  refine Blind.get_bind (fun _ => rfl) fun host => ?_
  split
  · exact Blind.pure _
  · exact Blind.throw _

theorem nextHostId_blind : Blind nextHostId := by
  refine Blind.get_bind (fun _ => rfl) fun host => Blind.ite (Blind.throw _) ?_
  exact Blind.bind (Blind.modify fun _ => rfl) fun _ => Blind.pure _

theorem elementFor_blind (node : NodeId) : Blind (elementFor node) := by
  refine Blind.get_bind (fun _ => rfl) fun host =>
    Blind.ite (Blind.throw _) (Blind.ite (Blind.pure _) ?_)
  exact Blind.bind nextHostId_blind fun _ => Blind.modify fun _ => rfl

theorem clickNode_blind (node : NodeId) : Blind (clickNode node) := by
  refine Blind.bind (onDom_blind _) fun actions => Blind.bind (Blind.modify fun _ => rfl) fun _ => ?_
  refine Blind.bind (queuePendingDispatch_blind _ _) fun _ => ?_
  exact Blind.ite (queuePendingDispatch_blind _ _) (Blind.pure _)

theorem eventTarget_blind (object : EventObject) : Blind (eventTarget object) := by
  cases object with
  | window => exact Blind.get_bind (fun _ => rfl) fun _ => Blind.pure _
  | document => exact Blind.get_bind (fun _ => rfl) fun _ => Blind.pure _
  | element handle => exact locator_blind handle

theorem call_blind [HtmlParser] (c : HostCall) : Blind (call c) := by
  cases c with
  | edit operation => exact onDom_blind _
  | elementFor node => exact elementFor_blind node
  | nextHostId => exact Blind.bind nextHostId_blind fun _ => Blind.pure _
  | appendChild element child =>
    refine Blind.bind (locator_blind _) fun _ => Blind.bind (locator_blind _) fun _ => ?_
    exact Blind.bind (onDom_blind _) fun _ => queuePendingDispatch_blind _ _
  | removeChild element child =>
    refine Blind.bind (locator_blind _) fun _ => Blind.bind (locator_blind _) fun _ => ?_
    exact Blind.bind (onDom_blind _) fun _ => queuePendingDispatch_blind _ _
  | focus element =>
    refine Blind.bind (locator_blind _) fun _ => ?_
    exact Blind.bind (onDom_blind _) fun _ => queuePendingDispatch_blind _ _
  | click element => exact Blind.bind (locator_blind _) fun node => clickNode_blind node
  | dispatchEvent object record =>
    refine Blind.bind (eventTarget_blind object) fun _ => ?_
    exact Blind.bind (onDom_blind _) fun _ => queuePendingDispatch_blind _ _
  | submit form =>
    refine Blind.bind (locator_blind _) fun _ => Blind.get_bind (fun _ => rfl) fun _ => ?_
    exact Blind.ite (Blind.throw _) (queuePendingDispatch_blind _ _)
  | historyMove state => exact queuePendingDispatch_blind _ _
  | setHash hash => exact queuePendingDispatch_blind _ _

theorem erase_call [HtmlParser] (c : HostCall) {host host' : Host} (h : host.erase = host'.erase) :
    (endState (call c) host).erase = (endState (call c) host').erase := by
  have hhide := (call_blind c host).trans ((congrArg (hide ∘ call c) h).trans
    (call_blind c host').symm)
  unfold endState
  cases hcall : call c host with
  | ok value after =>
    cases hcall' : call c host' with
    | ok value' after' =>
      rw [hcall, hcall'] at hhide
      exact (EStateM.Result.ok.inj hhide).2
    | error failure' after' =>
      rw [hcall, hcall'] at hhide
      cases hhide
  | error failure after =>
    cases hcall' : call c host' with
    | ok value' after' =>
      rw [hcall, hcall'] at hhide
      cases hhide
    | error failure' after' =>
      rw [hcall, hcall'] at hhide
      exact (EStateM.Result.error.inj hhide).2

end Host

namespace PageRuntime

variable {σ κ : Type} [DecidableEq κ] [HtmlParser] {script : PageScript σ κ}
  {page page' : PageRuntime σ κ}

omit [DecidableEq κ] [HtmlParser] in
theorem eq_of_erase (h : page.erase = page'.erase) :
    page' = { page with host := page'.host } ∧ page.host.erase = page'.host.erase := by
  obtain ⟨host, listeners, canceling, forms, errors, engine⟩ := page
  obtain ⟨host', listeners', canceling', forms', errors', engine'⟩ := page'
  injection h with hhost hlisteners hcanceling hforms herrors hengine
  subst hlisteners hcanceling hforms herrors hengine
  exact ⟨rfl, hhost⟩

omit [DecidableEq κ] [HtmlParser] in
theorem erase_with (page : PageRuntime σ κ) {host host' : Host} (h : host.erase = host'.erase) :
    ({ page with host := host } : PageRuntime σ κ).erase =
      ({ page with host := host' } : PageRuntime σ κ).erase :=
  congrArg (fun host => ({ page with host := host } : PageRuntime σ κ)) h

theorem erase_call (c : PageCall κ) (h : page.erase = page'.erase) :
    (page.call c).erase = (page'.call c).erase := by
  obtain ⟨hpage, hhost⟩ := eq_of_erase h
  rw [hpage]
  cases c with
  | listener c => exact erase_with (page.call (.listener c)) hhost
  | preventDefault => exact erase_with page.preventDefault hhost
  | host c => exact erase_with page (Host.erase_call c hhost)

theorem erase_calls (list : List (PageCall κ)) (h : page.erase = page'.erase) :
    (page.calls list).erase = (page'.calls list).erase := by
  induction list generalizing page page' with
  | nil => exact h
  | cons c list ih => exact ih (erase_call c h)

theorem erase_runCallback (callback : κ) (h : page.erase = page'.erase) :
    (page.runCallback script callback).erase = (page'.runCallback script callback).erase := by
  unfold runCallback
  rw [h]
  refine erase_calls _ ?_
  obtain ⟨hpage, hhost⟩ := eq_of_erase h
  generalize (script.handler callback page'.erase).2 = engine
  rw [hpage]
  exact erase_with { page with engine := engine } hhost

end PageRuntime

namespace PageDispatch

variable {σ κ : Type} [DecidableEq κ] [HtmlParser] {script : PageScript σ κ}
  {d d' : PageDispatch σ κ}

/-- Two dispatches of one event on twins. -/
structure Twins (d d' : PageDispatch σ κ) : Prop where
  event : d.event = d'.event
  page : d.page.erase = d'.page.erase
  invoked : d.invoked = d'.invoked

omit [DecidableEq κ] [HtmlParser] in
theorem Twins.listeners (twins : Twins d d') : d.page.listeners = d'.page.listeners := by
  rw [(PageRuntime.eq_of_erase twins.page).1]

theorem Twins.invoke (twins : Twins d d') (key : ListenerKey) (l : JsListener κ) :
    Twins (d.invoke script key l) (d'.invoke script key l) := by
  have hbegin : (d.page.beginEvent key l d.event).erase =
      (d'.page.beginEvent key l d'.event).erase := by
    obtain ⟨hpage, hhost⟩ := PageRuntime.eq_of_erase twins.page
    rw [twins.event, hpage]
    exact PageRuntime.erase_with (d.page.beginEvent key l d'.event) hhost
  have hrun : ((d.page.beginEvent key l d.event).runCallback script l.callback).erase =
      ((d'.page.beginEvent key l d'.event).runCallback script l.callback).erase :=
    PageRuntime.erase_runCallback l.callback hbegin
  unfold PageDispatch.invoke
  obtain ⟨hpage, hhost⟩ := PageRuntime.eq_of_erase hrun
  refine ⟨?_, ?_, congrArg (· + 1) twins.invoked⟩
  · show PageRuntime.mergeEvent d.event _ = PageRuntime.mergeEvent d'.event _
    rw [hpage]
    exact congrArg (fun event => PageRuntime.mergeEvent event _) twins.event
  · show PageRuntime.erase (PageRuntime.finishEvent _) = PageRuntime.erase (PageRuntime.finishEvent _)
    rw [hpage]
    exact PageRuntime.erase_with (PageRuntime.finishEvent _) hhost

theorem Twins.invokeLoop (script : PageScript σ κ) (key : ListenerKey) (list : List (JsListener κ))
    (removeOnce : List Nat) (twins : Twins d d') :
    (PageDispatch.invokeLoop script key list removeOnce d).1 =
        (PageDispatch.invokeLoop script key list removeOnce d').1 ∧
      Twins (PageDispatch.invokeLoop script key list removeOnce d).2
        (PageDispatch.invokeLoop script key list removeOnce d').2 := by
  induction list generalizing removeOnce d d' with
  | nil => exact ⟨rfl, twins⟩
  | cons l rest ih =>
    unfold PageDispatch.invokeLoop
    rw [twins.event]
    split
    · exact ⟨rfl, twins⟩
    · exact ih _ (twins.invoke key l)

theorem Twins.invokeJsListeners (key : ListenerKey) (capture : Bool) (twins : Twins d d') :
    Twins (d.invokeJsListeners script key capture) (d'.invokeJsListeners script key capture) := by
  unfold PageDispatch.invokeJsListeners
  rw [twins.listeners, twins.event]
  obtain ⟨hremove, hloop⟩ := Twins.invokeLoop script key
    (d'.page.listeners.matching key d'.event.eventType capture) [] twins
  refine ⟨hloop.event, ?_, hloop.invoked⟩
  unfold PageDispatch.retire
  obtain ⟨hpage, hhost⟩ := PageRuntime.eq_of_erase hloop.page
  rw [hremove, hpage]
  exact PageRuntime.erase_with { (PageDispatch.invokeLoop script key _ [] d).2.page with
    listeners := _ } hhost

theorem Twins.walk (script : PageScript σ κ) (capture : Bool) (keys : List ListenerKey)
    (twins : Twins d d') :
    Twins
      (PageDispatch.walk (fun key => PageDispatch.invokeJsListeners script key capture) keys d)
      (PageDispatch.walk (fun key => PageDispatch.invokeJsListeners script key capture) keys d') := by
  induction keys generalizing d d' with
  | nil => exact twins
  | cons key keys ih =>
    unfold PageDispatch.walk
    rw [twins.event]
    split
    · exact twins
    · exact ih (twins.invokeJsListeners key capture)

theorem Twins.atTarget (target : NodeId) (twins : Twins d d') :
    Twins (d.atTarget script target) (d'.atTarget script target) := by
  have hcapture : Twins
      (if d.event.immediatePropagationStopped then d
        else d.invokeJsListeners script (.node target) true)
      (if d'.event.immediatePropagationStopped then d'
        else d'.invokeJsListeners script (.node target) true) := by
    rw [twins.event]
    split
    · exact twins
    · exact twins.invokeJsListeners _ _
  unfold PageDispatch.atTarget
  show Twins (if (if _ then d else _).event.immediatePropagationStopped then _ else _)
    (if (if _ then d' else _).event.immediatePropagationStopped then _ else _)
  generalize (if d.event.immediatePropagationStopped then d else _) = c at hcapture ⊢
  generalize (if d'.event.immediatePropagationStopped then d' else _) = c' at hcapture ⊢
  rw [hcapture.event]
  split
  · exact hcapture
  · exact hcapture.invokeJsListeners _ _

theorem Twins.bubblePhase (ancestors : List NodeId) (twins : Twins d d') :
    Twins (d.bubblePhase script ancestors) (d'.bubblePhase script ancestors) := by
  have hwalk := twins.walk script false (ancestors.map .node)
  unfold PageDispatch.bubblePhase
  simp only
  rw [twins.event, hwalk.event]
  split
  · split
    · exact hwalk
    · exact hwalk.invokeJsListeners _ _
  · exact twins

theorem Twins.jsDispatchPass (target : NodeId) (ancestors : List NodeId) (twins : Twins d d') :
    Twins (d.jsDispatchPass script target ancestors) (d'.jsDispatchPass script target ancestors) :=
  ((twins.walk script true _).atTarget target).bubblePhase ancestors

end PageDispatch

/-! ## Listeners that hear an event -/

namespace PageDispatch

variable {σ κ : Type} [DecidableEq κ] [HtmlParser] {script : PageScript σ κ}
  {d : PageDispatch σ κ}

theorem invokeJsListeners_idle {key : ListenerKey} {capture : Bool}
    (h : d.page.listeners.matching key d.event.eventType capture = []) :
    d.invokeJsListeners script key capture = d := by
  unfold invokeJsListeners
  rw [h]
  rfl

theorem walk_idle {capture : Bool} {keys : List ListenerKey}
    (h : ∀ key ∈ keys, d.page.listeners.matching key d.event.eventType capture = []) :
    walk (fun key => invokeJsListeners script key capture) keys d = d := by
  induction keys with
  | nil => rfl
  | cons key keys ih =>
    unfold walk
    split
    · rfl
    · rw [invokeJsListeners_idle (h key List.mem_cons_self)]
      exact ih fun key hkey => h key (List.mem_cons_of_mem _ hkey)

theorem atTarget_idle {target : NodeId}
    (h : d.page.listeners.matching (.node target) d.event.eventType true = [])
    (h' : d.page.listeners.matching (.node target) d.event.eventType false = []) :
    d.atTarget script target = d := by
  simp only [atTarget, invokeJsListeners_idle h, invokeJsListeners_idle h', ite_self]

theorem bubblePhase_idle {ancestors : List NodeId}
    (h : ∀ key ∈ ancestors.map ListenerKey.node,
      d.page.listeners.matching key d.event.eventType false = [])
    (h' : d.page.listeners.matching .window d.event.eventType false = []) :
    d.bubblePhase script ancestors = d := by
  simp only [bubblePhase, walk_idle h, invokeJsListeners_idle h', ite_self]

end PageDispatch

end GhitaBrowser.Page
