import GhitaBrowser.Page.PageEvents

/-!
# Delivery of pending events

What a dispatch pass keeps, and the law of `flush_pending`. With its entries as the calls
meant them, the queue and the batch under delivery are the awaited events; every call and
every delivery keeps that.
-/

namespace GhitaBrowser.Page

open Dom

/-! ## What a pass keeps -/

namespace PageDispatch

variable {σ κ : Type} [DecidableEq κ] [HtmlParser] {script : PageScript σ κ}
  {P : PageDispatch σ κ → Prop}

/-- A property is kept by every invocation and does not look at the listener table. -/
structure Stable (script : PageScript σ κ) (P : PageDispatch σ κ → Prop) : Prop where
  invoke : ∀ (key : ListenerKey) (l : JsListener κ) (d : PageDispatch σ κ), P d →
    P (d.invoke script key l)
  retire : ∀ (key : ListenerKey) (removeOnce : List Nat) (d : PageDispatch σ κ), P d →
    P (retire key (removeOnce, d))

namespace Stable

theorem invokeLoop (stable : Stable script P) (key : ListenerKey) (list : List (JsListener κ))
    (removeOnce : List Nat) (d : PageDispatch σ κ) (h : P d) :
    P (PageDispatch.invokeLoop script key list removeOnce d).2 := by
  induction list generalizing removeOnce d with
  | nil => exact h
  | cons l rest ih =>
    unfold PageDispatch.invokeLoop
    split
    · exact h
    · exact ih _ _ (stable.invoke key l d h)

theorem invokeJsListeners (stable : Stable script P) (key : ListenerKey) (capture : Bool)
    (d : PageDispatch σ κ) (h : P d) : P (d.invokeJsListeners script key capture) :=
  stable.retire key _ _ (stable.invokeLoop key _ [] d h)

theorem walk (stable : Stable script P) (capture : Bool) (keys : List ListenerKey)
    (d : PageDispatch σ κ) (h : P d) :
    P (PageDispatch.walk (fun key => PageDispatch.invokeJsListeners script key capture) keys d) := by
  induction keys generalizing d with
  | nil => exact h
  | cons key keys ih =>
    unfold PageDispatch.walk
    split
    · exact h
    · exact ih _ (stable.invokeJsListeners key capture d h)

theorem atTarget (stable : Stable script P) (target : NodeId) (d : PageDispatch σ κ) (h : P d) :
    P (d.atTarget script target) := by
  have hcapture : P (if d.event.immediatePropagationStopped then d
      else d.invokeJsListeners script (.node target) true) := by
    split
    · exact h
    · exact stable.invokeJsListeners _ _ d h
  exact iteInduction (motive := P) (fun _ => hcapture) fun _ =>
    stable.invokeJsListeners _ _ _ hcapture

theorem bubblePhase (stable : Stable script P) (ancestors : List NodeId) (d : PageDispatch σ κ)
    (h : P d) : P (d.bubblePhase script ancestors) := by
  have hwalk := stable.walk false (ancestors.map .node) d h
  unfold PageDispatch.bubblePhase
  split
  · show P (if _ then _ else _)
    split
    · exact hwalk
    · exact stable.invokeJsListeners _ _ _ hwalk
  · exact h

theorem jsDispatchPass (stable : Stable script P) (target : NodeId) (ancestors : List NodeId)
    (d : PageDispatch σ κ) (h : P d) : P (d.jsDispatchPass script target ancestors) :=
  stable.bubblePhase ancestors _ (stable.atTarget target _ (stable.walk true _ d h))

end Stable

end PageDispatch

/-! ## Callbacks -/

namespace PageRuntime

variable {σ κ : Type} [DecidableEq κ] [HtmlParser] {script : PageScript σ κ} {P : Host → Prop}

/-- A property of the tree and the queue that every callback of the script keeps. -/
def KeptBy (script : PageScript σ κ) (P : Host → Prop) : Prop :=
  ∀ (callback : κ) (page : PageRuntime σ κ), P page.host → P (page.runCallback script callback).host

theorem host_calls (h : ∀ c : HostCall, Keeps P (Host.call c)) {list : List (PageCall κ)}
    {page : PageRuntime σ κ} (hpage : P page.host) : P (page.calls list).host := by
  induction list generalizing page with
  | nil => exact hpage
  | cons c list ih =>
    refine ih ?_
    cases c with
    | listener c => exact hpage
    | preventDefault => exact hpage
    | host c => exact (h c).endState hpage

theorem KeptBy.of_calls (h : ∀ c : HostCall, Keeps P (Host.call c)) : KeptBy script P :=
  fun _ _ hpage => host_calls h hpage

theorem KeptBy.runCallbacks (kept : KeptBy script P) {list : List κ} {page : PageRuntime σ κ}
    (h : P page.host) : P (page.runCallbacks script list).host := by
  induction list generalizing page with
  | nil => exact h
  | cons callback list ih => exact ih (kept callback page h)

theorem KeptBy.stable (kept : KeptBy script P) :
    PageDispatch.Stable script fun d => P d.page.host where
  invoke _ _ _ h := kept _ _ h
  retire _ _ _ h := h

theorem KeptBy.dispatchAlong (kept : KeptBy script P) (target : NodeId) (path : List NodeId)
    (event : PageEvent) :
    Keeps (fun page : PageRuntime σ κ => P page.host)
      (PageRuntime.dispatchAlong script target path event) :=
  fun page h => kept.stable.jsDispatchPass target path.tail ⟨event, page, 0⟩ h

omit [DecidableEq κ] [HtmlParser] in
/-- A program on the tree and the queue, run on the page. -/
theorem onHost_keeps {α : Type} {program : HostM α} (h : Keeps P program) :
    Keeps (fun page : PageRuntime σ κ => P page.host) (onHost program) := by
  intro page hpage
  have hmeets := h page.host hpage
  unfold onHost
  cases hprogram : program page.host with
  | ok value host =>
    rw [hprogram] at hmeets
    exact hmeets
  | error failure host =>
    rw [hprogram] at hmeets
    exact hmeets

omit [DecidableEq κ] [HtmlParser] in
theorem collectSubmission_keeps (form : NodeId) :
    Keeps (fun page : PageRuntime σ κ => P page.host) (collectSubmission form) := by
  refine Keeps.modify fun page h => ?_
  split
  · exact h
  · exact h

omit [DecidableEq κ] [HtmlParser] in
theorem validateForm_keeps (form : NodeId) :
    Keeps (fun page : PageRuntime σ κ => P page.host) (validateForm form) :=
  Keeps.bind Keeps.get fun _ => Keeps.bind (Keeps.modify fun _ h => h) fun _ => Keeps.pure _

theorem KeptBy.jsDispatch (kept : KeptBy script P) (target : NodeId) (event : PageEvent) :
    Keeps (fun page : PageRuntime σ κ => P page.host)
      (PageRuntime.jsDispatch script target event) := by
  refine Keeps.bind Keeps.get fun page => ?_
  split
  · exact kept.dispatchAlong target _ event
  · exact onHost_keeps (Keeps.throw _)

end PageRuntime

/-! ## The law of delivery -/

/-- The event that an entry delivers. -/
def PendingDispatch.sent (entry : PendingDispatch) : SentEvent :=
  ⟨entry.place, entry.eventType, entry.detail, true, true⟩

/-- The batch under delivery and the queue hold the awaited events. -/
def Delivering (batch : List PendingDispatch) (host : Host) : Prop :=
  AllKept host.history →
    DeliversAsMade host.history ∧
      awaited host.history = (batch ++ host.pendingDispatches).map PendingDispatch.sent

def Lost (host : Host) : Prop := ¬ AllKept host.history

theorem Lost.delivering {batch : List PendingDispatch} {host : Host} (lost : Lost host) :
    Delivering batch host := fun kept => absurd kept lost

namespace Host

variable {batch : List PendingDispatch}

theorem queuePendingDispatch_delivering (node : Nat) (event : SentEvent) :
    Keeps (Delivering batch) (queuePendingDispatch node event) := by
  refine Keeps.modify fun host h => ?_
  split
  · intro kept
    have hmade := (kept (.made event none) List.mem_cons_self).1
    cases hmade
  · intro kept
    obtain ⟨hplace, hbubbles, hcancelable⟩ := kept _ List.mem_cons_self
    obtain ⟨horder, hawaited⟩ := h fun step hstep => kept step (List.mem_cons_of_mem _ hstep)
    refine ⟨⟨trivial, horder⟩, ?_⟩
    have hsent : event = PendingDispatch.sent ⟨node, event.eventType, event.detail⟩ := by
      have hentry : PendingDispatch.place ⟨node, event.eventType, event.detail⟩ = event.place :=
        Option.some.inj hplace
      unfold PendingDispatch.sent
      rw [hentry]
      cases event
      cases hbubbles
      cases hcancelable
      rfl
    show awaited host.history ++ [event] = List.map _ (batch ++ (host.pendingDispatches ++ [_]))
    rw [← List.append_assoc]
    refine Eq.trans ?_ List.map_append.symm
    rw [hawaited, List.map_singleton, ← hsent]

theorem onDom_delivering {α : Type} (program : Activation α) :
    Keeps (Delivering batch) (onDom program) := by
  intro host h
  unfold onDom
  cases program host.dom <;> exact h

theorem locator_delivering (object : Nat) : Keeps (Delivering batch) (locator object) := by
  refine Keeps.bind Keeps.get fun host => ?_
  split
  · exact Keeps.pure _
  · exact Keeps.throw _

theorem nextHostId_delivering : Keeps (Delivering batch) nextHostId := by
  refine Keeps.bind Keeps.get fun host => Keeps.ite (Keeps.throw _) ?_
  exact Keeps.bind (Keeps.modify fun _ h => h) fun _ => Keeps.pure _

theorem elementFor_delivering (node : NodeId) : Keeps (Delivering batch) (elementFor node) := by
  refine Keeps.bind Keeps.get fun host => Keeps.ite (Keeps.throw _) (Keeps.ite (Keeps.pure _) ?_)
  exact Keeps.bind nextHostId_delivering fun _ => Keeps.modify fun _ h => h

theorem clickNode_delivering (node : NodeId) : Keeps (Delivering batch) (clickNode node) := by
  refine Keeps.bind (onDom_delivering _) fun actions => ?_
  refine Keeps.bind (Keeps.modify fun _ h => h) fun _ => ?_
  refine Keeps.bind (queuePendingDispatch_delivering _ _) fun _ => ?_
  exact Keeps.ite (queuePendingDispatch_delivering _ _) (Keeps.pure _)

theorem eventTarget_delivering (object : EventObject) :
    Keeps (Delivering batch) (eventTarget object) := by
  cases object with
  | window => exact Keeps.bind Keeps.get fun _ => Keeps.pure _
  | document => exact Keeps.bind Keeps.get fun _ => Keeps.pure _
  | element handle => exact locator_delivering handle

theorem call_delivering [HtmlParser] (c : HostCall) : Keeps (Delivering batch) (call c) := by
  cases c with
  | edit operation => exact onDom_delivering _
  | elementFor node => exact elementFor_delivering node
  | nextHostId => exact Keeps.bind nextHostId_delivering fun _ => Keeps.pure _
  | appendChild element child =>
    refine Keeps.bind (locator_delivering _) fun _ => Keeps.bind (locator_delivering _) fun _ => ?_
    exact Keeps.bind (onDom_delivering _) fun _ => queuePendingDispatch_delivering _ _
  | removeChild element child =>
    refine Keeps.bind (locator_delivering _) fun _ => Keeps.bind (locator_delivering _) fun _ => ?_
    exact Keeps.bind (onDom_delivering _) fun _ => queuePendingDispatch_delivering _ _
  | focus element =>
    refine Keeps.bind (locator_delivering _) fun _ => ?_
    exact Keeps.bind (onDom_delivering _) fun _ => queuePendingDispatch_delivering _ _
  | click element => exact Keeps.bind (locator_delivering _) fun node => clickNode_delivering node
  | dispatchEvent object record =>
    refine Keeps.bind (eventTarget_delivering object) fun _ => ?_
    exact Keeps.bind (onDom_delivering _) fun _ => queuePendingDispatch_delivering _ _
  | submit form =>
    refine Keeps.bind (locator_delivering _) fun _ => Keeps.bind Keeps.get fun _ => ?_
    exact Keeps.ite (Keeps.throw _) (queuePendingDispatch_delivering _ _)
  | historyMove state => exact queuePendingDispatch_delivering _ _
  | setHash hash => exact queuePendingDispatch_delivering _ _

end Host

namespace PageRuntime

variable {σ κ : Type} [DecidableEq κ] [HtmlParser] {script : PageScript σ κ}
  {batch : List PendingDispatch}

theorem kept_delivering : KeptBy script (Delivering batch) := .of_calls Host.call_delivering

variable (entry : PendingDispatch)

omit [DecidableEq κ] [HtmlParser] in
theorem record_delivered :
    Meets (fun page : PageRuntime σ κ => Delivering (entry :: batch) page.host)
      (record (.delivered entry.sent)) (fun _ page => Delivering batch page.host)
      fun page => Lost page.host := by
  refine Meets.mono Meets.modify (fun page h => ?_) (fun _ _ h => h) fun _ h => h
  intro kept
  obtain ⟨horder, hawaited⟩ := h fun step hstep => kept step (List.mem_cons_of_mem _ hstep)
  have hhead : awaited page.host.history =
      entry.sent :: (batch ++ page.host.pendingDispatches).map PendingDispatch.sent := hawaited
  refine ⟨⟨?_, horder⟩, ?_⟩
  · show (awaited page.host.history).head? = some entry.sent
    rw [hhead]
    rfl
  · show (awaited page.host.history).tail = _
    rw [hhead]
    rfl

theorem deliverAlong_delivering (target : NodeId) (path : List NodeId) :
    Meets (fun page : PageRuntime σ κ => Delivering (entry :: batch) page.host)
      (deliverAlong script entry target path) (fun _ page => Delivering batch page.host)
      fun page => Lost page.host := by
  refine Meets.bind (record_delivered entry) fun _ => ?_
  refine Meets.bind (Q := fun _ (page : PageRuntime σ κ) => Delivering batch page.host)
    (fun page h => ?_) fun ⟨event, invoked⟩ => ?_
  · exact kept_delivering.dispatchAlong _ _ _ page h
  refine Meets.ite (fun _ => ?_) fun _ _ h => h
  refine Meets.bind (Q := fun _ (page : PageRuntime σ κ) => Delivering batch page.host)
    (fun page h => ?_) fun _ _ h => h
  exact collectSubmission_keeps _ page h

theorem deliver_delivering :
    Meets (fun page : PageRuntime σ κ => Delivering (entry :: batch) page.host)
      (deliver script entry) (fun _ page => Delivering batch page.host) fun page =>
        Lost page.host := by
  have hlost : ∀ (page : PageRuntime σ κ) (step : EventStep), ¬ step.Kept →
      Lost { page.host with history := step :: page.host.history } := fun page step hstep kept =>
    hstep (kept step List.mem_cons_self)
  refine Meets.bind (Meets.get.weaken (fun _ _ h => h.1) fun _ h => h) fun before => ?_
  refine Meets.ite (fun _ => ?_) fun _ => ?_
  · refine Meets.bind (Q := fun _ (page : PageRuntime σ κ) => Lost page.host) (fun page _ => ?_) fun _ => ?_
    · exact hlost page (.skipped entry) id
    · exact fun page lost => lost.delivering
  dsimp only
  split
  · refine Meets.bind (Q := fun _ (page : PageRuntime σ κ) => Lost page.host) (fun page _ => ?_) fun _ => ?_
    · exact hlost page (.aborted entry) id
    · exact fun _ lost => lost
  · exact deliverAlong_delivering entry _ _

theorem deliverAll_delivering (batch : List PendingDispatch) :
    Meets (fun page : PageRuntime σ κ => Delivering batch page.host)
      (deliverAll script batch) (fun _ page => Delivering [] page.host) fun page =>
        Lost page.host := by
  induction batch with
  | nil => exact fun _ h => h
  | cons entry batch ih =>
    refine Meets.bind (deliver_delivering entry) fun _ => Meets.bind ih fun _ => ?_
    exact fun _ h => h

omit [DecidableEq κ] [HtmlParser] in
theorem takePending_delivering :
    Meets (fun page : PageRuntime σ κ => Delivering [] page.host) takePending
      (fun batch page => Delivering batch page.host) fun page => Lost page.host := by
  intro page h kept
  obtain ⟨horder, hawaited⟩ := h kept
  refine ⟨horder, hawaited.trans ?_⟩
  show List.map _ ([] ++ page.host.pendingDispatches) =
    List.map _ (page.host.pendingDispatches ++ [])
  rw [List.nil_append, List.append_nil]

theorem flushObserverCallbacks_delivering :
    Keeps (fun page : PageRuntime σ κ => Delivering batch page.host)
      (flushObserverCallbacks script) := by
  refine Keeps.bind Keeps.get fun _ => Keeps.bind (Keeps.modify fun page h => ?_) fun _ =>
    Keeps.pure _
  exact kept_delivering.runCallbacks h

theorem flushRounds_delivering (rounds total : Nat) :
    Meets (fun page : PageRuntime σ κ => Delivering [] page.host)
      (flushRounds script rounds total) (fun _ page => Delivering [] page.host) fun page =>
        Lost page.host := by
  induction rounds generalizing total with
  | zero => exact fun _ h => h
  | succ rounds ih =>
    refine Meets.ite (fun _ _ h => h) fun _ => ?_
    refine Meets.bind takePending_delivering fun batch => ?_
    refine Meets.bind (deliverAll_delivering batch) fun delivered => ?_
    refine Meets.bind (Q := fun _ (page : PageRuntime σ κ) => Delivering [] page.host)
      (fun page h => ?_) fun callbacks => ?_
    · exact flushObserverCallbacks_delivering page h
    · exact Meets.ite (fun _ _ h => h) fun _ => ih _

omit [DecidableEq κ] [HtmlParser] in
theorem record_flushed :
    Meets (fun page : PageRuntime σ κ =>
        Delivering [] page.host ∧ page.host.pendingDispatches = [])
      (record .flushed) (fun _ page => Delivering [] page.host) fun page => Lost page.host := by
  rintro page ⟨h, hempty⟩ kept
  obtain ⟨horder, hawaited⟩ := h fun step hstep => kept step (List.mem_cons_of_mem _ hstep)
  refine ⟨⟨?_, horder⟩, hawaited⟩
  show awaited page.host.history = []
  rw [hawaited, hempty]
  rfl

theorem flushPending_delivering :
    Keeps (fun page : PageRuntime σ κ => Delivering [] page.host) (flushPending script) := by
  refine Meets.mono (E := fun page : PageRuntime σ κ => Lost page.host)
    (Q := fun _ (page : PageRuntime σ κ) => Delivering [] page.host)
    ?_ (fun _ h => h) (fun _ _ h => h) fun _ lost => lost.delivering
  refine Meets.bind (flushRounds_delivering _ _) fun total => ?_
  refine Meets.bind Meets.get fun before => ?_
  refine Meets.ite (fun hempty => ?_) fun _ => ?_
  · refine Meets.bind (Q := fun _ (page : PageRuntime σ κ) => Delivering [] page.host) ?_
      fun _ _ h => h
    refine Meets.mono record_flushed ?_ (fun _ _ h => h) fun _ h => h
    rintro page ⟨h, rfl⟩
    exact ⟨h, List.isEmpty_iff.mp hempty⟩
  · refine Meets.bind (Q := fun _ (page : PageRuntime σ κ) => Delivering [] page.host) ?_
      fun _ _ h => h
    intro page _ kept
    exact absurd (kept .truncated List.mem_cons_self) id

theorem runSubmitFlow_delivering (form : NodeId) :
    Keeps (fun page : PageRuntime σ κ => Delivering batch page.host)
      (runSubmitFlow script form) := by
  refine Keeps.bind (kept_delivering.jsDispatch _ _) fun ⟨submit, invoked⟩ => ?_
  refine Keeps.ite (Keeps.pure _) (Keeps.bind (Keeps.modify fun _ h => h) fun _ => ?_)
  refine Keeps.bind (validateForm_keeps form) fun valid => ?_
  exact Keeps.ite (collectSubmission_keeps form) (Keeps.pure _)

theorem followDefault_delivering (target : NodeId) (actions : List DefaultAction) :
    Keeps (fun page : PageRuntime σ κ => Delivering batch page.host)
      (followDefault script target actions) := by
  unfold followDefault
  refine Keeps.ite ?_ ?_
  · refine Keeps.bind (onHost_keeps (Host.onDom_delivering _)) fun _ => ?_
    refine Keeps.bind (kept_delivering.jsDispatch _ _) fun _ => ?_
    cases submittedForm actions with
    | some form => exact runSubmitFlow_delivering form
    | none => exact Keeps.pure _
  · cases submittedForm actions with
    | some form => exact runSubmitFlow_delivering form
    | none => exact Keeps.pure _

theorem clickDefault_delivering (target : NodeId) :
    Keeps (fun page : PageRuntime σ κ => Delivering batch page.host)
      (clickDefault script target) :=
  Keeps.bind (onHost_keeps (Host.onDom_delivering _)) fun actions =>
    Keeps.bind (onHost_keeps (Keeps.modify fun _ h => h)) fun _ =>
      followDefault_delivering target actions

theorem click_delivering (target : NodeId) :
    Keeps (fun page : PageRuntime σ κ => Delivering batch page.host) (click script target) := by
  refine Keeps.bind (onHost_keeps (Host.onDom_delivering _)) fun _ => ?_
  exact Keeps.bind (kept_delivering.jsDispatch _ _) fun ⟨event, invoked⟩ =>
    Keeps.ite (Keeps.pure _) (clickDefault_delivering target)

theorem turn_delivering (t : PageTurn κ) (page : PageRuntime σ κ) (h : Delivering [] page.host) :
    Delivering [] (turn script page t).host := by
  cases t with
  | callbacks list => exact kept_delivering.runCallbacks h
  | flushPending => exact flushPending_delivering.endState h
  | dispatch target event => exact (kept_delivering.jsDispatch target event).endState h
  | click target => exact (click_delivering target).endState h
  | load => exact (onHost_keeps (Host.queuePendingDispatch_delivering _ _)).endState h

theorem run_delivering (script : PageScript σ κ) (document : LiveDocument) (engine : σ)
    (turns : List (PageTurn κ)) : Delivering [] (run script document engine turns).host := by
  have hstart : Delivering [] (start (κ := κ) document engine).host := fun _ => ⟨trivial, rfl⟩
  unfold run
  generalize start document engine = page at hstart
  induction turns generalizing page with
  | nil => exact hstart
  | cons t turns ih => exact ih _ (turn_delivering t page hstart)

/-- In a run that keeps all its entries, `flush_pending` delivers one event for each, in
order and as the call made it. -/
theorem delivers_as_made (script : PageScript σ κ) (document : LiveDocument) (engine : σ)
    (turns : List (PageTurn κ)) (kept : AllKept (run script document engine turns).host.history) :
    DeliversAsMade (run script document engine turns).host.history :=
  (run_delivering script document engine turns kept).1

end PageRuntime

/-! A form with a button in a body. -/

namespace PageRuntime

def formPage : LiveDocument where
  root := 1
  nodes := [⟨1, none, [2], .element "body" ∅ false⟩, ⟨2, some 1, [3], .element "form" ∅ false⟩,
    ⟨3, some 2, [], .element "button" ∅ false⟩].foldl (fun nodes node => nodes.insert node.id node) ∅
  nextNodeId := 4
  shadows := ∅

/-- A parser that finds no markup. -/
@[reducible] def noMarkup : HtmlParser := ⟨fun _ => .mk none "root" [] [] "" false⟩

/-- Every callback makes these host calls. -/
def making (list : List HostCall) : PageScript Unit Unit where
  handler _ _ := (list.map .host, ())
  observers _ := []

/-- The history of a script that makes these calls and of the flush after it. -/
def historyOf (list : List HostCall) : List EventStep :=
  (@run _ _ _ noMarkup (making list) formPage () [.callbacks [()], .flushPending]).host.history

/-- A script clicks the button. -/
theorem delivers_as_made_click :
    historyOf [.elementFor 3, .click 32] =
      [.flushed, .delivered ⟨.node 3, "click", none, true, true⟩,
        .made ⟨.node 3, "click", none, true, true⟩ (some ⟨3, "click", none⟩)] ∧
    DeliversAsMade (historyOf [.elementFor 3, .click 32]) :=
  ⟨by decide +kernel, @delivers_as_made _ _ _ noMarkup (making [.elementFor 3, .click 32]) formPage ()
    [.callbacks [()], .flushPending] (by decide +kernel)⟩

/-- An event that does not bubble is delivered as one that does, and the submission of the
form, whose handle is 32, is not delivered. -/
theorem delivery_changes_events :
    ¬ DeliversAsMade (historyOf
      [.elementFor 3, .dispatchEvent (.element 32) ⟨"ready", false, false, none⟩]) ∧
    ¬ DeliversAsMade (historyOf [.elementFor 2, .submit 32]) := by
  decide

end PageRuntime

end GhitaBrowser.Page
