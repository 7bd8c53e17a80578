import GhitaBrowser.Page.ClickLaw

/-!
# Where the two clicks differ

A script whose callbacks make no call, one whose callbacks prevent the default action and
one whose first callback makes given host calls tell the two clicks apart wherever they
are not alike.
-/

namespace GhitaBrowser.Page

open Dom List

namespace PageRuntime

variable {σ κ : Type} [DecidableEq κ] [HtmlParser] {script : PageScript σ κ}
  {page : PageRuntime σ κ} {target : NodeId} {path : List NodeId}

/-! ## Where they differ -/

/-- Callbacks that run when more than `m` listeners have been invoked do nothing. -/
def Calm (script : PageScript σ κ) (m : Nat) : Prop :=
  ∀ (callback : κ) (page : PageRuntime σ κ), m < page.listeners.log.length →
    page.runCallback script callback = page

theorem Calm.dispatched {m : Nat} (calm : Calm script m) (h : m ≤ page.listeners.log.length)
    (target : NodeId) (path : List NodeId) (eventType : String) :
    (PageRuntime.dispatched script page target path eventType).event.defaultPrevented = false ∧
      (PageRuntime.dispatched script page target path eventType).page.host = page.host ∧
      m ≤ (PageRuntime.dispatched script page target path eventType).page.listeners.log.length := by
  have hstable : PageDispatch.Stable script fun d =>
      d.event.defaultPrevented = false ∧ d.page.host = page.host ∧ m ≤ d.invocations := by
    refine ⟨fun key l d hd => ?_, fun key removeOnce d hd => ?_⟩
    · have hcallback := calm l.callback (d.page.beginEvent key l d.event)
        (Nat.lt_succ_of_le hd.2.2)
      refine ⟨?_, ?_, ?_⟩
      · show (mergeEvent d.event (runCallback script l.callback _)).defaultPrevented = false
        rw [hcallback]
        exact hd.1
      · show (runCallback script l.callback _).host = page.host
        rw [hcallback]
        exact hd.2.1
      · rw [PageDispatch.invocations_invoke]
        exact Nat.le_succ_of_le hd.2.2
    · rw [PageDispatch.invocations_retire]
      exact hd
  exact hstable.jsDispatchPass target path.tail ⟨.new eventType none, page, 0⟩ ⟨rfl, rfl, h⟩

theorem Calm.performed_submit {m : Nat} (calm : Calm script m) (h : m ≤ page.listeners.log.length)
    {form : NodeId} (hpath : eventPath page.host.dom.toLiveDocument maxEventPath form = some path) :
    (endState (runSubmitFlow script form) page).host.performed =
      page.host.performed ++ [.submitForm form] := by
  obtain ⟨hprevented, hhost, -⟩ := calm.dispatched h form path "submit"
  have hflow : endState (runSubmitFlow script form) page =
      endState (do
        performSubmit form
        if ← validateForm form then collectSubmission form)
        (PageRuntime.dispatched script page form path "submit").page := by
    refine (endState_bind_ok (jsDispatch_ok "submit" hpath)).trans ?_
    refine congrArg (fun program => endState program _) (if_neg ?_)
    rw [hprevented]
    exact Bool.false_ne_true
  let IsPerformed : Host → Prop := fun host =>
    host.performed = page.host.performed ++ [.submitForm form]
  have hrest : Keeps (fun after : PageRuntime σ κ =>
      after.host.performed = page.host.performed ++ [.submitForm form])
      (do if ← validateForm form then collectSubmission form) :=
    Keeps.bind (validateForm_keeps (P := IsPerformed) form) fun _ =>
      Keeps.ite (collectSubmission_keeps (P := IsPerformed) form) (Keeps.pure _)
  rw [hflow]
  refine (congrArg (fun after : PageRuntime σ κ => after.host.performed)
    (endState_bind_ok rfl)).trans (hrest.endState ?_)
  show _ ++ _ = _
  rw [hhost]

omit [DecidableEq κ] [HtmlParser] in
theorem seen_of_erase {page' : PageRuntime σ κ} (h : page.erase = page'.erase) :
    page.listeners = page'.listeners ∧ page.host.dom = page'.host.dom ∧
      page.host.performed = page'.host.performed := by
  obtain ⟨hpage, hhost⟩ := eq_of_erase h
  have hdom := congrArg Host.dom hhost
  have hperformed := congrArg Host.performed hhost
  rw [hpage]
  exact ⟨rfl, hdom, hperformed⟩

variable {actions : List DefaultAction}

/-- Without an event path the change fails before a listener runs. -/
theorem followDefault_no_path (hchange : actions.any DefaultAction.isChange = true)
    (h : eventPath page.host.dom.toLiveDocument maxEventPath target = none) :
    endState (followDefault script target actions) page = page := by
  obtain ⟨failure, hdispatch⟩ := onHost_dispatchEvent_error h
  have hfollow : followDefault script target actions page = .error failure page :=
    (congrFun (if_pos hchange) page).trans (bind_error hdispatch)
  unfold endState
  rw [hfollow]

theorem Calm.performed_change {m : Nat} (calm : Calm script m) (h : m ≤ page.listeners.log.length)
    (hchange : actions.any DefaultAction.isChange = true) (hform : submittedForm actions = none) :
    (endState (followDefault script target actions) page).host.performed = page.host.performed := by
  cases hpath : eventPath page.host.dom.toLiveDocument maxEventPath target with
  | none => rw [followDefault_no_path hchange hpath]
  | some path =>
    rw [followDefault_change hchange hform hpath, (calm.dispatched h target path "change").2.1]

theorem Calm.rests {m : Nat} (calm : Calm script m) (h : m ≤ page.listeners.log.length)
    (hsame : (endState (clickDefault script target) page).erase = page.erase) :
    Rests target page.host.dom := by
  obtain ⟨-, hdom, hperformed⟩ := seen_of_erase hsame
  unfold Rests
  cases happly : applyClickDefault target page.host.dom with
  | error failure after =>
    rw [clickDefault_error happly] at hdom
    exact hdom
  | ok actions after =>
    rw [clickDefault_ok happly] at hdom hperformed
    have hlog : m ≤ (defaulted page actions after).listeners.log.length := h
    have hchanged : ∀ {action : DefaultAction}, action.isChange = true →
        submittedForm [action] = none → actions = [action] → False := by
      rintro action hchange hform rfl
      rw [calm.performed_change hlog (show [action].any _ = true by
        rw [any_cons, hchange, Bool.true_or]) hform] at hperformed
      have hcarried := isCarriedOut_of_isChange hchange
      unfold defaulted at hperformed
      rw [filter_cons_of_pos hcarried] at hperformed
      exact cons_ne_nil _ _ (append_right_eq_self.mp hperformed)
    rcases applyClickDefault_ok happly with ⟨hafter, hnone | ⟨href, hnavigate⟩⟩ | ⟨checked, htoggle⟩ |
      hfocus | ⟨-, form, hclosest, hsubmit⟩ | ⟨-, option, hselect⟩
    · refine ⟨hafter, fun action haction => ?_⟩
      rw [hnone] at haction
      cases haction
    · refine ⟨hafter, fun action haction => ?_⟩
      rw [hnavigate] at haction
      cases mem_singleton.mp haction
      exact ⟨rfl, fun _ h => nomatch h⟩
    · exact (hchanged rfl rfl htoggle).elim
    · rw [hfocus, followDefault_none rfl rfl] at hperformed
      exact absurd (append_right_eq_self.mp hperformed) (cons_ne_nil _ _)
    · subst hsubmit
      rw [followDefault_submit rfl rfl] at hdom hperformed
      have hpaths : eventPath after.toLiveDocument maxEventPath form =
          eventPath page.host.dom.toLiveDocument maxEventPath form :=
        eventPath_applyClickDefault happly _ _
      cases hpath : eventPath page.host.dom.toLiveDocument maxEventPath form with
      | none =>
        rw [runSubmitFlow_no_path (hpaths.trans hpath)] at hdom
        refine ⟨hdom, fun action haction => ?_⟩
        cases mem_singleton.mp haction
        refine ⟨rfl, fun other h => ?_⟩
        cases h
        exact hpath
      | some path =>
        rw [calm.performed_submit hlog (hpaths.trans hpath)] at hperformed
        have hlength := congrArg List.length hperformed
        unfold defaulted at hlength
        rw [length_append, length_append] at hlength
        exact absurd hlength (Nat.ne_of_gt (Nat.lt_succ_of_le (Nat.le_add_right _ _)))
    · exact (hchanged rfl rfl hselect).elim

/-- Callbacks that make no host call. -/
def Still (script : PageScript σ κ) : Prop :=
  ∀ (callback : κ) (page : PageRuntime σ κ), (page.runCallback script callback).host = page.host

theorem Still.dispatched (still : Still script) (target : NodeId) (path : List NodeId)
    (eventType : String) :
    (PageRuntime.dispatched script page target path eventType).page.host = page.host := by
  have hkept : KeptBy script fun host => host = page.host := fun callback page h =>
    (still callback page).trans h
  exact hkept.stable.jsDispatchPass target path.tail ⟨.new eventType none, page, 0⟩ rfl

variable {handle : Nat} {after : FocusedDocument}

theorem Still.scriptClick (still : Still script) (ready : Clickable page handle target path)
    (happly : applyClickDefault target page.host.dom = .ok actions after) :
    (PageRuntime.scriptClick script handle page).host.dom = after ∧
      (PageRuntime.scriptClick script handle page).host.performed =
        page.host.performed ++ actions.filter DefaultAction.isCarriedOut := by
  obtain ⟨ended, hended, hscript⟩ := ready.scriptClick happly script
  have hclicked : ended.host.dom = after ∧ ended.host.performed =
      page.host.performed ++ actions.filter DefaultAction.isCarriedOut := by
    obtain ⟨-, hdom, hperformed⟩ := seen_of_erase hended
    rw [still.dispatched] at hdom hperformed
    exact ⟨hdom, hperformed⟩
  rw [hscript]
  unfold clickBatch
  split
  · have hpath' : eventPath ended.host.dom.toLiveDocument maxEventPath target = some path := by
      rw [hclicked.1]
      exact ready.defaulted happly
    obtain ⟨last, hlast, hchange⟩ := deliverAll_cons script (rfl : ended.erase = ended.erase) ready.node
      (show "change" ≠ "submit" by decide) hpath' []
    obtain ⟨-, hdom, hperformed⟩ := seen_of_erase hlast
    rw [still.dispatched] at hdom hperformed
    rw [tail_cons, hchange]
    exact ⟨hdom.trans hclicked.1, hperformed.trans hclicked.2⟩
  · exact hclicked

/-! ### A script that makes no call -/

def quiet : PageScript σ κ where
  handler _ page := ([], page.engine)
  observers _ := []

theorem calm_quiet (m : Nat) : Calm (quiet : PageScript σ κ) m := fun _ _ _ => rfl

theorem log_dispatched {eventType : String} (h : Hears page.listeners target path eventType) :
    page.listeners.log.length <
      (dispatched script page target path eventType).page.listeners.log.length :=
  PageDispatch.lt_jsDispatchPass (d := ⟨.new eventType none, page, 0⟩) ⟨rfl, rfl, rfl⟩ h

/-- Where a listener hears the click, its default action does not fail: a click by script
that fails runs no listener. -/
theorem applies_of_same (ready : Clickable page handle target path)
    (hclick : Hears page.listeners target path "click")
    (hsame : (scriptClick quiet handle page).erase = (userClick quiet target page).erase) :
    ∃ actions after, applyClickDefault target page.host.dom = .ok actions after := by
  cases happly : applyClickDefault target page.host.dom with
  | ok actions after => exact ⟨actions, after, rfl⟩
  | error failure after =>
    obtain ⟨hprevented, hhost, -⟩ := (calm_quiet page.listeners.log.length).dispatched
      (Nat.le_refl _) target path "click"
    have huser : (userClick quiet target page).listeners =
        (dispatched quiet page target path "click").page.listeners := by
      rw [userClick_some ready.path_eq, if_neg (by rw [hprevented]; exact Bool.false_ne_true),
        clickDefault_error (by rw [hhost]; exact happly)]
    have hscript : (scriptClick quiet handle page).listeners = page.listeners := by
      rw [scriptClick_error ready.handle_eq ready.idle ((nativeClick_eq ready.path_eq).trans happly)]
    have hlisteners := (seen_of_erase hsame).1
    rw [hscript, huser] at hlisteners
    have hlog : _ < (dispatched quiet page target path "click").page.listeners.log.length :=
      log_dispatched hclick
    rw [← hlisteners] at hlog
    exact absurd hlog (Nat.lt_irrefl _)

theorem still_quiet : Still (quiet : PageScript σ κ) := fun _ _ => rfl

/-- Where no listener hears the click, the target does not submit a form: the user's click
submits it and the click by script does not. -/
theorem not_submits_of_same (ready : Clickable page handle target path)
    (hsame : (scriptClick quiet handle page).erase = (userClick quiet target page).erase) :
    ¬ Submits page.host.dom.toLiveDocument target := by
  intro hsubmits
  obtain ⟨form, after, hform, happly⟩ := hsubmits.ok
  have hcalm : Calm (quiet : PageScript σ κ) 0 := calm_quiet 0
  obtain ⟨hprevented, hhost, -⟩ := hcalm.dispatched (Nat.zero_le page.listeners.log.length) target
    path "click"
  obtain ⟨formPath, hformPath⟩ := eventPath_closestWalk ready.path_eq hform
  have happly' : applyClickDefault target (dispatched quiet page target path "click").page.host.dom =
      .ok [.submitForm form] after := by
    rw [hhost]
    exact happly
  have hpath : eventPath (defaulted (dispatched (quiet : PageScript σ κ) page target path "click").page
      [.submitForm form] after).host.dom.toLiveDocument maxEventPath form = some formPath :=
    (eventPath_applyClickDefault happly _ _).trans hformPath
  have huser : (userClick quiet target page).host.performed =
      page.host.performed ++ [.submitForm form] := by
    rw [userClick_some ready.path_eq, if_neg (by rw [hprevented]; exact Bool.false_ne_true),
      clickDefault_ok happly', followDefault_submit rfl rfl,
      hcalm.performed_submit (Nat.zero_le _) hpath]
    show (dispatched (quiet : PageScript σ κ) page target path "click").page.host.performed ++ [] ++ _ = _
    rw [hhost, append_nil]
  have hscript : (scriptClick quiet handle page).host.performed = page.host.performed ++ [] :=
    (still_quiet.scriptClick ready happly).2
  have hperformed := (seen_of_erase hsame).2.2
  rw [hscript, huser] at hperformed
  exact absurd (append_cancel_left hperformed) (cons_ne_nil _ _).symm

/-- Where no listener hears the click, none hears the change of a select control: only the
user's click sends it. -/
theorem change_unheard_of_same (ready : Clickable page handle target path)
    (hclick : ¬ Hears page.listeners target path "click")
    (hselects : Selects page.host.dom.toLiveDocument target)
    (hsame : (scriptClick quiet handle page).erase = (userClick quiet target page).erase) :
    ¬ Hears page.listeners target path "change" := by
  intro hchange
  obtain ⟨option, after, happly⟩ := hselects.ok
  have hidle : ¬ Hears (defaulted page [.selectOption option] after).listeners target path
      "click" := hclick
  obtain ⟨ended, hended, hscript⟩ := ready.scriptClick happly quiet
  rw [dispatched_idle hidle] at hended
  have hscript' : (scriptClick quiet handle page).listeners = page.listeners := by
    rw [hscript]
    exact (seen_of_erase hended).1
  have huser : userClick quiet target page =
      (dispatched quiet (defaulted page [.selectOption option] after) target path "change").page := by
    rw [userClick_some ready.path_eq, dispatched_idle hclick]
    refine (if_neg Bool.false_ne_true).trans ?_
    rw [clickDefault_ok happly, followDefault_change rfl rfl (ready.defaulted happly)]
  have hheard : Hears (defaulted page [.selectOption option] after).listeners target path
      "change" := hchange
  have hlog : (defaulted page [.selectOption option] after).listeners.log.length <
      (dispatched quiet (defaulted page [.selectOption option] after) target path
        "change").page.listeners.log.length := log_dispatched hheard
  rw [← huser, ← (seen_of_erase hsame).1, hscript'] at hlog
  exact absurd hlog (Nat.lt_irrefl _)

/-! ### A script that prevents the default action -/

def preventing : PageScript σ κ where
  handler _ page := ([.preventDefault], page.engine)
  observers _ := []

theorem still_preventing : Still (preventing : PageScript σ κ) := fun _ _ => rfl

theorem prevented_dispatched {eventType : String} (h : Hears page.listeners target path eventType) :
    (dispatched preventing page target path eventType).event.defaultPrevented = true := by
  have hstable : PageDispatch.Stable (preventing : PageScript σ κ) fun d =>
      d.event.cancelable = true ∧
        (page.listeners.log.length < d.invocations → d.event.defaultPrevented = true) := by
    refine ⟨fun key l d hd => ⟨hd.1, fun _ => ?_⟩, fun key removeOnce d hd => ?_⟩
    · show (d.event.defaultPrevented || d.event.cancelable) = true
      rw [hd.1, Bool.or_true]
    · rw [PageDispatch.invocations_retire]
      exact hd
  have hdispatched := hstable.jsDispatchPass target path.tail ⟨.new eventType none, page, 0⟩
    ⟨rfl, fun hlt => absurd hlt (Nat.lt_irrefl _)⟩
  exact hdispatched.2 (log_dispatched h)

/-- Where a listener hears the click, the default action is at rest: a listener that prevents
it comes too late for the click by script. -/
theorem rests_of_prevented (ready : Clickable page handle target path)
    (hclick : Hears page.listeners target path "click")
    (happly : applyClickDefault target page.host.dom = .ok actions after)
    (hsame : (scriptClick preventing handle page).erase = (userClick preventing target page).erase) :
    after = page.host.dom ∧ ∀ action ∈ actions, action.isCarriedOut = false := by
  have huser : (userClick preventing target page).host = page.host := by
    rw [userClick_some ready.path_eq, if_pos (prevented_dispatched hclick)]
    exact still_preventing.dispatched target path "click"
  obtain ⟨hdom, hperformed⟩ := still_preventing.scriptClick ready happly
  obtain ⟨-, hdom', hperformed'⟩ := seen_of_erase hsame
  rw [huser] at hdom' hperformed'
  have hfilter : actions.filter DefaultAction.isCarriedOut = [] :=
    append_right_eq_self.mp (hperformed.symm.trans hperformed')
  exact ⟨hdom.symm.trans hdom', fun action haction =>
    Bool.eq_false_iff.mpr (filter_eq_nil_iff.mp hfilter action haction)⟩

/-! ### A script whose first callback makes host calls -/

/-- The callback of the listener that is number `n` in the log makes the calls. -/
def once (n : Nat) (list : List HostCall) : PageScript σ κ where
  handler _ page :=
    (if page.listeners.log.length = n + 1 then list.map .host else [], page.engine)
  observers _ := []

theorem calls_host (page : PageRuntime σ κ) (list : List HostCall) :
    page.calls (list.map PageCall.host) = { page with host := page.host.calls list } := by
  induction list generalizing page with
  | nil => rfl
  | cons c list ih => exact ih (page.call (.host c))

theorem runCallback_once_eq {n : Nat} (list : List HostCall) (callback : κ)
    (h : page.listeners.log.length = n + 1) :
    page.runCallback (once n list) callback = { page with host := page.host.calls list } := by
  have hhandler : (once n list : PageScript σ κ).handler callback page.erase =
      (list.map PageCall.host, page.engine) := by
    show (if page.listeners.log.length = n + 1 then list.map PageCall.host else [], page.engine) = _
    rw [if_pos h]
  unfold runCallback
  rw [hhandler]
  exact calls_host page list

theorem runCallback_once_ne {n : Nat} (list : List HostCall) (callback : κ)
    (h : page.listeners.log.length ≠ n + 1) : page.runCallback (once n list) callback = page := by
  have hhandler : (once n list : PageScript σ κ).handler callback page.erase = ([], page.engine) := by
    show (if page.listeners.log.length = n + 1 then list.map PageCall.host else [], page.engine) = _
    rw [if_neg h]
  unfold runCallback
  rw [hhandler]
  rfl

theorem calm_once (n : Nat) (list : List HostCall) : Calm (once n list : PageScript σ κ) (n + 1) :=
  fun callback _ h => runCallback_once_ne list callback (Nat.ne_of_gt h)

/-- Where the calls of `once` stand in a dispatch. -/
structure Calling (page : PageRuntime σ κ) (list : List HostCall) (d : PageDispatch σ κ) : Prop where
  unprevented : d.event.defaultPrevented = false
  later : page.listeners.log.length ≤ d.invocations
  before : d.invocations = page.listeners.log.length → d.page.host = page.host
  called : page.listeners.log.length < d.invocations → d.page.host = page.host.calls list

theorem Calling.invoke {list : List HostCall} {d : PageDispatch σ κ} (calling : Calling page list d)
    (key : ListenerKey) (l : JsListener κ) :
    Calling page list (d.invoke (once page.listeners.log.length list) key l) := by
  have hlater := calling.later
  refine ⟨?_, ?_, fun hequal => ?_, fun _ => ?_⟩
  · show (mergeEvent d.event (runCallback _ l.callback _)).defaultPrevented = false
    by_cases hfirst : (d.page.beginEvent key l d.event).listeners.log.length =
        page.listeners.log.length + 1
    · rw [runCallback_once_eq list l.callback hfirst]
      exact calling.unprevented
    · rw [runCallback_once_ne list l.callback hfirst]
      exact calling.unprevented
  · rw [PageDispatch.invocations_invoke]
    exact Nat.le_succ_of_le hlater
  · rw [PageDispatch.invocations_invoke] at hequal
    exact absurd hequal (Nat.ne_of_gt (Nat.lt_succ_of_le hlater))
  · show (runCallback _ l.callback (d.page.beginEvent key l d.event)).host = page.host.calls list
    rcases Nat.eq_or_lt_of_le hlater with hequal | hlt
    · have hfirst : (d.page.beginEvent key l d.event).listeners.log.length =
          page.listeners.log.length + 1 := congrArg (· + 1) hequal.symm
      rw [runCallback_once_eq list l.callback hfirst]
      exact congrArg (Host.calls · list) (calling.before hequal.symm)
    · have hnext : (d.page.beginEvent key l d.event).listeners.log.length ≠
          page.listeners.log.length + 1 := Nat.ne_of_gt (Nat.succ_lt_succ hlt)
      rw [runCallback_once_ne list l.callback hnext]
      exact calling.called hlt

theorem Calling.stable (page : PageRuntime σ κ) (list : List HostCall) :
    PageDispatch.Stable (once page.listeners.log.length list) (Calling page list) where
  invoke key l _ calling := calling.invoke key l
  retire key removeOnce d calling := by
    have hlog := PageDispatch.invocations_retire key removeOnce d
    refine ⟨calling.unprevented, ?_, fun h => ?_, fun h => ?_⟩
    · rw [hlog]
      exact calling.later
    · rw [hlog] at h
      exact calling.before h
    · rw [hlog] at h
      exact calling.called h

/-- Where a listener hears the click and the default action is at rest, it still is after
whatever host calls that listener makes: the user's click applies it to that document. -/
theorem rests_of_called (ready : Clickable page handle target path)
    (hclick : Hears page.listeners target path "click")
    (happly : applyClickDefault target page.host.dom = .ok actions after)
    (hafter : after = page.host.dom) (hcarried : ∀ action ∈ actions, action.isCarriedOut = false)
    (list : List HostCall)
    (hsame : (scriptClick (once page.listeners.log.length list) handle page).erase =
      (userClick (once page.listeners.log.length list) target page).erase) :
    Rests target (page.host.calls list).dom := by
  let script : PageScript σ κ := once page.listeners.log.length list
  have calling : Calling page list (dispatched script page target path "click") :=
    (Calling.stable page list).jsDispatchPass target path.tail ⟨.new "click" none, page, 0⟩
      ⟨rfl, Nat.le_refl _, fun _ => rfl, fun hlt => absurd hlt (Nat.lt_irrefl _)⟩
  have hlog : page.listeners.log.length <
      (dispatched script page target path "click").page.listeners.log.length := log_dispatched hclick
  have huser : userClick script target page =
      endState (clickDefault script target) (dispatched script page target path "click").page := by
    rw [userClick_some ready.path_eq, if_neg (by rw [calling.unprevented]; exact Bool.false_ne_true)]
  have hdefault : (endState (clickDefault script target)
      (dispatched script page target path "click").page).erase =
      (dispatched script page target path "click").page.erase := by
    rw [← huser]
    exact hsame.symm.trans (ready.scriptClick_rests happly hafter hcarried script)
  rw [← calling.called hlog]
  exact (calm_once page.listeners.log.length list).rests hlog hdefault

/-! ## The law -/

/-- A click by script and the user's click do the same to the page, whatever its listeners
do, exactly when the clicks are alike. -/
theorem same_clicks_iff_alike {handle : Nat} (hhandle : page.host.elements[handle]? = some target)
    (hpending : page.host.pendingDispatches = []) (hwindow : target ≠ listenerWindow) :
    (∀ script : PageScript σ κ,
        (scriptClick script handle page).erase = (userClick script target page).erase) ↔
      ClicksAlike page target := by
  unfold ClicksAlike
  cases h : eventPath page.host.dom.toLiveDocument maxEventPath target with
  | none => exact iff_of_true (fun _ => same_of_no_path hhandle hpending h) trivial
  | some path =>
    have ready : Clickable page handle target path := ⟨hhandle, hpending, hwindow, h⟩
    constructor
    · intro hsame
      by_cases hclick : Hears page.listeners target path "click"
      · obtain ⟨actions, after, happly⟩ := applies_of_same ready hclick (hsame quiet)
        obtain ⟨hafter, hcarried⟩ := rests_of_prevented ready hclick happly (hsame preventing)
        exact .inl ⟨⟨actions, after, happly⟩, fun list =>
          rests_of_called ready hclick happly hafter hcarried list (hsame _)⟩
      · exact .inr ⟨hclick, not_submits_of_same ready (hsame quiet),
          fun hselects => change_unheard_of_same ready hclick hselects (hsame quiet)⟩
    · rintro (⟨⟨actions, after, happly⟩, hrests⟩ | ⟨hclick, hsubmits, hselects⟩) script
      · exact same_of_rests ready happly hrests
      · exact same_of_unheard ready hclick hsubmits hselects

end PageRuntime

/-! A checkbox and a form with a button, whose handles are 32 and 33. -/

namespace PageRuntime

def controlPage : LiveDocument where
  root := 1
  nodes := [⟨1, none, [2, 3], .element "body" ∅ false⟩,
    ⟨2, some 1, [], .element "input" ((∅ : Attributes).insert "type" "checkbox") true⟩,
    ⟨3, some 1, [4], .element "form" ∅ false⟩,
    ⟨4, some 3, [], .element "button" ∅ false⟩].foldl (fun nodes node => nodes.insert node.id node) ∅
  nextNodeId := 5
  shadows := ∅

/-- The page after calls of its script. -/
def controls (list : List (PageCall Unit)) : PageRuntime Unit Unit :=
  @calls _ _ _ noMarkup (start controlPage ())
    ([.host (.elementFor 2), .host (.elementFor 4)] ++ list)

/-- The call that adds a listener to a node. -/
def hearing (node : NodeId) (eventType : String) : PageCall Unit :=
  .listener (.addEventListener (.node node) eventType false false ())

/-- A listener of the change alone: the two clicks do the same. -/
theorem same_clicks_checkbox :
    @ClicksAlike noMarkup _ _ (controls [hearing 2 "change"]) 2 ∧
    ∀ script : PageScript Unit Unit,
      (@scriptClick _ _ _ noMarkup script 32 (controls [hearing 2 "change"])).erase =
        (@userClick _ _ _ noMarkup script 2 (controls [hearing 2 "change"])).erase := by
  have hpath : eventPath (controls [hearing 2 "change"]).host.dom.toLiveDocument maxEventPath 2 =
      some [2, 1] := by decide
  have halike : @ClicksAlike noMarkup _ _ (controls [hearing 2 "change"]) 2 := by
    unfold ClicksAlike
    rw [hpath]
    exact .inr (by decide)
  exact ⟨halike, (@same_clicks_iff_alike _ _ _ noMarkup _ _ _ (by decide)
    (by decide) (by decide)).mpr halike⟩

/-- A listener of the checkbox prevents the default action, which the click by script has
carried out. The button submits its form on the user's click only. -/
theorem clicks_differ :
    (@scriptClick _ _ _ noMarkup preventing 32 (controls [hearing 2 "click"])).host.performed =
      [.toggleChecked 2 true] ∧
    (@userClick _ _ _ noMarkup preventing 2 (controls [hearing 2 "click"])).host.performed = [] ∧
    (@scriptClick _ _ _ noMarkup quiet 33 (controls [])).host.performed = [] ∧
    (@userClick _ _ _ noMarkup quiet 4 (controls [])).host.performed = [.submitForm 3] := by
  decide +kernel

end PageRuntime

end GhitaBrowser.Page
