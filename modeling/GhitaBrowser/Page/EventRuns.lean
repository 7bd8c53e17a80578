import GhitaBrowser.Page.EventFlow

/-!
# Dispatches of a page

The event path of a document, the promise that a `once` listener runs at most once in the
life of the page, and what both give for a dispatch at any point of any run.
-/

namespace GhitaBrowser.Page

open Dom List

/-! ## Event paths -/

/-- The target, its parent and so on up to a node without parent. -/
inductive Ancestry (document : LiveDocument) : NodeId → List NodeId → Prop
  | root {node : NodeId} {entry : LiveNode} :
      document.nodes[node]? = some entry → entry.parent = none → Ancestry document node [node]
  | child {node parent : NodeId} {entry : LiveNode} {path : List NodeId} :
      document.nodes[node]? = some entry → entry.parent = some parent →
      Ancestry document parent path → Ancestry document node (node :: path)

namespace Ancestry

variable {document : LiveDocument} {node : NodeId} {path : List NodeId}

theorem unique {other : List NodeId} (h : Ancestry document node path)
    (h' : Ancestry document node other) : path = other := by
  induction h generalizing other with
  | root hentry hparent =>
    cases h' with
    | root => rfl
    | child hentry' hparent' =>
      cases hentry.symm.trans hentry'
      cases hparent.symm.trans hparent'
  | child hentry hparent _ ih =>
    cases h' with
    | root hentry' hparent' =>
      cases hentry.symm.trans hentry'
      cases hparent.symm.trans hparent'
    | child hentry' hparent' hrest =>
      cases hentry.symm.trans hentry'
      cases hparent.symm.trans hparent'
      rw [ih hrest]

theorem of_mem (h : Ancestry document node path) {ancestor : NodeId} (hmem : ancestor ∈ path) :
    ∃ rest, Ancestry document ancestor rest ∧ rest.length ≤ path.length := by
  induction h with
  | root hentry hparent =>
    rw [mem_singleton.mp hmem]
    exact ⟨_, .root hentry hparent, Nat.le_refl _⟩
  | child hentry hparent hpath ih =>
    rcases mem_cons.mp hmem with rfl | hmem
    · exact ⟨_, .child hentry hparent hpath, Nat.le_refl _⟩
    · obtain ⟨rest, hrest, hle⟩ := ih hmem
      exact ⟨rest, hrest, Nat.le_succ_of_le hle⟩

theorem nodup (h : Ancestry document node path) : path.Nodup := by
  induction h with
  | root => exact pairwise_singleton _ _
  | child hentry hparent hpath ih =>
    refine nodup_cons.mpr ⟨fun hmem => ?_, ih⟩
    obtain ⟨rest, hrest, hle⟩ := hpath.of_mem hmem
    rw [hrest.unique (.child hentry hparent hpath), length_cons] at hle
    exact Nat.lt_irrefl _ hle

theorem eq_cons (h : Ancestry document node path) : path = node :: path.tail := by
  cases h <;> rfl

theorem eventPath_eq (h : Ancestry document node path) (room : Nat) :
    eventPath document room node = if path.length ≤ room then some path else none := by
  induction h generalizing room with
  | root hentry hparent =>
    cases room with
    | zero => rfl
    | succ room => simp [eventPath, hentry, hparent]
  | child hentry hparent hpath ih =>
    cases room with
    | zero => rfl
    | succ room =>
      simp only [eventPath, hentry, hparent, ih, length_cons, Nat.add_le_add_iff_right]
      split <;> rfl

end Ancestry

/-! ## Once listeners -/

namespace Listeners

variable {κ : Type}

/-- A `once` listener that has run is gone, `pending` ones apart, and has run once. -/
structure OnceKept (pending : List Nat) (s : Listeners κ) : Prop where
  distinct : s.Distinct
  logged : ∀ i ∈ s.log, s.registered[i.id]? = some (i.key, i.once)
  gone : ∀ key, ∀ l ∈ s.listeners key, l.once = true → l.id ∈ s.log.map Invocation.id →
    l.id ∈ pending
  once : ∀ i ∈ s.log, i.once = true → (s.log.map Invocation.id).count i.id ≤ 1

theorem new_onceKept : (new : Listeners κ).OnceKept [] :=
  ⟨new_distinct, (fun _ h => nomatch h), (fun _ _ h => nomatch h), fun _ h => nomatch h⟩

variable {pending : List Nat} {key : ListenerKey}

theorem OnceKept.retire {s : Listeners κ} (kept : s.OnceKept pending)
    (hkey : ∀ id ∈ pending, ∃ once, s.registered[id]? = some (key, once)) :
    (s.retire key pending).OnceKept [] := by
  refine ⟨kept.distinct.retire key pending, ?_, fun other l hl honce hmem => ?_, ?_⟩
  · rw [log_retire]
    have hregistered : (s.retire key pending).registered = s.registered := by
      rw [Listeners.retire]
      split <;> rfl
    rw [hregistered]
    exact kept.logged
  · rw [log_retire] at hmem
    rw [Listeners.retire] at hl
    split at hl
    · next hnone => exact hnone ▸ kept.gone other l hl honce hmem
    · simp only [setListeners] at hl
      split at hl
      · next heq =>
        obtain ⟨hl, hnot⟩ := mem_filter.mp hl
        exact absurd (kept.gone key l hl honce hmem) (of_decide_eq_true hnot)
      · next hne =>
        obtain ⟨once, hregistered⟩ := hkey l.id (kept.gone other l hl honce hmem)
        rw [kept.distinct.known other l hl] at hregistered
        exact absurd (Prod.ext_iff.mp (Option.some.inj hregistered)).1 hne
  · rw [log_retire]
    exact kept.once

variable [DecidableEq κ]

theorem registered_call (s : Listeners κ) (c : ListenerCall κ) :
    ∃ more, (s.call c).registered = s.registered ++ more := by
  cases c with
  | addEventListener key eventType capture once callback =>
    rw [call, registerListener]
    split
    · exact ⟨[], (append_nil _).symm⟩
    split
    · exact ⟨[], (append_nil _).symm⟩
    · exact ⟨[(key, once)], rfl⟩
  | _ => exact ⟨[], (append_nil _).symm⟩

theorem mem_listeners_call (s : Listeners κ) (c : ListenerCall κ)
    {l : JsListener κ} (h : l ∈ (s.call c).listeners key) :
    l ∈ s.listeners key ∨ l.id = s.nextListenerId := by
  cases c with
  | addEventListener other eventType capture once callback =>
    rw [call, registerListener] at h
    split at h
    · exact .inl h
    split at h
    · exact .inl h
    · simp only [setListeners] at h
      split at h
      · next heq =>
        rcases mem_append.mp h with h | h
        · exact .inl (heq ▸ h)
        · exact .inr (mem_singleton.mp h ▸ rfl)
      · exact .inl h
  | removeEventListener other eventType callback =>
    simp only [call, removeListener, setListeners] at h
    split at h
    · next heq => exact .inl (heq ▸ mem_of_mem_filter h)
    · exact .inl h
  | _ => exact .inl h

theorem OnceKept.call {s : Listeners κ} (kept : s.OnceKept pending)
    (c : ListenerCall κ) : (s.call c).OnceKept pending := by
  obtain ⟨more, hmore⟩ := registered_call s c
  have hlog := log_call s c
  refine ⟨kept.distinct.call c, fun i hi => ?_, fun key l hl honce hmem => ?_, fun i hi honce => ?_⟩
  · rw [hlog] at hi
    have hlogged := kept.logged i hi
    rw [hmore, List.getElem?_append_left (List.getElem?_eq_some_iff.mp hlogged).1]
    exact hlogged
  · rw [hlog] at hmem
    rcases mem_listeners_call s c hl with hold | hnew
    · exact kept.gone key l hold honce hmem
    · -- A new id has not been invoked.
      obtain ⟨i, hi, hid⟩ := mem_map.mp hmem
      have hlt := (List.getElem?_eq_some_iff.mp (kept.logged i hi)).1
      rw [kept.distinct.length, hid, hnew] at hlt
      exact absurd hlt (Nat.lt_irrefl _)
  · rw [hlog] at hi ⊢
    exact kept.once i hi honce

theorem OnceKept.calls {s : Listeners κ} (kept : s.OnceKept pending)
    (list : List (ListenerCall κ)) : (s.calls list).OnceKept pending := by
  induction list generalizing s with
  | nil => exact kept
  | cons c list ih => exact ih (kept.call c)

theorem registered_calls (s : Listeners κ) (list : List (ListenerCall κ)) :
    ∃ more, (s.calls list).registered = s.registered ++ more := by
  induction list generalizing s with
  | nil => exact ⟨[], (append_nil _).symm⟩
  | cons c list ih =>
    obtain ⟨first, hfirst⟩ := registered_call s c
    obtain ⟨more, hmore⟩ := ih (s.call c)
    refine ⟨first ++ more, ?_⟩
    rw [← append_assoc, ← hfirst, ← hmore]
    rfl

end Listeners

namespace Dispatch

variable {κ : Type} [DecidableEq κ] {handler : Handler κ}

/-- What the loop of a pass keeps: the listeners still to run are of its key, and those of
them that run once have not run. -/
structure LoopKept (key : ListenerKey) (rest : List (JsListener κ)) (pending : List Nat)
    (d : Dispatch κ) : Prop where
  kept : d.page.OnceKept pending
  known : ∀ l ∈ rest, d.page.registered[l.id]? = some (key, l.once)
  fresh : ∀ l ∈ rest, l.once = true → l.id ∉ d.page.log.map Invocation.id
  nodup : (rest.map JsListener.id).Nodup
  pendingKey : ∀ id ∈ pending, ∃ once, d.page.registered[id]? = some (key, once)

variable {d : Dispatch κ} {key : ListenerKey} {pending : List Nat}

omit [DecidableEq κ] in
/-- The log gets the invocation before the callback runs. -/
theorem LoopKept.begin {l : JsListener κ} {rest : List (JsListener κ)} (kept : d.LoopKept key (l :: rest) pending) :
    ({ d.page with
      activeEvent := some d.event
      log := ⟨key, l.capture, l.id, l.once⟩ :: d.page.log } : Listeners κ).OnceKept
        (if l.once then l.id :: pending else pending) := by
  have hknown := kept.known l mem_cons_self
  refine ⟨⟨kept.kept.distinct.length, kept.kept.distinct.known, kept.kept.distinct.nodup⟩,
    fun i hi => ?_, fun other l' hl' honce hmem => ?_, fun i hi honce => ?_⟩
  · rcases mem_cons.mp hi with rfl | hi
    · exact hknown
    · exact kept.kept.logged i hi
  · rcases mem_cons.mp hmem with hid | hmem
    · have hsame := kept.kept.distinct.known other l' hl'
      rw [hid] at hsame ⊢
      have hl : l.once = true :=
        (Prod.ext_iff.mp (Option.some.inj (hknown.symm.trans hsame))).2.trans honce
      rw [if_pos hl]
      exact mem_cons_self
    · have hpending := kept.kept.gone other l' hl' honce hmem
      split
      · exact mem_cons_of_mem _ hpending
      · exact hpending
  · rw [map_cons]
    rcases mem_cons.mp hi with rfl | hi
    · rw [count_cons_self, count_eq_zero_of_not_mem (kept.fresh l mem_cons_self honce)]
    · have hne : l.id ≠ i.id := fun heq => by
        have hsame := kept.kept.logged i hi
        rw [← heq] at hsame
        have hl : l.once = true :=
          (Prod.ext_iff.mp (Option.some.inj (hknown.symm.trans hsame))).2.trans honce
        exact kept.fresh l mem_cons_self hl (heq ▸ mem_map_of_mem hi)
      rw [count_cons_of_ne hne]
      exact kept.kept.once i hi honce

theorem LoopKept.invoke {l : JsListener κ} {rest : List (JsListener κ)} (kept : d.LoopKept key (l :: rest) pending) :
    (d.invoke handler key l).LoopKept key rest
      (if l.once then l.id :: pending else pending) := by
  have hcalls := fun list : List (ListenerCall κ) => kept.begin.calls list
  obtain ⟨more, hmore⟩ : ∃ more, (d.invoke handler key l).page.registered =
      d.page.registered ++ more := Listeners.registered_calls _ _
  have hstays : ∀ (id : Nat) (value : ListenerKey × Bool), d.page.registered[id]? = some value →
      (d.invoke handler key l).page.registered[id]? = some value := fun id value h => by
    rw [hmore, List.getElem?_append_left (List.getElem?_eq_some_iff.mp h).1]
    exact h
  refine ⟨⟨⟨(hcalls _).distinct.length, (hcalls _).distinct.known, (hcalls _).distinct.nodup⟩,
    (hcalls _).logged, (hcalls _).gone, (hcalls _).once⟩, fun other hother => ?_,
    fun other hother honce => ?_, (nodup_cons.mp kept.nodup).2, fun id hid => ?_⟩
  · exact hstays _ _ (kept.known other (mem_cons_of_mem l hother))
  · rw [log_invoke, map_cons, mem_cons, not_or]
    have hmem : other.id ∈ rest.map JsListener.id := mem_map_of_mem hother
    refine ⟨fun heq => ?_, kept.fresh other (mem_cons_of_mem l hother) honce⟩
    rw [heq] at hmem
    exact (nodup_cons.mp kept.nodup).1 hmem
  · have hpending : id = l.id ∨ id ∈ pending := by
      split at hid
      · exact mem_cons.mp hid
      · exact .inr hid
    rcases hpending with rfl | hpending
    · exact ⟨l.once, hstays _ _ (kept.known l mem_cons_self)⟩
    · obtain ⟨once, honce⟩ := kept.pendingKey id hpending
      exact ⟨once, hstays _ _ honce⟩

theorem LoopKept.loop (handler : Handler κ) {list : List (JsListener κ)} (kept : d.LoopKept key list pending) :
    (invokeLoop handler key list pending d).2.LoopKept key []
      (invokeLoop handler key list pending d).1 := by
  induction list generalizing pending d with
  | nil => exact kept
  | cons l rest ih =>
    rw [invokeLoop]
    split
    · exact ⟨kept.kept, fun _ h => absurd h not_mem_nil, fun _ h => absurd h not_mem_nil, nodup_nil,
        kept.pendingKey⟩
    · exact ih kept.invoke

theorem onceKept_invokeJsListeners (handler : Handler κ) (key : ListenerKey) (capture : Bool)
    (kept : d.page.OnceKept []) :
    (d.invokeJsListeners handler key capture).page.OnceKept [] := by
  have hsub : ∀ l ∈ d.page.matching key d.event.eventType capture, l ∈ d.page.listeners key :=
    fun l hl => mem_of_mem_filter hl
  have hstart : d.LoopKept key (d.page.matching key d.event.eventType capture) [] :=
    ⟨kept, fun l hl => kept.distinct.known key l (hsub l hl),
      fun l hl honce hmem => not_mem_nil (kept.gone key l (hsub l hl) honce hmem),
      (filter_sublist.map JsListener.id).nodup (kept.distinct.nodup key),
      fun _ h => nomatch h⟩
  have hend := hstart.loop handler
  exact hend.kept.retire hend.pendingKey

theorem onceKept_jsDispatchPass {target : NodeId} {ancestors : List NodeId}
    (kept : d.page.OnceKept []) :
    (d.jsDispatchPass handler target ancestors).page.OnceKept [] := by
  have hwalk : (walk (fun key => invokeJsListeners handler key true)
      (ancestors.reverse.map .node) d).page.OnceKept [] :=
    walk_keeps (P := fun d : Dispatch κ => d.page.OnceKept [])
      (fun key _ _ => onceKept_invokeJsListeners handler key true) kept
  rw [jsDispatchPass, bubblePhase_eq, atTarget_eq]
  have htarget := onceKept_invokeJsListeners handler (.node target) false
    (onceKept_invokeJsListeners handler (.node target) true hwalk)
  split
  · exact walk_keeps (P := fun d : Dispatch κ => d.page.OnceKept [])
      (fun key _ _ => onceKept_invokeJsListeners handler key false) htarget
  · exact htarget

end Dispatch

/-! ## Runs -/

namespace Listeners

variable {κ : Type} [DecidableEq κ] {handler : Handler κ}

theorem OnceKept.dispatch {s : Listeners κ} (kept : s.OnceKept []) (document : LiveDocument)
    (target : NodeId) (event : DomEvent) :
    (s.dispatch handler document target event).OnceKept [] := by
  rw [Listeners.dispatch]
  split
  · exact kept
  · exact Dispatch.onceKept_jsDispatchPass kept

theorem OnceKept.turn {s : Listeners κ} (kept : s.OnceKept []) (turn : ListenerTurn κ) :
    (s.turn handler turn).OnceKept [] := by
  cases turn with
  | script list => exact kept.calls list
  | dispatch document target event => exact kept.dispatch document target event

theorem run_onceKept (handler : Handler κ) (turns : List (ListenerTurn κ)) :
    (run handler turns).OnceKept [] := by
  have hfold : ∀ s : Listeners κ, s.OnceKept [] → (turns.foldl (turn handler) s).OnceKept [] := by
    induction turns with
    | nil => exact fun s kept => kept
    | cons t turns ih => exact fun s kept => ih _ (kept.turn t)
  exact hfold new new_onceKept

/-- A `once` listener was invoked at most once in the life of the page. -/
def OnceAtMost (s : Listeners κ) : Prop :=
  ∀ i ∈ s.log, i.once = true → (s.log.map Invocation.id).count i.id ≤ 1

/-- After any run of a page, a dispatch makes the invocations that event flow prescribes,
with every `once` listener at most once, exactly when its path is within the limit and it
meets none of the three differences, or its path is beyond the limit and no listener is
due. -/
theorem dispatch_follows_iff (handler : Handler κ) (turns : List (ListenerTurn κ))
    (document : LiveDocument) (target : NodeId) (path : List NodeId) (event : DomEvent)
    (hpath : Ancestry document target path) :
    (((run handler turns).dispatch handler document target event).log =
        (Dispatch.flow handler target path.tail ⟨event, run handler turns⟩).page.log ∧
      ((run handler turns).dispatch handler document target event).OnceAtMost) ↔
    if path.length ≤ maxEventPath then
      Dispatch.Follows handler target path.tail ⟨event, run handler turns⟩
    else
      (Dispatch.flow handler target path.tail ⟨event, run handler turns⟩).page.log =
        (run handler turns).log := by
  have hkept := run_onceKept handler turns
  have honce : ((run handler turns).dispatch handler document target event).OnceAtMost :=
    (hkept.dispatch document target event).once
  have hnodup := hpath.nodup
  rw [hpath.eq_cons] at hnodup
  obtain ⟨htarget, hancestors⟩ := nodup_cons.mp hnodup
  by_cases hlimit : path.length ≤ maxEventPath
  · have hdispatch : (run handler turns).dispatch handler document target event =
        (Dispatch.jsDispatchPass handler target path.tail ⟨event, run handler turns⟩).page := by
      rw [dispatch, hpath.eventPath_eq, if_pos hlimit]
    rw [if_pos hlimit, and_iff_left honce, hdispatch]
    exact Dispatch.log_eq_iff hancestors htarget hkept.distinct
  · have hdispatch : (run handler turns).dispatch handler document target event =
        run handler turns := by
      rw [dispatch, hpath.eventPath_eq, if_neg hlimit]
    rw [if_neg hlimit, and_iff_left honce, hdispatch]
    exact eq_comm

/-! A button in a body, and an event that bubbles. -/

def body : LiveNode := ⟨1, none, [2], .element "body" ∅ false⟩

def button : LiveNode := ⟨2, some 1, [], .element "button" ∅ false⟩

def buttonInBody : LiveDocument where
  root := 1
  nodes := Std.ExtTreeMap.insert (Std.ExtTreeMap.insert ∅ 1 body) 2 button
  nextNodeId := 3
  shadows := ∅

def clickEvent : DomEvent := ⟨"click", true, false, false⟩

theorem buttonInBody_ancestry : Ancestry buttonInBody 2 [2, 1] :=
  .child (rfl : buttonInBody.nodes[2]? = some button) rfl
    (.root (rfl : buttonInBody.nodes[1]? = some body) rfl)

/-- A handler with one callback that makes these calls and one that makes none. -/
def making (list : List (ListenerCall Bool)) : Handler Bool := fun acts _ => if acts then list else []

/-- A `once` listener of the button removes a listener of the window. -/
theorem dispatch_follows_iff_button :
    let handler := making [.removeEventListener .window "click" false]
    let page := run handler [.script [.addEventListener (.node 2) "click" false true true,
      .addEventListener .window "click" false false false]]
    (page.dispatch handler buttonInBody 2 clickEvent).log =
        (Dispatch.flow handler 2 [1] ⟨clickEvent, page⟩).page.log ∧
      (page.dispatch handler buttonInBody 2 clickEvent).OnceAtMost :=
  (dispatch_follows_iff _ _ buttonInBody 2 [2, 1] clickEvent buttonInBody_ancestry).mpr
    ⟨.inr (.inr (by decide)), by decide, fun h => absurd h (by decide), by decide, by decide⟩

/-- A capture listener of the window does not run; a listener of the button runs although the
body has stopped propagation; a listener of the button runs although the one before it has
removed it. -/
theorem dispatch_leaves_flow :
    (let handler := making []
     let page := run handler [.script [.addEventListener .window "click" true false false]]
     (page.dispatch handler buttonInBody 2 clickEvent).log ≠
      (Dispatch.flow handler 2 [1] ⟨clickEvent, page⟩).page.log) ∧
    (let handler := making [.stopPropagation]
     let page := run handler [.script [.addEventListener (.node 1) "click" true false true,
      .addEventListener (.node 2) "click" false false false]]
     (page.dispatch handler buttonInBody 2 clickEvent).log ≠
      (Dispatch.flow handler 2 [1] ⟨clickEvent, page⟩).page.log) ∧
    (let handler := making [.removeEventListener (.node 2) "click" false]
     let page := run handler [.script [.addEventListener (.node 2) "click" false false true,
      .addEventListener (.node 2) "click" false false false]]
     (page.dispatch handler buttonInBody 2 clickEvent).log ≠
      (Dispatch.flow handler 2 [1] ⟨clickEvent, page⟩).page.log) := by
  decide

end Listeners

end GhitaBrowser.Page
