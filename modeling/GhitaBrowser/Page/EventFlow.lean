import GhitaBrowser.Page.Listeners
import Mathlib.Data.List.Nodup

/-!
# Where the dispatch pass follows DOM event flow

`jsDispatchPass` differs from `flow` in three places: it has no capture pass on the
window, it goes on to the target after an ancestor has stopped propagation, and it runs a
listener that an earlier one of the same node has removed. `Follows` says that a dispatch
meets none of the three, and then both are the same; at the first of them the
invocations differ.
-/

namespace GhitaBrowser.Page

open Dom List

namespace Dispatch

variable {κ : Type}

theorem retire_nil (key : ListenerKey) (d : Dispatch κ) : retire key ([], d) = d := rfl

variable {d : Dispatch κ} {keys : List ListenerKey}

variable {pass : ListenerKey → Dispatch κ → Dispatch κ}

theorem walk_stopped (h : d.event.propagationStopped = true) : walk pass keys d = d := by
  cases keys with
  | nil => rfl
  | cons key keys => rw [walk, if_pos h]

theorem walk_append (pass : ListenerKey → Dispatch κ → Dispatch κ) (keys : List ListenerKey)
    (last : ListenerKey) (d : Dispatch κ) :
    walk pass (keys ++ [last]) d =
      if (walk pass keys d).event.propagationStopped then walk pass keys d
      else pass last (walk pass keys d) := by
  induction keys generalizing d with
  | nil => rfl
  | cons key keys ih =>
    rw [cons_append, walk, walk]
    by_cases h : d.event.propagationStopped = true
    · rw [if_pos h, if_pos h, if_pos h]
    · rw [if_neg h, if_neg h]
      exact ih _

variable {P : Dispatch κ → Prop}

theorem walk_keeps (hpass : ∀ key ∈ keys, ∀ d, P d → P (pass key d))
    (h : P d) : P (walk pass keys d) := by
  induction keys generalizing d with
  | nil => exact h
  | cons key keys ih =>
    rw [walk]
    split
    · exact h
    · exact ih (fun other hother => hpass other (mem_cons_of_mem key hother))
        (hpass key mem_cons_self d h)

variable [DecidableEq κ] {handler : Handler κ}

/-! ## The condition -/

/-- No listener that is reached was removed by one before it. -/
def KeepsLoop (handler : Handler κ) (key : ListenerKey) : List (JsListener κ) → Dispatch κ → Prop
  | [], _ => True
  | l :: rest, d =>
    d.event.immediatePropagationStopped = true ∨
      (d.Registered key l ∧ KeepsLoop handler key rest (d.invoke handler key l))

def Keeps (handler : Handler κ) (key : ListenerKey) (capture : Bool) (d : Dispatch κ) : Prop :=
  KeepsLoop handler key (d.page.matching key d.event.eventType capture) d

def KeepsWalk (handler : Handler κ) (capture : Bool) : List ListenerKey → Dispatch κ → Prop
  | [], _ => True
  | key :: keys, d =>
    d.event.propagationStopped = true ∨
      (d.Keeps handler key capture ∧
        KeepsWalk handler capture keys (d.flowListeners handler key capture))

instance decidableKeepsLoop (key : ListenerKey) :
    (list : List (JsListener κ)) → (d : Dispatch κ) → Decidable (KeepsLoop handler key list d)
  | [], _ => isTrue trivial
  | l :: rest, d =>
    @instDecidableOr _ _ _
      (@instDecidableAnd _ _ _ (decidableKeepsLoop key rest (d.invoke handler key l)))

instance decidableKeeps (key : ListenerKey) (capture : Bool) (d : Dispatch κ) :
    Decidable (d.Keeps handler key capture) :=
  decidableKeepsLoop key _ d

instance decidableKeepsWalk (capture : Bool) :
    (keys : List ListenerKey) → (d : Dispatch κ) → Decidable (KeepsWalk handler capture keys d)
  | [], _ => isTrue trivial
  | key :: keys, d =>
    @instDecidableOr _ _ _ (@instDecidableAnd _ _ _
      (decidableKeepsWalk capture keys (d.flowListeners handler key capture)))

/-- No listener of the key is due. -/
def Idle (key : ListenerKey) (capture : Bool) (d : Dispatch κ) : Prop :=
  d.event.immediatePropagationStopped = true ∨
    d.page.matching key d.event.eventType capture = []

/-- The window has no capture listener that is due, no listener of the target is due after
propagation was stopped on the way to it, and no listener removes one that comes after it
on the same node. -/
structure Follows (handler : Handler κ) (target : NodeId) (ancestors : List NodeId)
    (d : Dispatch κ) : Prop where
  window : d.event.propagationStopped = true ∨ d.Idle .window true
  capture : KeepsWalk handler true (captureKeys ancestors) d
  stopped : (d.flowCapture handler ancestors).event.propagationStopped = true →
    (d.flowCapture handler ancestors).Idle (.node target) true ∧
      (d.flowCapture handler ancestors).Idle (.node target) false
  onTarget : (d.flowCapture handler ancestors).event.propagationStopped = false →
    (d.flowCapture handler ancestors).Keeps handler (.node target) true ∧
      ((d.flowCapture handler ancestors).flowListeners handler (.node target) true).Keeps handler
        (.node target) false
  bubble : d.event.bubbles = true → KeepsWalk handler false (bubbleKeys ancestors)
    ((d.flowCapture handler ancestors).flowTarget handler target)

/-! ## Where the condition holds -/

variable {key : ListenerKey} {list : List (JsListener κ)}

theorem flowLoop_eq (removeOnce : List Nat) (h : KeepsLoop handler key list d) :
    flowLoop handler key list removeOnce d = invokeLoop handler key list removeOnce d := by
  induction list generalizing removeOnce d with
  | nil => rfl
  | cons l rest ih =>
    rw [flowLoop, invokeLoop]
    by_cases himmediate : d.event.immediatePropagationStopped = true
    · rw [if_pos himmediate, if_pos himmediate]
    · obtain ⟨hregistered, hrest⟩ := h.resolve_left himmediate
      rw [if_neg himmediate, if_neg himmediate, if_pos hregistered]
      exact ih _ hrest

variable {capture : Bool}

theorem flowListeners_eq (h : d.Keeps handler key capture) :
    d.flowListeners handler key capture = d.invokeJsListeners handler key capture :=
  congrArg (retire key) (flowLoop_eq [] h)

theorem walk_eq (h : KeepsWalk handler capture keys d) :
    walk (fun key => flowListeners handler key capture) keys d =
      walk (fun key => invokeJsListeners handler key capture) keys d := by
  induction keys generalizing d with
  | nil => rfl
  | cons key keys ih =>
    rw [walk, walk]
    by_cases hstopped : d.event.propagationStopped = true
    · rw [if_pos hstopped, if_pos hstopped]
    · obtain ⟨hkeeps, hrest⟩ := h.resolve_left hstopped
      rw [if_neg hstopped, if_neg hstopped, ← flowListeners_eq hkeeps]
      exact ih hrest

theorem invokeJsListeners_idle
    (h : d.Idle key capture) : d.invokeJsListeners handler key capture = d := by
  rw [invokeJsListeners]
  rcases h with h | h
  · cases d.page.matching key d.event.eventType capture with
    | nil => exact retire_nil key d
    | cons l rest =>
      rw [invokeLoop, if_pos h]
      exact retire_nil key d
  · rw [h]
    exact retire_nil key d

variable {ancestors : List NodeId}

theorem walk_captureKeys (h : d.event.propagationStopped = true ∨ d.Idle .window true) :
    walk (fun key => invokeJsListeners handler key true) (captureKeys ancestors) d =
      walk (fun key => invokeJsListeners handler key true) (ancestors.reverse.map .node) d := by
  rw [captureKeys, walk]
  rcases h with h | h
  · rw [if_pos h, walk_stopped h]
  · rw [invokeJsListeners_idle h]
    split
    · next hstopped => rw [walk_stopped hstopped]
    · rfl

theorem atTarget_idle {target : NodeId} (hcapture : d.Idle (.node target) true)
    (hbubble : d.Idle (.node target) false) : d.atTarget handler target = d := by
  simp only [atTarget, invokeJsListeners_idle hcapture, ite_self, invokeJsListeners_idle hbubble]

theorem atTarget_eq (target : NodeId) (d : Dispatch κ) :
    d.atTarget handler target = (d.invokeJsListeners handler (.node target) true).invokeJsListeners
      handler (.node target) false := by
  have hpass : ∀ (capture : Bool) (d : Dispatch κ),
      (if d.event.immediatePropagationStopped then d
        else d.invokeJsListeners handler (.node target) capture) =
          d.invokeJsListeners handler (.node target) capture := by
    intro capture d
    split
    · next h => rw [invokeJsListeners_idle (.inl h)]
    · rfl
  simp only [atTarget, hpass]

theorem bubblePhase_eq (ancestors : List NodeId) (d : Dispatch κ) :
    d.bubblePhase handler ancestors =
      if d.event.bubbles then
        walk (fun key => invokeJsListeners handler key false) (bubbleKeys ancestors) d
      else d := by
  rw [bubblePhase, bubbleKeys, walk_append]
  cases d.event.bubbles with
  | false => rfl
  | true =>
    cases hstopped : d.event.propagationStopped with
    | false => rfl
    | true =>
      rw [walk_stopped hstopped]
      simp only [hstopped, Bool.not_true, Bool.and_false, Bool.false_eq_true, if_false, if_true]

/-! What every invocation and the end of a pass keep, a pass keeps. -/

omit [DecidableEq κ] in
theorem capture_matching (s : Listeners κ) (key : ListenerKey) (eventType : String)
    (capture : Bool) : ∀ l ∈ s.matching key eventType capture, l.capture = capture := by
  intro l hl
  have hfilter := (mem_filter.mp hl).2
  rw [Bool.and_eq_true, beq_iff_eq, beq_iff_eq] at hfilter
  exact hfilter.2

theorem flowLoop_keeps
    (hinvoke : ∀ l ∈ list, ∀ d, P d → P (d.invoke handler key l)) (ids : List Nat) (h : P d) :
    P (flowLoop handler key list ids d).2 := by
  induction list generalizing ids d with
  | nil => exact h
  | cons l rest ih =>
    have hrest : ∀ other ∈ rest, ∀ d, P d → P (d.invoke handler key other) :=
      fun other hother => hinvoke other (mem_cons_of_mem l hother)
    rw [flowLoop]
    split
    · exact h
    split
    · exact ih hrest _ (hinvoke l mem_cons_self d h)
    · exact ih hrest _ h

theorem invokeLoop_keeps
    (hinvoke : ∀ l ∈ list, ∀ d, P d → P (d.invoke handler key l)) (ids : List Nat) (h : P d) :
    P (invokeLoop handler key list ids d).2 := by
  induction list generalizing ids d with
  | nil => exact h
  | cons l rest ih =>
    have hrest : ∀ other ∈ rest, ∀ d, P d → P (d.invoke handler key other) :=
      fun other hother => hinvoke other (mem_cons_of_mem l hother)
    rw [invokeLoop]
    split
    · exact h
    · exact ih hrest _ (hinvoke l mem_cons_self d h)

theorem flowListeners_keeps
    (hinvoke : ∀ l, l.capture = capture → ∀ d, P d → P (d.invoke handler key l))
    (hretire : ∀ ids d, P d → P (retire key (ids, d))) (h : P d) :
    P (d.flowListeners handler key capture) :=
  hretire _ _ (flowLoop_keeps (fun l hl => hinvoke l (capture_matching _ _ _ _ l hl)) [] h)

theorem invokeJsListeners_keeps
    (hinvoke : ∀ l, l.capture = capture → ∀ d, P d → P (d.invoke handler key l))
    (hretire : ∀ ids d, P d → P (retire key (ids, d))) (h : P d) :
    P (d.invokeJsListeners handler key capture) :=
  hretire _ _ (invokeLoop_keeps (fun l hl => hinvoke l (capture_matching _ _ _ _ l hl)) [] h)

theorem bubbles_invoke (key : ListenerKey) (l : JsListener κ) (d : Dispatch κ) :
    (d.invoke handler key l).event.bubbles = d.event.bubbles := by
  rw [invoke]
  simp only
  split <;> rfl

theorem bubbles_flowListeners (key : ListenerKey) (capture : Bool) (d : Dispatch κ) :
    (d.flowListeners handler key capture).event.bubbles = d.event.bubbles :=
  flowListeners_keeps (P := fun after => after.event.bubbles = d.event.bubbles)
    (fun l _ after h => (bubbles_invoke key l after).trans h) (fun _ _ h => h) rfl

theorem bubbles_flowTarget (target : NodeId) (ancestors : List NodeId) (d : Dispatch κ) :
    ((d.flowCapture handler ancestors).flowTarget handler target).event.bubbles =
      d.event.bubbles := by
  have hcapture : (d.flowCapture handler ancestors).event.bubbles = d.event.bubbles :=
    walk_keeps (P := fun after => after.event.bubbles = d.event.bubbles)
      (fun key _ after h => (bubbles_flowListeners key true after).trans h) rfl
  rw [flowTarget]
  split
  · exact hcapture
  · rw [bubbles_flowListeners, bubbles_flowListeners, hcapture]

theorem capture_eq (window : d.event.propagationStopped = true ∨ d.Idle .window true)
    (capture : KeepsWalk handler true (captureKeys ancestors) d) :
    walk (fun key => invokeJsListeners handler key true) (ancestors.reverse.map .node) d =
      d.flowCapture handler ancestors := by
  rw [← walk_captureKeys window, flowCapture, walk_eq capture]

theorem target_eq {target : NodeId}
    (stopped : d.event.propagationStopped = true →
      d.Idle (.node target) true ∧ d.Idle (.node target) false)
    (onTarget : d.event.propagationStopped = false → d.Keeps handler (.node target) true ∧
      (d.flowListeners handler (.node target) true).Keeps handler (.node target) false) :
    d.atTarget handler target = d.flowTarget handler target := by
  rw [flowTarget]
  split
  · next h => exact atTarget_idle (stopped h).1 (stopped h).2
  · next h =>
    obtain ⟨hcapture, hbubble⟩ := onTarget (Bool.eq_false_of_not_eq_true h)
    rw [atTarget_eq, ← flowListeners_eq hcapture, flowListeners_eq hbubble]

theorem jsDispatchPass_eq {target : NodeId} (h : d.Follows handler target ancestors) :
    d.jsDispatchPass handler target ancestors = d.flow handler target ancestors := by
  rw [jsDispatchPass, flow]
  rw [capture_eq h.window h.capture, target_eq h.stopped h.onTarget, bubblePhase_eq, flowBubble]
  split
  · next hbubbles =>
    rw [bubbles_flowTarget] at hbubbles
    exact (walk_eq (h.bubble hbubbles)).symm
  · rfl

/-! ## Ids of listeners -/

end Dispatch

namespace Listeners

variable {κ : Type}

/-- Ids are handed out once: each list has them without repetition, and each id is known
with its key and `once`. -/
structure Distinct (s : Listeners κ) : Prop where
  length : s.registered.length = s.nextListenerId
  known : ∀ key, ∀ l ∈ s.listeners key, s.registered[l.id]? = some (key, l.once)
  nodup : ∀ key, ((s.listeners key).map JsListener.id).Nodup

theorem new_distinct : (new : Listeners κ).Distinct :=
  ⟨rfl, (fun _ _ h => nomatch h), fun _ => nodup_nil⟩

variable {s : Listeners κ}

theorem Distinct.sublist (distinct : s.Distinct) (key : ListenerKey)
    {entries : List (JsListener κ)} (h : entries.Sublist (s.listeners key)) :
    (s.setListeners key entries).Distinct := by
  refine ⟨distinct.length, fun other l hl => ?_, fun other => ?_⟩
  · simp only [setListeners] at hl
    split at hl
    · next heq => exact heq ▸ distinct.known key l (h.subset hl)
    · exact distinct.known other l hl
  · simp only [setListeners]
    split
    · exact (h.map JsListener.id).nodup (distinct.nodup key)
    · exact distinct.nodup other

theorem Distinct.registerListener (distinct : s.Distinct) (key : ListenerKey)
    (eventType : String) (capture once : Bool) (callback : κ) :
    (s.registerListener key eventType capture once callback).Distinct := by
  rw [Listeners.registerListener]
  split
  · exact distinct
  split
  · exact distinct
  have hlt : ∀ other, ∀ l ∈ s.listeners other, l.id < s.registered.length := fun other l hl =>
    (List.getElem?_eq_some_iff.mp (distinct.known other l hl)).1
  have hold : ∀ other, ∀ l ∈ s.listeners other,
      (s.registered ++ [(key, once)])[l.id]? = some (other, l.once) := fun other l hl => by
    rw [List.getElem?_append_left (hlt other l hl)]
    exact distinct.known other l hl
  refine ⟨?_, fun other l hl => ?_, fun other => ?_⟩
  · show (s.registered ++ [(key, once)]).length = s.nextListenerId + 1
    rw [length_append, distinct.length]
    rfl
  · simp only [setListeners] at hl
    show (s.registered ++ [(key, once)])[l.id]? = some (other, l.once)
    split at hl
    · next heq =>
      rcases mem_append.mp hl with hl | hl
      · exact heq ▸ hold key l hl
      · rw [mem_singleton.mp hl, ← distinct.length, heq]
        exact List.getElem?_concat_length
    · exact hold other l hl
  · simp only [setListeners]
    split
    · rw [map_append, nodup_append]
      refine ⟨distinct.nodup key, pairwise_singleton _ _, fun a ha b hb hab => ?_⟩
      obtain ⟨l, hl, rfl⟩ := mem_map.mp ha
      have hb := mem_singleton.mp hb
      have := hlt key l hl
      rw [distinct.length] at this
      exact Nat.ne_of_lt this (hab.trans hb)
    · exact distinct.nodup other

theorem Distinct.retire (distinct : s.Distinct) (key : ListenerKey)
    (ids : List Nat) : (s.retire key ids).Distinct := by
  rw [Listeners.retire]
  split
  · exact distinct
  · exact distinct.sublist key filter_sublist

theorem log_retire (s : Listeners κ) (key : ListenerKey) (ids : List Nat) :
    (s.retire key ids).log = s.log := by
  rw [retire]
  split <;> rfl

variable [DecidableEq κ]

theorem Distinct.call (distinct : s.Distinct) (c : ListenerCall κ) :
    (s.call c).Distinct := by
  cases c with
  | addEventListener key eventType capture once callback =>
    exact distinct.registerListener key eventType capture once callback
  | removeEventListener key eventType callback => exact distinct.sublist key filter_sublist
  | stopPropagation => exact ⟨distinct.length, distinct.known, distinct.nodup⟩
  | stopImmediatePropagation => exact ⟨distinct.length, distinct.known, distinct.nodup⟩

theorem Distinct.calls (distinct : s.Distinct) (list : List (ListenerCall κ)) :
    (s.calls list).Distinct := by
  induction list generalizing s with
  | nil => exact distinct
  | cons c list ih => exact ih (distinct.call c)

theorem log_call (s : Listeners κ) (c : ListenerCall κ) : (s.call c).log = s.log := by
  cases c with
  | addEventListener key eventType capture once callback =>
    rw [call, registerListener]
    split
    · rfl
    · split <;> rfl
  | _ => rfl

theorem log_calls (s : Listeners κ) (list : List (ListenerCall κ)) : (s.calls list).log = s.log := by
  induction list generalizing s with
  | nil => rfl
  | cons c list ih => exact (ih (s.call c)).trans (log_call s c)

end Listeners

namespace Dispatch

variable {κ : Type} [DecidableEq κ] {handler : Handler κ} {key : ListenerKey}
  {keys : List ListenerKey} {capture : Bool}

theorem distinct_invoke {l : JsListener κ} {d : Dispatch κ}
    (distinct : d.page.Distinct) : (d.invoke handler key l).page.Distinct := by
  have hbegin : ({ d.page with
      activeEvent := some d.event
      log := ⟨key, l.capture, l.id, l.once⟩ :: d.page.log } : Listeners κ).Distinct :=
    ⟨distinct.length, distinct.known, distinct.nodup⟩
  have hcalls := fun list : List (ListenerCall κ) => hbegin.calls list
  exact ⟨(hcalls _).length, (hcalls _).known, (hcalls _).nodup⟩

theorem distinct_flowListeners {d : Dispatch κ}
    (distinct : d.page.Distinct) : (d.flowListeners handler key capture).page.Distinct :=
  flowListeners_keeps (P := fun d => d.page.Distinct) (fun _ _ _ => distinct_invoke)
    (fun ids _ h => h.retire key ids) distinct

theorem distinct_flowCapture (handler : Handler κ) (ancestors : List NodeId) {d : Dispatch κ}
    (distinct : d.page.Distinct) : (d.flowCapture handler ancestors).page.Distinct :=
  walk_keeps (P := fun d => d.page.Distinct) (fun _ _ _ => distinct_flowListeners) distinct

theorem distinct_flowTarget {target : NodeId} {d : Dispatch κ} (distinct : d.page.Distinct) :
    (d.flowTarget handler target).page.Distinct := by
  rw [flowTarget]
  split
  · exact distinct
  · exact distinct_flowListeners (distinct_flowListeners distinct)

/-! ## How often a listener was invoked -/

def count (i : Invocation) (d : Dispatch κ) : Nat := d.page.log.count i

theorem log_invoke (key : ListenerKey) (l : JsListener κ) (d : Dispatch κ) :
    (d.invoke handler key l).page.log = ⟨key, l.capture, l.id, l.once⟩ :: d.page.log :=
  Listeners.log_calls _ _

variable (i : Invocation)

omit [DecidableEq κ] in
theorem count_retire (key : ListenerKey) (ids : List Nat) (d : Dispatch κ) :
    (retire key (ids, d)).count i = d.count i :=
  congrArg (List.count i) (Listeners.log_retire d.page key ids)

theorem count_le_invoke (key : ListenerKey) (l : JsListener κ) (d : Dispatch κ) :
    d.count i ≤ (d.invoke handler key l).count i := by
  rw [count, count, log_invoke]
  exact count_le_count_cons

theorem count_invoke_of_ne {i : Invocation} {l : JsListener κ} (d : Dispatch κ)
    (h : i.key ≠ key ∨ i.capture ≠ l.capture ∨ i.id ≠ l.id) :
    (d.invoke handler key l).count i = d.count i := by
  rw [count, count, log_invoke, count_cons_of_ne]
  intro heq
  subst heq
  simp at h

theorem count_invoke_self (handler : Handler κ) (key : ListenerKey) (l : JsListener κ) (d : Dispatch κ) :
    (d.invoke handler key l).count ⟨key, l.capture, l.id, l.once⟩ =
      d.count ⟨key, l.capture, l.id, l.once⟩ + 1 := by
  rw [count, count, log_invoke, count_cons_self]

theorem count_le_flowListeners (key : ListenerKey) (capture : Bool)
    (d : Dispatch κ) : d.count i ≤ (d.flowListeners handler key capture).count i :=
  flowListeners_keeps (P := fun after => d.count i ≤ after.count i)
    (fun l _ after h => Nat.le_trans h (count_le_invoke i key l after))
    (fun ids after h => (count_retire i key ids after).symm ▸ h) (Nat.le_refl _)

theorem count_le_invokeJsListeners (key : ListenerKey) (capture : Bool)
    (d : Dispatch κ) : d.count i ≤ (d.invokeJsListeners handler key capture).count i :=
  invokeJsListeners_keeps (P := fun after => d.count i ≤ after.count i)
    (fun l _ after h => Nat.le_trans h (count_le_invoke i key l after))
    (fun ids after h => (count_retire i key ids after).symm ▸ h) (Nat.le_refl _)

theorem count_flowListeners_of_ne {i : Invocation}
    (d : Dispatch κ) (hne : i.key ≠ key ∨ i.capture ≠ capture) :
    (d.flowListeners handler key capture).count i = d.count i :=
  flowListeners_keeps (P := fun after => after.count i = d.count i)
    (fun _ hl after h => (count_invoke_of_ne after (hne.imp_right fun h => .inl (hl ▸ h))).trans h)
    (fun ids after h => (count_retire i key ids after).trans h) rfl

theorem count_invokeJsListeners_of_ne {i : Invocation}
    (d : Dispatch κ) (hne : i.key ≠ key ∨ i.capture ≠ capture) :
    (d.invokeJsListeners handler key capture).count i = d.count i :=
  invokeJsListeners_keeps (P := fun after => after.count i = d.count i)
    (fun _ hl after h => (count_invoke_of_ne after (hne.imp_right fun h => .inl (hl ▸ h))).trans h)
    (fun ids after h => (count_retire i key ids after).trans h) rfl

omit [DecidableEq κ] in
theorem count_le_walk {pass : ListenerKey → Dispatch κ → Dispatch κ}
    (hpass : ∀ key d, d.count i ≤ (pass key d).count i) (keys : List ListenerKey)
    (d : Dispatch κ) : d.count i ≤ (walk pass keys d).count i :=
  walk_keeps (P := fun after => d.count i ≤ after.count i)
    (fun key _ after h => Nat.le_trans h (hpass key after)) (Nat.le_refl _)

omit [DecidableEq κ] in
theorem count_walk_of_ne {pass : ListenerKey → Dispatch κ → Dispatch κ} {i : Invocation}
    (hpass : ∀ key ∈ keys, ∀ d, (pass key d).count i = d.count i)
    (d : Dispatch κ) : (walk pass keys d).count i = d.count i :=
  walk_keeps (P := fun after => after.count i = d.count i)
    (fun key hkey after h => (hpass key hkey after).trans h) rfl

theorem count_flowBubble_of_ne {i : Invocation} {ancestors : List NodeId} (d : Dispatch κ)
    (hne : i.key ∉ bubbleKeys ancestors ∨ i.capture = true) :
    (d.flowBubble handler ancestors).count i = d.count i := by
  rw [flowBubble]
  split
  · refine count_walk_of_ne (fun key hkey after => count_flowListeners_of_ne after ?_) d
    rcases hne with h | h
    · exact .inl fun heq => h (heq ▸ hkey)
    · exact .inr fun heq => Bool.false_ne_true (heq.symm.trans h)
  · rfl

theorem count_le_bubblePhase (ancestors : List NodeId) (d : Dispatch κ) :
    d.count i ≤ (d.bubblePhase handler ancestors).count i := by
  rw [bubblePhase_eq]
  split
  · exact count_le_walk i (fun key d => count_le_invokeJsListeners i key false d) _ d
  · exact Nat.le_refl _

theorem count_le_atTarget (target : NodeId) (d : Dispatch κ) :
    d.count i ≤ (d.atTarget handler target).count i := by
  rw [atTarget_eq]
  exact Nat.le_trans (count_le_invokeJsListeners i _ true d) (count_le_invokeJsListeners i _ false _)

/-! ## Where it does not hold -/

theorem exists_lt_invokeJsListeners (handler : Handler κ) {d : Dispatch κ}
    (h : ¬ d.Idle key capture) : ∃ i : Invocation, i.key = key ∧ i.capture = capture ∧
      d.count i < (d.invokeJsListeners handler key capture).count i := by
  rw [Idle, not_or] at h
  obtain ⟨l, rest, hlist⟩ := exists_cons_of_ne_nil h.2
  have hcapture : l.capture = capture :=
    capture_matching _ _ _ _ l (hlist ▸ mem_cons_self)
  refine ⟨⟨key, l.capture, l.id, l.once⟩, rfl, hcapture, ?_⟩
  rw [invokeJsListeners, hlist, invokeLoop, if_neg h.1, count_retire]
  refine invokeLoop_keeps (P := fun after => d.count _ < after.count _)
    (fun other _ after hlt => Nat.lt_of_lt_of_le hlt (count_le_invoke _ key other after)) _ ?_
  rw [count_invoke_self]
  exact Nat.lt_succ_self _

theorem exists_lt_flowListeners (handler : Handler κ) {d : Dispatch κ}
    (h : ¬ d.Idle key capture) : ∃ i : Invocation, i.key = key ∧ i.capture = capture ∧
      d.count i < (d.flowListeners handler key capture).count i := by
  rw [Idle, not_or] at h
  obtain ⟨l, rest, hlist⟩ := exists_cons_of_ne_nil h.2
  have hl : l ∈ d.page.matching key d.event.eventType capture := hlist ▸ mem_cons_self
  have hregistered : d.Registered key l :=
    mem_map_of_mem (mem_filter.mp hl).1
  refine ⟨⟨key, l.capture, l.id, l.once⟩, rfl, capture_matching _ _ _ _ l hl, ?_⟩
  rw [flowListeners, hlist, flowLoop, if_neg h.1, if_pos hregistered, count_retire]
  refine flowLoop_keeps (P := fun after => d.count _ < after.count _)
    (fun other _ after hlt => Nat.lt_of_lt_of_le hlt (count_le_invoke _ key other after)) _ ?_
  rw [count_invoke_self]
  exact Nat.lt_succ_self _

/-- The loop of the code invokes a listener that was removed. -/
theorem exists_lt_loop {list : List (JsListener κ)}
    (hcapture : ∀ l ∈ list, l.capture = capture) (hnodup : (list.map JsListener.id).Nodup)
    (ids ids' : List Nat) {d : Dispatch κ} (h : ¬ KeepsLoop handler key list d) :
    ∃ i : Invocation, i.key = key ∧ i.capture = capture ∧
      (flowLoop handler key list ids d).2.count i < (invokeLoop handler key list ids' d).2.count i := by
  induction list generalizing ids ids' d with
  | nil => exact absurd trivial h
  | cons l rest ih =>
    rw [KeepsLoop, not_or, not_and_or] at h
    obtain ⟨himmediate, h⟩ := h
    rw [flowLoop, invokeLoop, if_neg himmediate, if_neg himmediate]
    by_cases hregistered : d.Registered key l
    · rw [if_pos hregistered]
      exact ih (fun other hother => hcapture other (mem_cons_of_mem l hother))
        (nodup_cons.mp hnodup).2 _ _ (h.resolve_left (not_not_intro hregistered))
    · rw [if_neg hregistered]
      have hself := count_invoke_self handler key l d
      -- The flow has no other listener with this id; the code invokes it now.
      have hother : ∀ other ∈ rest, l.id ≠ other.id := fun other hother heq =>
        (nodup_cons.mp hnodup).1 (heq ▸ mem_map_of_mem hother)
      generalize hi : Invocation.mk key l.capture l.id l.once = i at hself
      have hid : i.id = l.id := hi ▸ rfl
      have hflow : (flowLoop handler key rest ids d).2.count i = d.count i :=
        flowLoop_keeps (P := fun after => after.count i = d.count i)
          (fun other hmem after heq => (count_invoke_of_ne after
            (.inr (.inr (hid ▸ hother other hmem)))).trans heq) ids rfl
      refine ⟨i, hi ▸ rfl, hi ▸ hcapture l mem_cons_self, ?_⟩
      rw [hflow]
      refine invokeLoop_keeps (P := fun after => d.count i < after.count i)
        (fun other _ after hlt => Nat.lt_of_lt_of_le hlt (count_le_invoke i key other after)) _ ?_
      rw [hself]
      exact Nat.lt_succ_self _

theorem exists_lt_pass {d : Dispatch κ}
    (distinct : d.page.Distinct) (h : ¬ d.Keeps handler key capture) :
    ∃ i : Invocation, i.key = key ∧ i.capture = capture ∧
      (d.flowListeners handler key capture).count i <
        (d.invokeJsListeners handler key capture).count i := by
  have hnodup : ((d.page.matching key d.event.eventType capture).map JsListener.id).Nodup :=
    (filter_sublist.map JsListener.id).nodup (distinct.nodup key)
  obtain ⟨i, hkey, hcapture, hlt⟩ := exists_lt_loop (capture_matching _ _ _ _) hnodup [] [] h
  refine ⟨i, hkey, hcapture, ?_⟩
  rw [flowListeners, invokeJsListeners, count_retire, count_retire]
  exact hlt

theorem exists_lt_walk (hnodup : keys.Nodup)
    {d : Dispatch κ} (distinct : d.page.Distinct) (h : ¬ KeepsWalk handler capture keys d) :
    ∃ i : Invocation, i.key ∈ keys ∧ i.capture = capture ∧
      (walk (fun key => flowListeners handler key capture) keys d).count i <
        (walk (fun key => invokeJsListeners handler key capture) keys d).count i := by
  induction keys generalizing d with
  | nil => exact absurd trivial h
  | cons key keys ih =>
    rw [KeepsWalk, not_or, not_and_or] at h
    obtain ⟨hstopped, h⟩ := h
    rw [walk, walk, if_neg hstopped, if_neg hstopped]
    by_cases hkeeps : d.Keeps handler key capture
    · rw [← flowListeners_eq hkeeps]
      obtain ⟨i, hkey, hcapture, hlt⟩ := ih (nodup_cons.mp hnodup).2
        (distinct_flowListeners distinct) (h.resolve_left (not_not_intro hkeeps))
      exact ⟨i, mem_cons_of_mem key hkey, hcapture, hlt⟩
    · obtain ⟨i, hkey, hcapture, hlt⟩ := exists_lt_pass distinct hkeeps
      refine ⟨i, hkey ▸ mem_cons_self, hcapture, ?_⟩
      have hrest : (walk (fun key => flowListeners handler key capture) keys
          (d.flowListeners handler key capture)).count i =
            (d.flowListeners handler key capture).count i :=
        count_walk_of_ne (fun other hother after => count_flowListeners_of_ne after (.inl fun heq =>
          (nodup_cons.mp hnodup).1 (hkey ▸ heq ▸ hother))) _
      rw [hrest]
      exact Nat.lt_of_lt_of_le hlt
        (count_le_walk i (fun other after => count_le_invokeJsListeners i other capture after) _ _)

/-- The counts of an invocation differ after both dispatches. -/
def Differs (handler : Handler κ) (target : NodeId) (ancestors : List NodeId) (d : Dispatch κ) :
    Prop :=
  ∃ i : Invocation,
    (d.flow handler target ancestors).count i ≠ (d.jsDispatchPass handler target ancestors).count i

section Differs

variable {target : NodeId} {ancestors : List NodeId} {d : Dispatch κ}

theorem differs_of_lt (d' : Dispatch κ)
    (hflow : (d.flow handler target ancestors).count i = d'.count i)
    (hlt : d'.count i < (d.jsDispatchPass handler target ancestors).count i) :
    d.Differs handler target ancestors :=
  ⟨i, hflow ▸ Nat.ne_of_lt hlt⟩

theorem differs_window (hstopped : ¬ d.event.propagationStopped = true)
    (h : ¬ d.Idle .window true) : d.Differs handler target ancestors := by
  obtain ⟨i, hkey, hcapture, hlt⟩ := exists_lt_flowListeners handler h
  refine ⟨i, Nat.ne_of_gt ?_⟩
  have hnode : ∀ node : NodeId, i.key ≠ .node node := fun node heq => by
    rw [hkey] at heq
    cases heq
  have hcode : (d.jsDispatchPass handler target ancestors).count i = d.count i := by
    rw [jsDispatchPass, bubblePhase_eq, atTarget_eq]
    have htarget : ∀ after : Dispatch κ, ((after.invokeJsListeners handler (.node target)
        true).invokeJsListeners handler (.node target) false).count i = after.count i := fun after =>
      (count_invokeJsListeners_of_ne _ (.inl (hnode target))).trans
        (count_invokeJsListeners_of_ne _ (.inl (hnode target)))
    have hwalk : (walk (fun key => invokeJsListeners handler key true) (ancestors.reverse.map .node)
        d).count i = d.count i := by
      refine count_walk_of_ne (fun key hmem after => count_invokeJsListeners_of_ne after (.inl ?_)) d
      obtain ⟨node, -, rfl⟩ := mem_map.mp hmem
      exact hnode node
    split
    · rw [count_walk_of_ne fun key _ after => count_invokeJsListeners_of_ne after
        (.inr (hcapture ▸ Bool.true_eq_false_eq_False)), htarget, hwalk]
    · rw [htarget, hwalk]
  have hbubble : ∀ after : Dispatch κ, (after.flowBubble handler ancestors).count i =
      after.count i := fun after => count_flowBubble_of_ne after (.inr hcapture)
  have htarget : ∀ after : Dispatch κ, (after.flowTarget handler target).count i =
      after.count i := fun after => by
    rw [flowTarget]
    split
    · rfl
    · exact (count_flowListeners_of_ne _ (.inl (hnode target))).trans
        (count_flowListeners_of_ne _ (.inl (hnode target)))
  rw [hcode, flow, hbubble, htarget, flowCapture, captureKeys, walk, if_neg hstopped]
  exact Nat.lt_of_lt_of_le hlt
    (count_le_walk i (fun key after => count_le_flowListeners i key true after) _ _)

theorem captureKeys_nodup (hnodup : ancestors.Nodup) : (captureKeys ancestors).Nodup := by
  refine nodup_cons.mpr ⟨fun h => ?_, ?_⟩
  · obtain ⟨node, -, hnode⟩ := mem_map.mp h
    cases hnode
  · exact (nodup_reverse.mpr hnodup).map fun _ _ heq => ListenerKey.node.inj heq

theorem bubbleKeys_nodup (hnodup : ancestors.Nodup) : (bubbleKeys ancestors).Nodup := by
  refine nodup_append.mpr ⟨hnodup.map fun _ _ heq => ListenerKey.node.inj heq,
    pairwise_singleton _ _, fun a ha b hb hab => ?_⟩
  obtain ⟨node, -, rfl⟩ := mem_map.mp ha
  rw [mem_singleton.mp hb] at hab
  cases hab

theorem target_not_captureKeys (htarget : target ∉ ancestors) :
    ListenerKey.node target ∉ captureKeys ancestors := by
  intro h
  rcases mem_cons.mp h with h | h
  · cases h
  · obtain ⟨node, hnode, heq⟩ := mem_map.mp h
    exact htarget (ListenerKey.node.inj heq ▸ mem_reverse.mp hnode)

theorem target_not_bubbleKeys (htarget : target ∉ ancestors) :
    ListenerKey.node target ∉ bubbleKeys ancestors := by
  intro h
  rcases mem_append.mp h with h | h
  · obtain ⟨node, hnode, heq⟩ := mem_map.mp h
    exact htarget (ListenerKey.node.inj heq ▸ hnode)
  · cases mem_singleton.mp h

/-- What differs on the target after the capture phase `c`, differs for good. -/
theorem differs_target (htarget : target ∉ ancestors) {c : Dispatch κ}
    (hflow : d.flow handler target ancestors =
      (c.flowTarget handler target).flowBubble handler ancestors)
    (hcode : d.jsDispatchPass handler target ancestors =
      (c.atTarget handler target).bubblePhase handler ancestors)
    {i : Invocation} (hkey : i.key = .node target)
    (hlt : (c.flowTarget handler target).count i < (c.atTarget handler target).count i) :
    d.Differs handler target ancestors := by
  refine differs_of_lt i (c.flowTarget handler target) ?_ ?_
  · rw [hflow, count_flowBubble_of_ne _ (.inl (hkey ▸ target_not_bubbleKeys htarget))]
  · rw [hcode]
    exact Nat.lt_of_lt_of_le hlt (count_le_bubblePhase i ancestors _)

theorem exists_lt_atTarget_stopped (handler : Handler κ) {c : Dispatch κ}
    (hstopped : c.event.propagationStopped = true)
    (h : ¬ (c.Idle (.node target) true ∧ c.Idle (.node target) false)) :
    ∃ i : Invocation, i.key = .node target ∧
      (c.flowTarget handler target).count i < (c.atTarget handler target).count i := by
  rw [flowTarget, if_pos hstopped, atTarget_eq]
  by_cases hcapture : c.Idle (.node target) true
  · rw [invokeJsListeners_idle hcapture]
    obtain ⟨i, hkey, -, hlt⟩ := exists_lt_invokeJsListeners handler
      fun hbubble => h ⟨hcapture, hbubble⟩
    exact ⟨i, hkey, hlt⟩
  · obtain ⟨i, hkey, -, hlt⟩ := exists_lt_invokeJsListeners handler hcapture
    exact ⟨i, hkey, Nat.lt_of_lt_of_le hlt (count_le_invokeJsListeners i _ false _)⟩

theorem exists_lt_atTarget {c : Dispatch κ} (distinct : c.page.Distinct)
    (hstopped : c.event.propagationStopped = false)
    (h : ¬ (c.Keeps handler (.node target) true ∧
      (c.flowListeners handler (.node target) true).Keeps handler (.node target) false)) :
    ∃ i : Invocation, i.key = .node target ∧
      (c.flowTarget handler target).count i < (c.atTarget handler target).count i := by
  rw [flowTarget, hstopped, if_neg Bool.false_ne_true, atTarget_eq]
  by_cases hcapture : c.Keeps handler (.node target) true
  · rw [← flowListeners_eq hcapture]
    obtain ⟨i, hkey, -, hlt⟩ := exists_lt_pass (distinct_flowListeners distinct)
      fun hbubble => h ⟨hcapture, hbubble⟩
    exact ⟨i, hkey, hlt⟩
  · obtain ⟨i, hkey, hphase, hlt⟩ := exists_lt_pass distinct hcapture
    refine ⟨i, hkey, ?_⟩
    rw [count_flowListeners_of_ne _ (.inr fun heq => Bool.false_ne_true (heq.symm.trans hphase))]
    exact Nat.lt_of_lt_of_le hlt (count_le_invokeJsListeners i _ false _)

theorem differs_of_not_follows (hnodup : ancestors.Nodup) (htarget : target ∉ ancestors)
    (distinct : d.page.Distinct) (h : ¬ d.Follows handler target ancestors) :
    d.Differs handler target ancestors := by
  by_cases hwindow : d.event.propagationStopped = true ∨ d.Idle .window true
  swap
  · rw [not_or] at hwindow
    exact differs_window hwindow.1 hwindow.2
  by_cases hcapture : KeepsWalk handler true (captureKeys ancestors) d
  swap
  · -- A capture listener of an ancestor was removed.
    obtain ⟨i, hkey, hphase, hlt⟩ := exists_lt_walk (captureKeys_nodup hnodup) distinct hcapture
    have hne : i.key ≠ .node target := fun heq => target_not_captureKeys htarget (heq ▸ hkey)
    refine differs_of_lt i (d.flowCapture handler ancestors) ?_ ?_
    · rw [flow, count_flowBubble_of_ne _ (.inr hphase), flowTarget]
      split
      · rfl
      · exact (count_flowListeners_of_ne _ (.inl hne)).trans
          (count_flowListeners_of_ne _ (.inl hne))
    · rw [jsDispatchPass, ← walk_captureKeys hwindow]
      exact Nat.lt_of_lt_of_le hlt
        (Nat.le_trans (count_le_atTarget i target _) (count_le_bubblePhase i ancestors _))
  have hcode : d.jsDispatchPass handler target ancestors =
      ((d.flowCapture handler ancestors).atTarget handler target).bubblePhase handler ancestors := by
    rw [jsDispatchPass, capture_eq hwindow hcapture]
  have hdistinct := distinct_flowCapture handler ancestors distinct
  by_cases hstopped : (d.flowCapture handler ancestors).event.propagationStopped = true →
      (d.flowCapture handler ancestors).Idle (.node target) true ∧
        (d.flowCapture handler ancestors).Idle (.node target) false
  swap
  · rw [Classical.not_imp] at hstopped
    obtain ⟨i, hkey, hlt⟩ := exists_lt_atTarget_stopped handler hstopped.1 hstopped.2
    exact differs_target htarget rfl hcode hkey hlt
  by_cases honTarget : (d.flowCapture handler ancestors).event.propagationStopped = false →
      (d.flowCapture handler ancestors).Keeps handler (.node target) true ∧
        ((d.flowCapture handler ancestors).flowListeners handler (.node target) true).Keeps handler
          (.node target) false
  swap
  · rw [Classical.not_imp] at honTarget
    obtain ⟨i, hkey, hlt⟩ := exists_lt_atTarget hdistinct honTarget.1 honTarget.2
    exact differs_target htarget rfl hcode hkey hlt
  -- What is left is a listener removed in the bubble phase.
  by_cases hbubble : d.event.bubbles = true → KeepsWalk handler false (bubbleKeys ancestors)
      ((d.flowCapture handler ancestors).flowTarget handler target)
  · exact absurd ⟨hwindow, hcapture, hstopped, honTarget, hbubble⟩ h
  · rw [Classical.not_imp] at hbubble
    obtain ⟨hbubbles, hbubble⟩ := hbubble
    obtain ⟨i, -, -, hlt⟩ := exists_lt_walk (bubbleKeys_nodup hnodup)
      (distinct_flowTarget hdistinct) hbubble
    refine ⟨i, Nat.ne_of_lt ?_⟩
    rw [hcode, target_eq hstopped honTarget, bubblePhase_eq, flow, flowBubble, bubbles_flowTarget,
      if_pos hbubbles, if_pos hbubbles]
    exact hlt

/-- The dispatch pass makes the invocations of the flow, in its order, exactly when it meets
none of the three differences. -/
theorem log_eq_iff (hnodup : ancestors.Nodup) (htarget : target ∉ ancestors)
    (distinct : d.page.Distinct) :
    (d.jsDispatchPass handler target ancestors).page.log =
        (d.flow handler target ancestors).page.log ↔ d.Follows handler target ancestors := by
  constructor
  · intro hlog
    by_contra h
    obtain ⟨i, hne⟩ := differs_of_not_follows hnodup htarget distinct h
    exact hne (congrArg (List.count i) hlog.symm)
  · intro h
    rw [jsDispatchPass_eq h]

end Differs

end Dispatch

end GhitaBrowser.Page
