import GhitaBrowser.Live.Anchors
import GhitaBrowser.Live.DispatchLaw

/-!
# The side tables of a live document

Shadow records, the focus, listeners and canvas shapes name nodes. They name stored nodes
in every run in which nothing is cleared above a node they name.
-/

namespace GhitaBrowser.Live

open Dom Page

variable {κ σ ς α : Type}

/-! ## Names -/

namespace EventDocument

/-- A node that a side table names. -/
inductive Names (s : EventDocument κ σ ς) : NodeId → Prop
  | host {key : NodeId} {record : ShadowRootRecord} :
      s.shadows[key]? = some record → Names s record.host
  | root {key : NodeId} {record : ShadowRootRecord} :
      s.shadows[key]? = some record → Names s record.root
  | focused {node : NodeId} : s.focused = some node → Names s node
  | listeners {node : NodeId} {list : List (EventListener κ)} :
      s.listeners.entries[node]? = some list → Names s node
  | shapes {node : NodeId} {list : List ς} : s.canvasShapes[node]? = some list → Names s node

def Named (s : EventDocument κ σ ς) : Prop := ∀ node, s.Names node → (s.nodes[node]?).isSome

structure Sound (s : EventDocument κ σ ς) : Prop where
  linked : s.toLiveDocument.Linked
  named : s.Named

/-- Nothing that a side table names lies below the node. -/
def ClearBelow (s : EventDocument κ σ ς) (node : NodeId) : Prop :=
  Clear s.Names s.toLiveDocument node

theorem Named.holds {s : EventDocument κ σ ς} (h : s.Named) :
    Holds s.Names s.shadows s.toLiveDocument := ⟨h, rfl⟩

theorem Named.edited {s : EventDocument κ σ ς} {after : LiveDocument}
    (h : Attached s.Names s.shadows after) : Named { s with toLiveDocument := after } := by
  intro node hnames
  cases hnames with
  | host hrecord =>
    rcases h.records _ _ hrecord with hold | hstored
    · exact h.stored _ (.host hold)
    · exact hstored.1
  | root hrecord =>
    rcases h.records _ _ hrecord with hold | hstored
    · exact h.stored _ (.root hold)
    · exact hstored.2
  | focused hfocused => exact h.stored _ (.focused hfocused)
  | listeners hlist => exact h.stored _ (.listeners hlist)
  | shapes hlist => exact h.stored _ (.shapes hlist)

end EventDocument

open EventDocument

/-! ## Edits in place -/

theorem endState_lift (change : Edit α) (s : EventDocument κ σ ς) :
    endState (lift change) s = { s with toLiveDocument := endState change s.toLiveDocument } := by
  simp only [endState, lift]
  cases change s.toLiveDocument <;> rfl

abbrev KeepsSound (program : Interaction κ σ ς α) : Prop := Keeps Sound program

/-- The state in which a node is known to be stored. -/
structure Has (node : NodeId) (s : EventDocument κ σ ς) : Prop extends s.Sound where
  stored : (s.nodes[node]?).isSome

theorem lift_requireNode (node : NodeId) :
    Meets (Sound (κ := κ) (σ := σ) (ς := ς)) (lift (requireNode node)) (fun _ => Has node) Sound := by
  intro s hs
  rw [lift]
  cases hentry : s.nodes[node]? with
  | none =>
    rw [requireNode_missing hentry]
    exact hs
  | some entry =>
    rw [requireNode_ok hentry]
    exact ⟨hs, by rw [hentry]; rfl⟩

/-! ## Dispatches -/

/-- Two tables with the same keys. -/
def SameKeys (table table' : ListenerTable κ) : Prop :=
  ∀ node : NodeId, (table'.entries[node]?).isSome = (table.entries[node]?).isSome

theorem sameKeys_remove (table : ListenerTable κ) (node : NodeId) (ids : List Nat) :
    SameKeys table (table.remove node ids) := by
  intro other
  simp only [ListenerTable.remove, IdMap.getElem?_modify]
  split
  · next h =>
    subst h
    rw [Option.isSome_map]
  · rfl

theorem SameKeys.trans {first second third : ListenerTable κ} (h : SameKeys first second)
    (h' : SameKeys second third) : SameKeys first third := fun node => (h' node).trans (h node)

section Keys

variable (call : Callbacks κ σ)

theorem sameKeys_invokeListeners (node : NodeId) (phase : EventPhase) (capture : Bool)
    (d : Dispatch κ σ) :
    SameKeys d.listeners (d.invokeListeners call node phase capture).listeners := by
  simp only [Dispatch.invokeListeners, Dispatch.retire, Dispatch.listenerLoop_listeners]
  split
  · exact fun _ => rfl
  · exact sameKeys_remove _ _ _

theorem sameKeys_captureLoop (nodes : List NodeId) (d : Dispatch κ σ) :
    SameKeys d.listeners (Dispatch.captureLoop call nodes d).2.listeners := by
  induction nodes generalizing d with
  | nil => exact fun _ => rfl
  | cons node rest ih =>
    have hnode := sameKeys_invokeListeners call node .capturing true d
    simp only [Dispatch.captureLoop]
    split
    · exact hnode
    · exact hnode.trans (ih _)

theorem sameKeys_bubbleLoop (nodes : List NodeId) (d : Dispatch κ σ) :
    SameKeys d.listeners (Dispatch.bubbleLoop call nodes d).listeners := by
  induction nodes generalizing d with
  | nil => exact fun _ => rfl
  | cons node rest ih =>
    have hnode := sameKeys_invokeListeners call node .bubbling false d
    simp only [Dispatch.bubbleLoop]
    split
    · exact hnode
    · exact hnode.trans (ih _)

theorem sameKeys_atTarget (target : NodeId) (d : Dispatch κ σ) :
    SameKeys d.listeners (d.atTarget call target).listeners := by
  rw [Dispatch.atTarget_eq]
  exact (sameKeys_invokeListeners call _ _ _ _).trans (sameKeys_invokeListeners call _ _ _ _)

theorem sameKeys_propagate (target : NodeId) (path : List NodeId) (d : Dispatch κ σ) :
    SameKeys d.listeners (d.propagate call target path).listeners := by
  have hdown := sameKeys_captureLoop call (path.reverse.take (path.length - 1)) d
  rw [Dispatch.propagate]
  split
  · next d' hd' =>
    rw [hd'] at hdown
    exact hdown
  · next d' hd' =>
    rw [hd'] at hdown
    have hup : SameKeys (d'.atTarget call target).listeners
        ((d'.atTarget call target).bubble call (path.drop 1)).listeners := by
      rw [Dispatch.bubble]
      split
      · exact sameKeys_bubbleLoop call _ _
      · exact fun _ => rfl
    exact (hdown.trans (sameKeys_atTarget call target d')).trans hup

end Keys

/-- After a dispatch: only listeners of known nodes and the world may differ. -/
structure Redispatched (s s' : EventDocument κ σ ς) : Prop where
  document : s'.toFocusedDocument = s.toFocusedDocument
  keys : SameKeys s.listeners s'.listeners
  shapes : s'.canvasShapes = s.canvasShapes

theorem redispatched_dispatchEvent (call : Callbacks κ σ) (target : NodeId) (event : DomEvent)
    (s : EventDocument κ σ ς) : Redispatched s (s.dispatchEvent call target event).document := by
  have hrefl : Redispatched s s := ⟨rfl, fun _ => rfl, rfl⟩
  simp only [EventDocument.dispatchEvent]
  split
  · exact hrefl
  · split
    · exact hrefl
    · split
      · exact hrefl
      · exact ⟨rfl, sameKeys_propagate call target _ (s.start event), rfl⟩

theorem Redispatched.names {s s' : EventDocument κ σ ς} (h : Redispatched s s') {node : NodeId}
    (hnames : s'.Names node) : s.Names node := by
  obtain ⟨hdocument, hkeys, hshapes⟩ := h
  cases hnames with
  | host hrecord => exact .host (hdocument ▸ hrecord)
  | root hrecord => exact .root (hdocument ▸ hrecord)
  | focused hfocused => exact .focused (hdocument ▸ hfocused)
  | listeners hlist =>
    have hsome := hkeys node
    rw [hlist] at hsome
    obtain ⟨list, hlist⟩ := Option.isSome_iff_exists.mp hsome.symm
    exact .listeners hlist
  | shapes hlist => exact .shapes (hshapes ▸ hlist)

theorem Redispatched.nodes {s s' : EventDocument κ σ ς} (h : Redispatched s s') :
    s'.toLiveDocument = s.toLiveDocument := by rw [h.document]

theorem Redispatched.sound {s s' : EventDocument κ σ ς} (h : Redispatched s s') (hs : s.Sound) :
    s'.Sound where
  linked := h.nodes ▸ hs.linked
  named node hnames := by
    rw [h.nodes]
    exact hs.named node (h.names hnames)

theorem Redispatched.has {s s' : EventDocument κ σ ς} {node : NodeId} (h : Redispatched s s')
    (hs : Has node s) : Has node s' := ⟨h.sound hs.toSound, h.nodes ▸ hs.stored⟩

section Programs

variable {call : Callbacks κ σ}

theorem dispatch_keeps {P : EventDocument κ σ ς → Prop}
    (hP : ∀ s s', Redispatched s s' → P s → P s') (target : NodeId) (event : DomEvent) :
    Keeps P (dispatch call target event) := by
  intro s hs
  have hafter := hP s _ (redispatched_dispatchEvent call target event s) hs
  rw [dispatch]
  cases (s.dispatchEvent call target event).result with
  | ok report => exact hafter
  | error failure => exact hafter

theorem dispatch_sound (target : NodeId) (event : DomEvent) :
    KeepsSound (κ := κ) (σ := σ) (ς := ς) (dispatch call target event) :=
  dispatch_keeps (fun _ _ h hs => h.sound hs) target event

theorem dispatch_has (node target : NodeId) (event : DomEvent) :
    Keeps (Has (κ := κ) (σ := σ) (ς := ς) node) (dispatch call target event) :=
  dispatch_keeps (fun _ _ h hs => h.has hs) target event

theorem blur_has (node : NodeId) (previous : Option NodeId) :
    Keeps (Has (κ := κ) (σ := σ) (ς := ς) node) (blur call previous) := by
  cases previous with
  | none => exact Keeps.pure _
  | some previous =>
    exact Keeps.bind (dispatch_has node _ _) fun _ => Keeps.bind (dispatch_has node _ _) fun _ =>
      Keeps.pure _

variable {s : EventDocument κ σ ς}

theorem Has.focused {node : NodeId} (h : Has node s) :
    Sound { s with focused := some node } where
  linked := h.linked
  named other hnames := by
    cases hnames with
    | host hrecord => exact h.named _ (.host hrecord)
    | root hrecord => exact h.named _ (.root hrecord)
    | focused hfocused =>
      obtain rfl := Option.some.inj hfocused
      exact h.stored
    | listeners hlist => exact h.named _ (.listeners hlist)
    | shapes hlist => exact h.named _ (.shapes hlist)

theorem focus_sound (node : NodeId) :
    KeepsSound (κ := κ) (σ := σ) (ς := ς) (focus call node) := by
  refine (lift_requireNode node).bind fun _ => ?_
  have hmove (previous : Option NodeId) : Meets (Has (κ := κ) (σ := σ) (ς := ς) node)
      (do
        blur call previous
        modify fun s => { s with focused := some node }
        let _ ← dispatch call node { DomEvent.new "focus" node with bubbles := false }
        let _ ← dispatch call node (.new "focusin" node)
        return ()) (fun _ => Sound) Sound := by
    have hblur : Meets (Has (κ := κ) (σ := σ) (ς := ς) node) (blur call previous)
        (fun _ => Has node) Sound :=
      (blur_has node previous).onError fun _ h => h.toSound
    refine hblur.bind fun _ => Meets.bind (Q := fun _ => Sound) (fun s h => h.focused) fun _ => ?_
    exact Keeps.bind (dispatch_sound _ _) fun _ => Keeps.bind (dispatch_sound _ _) fun _ => Keeps.pure _
  refine Meets.bind Meets.get fun s => Meets.ite (fun _ => ?_) fun _ => Meets.ite (fun _ => ?_) fun _ => ?_
  · exact fun s h => h.1.toSound
  · exact fun s h => h.1.toSound
  · exact (hmove s.focused).mono (fun _ h => h.1) (fun _ _ h => h) fun _ h => h

theorem takeFocus_sound (target : NodeId) :
    KeepsSound (κ := κ) (σ := σ) (ς := ς) (takeFocus call target) :=
  Keeps.bind (focus_sound target) fun _ => Keeps.pure _

/-! ## Default actions -/

/-- The state of a document while an action edits attributes. -/
structure Acting (s : EventDocument κ σ ς) (document : FocusedDocument) : Prop where
  linked : document.toLiveDocument.Linked
  holds : Holds s.Names s.shadows document.toLiveDocument
  focused : document.focused = s.focused

theorem edit_acting {change : Edit α}
    (hlinked : Keeps LiveDocument.Linked change)
    (hholds : ∀ kept table, Keeps (Holds kept table) change) :
    Keeps (Acting s) (edit change) := by
  intro document h
  have hlinked := hlinked document.toLiveDocument h.linked
  have hholds := hholds _ _ document.toLiveDocument h.holds
  unfold edit
  cases hchange : change document.toLiveDocument with
  | ok value after =>
    rw [hchange] at hlinked hholds
    exact ⟨hlinked, hholds, h.focused⟩
  | error failure after =>
    rw [hchange] at hlinked hholds
    exact ⟨hlinked, hholds, h.focused⟩

theorem setAttribute_acting (node : NodeId) (name value : String) :
    Keeps (Acting s) (edit (setAttribute node name value)) :=
  edit_acting (keeps_linked fun _ => setAttribute_linked node name value)
    fun _ _ => setAttribute_holds node name value

theorem removeAttribute_acting (node : NodeId) (name : String) :
    Keeps (Acting s) (edit (removeAttribute node name)) :=
  edit_acting (keeps_linked fun _ => removeAttribute_linked node name)
    fun _ _ => removeAttribute_holds node name

theorem activate_sound {action : Activation α}
    (h : ∀ s : EventDocument κ σ ς, Keeps (Acting s) action) :
    KeepsSound (κ := κ) (σ := σ) (ς := ς) (activate action) := by
  intro s hs
  have hstart : Acting s s.toFocusedDocument := ⟨hs.linked, hs.named.holds, rfl⟩
  have hafter {document : FocusedDocument} (hacting : Acting s document) :
      Sound { s with toFocusedDocument := document } := by
    obtain ⟨hlinked, hholds, hfocused⟩ := hacting
    have hnamed := Named.edited hholds.attached
    refine ⟨hlinked, fun node hnames => hnamed node ?_⟩
    cases hnames with
    | host hrecord => exact .host hrecord
    | root hrecord => exact .root hrecord
    | focused hfocus => exact .focused (hfocused.symm.trans hfocus)
    | listeners hlist => exact .listeners hlist
    | shapes hlist => exact .shapes hlist
  have hmeets := h s _ hstart
  unfold activate
  cases haction : action s.toFocusedDocument with
  | ok value document =>
    rw [haction] at hmeets
    exact hafter hmeets
  | error failure document =>
    rw [haction] at hmeets
    exact hafter hmeets

theorem applyClickDefault_sound (target : NodeId) :
    KeepsSound (κ := κ) (σ := σ) (ς := ς) (applyClickDefault call target) := by
  have hmark : KeepsSound (κ := κ) (σ := σ) (ς := ς) (activate (markSubmitted target)) :=
    activate_sound fun _ => markSubmitted_keeps setAttribute_acting target
  refine Keeps.bind Keeps.get fun s => ?_
  dsimp only
  split
  · split
    · exact activate_sound fun _ => toggleCheckbox_keeps setAttribute_acting removeAttribute_acting target
    · exact Keeps.bind (activate_sound fun _ => activateRadio_keeps setAttribute_acting
        removeAttribute_acting target) fun _ => Keeps.pure _
    · exact hmark
    · exact takeFocus_sound target
  · exact Keeps.ite hmark (takeFocus_sound target)
  · exact activate_sound fun _ => advanceSelection_keeps setAttribute_acting removeAttribute_acting target
  · split
    · exact Keeps.pure _
    · exact Keeps.pure _
  · exact Keeps.pure _

theorem click_sound (target : NodeId) :
    KeepsSound (κ := κ) (σ := σ) (ς := ς) (click call target) := by
  refine Keeps.bind (dispatch_sound target _) fun result => Keeps.ite (Keeps.pure _) ?_
  exact Keeps.bind (applyClickDefault_sound target) fun _ => Keeps.pure _

/-! ## Listeners and shapes -/

theorem Has.listening {node : NodeId} (h : Has node s)
    (eventType : String) (options : ListenerOptions) (callback : κ) :
    Sound { s with listeners := s.listeners.add node eventType options callback } where
  linked := h.linked
  named other hnames := by
    cases hnames with
    | host hrecord => exact h.named _ (.host hrecord)
    | root hrecord => exact h.named _ (.root hrecord)
    | focused hfocused => exact h.named _ (.focused hfocused)
    | listeners hlist =>
      simp only [ListenerTable.add, IdMap.getElem?_insert] at hlist
      split at hlist
      · next heq => exact heq ▸ h.stored
      · exact h.named _ (.listeners hlist)
    | shapes hlist => exact h.named _ (.shapes hlist)

theorem addEventListener_sound (node : NodeId) (eventType : String) (options : ListenerOptions)
    (callback : κ) :
    KeepsSound (σ := σ) (ς := ς) (addEventListener node eventType options callback) := by
  have hfail {β : Type} (change : Edit β) (hchange : ∀ P : LiveDocument → Prop, Keeps P change) :
      Meets (Has (κ := κ) (σ := σ) (ς := ς) node) (lift change) (fun _ => Has node) Sound := by
    intro s h
    have hmeets := hchange (fun document => document = s.toLiveDocument) s.toLiveDocument rfl
    unfold lift
    cases hchange' : change s.toLiveDocument with
    | ok value after =>
      rw [hchange'] at hmeets
      obtain rfl : after = s.toLiveDocument := hmeets
      exact h
    | error failure after =>
      rw [hchange'] at hmeets
      obtain rfl : after = s.toLiveDocument := hmeets
      exact h.toSound
  refine (lift_requireNode node).bind fun _ => Meets.bind Meets.get fun s => ?_
  have hforget : ∀ t, Has node t ∧ s = t → Has node t := fun _ h => h.1
  refine Meets.ite (fun _ => fun t h => h.1.toSound) fun _ => ?_
  have htype := hfail (normalizeEventType eventType)
    fun _ => Keeps.ite (Keeps.pure _) (Keeps.throw _)
  refine (htype.mono hforget (fun _ _ h => h) fun _ h => h).bind fun eventType => ?_
  refine Meets.ite (fun _ => fun t h => h.toSound) fun _ => ?_
  exact Meets.bind (Q := fun _ => Sound) (fun t h => h.listening eventType options callback)
    fun _ => Keeps.pure _

theorem removeEventListener_sound (node : NodeId) (listener : Nat) :
    KeepsSound (κ := κ) (σ := σ) (ς := ς) (removeEventListener node listener) := by
  refine Keeps.bind Keeps.get fun s => Keeps.bind (Keeps.modify fun s hs => ?_) fun _ => Keeps.pure _
  have hsame : Redispatched s { s with listeners := s.listeners.remove node [listener] } :=
    ⟨rfl, sameKeys_remove _ _ _, rfl⟩
  exact hsame.sound hs

theorem addCanvasShape_sound (canvas : NodeId) (shape : ς) :
    KeepsSound (κ := κ) (σ := σ) (addCanvasShape canvas shape) := by
  refine (lift_requireNode canvas).bind fun _ => Meets.bind Meets.get fun s => ?_
  refine Meets.ite (fun _ => fun t h => h.1.toSound) fun _ => ?_
  rintro t ⟨h, rfl⟩
  refine ⟨h.linked, fun other hnames => ?_⟩
  cases hnames with
  | host hrecord => exact h.named _ (.host hrecord)
  | root hrecord => exact h.named _ (.root hrecord)
  | focused hfocused => exact h.named _ (.focused hfocused)
  | listeners hlist => exact h.named _ (.listeners hlist)
  | shapes hlist =>
    rw [IdMap.getElem?_insert] at hlist
    split at hlist
    · next heq => exact heq ▸ h.stored
    · exact h.named _ (.shapes hlist)

theorem clearCanvasShapes_sound (canvas : NodeId) :
    KeepsSound (κ := κ) (σ := σ) (ς := ς) (clearCanvasShapes canvas) := by
  refine (lift_requireNode canvas).bind fun _ => ?_
  rintro t h
  refine ⟨h.linked, fun other hnames => ?_⟩
  cases hnames with
  | host hrecord => exact h.named _ (.host hrecord)
  | root hrecord => exact h.named _ (.root hrecord)
  | focused hfocused => exact h.named _ (.focused hfocused)
  | listeners hlist => exact h.named _ (.listeners hlist)
  | shapes hlist =>
    rw [IdMap.getElem?_erase] at hlist
    split at hlist
    · cases hlist
    · exact h.named _ (.shapes hlist)

/-! ## Keys -/

/-- The node whose children a key replaces. -/
def typedInto (document : LiveDocument) (target : NodeId) (key : String) : Option NodeId :=
  if key = "Tab" ∨ (key = "Enter" ∨ key = " ") ∧ isFocusable document target ∨ key.length ≠ 1 then none
  else if elementTag document target = some "textarea" then some target
  else none

theorem typedInto_textarea {document : LiveDocument} {target : NodeId} {key : String}
    (hkey : ¬ (key = "Tab" ∨ (key = "Enter" ∨ key = " ") ∧ isFocusable document target = true ∨
      key.length ≠ 1)) (htag : elementTag document target = some "textarea") :
    typedInto document target key = some target := by
  rw [typedInto, if_neg hkey, if_pos htag]

theorem typeInto_linked (target : NodeId) (key : String) :
    Keeps LiveDocument.Linked (typeInto target key) :=
  Keeps.bind Keeps.get fun _ => Keeps.ite
    (keeps_linked fun _ => setTextContent_linked target _)
    (keeps_linked fun _ => setAttribute_linked target _ _)

theorem typeInto_end {P : LiveDocument → Prop} {document : LiveDocument} {target : NodeId} {key : String}
    (htext : elementTag document target = some "textarea" →
      ∀ value, P (endState (setTextContent target value) document))
    (hattribute : ∀ value, P (endState (setAttribute target "value" value) document)) :
    P (endState (typeInto target key) document) := by
  show P (endState (if elementTag document target = some "textarea" then
      setTextContent target ((textContent document target).getD "" ++ key)
    else setAttribute target "value" ((getAttribute document target "value").getD "" ++ key) :
      Edit Unit) document)
  split
  · next htag => exact htext htag _
  · exact hattribute _

theorem lift_typeInto_sound (hs : s.Sound) {target : NodeId} (key : String)
    (hclear : elementTag s.toLiveDocument target = some "textarea" → s.ClearBelow target) :
    Sound (endState (lift (typeInto target key)) s) := by
  rw [endState_lift]
  refine ⟨(typeInto_linked target key).endState hs.linked, .edited (Holds.attached ?_)⟩
  exact typeInto_end (fun htag => setTextContent_holds hs.linked hs.named.holds (hclear htag))
    fun value => (setAttribute_holds target "value" value).endState hs.named.holds

/-- Where a key default ends, for a property that the programs it runs keep. -/
theorem applyKeyDefault_end {P : EventDocument κ σ ς → Prop}
    (hdispatch : ∀ target event, Keeps P (dispatch call target event))
    (hfocus : ∀ node, Keeps P (focus call node)) (hclick : ∀ target, Keeps P (click call target))
    (hs : P s) {target : NodeId} {key : String}
    (htyped : (elementTag s.toLiveDocument target = some "textarea" →
        typedInto s.toLiveDocument target key = some target) →
      P (endState (lift (typeInto target key)) s)) :
    P (endState (applyKeyDefault call target key) s) := by
  rw [applyKeyDefault, endState, bind_get, ← endState]
  dsimp only
  split
  · refine Keeps.endState ?_ hs
    split
    · exact Keeps.bind (hfocus _) fun _ => Keeps.pure _
    · exact Keeps.pure _
  · next htab =>
    split
    · exact (Keeps.bind (hclick target) fun _ => Keeps.pure _).endState hs
    · next hpress =>
      split
      · next htype =>
        simp only [Bool.and_eq_true, Bool.or_eq_true, decide_eq_true_eq] at hpress htype
        have htyped := htyped fun htag => typedInto_textarea
          (by rintro (h | h | h)
              · exact htab h
              · exact hpress h
              · exact h htype.1) htag
        have hrest : Keeps P (do
            let _ ← dispatch call target (.new "input" target)
            return [InputAction.insertText target key]) :=
          Keeps.bind (hdispatch target _) fun _ => Keeps.pure _
        cases hend : lift (typeInto target key) s with
        | ok value after =>
          rw [endState_bind_ok hend]
          rw [endState, hend] at htyped
          exact hrest.endState htyped
        | error failure after =>
          rw [endState_bind_error hend]
          rw [endState, hend] at htyped
          exact htyped
      · exact hs

theorem applyKeyDefault_sound (hs : s.Sound) {target : NodeId} {key : String}
    (hclear : ∀ node, typedInto s.toLiveDocument target key = some node → s.ClearBelow node) :
    Sound (endState (applyKeyDefault call target key) s) :=
  applyKeyDefault_end dispatch_sound focus_sound click_sound hs fun htyped =>
    lift_typeInto_sound hs key fun htag => hclear target (htyped htag)

/-- The node whose children a key event replaces: the event must get through. -/
def keyClears (call : Callbacks κ σ) (s : EventDocument κ σ ς) (eventType key : String) :
    Option NodeId :=
  let dispatched := s.dispatchEvent call (keyTarget s) (keyEvent eventType (keyTarget s) key)
  match dispatched.result with
  | .error _ => none
  | .ok _ =>
    if eventType = "keydown" ∧ dispatched.event.defaultPrevented = false then
      typedInto s.toLiveDocument (keyTarget s) key
    else none

/-- Where a key event ends: the default runs in a state with the same nodes. -/
theorem dispatchKeyboard_end {P : EventDocument κ σ ς → Prop}
    (hdispatch : ∀ target event, Keeps P (dispatch call target event))
    (hs : P s) {eventType key : String}
    (hkey : ∀ t, Redispatched s t →
      keyClears call s eventType key = typedInto s.toLiveDocument (keyTarget s) key →
        P (endState (applyKeyDefault call (keyTarget s) key) t)) :
    P (endState (dispatchKeyboard call eventType key) s) := by
  have hsame := redispatched_dispatchEvent call (keyTarget s) (keyEvent eventType (keyTarget s) key) s
  have hafter := (hdispatch (keyTarget s) (keyEvent eventType (keyTarget s) key)).endState hs
  have hread : endState (dispatchKeyboard call eventType key) s =
      endState (dispatch call (keyTarget s) (keyEvent eventType (keyTarget s) key) >>= fun answer =>
        if eventType = "keydown" && !answer.1.defaultPrevented then do
          let actions ← applyKeyDefault call (keyTarget s) key
          return (answer.2, actions)
        else return (answer.2, [])) s := rfl
  rw [hread]
  cases hresult : (s.dispatchEvent call (keyTarget s)
      (keyEvent eventType (keyTarget s) key)).result with
  | error failure =>
    have hdispatched : dispatch call (keyTarget s) (keyEvent eventType (keyTarget s) key) s =
        .error failure (s.dispatchEvent call (keyTarget s)
          (keyEvent eventType (keyTarget s) key)).document := by
      rw [dispatch]
      simp only [hresult]
    rw [endState, hdispatched] at hafter
    rw [endState_bind_error hdispatched]
    exact hafter
  | ok report =>
    have hdispatched : dispatch call (keyTarget s) (keyEvent eventType (keyTarget s) key) s =
        .ok ((s.dispatchEvent call (keyTarget s) (keyEvent eventType (keyTarget s) key)).event, report)
          (s.dispatchEvent call (keyTarget s) (keyEvent eventType (keyTarget s) key)).document := by
      rw [dispatch]
      simp only [hresult]
    rw [endState, hdispatched] at hafter
    rw [endState_bind_ok hdispatched]
    split
    · next hdown =>
      simp only [Bool.and_eq_true, decide_eq_true_eq, Bool.not_eq_true'] at hdown
      have hclears : keyClears call s eventType key =
          typedInto s.toLiveDocument (keyTarget s) key := by
        rw [keyClears]
        simp only [hresult]
        rw [if_pos hdown]
      have hdefault := hkey _ hsame hclears
      have hpure : endState (applyKeyDefault call (keyTarget s) key >>= fun actions =>
          (Pure.pure (report, actions) : Interaction κ σ ς (DispatchReport × List InputAction)))
          (s.dispatchEvent call (keyTarget s) (keyEvent eventType (keyTarget s) key)).document =
          endState (applyKeyDefault call (keyTarget s) key)
            (s.dispatchEvent call (keyTarget s) (keyEvent eventType (keyTarget s) key)).document :=
        endState_bind_pure
      rw [← hpure] at hdefault
      exact hdefault
    · exact hafter

theorem dispatchKeyboard_sound (hs : s.Sound) {eventType key : String}
    (hclear : ∀ node, keyClears call s eventType key = some node → s.ClearBelow node) :
    Sound (endState (dispatchKeyboard call eventType key) s) := by
  refine dispatchKeyboard_end dispatch_sound hs fun t hsame hclears => ?_
  refine applyKeyDefault_sound (hsame.sound hs) fun node hnode => ?_
  rw [hsame.nodes] at hnode
  have hbelow := hclear node (hclears.trans hnode)
  intro other hother
  rw [hsame.nodes]
  exact hbelow other (hsame.names hother)

end Programs

/-! ## Runs -/

/-- The node whose children an operation clears. -/
def Operation.clears (call : Callbacks κ σ) (s : EventDocument κ σ ς) :
    Operation κ ς → Option NodeId
  | .edit operation => editClears s.toLiveDocument operation
  | .applyKeyDefault target key => typedInto s.toLiveDocument target key
  | .dispatchKeyboard eventType key => keyClears call s eventType key
  | _ => none

/-- The operation clears no node above one that a side table names. -/
def Operation.Spares (call : Callbacks κ σ) (operation : Operation κ ς)
    (s : EventDocument κ σ ς) : Prop :=
  ∀ node, operation.clears call s = some node → s.ClearBelow node

section Runs

variable [HtmlParser] (call : Callbacks κ σ)

/-- The state after an operation, whatever it answers. -/
def Operation.after (operation : Operation κ ς) (s : EventDocument κ σ ς) : EventDocument κ σ ς :=
  endState (operation.perform call) s

variable {s : EventDocument κ σ ς}

/-- The step: an operation that spares the named nodes leaves the tables sound. -/
theorem Operation.after_sound (operation : Operation κ ς) (hs : s.Sound)
    (hspares : operation.Spares call s) : (operation.after call s).Sound := by
  have hdiscard {β : Type} {program : Interaction κ σ ς β} (h : KeepsSound program) :
      Sound (endState (discard program) s) := (discard_keeps h).endState hs
  cases operation with
  | edit operation =>
    have hafter := endState_edit_attached hs.linked operation hs.named hspares
    have hlinked : Keeps LiveDocument.Linked operation.edit :=
      keeps_linked fun _ => operation.edit_linked
    show Sound (endState (lift operation.edit) s)
    rw [endState_lift]
    exact ⟨hlinked.endState hs.linked, .edited hafter⟩
  | addEventListener node eventType options callback =>
    exact hdiscard (addEventListener_sound node eventType options callback)
  | removeEventListener node listener => exact hdiscard (removeEventListener_sound node listener)
  | addCanvasShape canvas shape => exact (addCanvasShape_sound canvas shape).endState hs
  | clearCanvasShapes canvas => exact (clearCanvasShapes_sound canvas).endState hs
  | dispatchEvent target event => exact hdiscard (dispatch_sound target event)
  | focus node => exact (focus_sound node).endState hs
  | click target => exact hdiscard (click_sound target)
  | applyClickDefault target => exact hdiscard (applyClickDefault_sound target)
  | applyKeyDefault target key =>
    have hkey := @applyKeyDefault_sound _ _ _ call _ hs _ _ hspares
    have hpure : endState (discard (Live.applyKeyDefault call target key)) s =
        endState (Live.applyKeyDefault call target key) s := endState_bind_pure
    rw [← hpure] at hkey
    exact hkey
  | dispatchKeyboard eventType key =>
    have hkey := @dispatchKeyboard_sound _ _ _ call _ hs _ _ hspares
    have hpure : endState (discard (Live.dispatchKeyboard call eventType key)) s =
        endState (Live.dispatchKeyboard call eventType key) s := endState_bind_pure
    rw [← hpure] at hkey
    exact hkey
  | dispatchPointer eventType hit x y =>
    refine hdiscard ?_
    cases hit with
    | none => exact Keeps.pure _
    | some target => exact Keeps.bind (dispatch_sound target _) fun _ => Keeps.pure _

namespace EventDocument

def run (s : EventDocument κ σ ς) (operations : List (Operation κ ς)) : EventDocument κ σ ς :=
  operations.foldl (fun s operation => operation.after call s) s

/-- Every operation of a run spares the nodes that are named when it starts. -/
def SparedBy (s : EventDocument κ σ ς) : List (Operation κ ς) → Prop
  | [] => True
  | operation :: operations =>
    operation.Spares call s ∧ (operation.after call s).SparedBy operations

theorem operations_sound (hs : s.Sound) {operations : List (Operation κ ς)}
    (h : s.SparedBy call operations) : (s.run call operations).Sound := by
  induction operations generalizing s with
  | nil => exact hs
  | cons operation operations ih => exact ih (operation.after_sound call hs h.1) h.2

omit [HtmlParser] in
theorem fromElement_names (root : Element) (world : σ) (node : NodeId) :
    ¬ Names (fromElement root world : EventDocument κ σ ς) node := by
  have hshadows : (LiveDocument.fromElement root).shadows = ∅ := by
    have hholds : Holds (fun _ => False) ∅ LiveDocument.empty := ⟨fun _ h => h.elim, rfl⟩
    have himport := importElement_holds root none LiveDocument.empty hholds
    rw [LiveDocument.fromElement]
    split
    · next id document heq =>
      rw [heq] at himport
      exact himport.shadows
    · next failure document heq =>
      rw [heq] at himport
      exact himport.shadows
  have hrecord (key : NodeId) : (LiveDocument.fromElement root).shadows[key]? = none := by
    rw [hshadows]
    exact Std.ExtTreeMap.getElem?_empty
  intro hnames
  cases hnames with
  | host h => cases (hrecord _).symm.trans h
  | root h => cases (hrecord _).symm.trans h
  | focused h => cases h
  | listeners h => simp [fromElement, ListenerTable.empty] at h
  | shapes h => simp [fromElement] at h

omit [HtmlParser] in
theorem fromElement_sound (root : Element) (world : σ) :
    Sound (fromElement root world : EventDocument κ σ ς) :=
  ⟨LiveDocument.fromElement_linked root, fun node hnames => (fromElement_names root world node hnames).elim⟩

/-! ## Focus -/

/-- The event path of the node is within its limit. -/
def Fits (s : EventDocument κ σ ς) (node : NodeId) : Prop :=
  (eventPath s.toLiveDocument maxEventPath node).isSome

variable {call}

omit [HtmlParser]

variable (call) in
theorem dispatch_fits {target : NodeId} (event : DomEvent)
    (hstored : (s.nodes[target]?).isSome) (htarget : event.target = target) (hfits : s.Fits target) :
    ∃ answer after, dispatch call target event s = .ok answer after ∧ Redispatched s after := by
  have hsame := redispatched_dispatchEvent call target event s
  obtain ⟨path, hpath⟩ := Option.isSome_iff_exists.mp hfits
  have hresult := @dispatchEvent_path _ _ _ call _ _ _ _ ((IdMap.contains_iff _ _).mpr hstored) htarget hpath
  rw [dispatch]
  rw [hresult] at hsame ⊢
  exact ⟨_, _, rfl, hsame⟩

variable (call) in
theorem dispatch_unfit {target : NodeId} (event : DomEvent)
    (hfits : ¬ s.Fits target) : ∃ failure, dispatch call target event s = .error failure s := by
  have hpath : eventPath s.toLiveDocument maxEventPath target = none :=
    Option.not_isSome_iff_eq_none.mp hfits
  simp only [dispatch, EventDocument.dispatchEvent, hpath]
  split
  · next h =>
    split at h
    · cases h
    · split at h
      · cases h
      · cases h
  · next failure h =>
    refine ⟨failure, ?_⟩
    congr
    split
    · rfl
    · split <;> rfl

variable (call) in
theorem dispatch_twice (target : NodeId) (first second : DomEvent)
    (hstored : (s.nodes[target]?).isSome) (hfirst : first.target = target)
    (hsecond : second.target = target) (hfits : s.Fits target) :
    ∃ after, (do
      let _ ← dispatch call target first
      let _ ← dispatch call target second
      return () : Interaction κ σ ς Unit) s = .ok () after ∧ after.toLiveDocument = s.toLiveDocument := by
  obtain ⟨answer, middle, hmiddle, hsame⟩ := dispatch_fits call first hstored hfirst hfits
  have hstored' : (middle.nodes[target]?).isSome := hsame.nodes ▸ hstored
  have hfits' : middle.Fits target := by rwa [Fits, hsame.nodes]
  obtain ⟨answer', after, hafter, hsame'⟩ := dispatch_fits call second hstored' hsecond hfits'
  refine ⟨after, ?_, hsame'.nodes.trans hsame.nodes⟩
  rw [bind_ok hmiddle, bind_ok hafter]
  rfl

variable (call) in
theorem dispatch_twice_unfit (target : NodeId) (first second : DomEvent)
    (hfits : ¬ s.Fits target) :
    ∃ failure, (do
      let _ ← dispatch call target first
      let _ ← dispatch call target second
      return () : Interaction κ σ ς Unit) s = .error failure s := by
  obtain ⟨failure, hfailure⟩ := dispatch_unfit call first hfits
  exact ⟨failure, bind_error hfailure⟩

/-- `focus` on a stored focusable node. -/
theorem focus_eq {node : NodeId} (hstored : (s.nodes[node]?).isSome)
    (hfocusable : isFocusable s.toLiveDocument node = true) :
    focus call node s =
      if s.focused = some node then .ok () s
      else (do
        blur call s.focused
        modify fun s => { s with focused := some node }
        let _ ← dispatch call node { DomEvent.new "focus" node with bubbles := false }
        let _ ← dispatch call node (.new "focusin" node)
        return () : Interaction κ σ ς Unit) s := by
  obtain ⟨entry, hentry⟩ := Option.isSome_iff_exists.mp hstored
  have hlift : (lift (requireNode node) : Interaction κ σ ς LiveNode) s = .ok entry s := by
    rw [lift, requireNode_ok hentry]
  rw [focus, bind_ok hlift, bind_get, hfocusable, Bool.not_true, if_neg Bool.false_ne_true]
  split <;> rfl

theorem Sound.focus_iff (hs : s.Sound) {node : NodeId}
    (hstored : (s.nodes[node]?).isSome) (hfocusable : isFocusable s.toLiveDocument node = true) :
    (∃ after, focus call node s = .ok () after) ↔
      s.focused = some node ∨ s.Fits node ∧ ∀ previous, s.focused = some previous → s.Fits previous := by
  rw [focus_eq hstored hfocusable]
  by_cases hsame : s.focused = some node
  · exact iff_of_true ⟨s, if_pos hsame⟩ (.inl hsame)
  · rw [if_neg hsame, or_iff_right hsame]
    -- the part after `blur`, from a state with the same nodes
    have hrest (middle : EventDocument κ σ ς) (hnodes : middle.toLiveDocument = s.toLiveDocument) :
        (∃ after, (do
          modify fun s => { s with focused := some node }
          let _ ← dispatch call node { DomEvent.new "focus" node with bubbles := false }
          let _ ← dispatch call node (.new "focusin" node)
          return () : Interaction κ σ ς Unit) middle = .ok () after) ↔ s.Fits node := by
      have hmodify : (modify fun s => { s with focused := some node } :
          Interaction κ σ ς PUnit) middle = .ok () { middle with focused := some node } := rfl
      have hfitsIff : ({ middle with focused := some node } : EventDocument κ σ ς).Fits node ↔
          s.Fits node := by
        show (eventPath middle.toLiveDocument maxEventPath node).isSome = true ↔ _
        rw [hnodes]
        exact Iff.rfl
      rw [bind_ok hmodify]
      by_cases hfits : s.Fits node
      · have hstored' : (middle.nodes[node]?).isSome := hnodes ▸ hstored
        obtain ⟨after, hafter, -⟩ := dispatch_twice call (s := { middle with focused := some node })
          node { DomEvent.new "focus" node with bubbles := false } (.new "focusin" node) hstored'
          rfl rfl (hfitsIff.mpr hfits)
        exact iff_of_true ⟨after, hafter⟩ hfits
      · obtain ⟨failure, hfailure⟩ := dispatch_twice_unfit call
          (s := { middle with focused := some node }) node
          { DomEvent.new "focus" node with bubbles := false } (.new "focusin" node)
          (mt hfitsIff.mp hfits)
        refine iff_of_false (fun ⟨after, hafter⟩ => ?_) hfits
        rw [hfailure] at hafter
        cases hafter
    cases hfocused : s.focused with
    | none =>
      have hblur : blur call none s = .ok () s := rfl
      rw [bind_ok hblur, hrest s rfl]
      exact (and_iff_left nofun).symm
    | some previous =>
      have hprevious : (s.nodes[previous]?).isSome := hs.named _ (.focused hfocused)
      by_cases hfits : s.Fits previous
      · obtain ⟨middle, hmiddle, hnodes⟩ := dispatch_twice call previous
          { DomEvent.new "blur" previous with bubbles := false } (.new "focusout" previous) hprevious
          rfl rfl hfits
        have hblur : blur call (some previous) s = .ok () middle := hmiddle
        rw [bind_ok hblur, hrest middle hnodes]
        refine (and_iff_left ?_).symm
        rintro other hother
        exact Option.some.inj hother ▸ hfits
      · obtain ⟨failure, hfailure⟩ := dispatch_twice_unfit call (s := s) previous
          { DomEvent.new "blur" previous with bubbles := false } (.new "focusout" previous) hfits
        have hblur : blur call (some previous) s = .error failure s := hfailure
        rw [bind_error hblur]
        exact iff_of_false (fun ⟨after, hafter⟩ => nomatch hafter) fun h => hfits (h.2 previous rfl)

end EventDocument

/-! ## The tables of a page -/

/-- While every operation spares the named nodes, the tables name stored nodes, and a
stored focusable node can be focused when its path and that of the focus are within the
limit. -/
theorem run_named (root : Element) (world : σ) (operations : List (Operation κ ς))
    (hspared : (fromElement root world).SparedBy call operations) :
    let s := (fromElement root world : EventDocument κ σ ς).run call operations
    s.Named ∧ ∀ node, (s.nodes[node]?).isSome → isFocusable s.toLiveDocument node = true →
      ((∃ after, focus call node s = .ok () after) ↔
        s.focused = some node ∨
          s.Fits node ∧ ∀ previous, s.focused = some previous → s.Fits previous) := by
  have hsound := operations_sound call (fromElement_sound root world) hspared
  exact ⟨hsound.named, fun _ hstored hfocusable => hsound.focus_iff hstored hfocusable⟩

end Runs

def boxAndButton : Element :=
  .mk none "main" [] [.mk none "div" [] [.mk none "input" [] [] "" false] "" false,
    .mk none "button" [] [] "" false] "" false

/-- A parser that finds nothing. -/
@[reducible] def blankParser : HtmlParser where
  parseHtml _ := .mk none "root" [] [] "" false

/-- The page after some operations. -/
def interacted (operations : List (Operation (List EventCall) Unit)) :
    EventDocument (List EventCall) Unit Unit :=
  @run _ _ _ blankParser performs (fromElement boxAndButton ()) operations

/-- The box is cleared before the button gets the focus. -/
theorem run_named_sample :
    (interacted [.edit (.setTextContent 2 ""), .focus 4]).Named :=
  have hspared : @SparedBy _ _ _ blankParser performs (fromElement boxAndButton ())
      [.edit (.setTextContent 2 ""), .focus 4] := by
    refine And.intro ?_ (And.intro ?_ trivial)
    · exact fun _ _ other hother => fromElement_names boxAndButton () other hother |>.elim
    · exact fun _ h => nomatch h
  (@run_named _ _ _ blankParser performs boxAndButton () _ hspared).1

/-- The page when the box of the focused input was cleared. -/
def clearedBox : EventDocument (List EventCall) Unit Unit :=
  { interacted [.focus 3] with
    nodes := ((interacted [.focus 3]).nodes.erase 3).modify 2 fun node => { node with children := [] } }

theorem freeSubtrees_leaf {nodes : IdMap LiveNode} {root : NodeId} {entry : LiveNode}
    (hroot : nodes[root]? = some entry) (hleaf : entry.children = []) :
    freeSubtrees [root] nodes = nodes.erase root := by
  rw [freeSubtrees]
  split
  · next h =>
    rw [hroot] at h
    cases h
  · next entry' h =>
    rw [hroot] at h
    obtain rfl := Option.some.inj h
    rw [hleaf, List.nil_append, freeSubtrees]

theorem setTextContent_leaf {document : LiveDocument} {node child : NodeId} {entry leaf : LiveNode}
    (hnode : document.nodes[node]? = some entry) (helement : entry.kind.isElement = true)
    (hchildren : entry.children = [child]) (hchild : document.nodes[child]? = some leaf)
    (hleaf : leaf.children = []) (hne : node ≠ child) :
    endState (setTextContent node "") document =
      { document with
        nodes := (document.nodes.erase child).modify node fun node => { node with children := [] } } := by
  have hfree := freeSubtrees_leaf hchild hleaf
  have hcontains : (document.nodes.erase child).contains node = true := by
    rw [IdMap.contains_iff, IdMap.getElem?_erase, if_neg hne, hnode]
    rfl
  have hupdate : updateNode node nodeGone (fun node => { node with children := [] })
      { document with nodes := document.nodes.erase child } = .ok () { document with
        nodes := (document.nodes.erase child).modify node fun node => { node with children := [] } } := by
    show (if (document.nodes.erase child).contains node then _ else _ : Edit Unit) _ = _
    rw [if_pos hcontains]
    rfl
  have hclear : clearChildren node nodeGone document = .ok () { document with
        nodes := (document.nodes.erase child).modify node fun node => { node with children := [] } } := by
    rw [clearChildren, bind_ok (indexNode_ok hnode), ← hupdate, ← hfree, ← hchildren]
    rfl
  rw [endState, setTextContent, bind_ok (requireNode_ok hnode)]
  cases hkind : entry.kind with
  | text text =>
    rw [hkind] at helement
    cases helement
  | element tag attrs isVoid =>
    dsimp only
    rw [bind_ok hclear]
    rfl

theorem interacted_clearedBox :
    interacted [.focus 3, .edit (.setTextContent 2 "")] = clearedBox := by
  have hbox : ((interacted [.focus 3]).nodes[2]?).map (fun entry => (entry.kind.isElement, entry.children)) =
      some (true, [3]) := by decide +kernel
  have hinput : ((interacted [.focus 3]).nodes[3]?).map LiveNode.children = some [] := by decide +kernel
  obtain ⟨entry, hentry, hpair⟩ := Option.map_eq_some_iff.mp hbox
  obtain ⟨leaf, hleaf, hchildren⟩ := Option.map_eq_some_iff.mp hinput
  have hlast : interacted [.focus 3, .edit (.setTextContent 2 "")] =
      endState (lift (setTextContent 2 "")) (interacted [.focus 3]) := by
    simp only [interacted, EventDocument.run, List.foldl_cons, List.foldl_nil]
    rfl
  rw [hlast, endState_lift, setTextContent_leaf hentry (Prod.ext_iff.mp hpair).1 (Prod.ext_iff.mp hpair).2 hleaf
    hchildren (by decide)]
  rw [clearedBox]

/-- The input has the focus when its box is cleared: the focus names a node that is gone,
and the button cannot be focused any more. -/
theorem run_dangling :
    let s := interacted [.focus 3, .edit (.setTextContent 2 "")]
    ¬ s.Named ∧ (s.nodes[4]?).isSome ∧ isFocusable s.toLiveDocument 4 = true ∧
      ¬ ∃ after, focus performs 4 s = .ok () after := by
  rw [interacted_clearedBox]
  have hfocused : clearedBox.focused = some 3 := by decide +kernel
  have hgone : (clearedBox.nodes[3]?).isSome = false := by decide +kernel
  refine ⟨fun h => ?_, by decide +kernel, by decide +kernel, ?_⟩
  · rw [h 3 (.focused hfocused)] at hgone
    cases hgone
  · rintro ⟨after, hafter⟩
    have hfails : (match focus performs 4 clearedBox with
      | .ok _ _ => true
      | .error _ _ => false) = false := by decide +kernel
    rw [hafter] at hfails
    cases hfails

end GhitaBrowser.Live
