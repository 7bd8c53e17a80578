import GhitaBrowser.Page.Observers

/-!
# Calls that report to observers

What the four reporting calls change of the document, which observers a record finds, and
that a reporting call queues a record of every watched change.
-/

namespace GhitaBrowser.Page

open Dom

variable {f : LiveNode → LiveNode}

/-! ## What an edit changes -/

/-- The nodes stay, and what changes of them is one of `P`. -/
def Frame (P : NodeChange → Prop) (before after : LiveDocument) : Prop :=
  ∀ node old, before.nodes[node]? = some old → ∃ new, after.nodes[node]? = some new ∧
    ∀ change : NodeChange, change.node = node → change.view old ≠ change.view new → P change

section

variable {P : NodeChange → Prop} {document before middle after : LiveDocument} {node : NodeId}

theorem Frame.refl (P : NodeChange → Prop) (document : LiveDocument) : Frame P document document :=
  fun _ old hold => ⟨old, hold, fun _ _ h => absurd rfl h⟩

theorem Frame.trans (h : Frame P before middle) (h' : Frame P middle after) :
    Frame P before after := by
  intro node old hold
  obtain ⟨mid, hmid, hchange⟩ := h node old hold
  obtain ⟨new, hnew, hchange'⟩ := h' node mid hmid
  refine ⟨new, hnew, fun change hnode hview => ?_⟩
  by_cases heq : change.view old = change.view mid
  · exact hchange' change hnode fun h => hview (heq.trans h)
  · exact hchange change hnode heq

theorem Frame.happened (h : Frame P before after) {change : NodeChange}
    (hchange : change.Happened before after) : P change := by
  obtain ⟨old, new, hold, hnew, hview⟩ := hchange
  obtain ⟨new', hnew', hframe⟩ := h _ old hold
  rw [hnew] at hnew'
  cases hnew'
  exact hframe change rfl hview

theorem Frame.isSome (h : Frame P before after) (hnode : (before.nodes[node]?).isSome) :
    (after.nodes[node]?).isSome := by
  obtain ⟨old, hold⟩ := Option.isSome_iff_exists.mp hnode
  obtain ⟨new, hnew, -⟩ := h node old hold
  rw [hnew]
  rfl

theorem not_happened (document : LiveDocument) (change : NodeChange) :
    ¬ change.Happened document document := by
  rintro ⟨old, new, hold, hnew, hview⟩
  rw [hold] at hnew
  cases hnew
  exact hview rfl

/-- An update whose changes are all of `P`. -/
def Alters (P : NodeChange → Prop) (node : NodeId) (f : LiveNode → LiveNode) : Prop :=
  ∀ (entry : LiveNode) (change : NodeChange), change.node = node →
    change.view entry ≠ change.view (f entry) → P change

theorem frame_modify (hf : Alters P node f) (document : LiveDocument) :
    Frame P document { document with nodes := document.nodes.modify node f } := by
  intro other old hold
  rw [IdMap.getElem?_modify]
  by_cases heq : other = node
  · subst heq
    rw [if_pos rfl, hold]
    exact ⟨f old, rfl, hf old⟩
  · rw [if_neg heq]
    exact ⟨old, hold, fun _ _ h => absurd rfl h⟩

theorem alters_setParent (node : NodeId) (parent : Option NodeId) :
    Alters P node (LiveNode.setParent parent) := by
  intro entry change _ hview
  cases change <;> exact absurd rfl hview

theorem alters_children (hf : ∀ entry, (f entry).kind = entry.kind)
    (h : P (.childList node)) : Alters P node f := by
  intro entry change hnode hview
  cases change with
  | attr other name =>
    refine absurd ?_ hview
    simp only [NodeChange.view, attributesOf, hf]
  | childList other =>
    cases hnode
    exact h
  | characterData other =>
    refine absurd ?_ hview
    simp only [NodeChange.view, textOf, hf]

theorem alters_attributes {name : String} {f : Attributes → Attributes}
    (hf : ∀ attrs other, other ≠ name → (f attrs)[other]? = attrs[other]?)
    (h : P (.attr node name)) :
    Alters P node fun entry =>
      match entry.kind with
      | .element tag attrs isVoid => { entry with kind := .element tag (f attrs) isVoid }
      | .text _ => entry := by
  intro entry change hnode hview
  dsimp only at hview
  cases hkind : entry.kind with
  | text text =>
    rw [hkind] at hview
    exact absurd rfl hview
  | element tag attrs isVoid =>
    rw [hkind] at hview
    cases change with
    | attr other key =>
      cases hnode
      by_cases hkey : key = name
      · exact hkey ▸ h
      · refine absurd ?_ hview
        simp only [NodeChange.view, attributesOf, hkind, Option.bind_some, hf attrs key hkey]
    | childList other => exact absurd rfl hview
    | characterData other =>
      refine absurd ?_ hview
      simp only [NodeChange.view, textOf, hkind]

/-! ### The edits of reporting calls -/

theorem requireNode_same (node : NodeId) :
    Meets (fun s => s = document) (requireNode node)
      (fun entry s => s = document ∧ document.nodes[node]? = some entry) fun s => s = document := by
  refine Meets.get_bind ?_
  split
  · next entry hentry => exact fun _ h => ⟨h, hentry⟩
  · exact fun _ h => h

theorem requireElement_same (node : NodeId) :
    Meets (fun s => s = document) (requireElement node)
      (fun entry s => s = document ∧ document.nodes[node]? = some entry) fun s => s = document :=
  Meets.bind (requireNode_same node) fun _ => Meets.ite (fun _ _ h => h) fun _ _ h => h.1

theorem requireElementMut_knowing {c : Prop} (node : NodeId) :
    Meets (fun s => s = document ∧ c) (requireElementMut node) (fun _ s => s = document ∧ c)
      fun s => s = document := by
  rintro s ⟨hs, hc⟩
  have hmeets : Meets (fun s => s = document) (requireElementMut node) (fun _ s => s = document)
      fun s => s = document :=
    Meets.bind (requireNode_same node) fun _ => Meets.ite (fun _ _ h => h.1) fun _ _ h => h.1
  have hafter := hmeets s hs
  revert hafter
  cases requireElementMut node s with
  | ok entry after => exact fun h => ⟨h, hc⟩
  | error failure after => exact id

theorem depthBudgetOk_same (node : NodeId) :
    Meets (fun s => s = document) (depthBudgetOk node) (fun _ s => s = document)
      fun s => s = document :=
  Meets.get_bind (Meets.ite (fun _ _ h => h) fun _ _ h => h)

theorem normalizeAttributeName_same (name : String) :
    Meets (fun s => s = document) (normalizeAttributeName name)
      (fun key s => s = document ∧ key = toAsciiLowercase (trim name)) fun s => s = document :=
  Meets.ite (fun _ _ h => ⟨h, rfl⟩) fun _ _ h => h

theorem updateNode_or_same (hf : Alters P node f) (message : String) :
    Meets (fun s => s = document) (updateNode node message f) (fun _ => Frame P document)
      fun s => s = document := by
  refine Meets.get_bind (Meets.ite (fun _ => ?_) fun _ _ h => h)
  rintro s rfl
  exact frame_modify hf s

theorem updateNode_frame (hf : Alters P node f)
    (hnode : (document.nodes[node]?).isSome) (message : String) :
    Meets (Frame P document) (updateNode node message f) (fun _ => Frame P document)
      fun _ => False := by
  refine Meets.bind Meets.get fun current => Meets.ite (fun _ => ?_) fun hgone => ?_
  · rintro s ⟨hframe, rfl⟩
    exact hframe.trans (frame_modify hf current)
  · rintro s ⟨hframe, rfl⟩
    exact hgone ((IdMap.contains_iff _ _).mpr (hframe.isSome hnode))

theorem setAttribute_frame (node : NodeId) (name value : String) :
    Meets (fun s => s = document) (Dom.setAttribute node name value)
      (fun _ => Frame (· = .attr node (toAsciiLowercase (trim name))) document)
      fun s => s = document := by
  refine Meets.bind (normalizeAttributeName_same name) fun key => ?_
  refine Meets.bind (requireElementMut_knowing node) fun _ => ?_
  rintro s ⟨hs, hkey⟩
  rw [← hkey]
  refine updateNode_or_same (P := (· = .attr node key))
    (alters_attributes (fun attrs other hother => ?_) rfl) _ s hs
  rw [Std.ExtTreeMap.getElem?_insert, if_neg]
  exact fun h => hother (Std.LawfulEqCmp.eq_of_compare h).symm

theorem removeAttribute_frame (node : NodeId) (name : String) :
    Meets (fun s => s = document) (Dom.removeAttribute node name)
      (fun _ => Frame (· = .attr node (toAsciiLowercase (trim name))) document)
      fun s => s = document := by
  refine Meets.bind (normalizeAttributeName_same name) fun key => ?_
  refine Meets.bind (requireElementMut_knowing node) fun _ => ?_
  rintro s ⟨hs, hkey⟩
  rw [← hkey]
  refine updateNode_or_same (P := (· = .attr node key))
    (alters_attributes (fun attrs other hother => ?_) rfl) _ s hs
  rw [Std.ExtTreeMap.getElem?_erase, if_neg]
  exact fun h => hother (Std.LawfulEqCmp.eq_of_compare h).symm

/-- The children that an append changes: those of the new parent and of the old one. -/
def AppendChanges (document : LiveDocument) (parent child : NodeId) (change : NodeChange) : Prop :=
  change = .childList parent ∨
    ∃ old, document.parentOf child = some old ∧ change = .childList old

theorem detach_frame (parent : NodeId) {child : NodeId} (hchild : (document.nodes[child]?).isSome) :
    Meets (fun s => s = document) (detach child)
      (fun _ => Frame (AppendChanges document parent child) document) fun s => s = document := by
  refine Meets.bind (requireNode_same child) fun entry => ?_
  split
  · rintro s ⟨rfl, -⟩
    exact Frame.refl _ s
  · next old hold =>
    rintro s ⟨hs, hentry⟩
    have hparent : document.parentOf child = some old := by
      unfold LiveDocument.parentOf
      rw [hentry]
      exact hold
    have hfilter : Alters (AppendChanges document parent child) old fun node =>
        { node with children := node.children.filter (· ≠ child) } :=
      alters_children (fun _ => rfl) (.inr ⟨old, hparent, rfl⟩)
    refine Meets.bind (updateNode_or_same hfilter _) (fun _ => ?_) s hs
    exact (updateNode_frame (alters_setParent child none) hchild _).onError fun _ h => h.elim

theorem appendChild_frame (parent child : NodeId) :
    Meets (fun s => s = document) (Dom.appendChild parent child)
      (fun _ => Frame (AppendChanges document parent child) document) fun s => s = document := by
  refine Meets.bind (requireElement_same parent) fun entry => ?_
  rintro s ⟨hs, hentry⟩
  refine Meets.bind (requireNode_same child) (fun entry' => ?_) s hs
  rintro s ⟨hs, hentry'⟩
  have hparent : (document.nodes[parent]?).isSome := by
    rw [hentry]
    rfl
  have hchild : (document.nodes[child]?).isSome := by
    rw [hentry']
    rfl
  refine Meets.bind (depthBudgetOk_same parent) (fun _ => ?_) s hs
  refine Meets.get_bind (Meets.ite (fun _ _ h => h) fun _ => ?_)
  refine Meets.bind (detach_frame parent hchild) fun _ => ?_
  have hpush : Alters (AppendChanges document parent child) parent (LiveNode.pushChild child) :=
    alters_children (fun _ => rfl) (.inl rfl)
  refine Meets.bind ((updateNode_frame hpush hparent _).onError fun _ h => h.elim) fun _ => ?_
  exact (updateNode_frame (alters_setParent child (some parent)) hchild _).onError fun _ h => h.elim

theorem removeChild_frame {parent child : NodeId} (hchild : (document.nodes[child]?).isSome) :
    Meets (fun s => s = document) (Dom.removeChild parent child)
      (fun _ => Frame (· = .childList parent) document) fun s => s = document := by
  refine Meets.bind (requireNode_same parent) fun entry => Meets.ite (fun _ _ h => h.1) fun _ => ?_
  rintro s ⟨hs, -⟩
  have herase : Alters (· = .childList parent) parent fun node =>
      { node with children := node.children.erase child } := alters_children (fun _ => rfl) rfl
  refine Meets.bind (updateNode_or_same herase _) (fun _ => ?_) s hs
  exact (updateNode_frame (alters_setParent child none) hchild _).onError fun _ h => h.elim

end

/-! ## Which observers a record finds -/

def Handled (host : Host) : Prop :=
  ∀ handle node : Nat, host.elements[handle]? = some node → host.handles[node]? = some handle

section

variable {host : Host} {record : MutationRecord} {change : NodeChange}

theorem observesKind_iff (options : ObserverOptions) (h : record.Describes host change) :
    options.observesKind record = true ↔ options.Observes change := by
  obtain ⟨-, hrecord⟩ := h
  unfold ObserverOptions.observesKind
  cases change with
  | attr node name =>
    obtain ⟨htype, hname⟩ := hrecord
    rw [htype, hname, Bool.and_eq_true]
    refine and_congr_right fun _ => ?_
    cases hfilter : options.attributeFilter with
    | none => exact iff_of_true rfl fun _ h => nomatch h
    | some filter =>
      rw [List.contains_iff_mem]
      exact ⟨fun h _ heq => by cases heq; exact h, fun h => h filter rfl⟩
  | childList node =>
    have htype : record.recordType = .childList := hrecord
    rw [htype]
    exact Iff.rfl
  | characterData node =>
    have htype : record.recordType = .characterData := hrecord
    rw [htype]
    exact Iff.rfl

theorem mem_observedAncestors {target observed : Nat} {node : NodeId}
    (h : host.elements[target]? = some node) :
    observed ∈ observedAncestors host target ↔
      ∃ candidate, host.elements[observed]? = some candidate ∧
        (candidate = node ∨ isDescendantOf host.dom.toLiveDocument node candidate = true) := by
  unfold observedAncestors
  rw [h, List.mem_filterMap]
  constructor
  · rintro ⟨⟨handle, candidate⟩, hmem, hif⟩
    dsimp only at hif
    split at hif
    · next hcandidate =>
      cases hif
      rw [Bool.or_eq_true, decide_eq_true_eq] at hcandidate
      exact ⟨candidate, (IdMap.mem_toList _ _ _).mp hmem, hcandidate⟩
    · cases hif
  · rintro ⟨candidate, hobserved, hcandidate⟩
    refine ⟨(observed, candidate), (IdMap.mem_toList _ _ _).mpr hobserved, if_pos ?_⟩
    rw [Bool.or_eq_true, decide_eq_true_eq]
    exact hcandidate

theorem matchingOptions_isSome {κ : Type} (entry : ObserverEntry κ) (handled : Handled host)
    (h : record.Describes host change) :
    (entry.matchingOptions host record).isSome ↔ entry.kind = .mutation ∧ entry.Watches host change := by
  unfold ObserverEntry.matchingOptions
  by_cases hkind : entry.kind = .mutation
  · rw [if_neg (not_not_intro hkind), List.findSome?_isSome_iff]
    refine ⟨?_, ?_⟩
    · rintro ⟨⟨observed, options⟩, hmem, hif⟩
      dsimp only at hif
      split at hif
      · next htarget =>
        rw [Bool.and_eq_true, observesKind_iff options h, Bool.or_eq_true, decide_eq_true_eq,
          Bool.and_eq_true, List.contains_iff_mem, mem_observedAncestors h.1] at htarget
        obtain ⟨htarget, hobserves⟩ := htarget
        have hoptions := (IdMap.mem_toList _ _ _).mp hmem
        rcases htarget with rfl | ⟨hsubtree, candidate, hcandidate, hancestor⟩
        · exact ⟨hkind, _, options, change.node, hoptions, h.1, .inl rfl, hobserves⟩
        · refine ⟨hkind, observed, options, candidate, hoptions, hcandidate, ?_, hobserves⟩
          exact hancestor.imp id fun h => ⟨hsubtree, h⟩
      · cases hif
    · rintro ⟨-, observed, options, node, hoptions, hnode, hplace, hobserves⟩
      refine ⟨(observed, options), (IdMap.mem_toList _ _ _).mpr hoptions, ?_⟩
      dsimp only
      rw [if_pos]
      · rfl
      rw [Bool.and_eq_true, observesKind_iff options h, Bool.or_eq_true, decide_eq_true_eq,
        Bool.and_eq_true, List.contains_iff_mem, mem_observedAncestors h.1]
      refine ⟨hplace.imp (fun hequal => ?_) fun ⟨hsubtree, hancestor⟩ =>
        ⟨hsubtree, node, hnode, .inr hancestor⟩, hobserves⟩
      have hobserved := handled observed node hnode
      rw [hequal, handled record.target change.node h.1] at hobserved
      exact (Option.some.inj hobserved).symm
  · rw [if_pos hkind]
    exact iff_of_false Bool.false_ne_true fun h => hkind h.1

theorem notify_records {κ : Type} (entry : ObserverEntry κ) (host : Host) (record : MutationRecord) :
    (entry.notify host record).kind = entry.kind ∧ (entry.notify host record).id = entry.id ∧
    ((entry.matchingOptions host record).isSome = true ∧
        (∃ options : ObserverOptions, (entry.notify host record).records =
          pushRecord entry.records (options.recordFor record)) ∨
      (entry.matchingOptions host record).isSome = false ∧
        (entry.notify host record).records = entry.records) := by
  unfold ObserverEntry.notify
  cases entry.matchingOptions host record with
  | none => exact ⟨rfl, rfl, .inr ⟨rfl, rfl⟩⟩
  | some options => exact ⟨rfl, rfl, .inl ⟨rfl, options, rfl⟩⟩

end

/-! ## Handles -/

namespace Host

theorem onDom_handled {α : Type} (program : Activation α) : Keeps Handled (onDom program) := by
  intro host h
  unfold onDom
  cases program host.dom <;> exact h

theorem locator_handled (object : Nat) : Keeps Handled (locator object) := by
  refine Keeps.bind Keeps.get fun host => ?_
  split
  · exact Keeps.pure _
  · exact Keeps.throw _

theorem queuePendingDispatch_handled (node : Nat) (event : SentEvent) :
    Keeps Handled (queuePendingDispatch node event) := by
  refine Keeps.modify fun host h => ?_
  split
  · exact h
  · exact h

theorem nextHostId_handled : Keeps Handled nextHostId := by
  refine Keeps.bind Keeps.get fun host => Keeps.ite (Keeps.throw _) ?_
  exact Keeps.bind (Keeps.modify fun _ h => h) fun _ => Keeps.pure _

theorem nextHostId_fresh (start : Host) :
    Meets (fun host => host = start) nextHostId
      (fun _ host => host.elements = start.elements ∧ host.handles = start.handles)
      fun host => host = start := by
  refine Meets.get_bind (Meets.ite (fun _ _ h => h) fun _ => ?_)
  have hcounted : Meets (fun host => host = start)
      (modify fun host => { host with nextElementId := start.nextElementId + 1 } : HostM PUnit)
      (fun _ host => host.elements = start.elements ∧ host.handles = start.handles)
      fun host => host = start := by
    rintro host rfl
    exact ⟨rfl, rfl⟩
  refine Meets.bind hcounted fun _ => ?_
  exact fun host hhost => hhost

theorem elementFor_handled (node : NodeId) : Keeps Handled (elementFor node) := by
  intro start h
  have hmeets : Meets (fun host => host = start) (elementFor node) (fun _ => Handled) Handled := by
    refine Meets.get_bind (Meets.ite (fun _ host hhost => hhost ▸ h) fun _ =>
      Meets.ite (fun _ host hhost => hhost ▸ h) fun hnew => ?_)
    refine Meets.bind ((nextHostId_fresh start).onError fun host hhost => hhost ▸ h) fun id => ?_
    rintro host ⟨helements, hhandles⟩ handle other hother
    rw [IdMap.getElem?_insert, helements] at hother
    rw [IdMap.getElem?_insert, hhandles]
    split at hother
    · next heq =>
      cases hother
      rw [if_pos rfl, heq]
    · rw [if_neg, h handle other hother]
      rintro rfl
      exact hnew ((IdMap.contains_iff _ _).mpr (by rw [h handle other hother]; rfl))
  exact hmeets start rfl

theorem clickNode_handled (node : NodeId) : Keeps Handled (clickNode node) := by
  refine Keeps.bind (onDom_handled _) fun actions => ?_
  refine Keeps.bind (Keeps.modify fun _ h => h) fun _ => ?_
  refine Keeps.bind (queuePendingDispatch_handled _ _) fun _ => ?_
  exact Keeps.ite (queuePendingDispatch_handled _ _) (Keeps.pure _)

theorem eventTarget_handled (object : EventObject) : Keeps Handled (eventTarget object) := by
  cases object with
  | window => exact Keeps.bind Keeps.get fun _ => Keeps.pure _
  | document => exact Keeps.bind Keeps.get fun _ => Keeps.pure _
  | element handle => exact locator_handled handle

theorem call_handled [HtmlParser] (c : HostCall) : Keeps Handled (call c) := by
  cases c with
  | edit operation => exact onDom_handled _
  | elementFor node => exact elementFor_handled node
  | nextHostId => exact Keeps.bind nextHostId_handled fun _ => Keeps.pure _
  | appendChild element child =>
    refine Keeps.bind (locator_handled _) fun _ => Keeps.bind (locator_handled _) fun _ => ?_
    exact Keeps.bind (onDom_handled _) fun _ => queuePendingDispatch_handled _ _
  | removeChild element child =>
    refine Keeps.bind (locator_handled _) fun _ => Keeps.bind (locator_handled _) fun _ => ?_
    exact Keeps.bind (onDom_handled _) fun _ => queuePendingDispatch_handled _ _
  | focus element =>
    refine Keeps.bind (locator_handled _) fun _ => ?_
    exact Keeps.bind (onDom_handled _) fun _ => queuePendingDispatch_handled _ _
  | click element => exact Keeps.bind (locator_handled _) fun node => clickNode_handled node
  | dispatchEvent object record =>
    refine Keeps.bind (eventTarget_handled object) fun _ => ?_
    exact Keeps.bind (onDom_handled _) fun _ => queuePendingDispatch_handled _ _
  | submit form =>
    refine Keeps.bind (locator_handled _) fun _ => Keeps.bind Keeps.get fun _ => ?_
    exact Keeps.ite (Keeps.throw _) (queuePendingDispatch_handled _ _)
  | historyMove state => exact queuePendingDispatch_handled _ _
  | setHash hash => exact queuePendingDispatch_handled _ _

theorem argumentString_handled (value : PropertyValue) (label : String) :
    Keeps Handled (argumentString value label) := Keeps.ite (Keeps.throw _) (Keeps.pure _)

theorem setFlag_handled (node : NodeId) (name : String) (present : Bool) :
    Keeps Handled (setFlag node name present) := Keeps.ite (onDom_handled _) (onDom_handled _)

theorem setTitle_handled (text : String) : Keeps Handled (setTitle text) := by
  refine Keeps.bind Keeps.get fun host => ?_
  dsimp only
  split
  · exact onDom_handled _
  · split
    · refine Keeps.bind (onDom_handled _) fun _ => Keeps.bind (onDom_handled _) fun _ => ?_
      exact onDom_handled _
    · exact Keeps.pure _

theorem setElementProperty_handled [HtmlParser] (node : NodeId) (property : String)
    (value : PropertyValue) : Keeps Handled (setElementProperty node property value) := by
  unfold setElementProperty
  split
  case h_5 =>
    refine Keeps.bind (argumentString_handled _ _) fun _ => Keeps.bind Keeps.get fun host => ?_
    split
    · exact onDom_handled _
    · exact onDom_handled _
    · exact onDom_handled _
  case h_6 | h_7 | h_8 => exact setFlag_handled _ _ _
  case h_10 => exact Keeps.throw _
  all_goals exact Keeps.bind (argumentString_handled _ _) fun _ => onDom_handled _

theorem setProperty_handled [HtmlParser] (object : Nat) (property : String) (value : PropertyValue) :
    Keeps Handled (setProperty object property value) := by
  refine Keeps.ite ?_ (Keeps.ite ?_ (Keeps.ite ?_ ?_))
  · exact Keeps.bind (locator_handled _) fun _ => onDom_handled _
  · refine Keeps.bind (locator_handled _) fun _ => Keeps.bind Keeps.get fun _ => ?_
    exact onDom_handled _
  · exact Keeps.ite (setTitle_handled _) (Keeps.throw _)
  · exact Keeps.bind (locator_handled _) fun node => setElementProperty_handled node property value

theorem classList_handled (element : Nat) (change : ClassChange) (names : List String) :
    Keeps Handled (classList element change names) :=
  Keeps.bind (locator_handled _) fun _ => Keeps.bind Keeps.get fun _ => onDom_handled _

theorem attachShadow_handled (element : Nat) (mode : ShadowMode) :
    Keeps Handled (attachShadow element mode) :=
  Keeps.bind (locator_handled _) fun _ => Keeps.bind (onDom_handled _) fun root =>
    elementFor_handled root

end Host

/-! ## Calls that report -/

section

variable {host : Host} {α : Type}

theorem locator_meets (object : Nat) :
    Meets (fun h => h = host) (Host.locator object)
      (fun node h => h = host ∧ host.elements[object]? = some node) fun h => h = host := by
  refine Meets.get_bind ?_
  split
  · next node hnode => exact fun _ h => ⟨h, hnode⟩
  · exact fun _ h => h

theorem onDom_meets {change : Edit α} {A : α → LiveDocument → Prop} {B : LiveDocument → Prop}
    (h : Meets (fun document => document = host.dom.toLiveDocument) change A B) :
    Meets (fun h => h = host) (Host.onDom (edit change))
      (fun value h => h.elements = host.elements ∧ A value h.dom.toLiveDocument)
      fun h => h.elements = host.elements ∧ B h.dom.toLiveDocument := by
  rintro _ rfl
  have hmeets := h _ rfl
  unfold Host.onDom edit
  revert hmeets
  cases change _ with
  | ok value document => exact fun h => ⟨rfl, h⟩
  | error failure document => exact fun h => ⟨rfl, h⟩

theorem queuePendingDispatch_meets {elements : IdMap NodeId} {A : LiveDocument → Prop}
    (node : Nat) (event : SentEvent) :
    Meets (fun h : Host => h.elements = elements ∧ A h.dom.toLiveDocument)
      (Host.queuePendingDispatch node event)
      (fun _ h => h.elements = elements ∧ A h.dom.toLiveDocument) fun _ => False := by
  intro host h
  exact iteInduction
    (motive := fun after : Host => after.elements = elements ∧ A after.dom.toLiveDocument)
    (fun _ => h) fun _ => h

theorem childCall_meets (host : Host) (change : NodeId → NodeId → Edit Unit) (element child : Nat)
    (event : NodeId → SentEvent) {A B : NodeId → NodeId → LiveDocument → Prop}
    (h : ∀ parent node, host.elements[child]? = some node →
      Meets (fun document => document = host.dom.toLiveDocument) (change parent node)
        (fun _ => A parent node) (B parent node)) :
    Meets (fun h => h = host)
      (do
        let parent ← Host.locator element
        let node ← Host.locator child
        Host.onDom (edit (change parent node))
        Host.queuePendingDispatch child (event node))
      (fun _ h => h.elements = host.elements ∧
        ∃ parent node, host.elements[element]? = some parent ∧ host.elements[child]? = some node ∧
          A parent node h.dom.toLiveDocument)
      fun h => h = host ∨ ∃ parent node, host.elements[child]? = some node ∧
        B parent node h.dom.toLiveDocument := by
  refine Meets.bind ((locator_meets element).onError fun _ h => .inl h) fun parent => ?_
  rintro _ ⟨hhost, hparent⟩
  refine Meets.bind ((locator_meets child).onError fun _ h => .inl h) (fun node => ?_) _ hhost
  rintro _ ⟨hhost, hnode⟩
  refine Meets.bind ((onDom_meets (h parent node hnode)).onError
    fun h hfailed => .inr ⟨parent, node, hnode, hfailed.2⟩) (fun _ => ?_) _ hhost
  refine (queuePendingDispatch_meets child (event node)).weaken (fun _ h hdone => ?_)
    fun _ h => h.elim
  exact ⟨hdone.1, parent, node, hparent, hnode, hdone.2⟩

end

namespace ObserverPage

variable {κ : Type} {page : ObserverPage κ} {record : MutationRecord} {α : Type}

/-- Nothing but the document and its handles has changed. -/
def OnlyHost (page after : ObserverPage κ) : Prop := after = { page with host := after.host }

/-- The call has queued the record, with some old value. -/
def Reported (record : MutationRecord) (page after : ObserverPage κ) : Prop :=
  ∃ old, after = notified { record with oldValue := old } { page with host := after.host }

theorem onHost_meets {program : HostM α} {A : α → Host → Prop} {B : Host → Prop}
    (h : Meets (fun host => host = page.host) program A B) :
    Meets (fun p => p = page) (onHost program)
      (fun value p => OnlyHost page p ∧ A value p.host) fun p => OnlyHost page p ∧ B p.host := by
  rintro _ rfl
  have hmeets := h _ rfl
  unfold onHost
  revert hmeets
  cases program _ with
  | ok value host => exact fun h => ⟨rfl, h⟩
  | error failure host => exact fun h => ⟨rfl, h⟩

theorem onHost_locator_meets (object : Nat) :
    Meets (fun p => p = page) (onHost (Host.locator object))
      (fun node p => p = page ∧ page.host.elements[object]? = some node) fun p => p = page := by
  refine (onHost_meets (locator_meets object)).weaken (fun node p h => ?_)
    fun p h => ?_
  · refine ⟨h.1.trans ?_, h.2.2⟩
    rw [h.2.1]
  · refine h.1.trans ?_
    rw [h.2]

theorem queueMutationRecord_meets (page : ObserverPage κ) {A : Host → Prop}
    (record : MutationRecord) (old : Option String)
    (B : ObserverPage κ → Prop) :
    Meets (fun p => OnlyHost page p ∧ A p.host)
      (queueMutationRecord { record with oldValue := old })
      (fun _ p => Reported record page p ∧ A p.host) B := by
  rintro p ⟨honly, hA⟩
  refine ⟨⟨old, ?_⟩, hA⟩
  show notified _ p = notified _ { page with host := p.host }
  rw [← honly]

theorem changeAttribute_meets (page : ObserverPage κ) {change : NodeId → Edit Unit} (element : Nat)
    (name : String) {A B : NodeId → LiveDocument → Prop}
    (h : ∀ node, Meets (fun document => document = page.host.dom.toLiveDocument) (change node)
      (fun _ => A node) (B node)) :
    Meets (fun p => p = page) (changeAttribute change element name)
      (fun _ p => Reported ⟨.attributes, element, some name, none, [], []⟩ page p ∧
        p.host.elements = page.host.elements ∧
        ∃ node, page.host.elements[element]? = some node ∧ A node p.host.dom.toLiveDocument)
      fun p => OnlyHost page p ∧ (p.host = page.host ∨ ∃ node, B node p.host.dom.toLiveDocument) := by
  refine Meets.bind ((onHost_locator_meets element).onError fun p hlocated => ?_) fun node => ?_
  · rw [hlocated]
    exact ⟨rfl, .inl rfl⟩
  rintro _ ⟨hpage, hnode⟩
  refine Meets.get_bind ?_ _ hpage
  refine Meets.bind ((onHost_meets (onDom_meets (h node))).onError
    fun p hfailed => ⟨hfailed.1, .inr ⟨node, hfailed.2.2⟩⟩) fun _ => ?_
  have hqueue := queueMutationRecord_meets page
    (A := fun host => host.elements = page.host.elements ∧ A node host.dom.toLiveDocument)
    ⟨.attributes, element, some name, none, [], []⟩
    (getAttribute page.host.dom.toLiveDocument node name)
  exact (hqueue _).weaken (fun _ p hdone => ⟨hdone.1, hdone.2.1, node, hnode, hdone.2.2⟩) fun _ h => h

theorem childCall_reported (page : ObserverPage κ) {program : HostM Unit} (element : Nat) (added removed : List Nat)
    {A : Host → Prop} {B : Host → Prop}
    (h : Meets (fun host => host = page.host) program (fun _ => A) B) :
    Meets (fun p => p = page)
      (do
        onHost program
        queueMutationRecord ⟨.childList, element, none, none, added, removed⟩)
      (fun _ p => Reported ⟨.childList, element, none, none, added, removed⟩ page p ∧ A p.host)
      fun p => OnlyHost page p ∧ B p.host :=
  Meets.bind (onHost_meets h) fun _ =>
    queueMutationRecord_meets page ⟨.childList, element, none, none, added, removed⟩ none _

variable [HtmlParser]

theorem domCall_shape (c : DomCall) (page : ObserverPage κ) :
    OnlyHost page (endState (domCall c) page) ∨
      ∃ record, ObserverRun.reported (.dom c : ObserverCall κ) = some record ∧
        Reported record page (endState (domCall c) page) := by
  have hsilent : ∀ program : HostM Unit, OnlyHost page (endState (onHost program) page) :=
    fun program => (Meets.endState (onHost_meets Meets.any) rfl).elim And.left And.left
  have hattribute : ∀ (change : NodeId → Edit Unit) (element : Nat) (name : String),
      OnlyHost page (endState (changeAttribute change element name) page) ∨
        Reported ⟨.attributes, element, some name, none, [], []⟩ page
          (endState (changeAttribute change element name) page) := fun change element name =>
    (Meets.endState (changeAttribute_meets page element name fun _ => Meets.any) rfl).symm.imp And.left And.left
  have hchild : ∀ (program : HostM Unit) (element : Nat) (added removed : List Nat),
      OnlyHost page (endState (do
          onHost program
          queueMutationRecord ⟨.childList, element, none, none, added, removed⟩) page) ∨
        Reported ⟨.childList, element, none, none, added, removed⟩ page
          (endState (do
            onHost program
            queueMutationRecord ⟨.childList, element, none, none, added, removed⟩) page) :=
    fun program element added removed =>
      (Meets.endState (childCall_reported page element added removed Meets.any) rfl).symm.imp
        And.left And.left
  cases c with
  | setAttribute element name value => exact (hattribute _ element name).imp id fun h => ⟨_, rfl, h⟩
  | removeAttribute element name => exact (hattribute _ element name).imp id fun h => ⟨_, rfl, h⟩
  | setProperty object property value => exact .inl (hsilent _)
  | classList element change names => exact .inl (hsilent _)
  | attachShadow element mode => exact .inl (hsilent _)
  | host c =>
    cases c with
    | appendChild element child => exact (hchild _ element [child] []).imp id fun h => ⟨_, rfl, h⟩
    | removeChild element child => exact (hchild _ element [] [child]).imp id fun h => ⟨_, rfl, h⟩
    | historyMove state => exact .inl (hsilent (Host.call (.historyMove state)))
    | setHash hash => exact .inl (hsilent (Host.call (.setHash hash)))
    | _ => exact .inl (hsilent _)

omit [HtmlParser] in
theorem onHost_handled {program : HostM α} (h : Keeps Handled program) :
    Keeps (fun p : ObserverPage κ => Handled p.host) (onHost program) := by
  intro p hp
  have hmeets := h p.host hp
  unfold onHost
  revert hmeets
  cases program p.host with
  | ok value host => exact id
  | error failure host => exact id

omit [HtmlParser] in
theorem changeAttribute_handled (change : NodeId → Edit Unit) (element : Nat) (name : String) :
    Keeps (fun p : ObserverPage κ => Handled p.host) (changeAttribute change element name) := by
  refine Keeps.bind (onHost_handled (Host.locator_handled element)) fun node => ?_
  refine Keeps.bind Keeps.get fun p => Keeps.bind (onHost_handled (Host.onDom_handled _)) fun _ => ?_
  exact Keeps.modify fun _ h => h

theorem domCall_handled (c : DomCall) :
    Keeps (fun p : ObserverPage κ => Handled p.host) (domCall c) := by
  have hchild : ∀ (c : HostCall) (record : MutationRecord),
      Keeps (fun p : ObserverPage κ => Handled p.host) (do
        onHost (Host.call c)
        queueMutationRecord record) := fun c record =>
    Keeps.bind (onHost_handled (Host.call_handled c)) fun _ => Keeps.modify fun _ h => h
  cases c with
  | setAttribute element name value => exact changeAttribute_handled _ element name
  | removeAttribute element name => exact changeAttribute_handled _ element name
  | setProperty object property value =>
    exact onHost_handled (Host.setProperty_handled object property value)
  | classList element change names =>
    exact onHost_handled (Host.classList_handled element change names)
  | attachShadow element mode => exact onHost_handled (Host.attachShadow_handled element mode)
  | host c =>
    have hcall := onHost_handled (κ := κ) (Host.call_handled c)
    cases c with
    | appendChild element child => exact hchild (.appendChild element child) _
    | removeChild element child => exact hchild (.removeChild element child) _
    | _ => exact hcall

end ObserverPage

namespace ObserverRun

variable {κ : Type} [HtmlParser] {s : ObserverRun κ}

variable {change : NodeChange}

omit [HtmlParser] in
theorem attribute_reports {edit : NodeId → Edit Unit} {element : Nat} {name : String}
    (hname : toAsciiLowercase (trim name) = name)
    (hedit : ∀ node, Meets (fun document => document = s.document) (edit node)
      (fun _ => Frame (· = .attr node (toAsciiLowercase (trim name))) s.document)
      fun document => document = s.document)
    {after : ObserverPage κ}
    (hafter : after = endState (ObserverPage.changeAttribute edit element name) s.page)
    (hchange : change.Happened s.document after.host.dom.toLiveDocument) :
    ObserverPage.Reported ⟨.attributes, element, some name, none, [], []⟩ s.page after ∧
      MutationRecord.Describes ⟨.attributes, element, some name, none, [], []⟩ after.host change := by
  have hmeets := Meets.endState
    (ObserverPage.changeAttribute_meets s.page element name hedit) rfl
  rw [← hafter] at hmeets
  rcases hmeets with ⟨hreported, helements, node, hnode, hframe⟩ | ⟨-, hsame⟩
  · have hattr : change = .attr node name := hname ▸ hframe.happened hchange
    subst hattr
    refine ⟨hreported, ?_, rfl, rfl⟩
    rw [helements]
    exact hnode
  · have hdocument : after.host.dom.toLiveDocument = s.document := by
      rcases hsame with hhost | ⟨node, hdocument⟩
      · rw [hhost]
        rfl
      · exact hdocument
    rw [hdocument] at hchange
    exact absurd hchange (not_happened _ change)

omit [HtmlParser] in
theorem child_reports {program : HostM Unit} {element : Nat} {added removed : List Nat}
    {A B : Host → Prop} (hprogram : Meets (fun host => host = s.page.host) program (fun _ => A) B)
    {after : ObserverPage κ}
    (hafter : after = endState (do
      ObserverPage.onHost program
      ObserverPage.queueMutationRecord ⟨.childList, element, none, none, added, removed⟩) s.page)
    (hdone : A after.host → s.page.host.elements[element]? = some change.node ∧
      after.host.elements = s.page.host.elements ∧ change = .childList change.node)
    (hfailed : ¬ B after.host) :
    ObserverPage.Reported ⟨.childList, element, none, none, added, removed⟩ s.page after ∧
      MutationRecord.Describes ⟨.childList, element, none, none, added, removed⟩ after.host change := by
  have hmeets := Meets.endState
    (ObserverPage.childCall_reported s.page element added removed hprogram) rfl
  rw [← hafter] at hmeets
  rcases hmeets with ⟨hreported, hA⟩ | ⟨-, hB⟩
  · obtain ⟨hnode, helements, hchange⟩ := hdone hA
    refine ⟨hreported, ?_, ?_⟩
    · rw [helements]
      exact hnode
    · rw [hchange]
  · exact absurd hB hfailed

theorem dom_reports {c : DomCall} (hreports : s.Reports (.dom c)) {after : ObserverPage κ}
    (hstep : after = (s.step (.call (.dom c))).page)
    (hafter : after = endState (ObserverPage.domCall c) s.page)
    (hchange : change.Happened s.document after.host.dom.toLiveDocument)
    (hwatched : ¬ s.Unwatched after.host change) :
    ∃ record, ObserverPage.Reported record s.page after ∧ record.Describes after.host change := by
  have hsame : ∀ host : Host, after.host = host → host.dom.toLiveDocument ≠ s.document := by
    rintro host rfl hdocument
    rw [hdocument] at hchange
    exact not_happened _ change hchange
  cases c with
  | setProperty object property value => exact hreports.elim
  | classList element change names => exact hreports.elim
  | attachShadow element mode => exact hreports.elim
  | setAttribute element name value =>
    exact ⟨_, attribute_reports hreports (fun node => setAttribute_frame node name value) hafter hchange⟩
  | removeAttribute element name =>
    exact ⟨_, attribute_reports hreports (fun node => removeAttribute_frame node name) hafter hchange⟩
  | host c =>
    cases c with
    | appendChild element child =>
      have hprogram := childCall_meets s.page.host Dom.appendChild element child
        (fun node => ⟨.node node, "connected", none, true, true⟩) fun parent node _ => appendChild_frame parent node
      refine ⟨_, child_reports hprogram hafter (fun hdone => ?_) fun hfailed => ?_⟩
      · obtain ⟨helements, parent, node, hparent, hnode, hframe⟩ := hdone
        rcases hframe.happened hchange with rfl | ⟨old, hold, rfl⟩
        · exact ⟨hparent, helements, rfl⟩
        · rcases hreports parent node old hparent hnode hold with rfl | hunwatched
          · exact ⟨hparent, helements, rfl⟩
          · rw [← hstep] at hunwatched
            exact absurd hunwatched hwatched
      · rcases hfailed with hhost | ⟨parent, node, -, hdocument⟩
        · exact hsame _ hhost rfl
        · exact hsame _ rfl hdocument
    | removeChild element child =>
      have hprogram := childCall_meets s.page.host Dom.removeChild element child
        (fun node => ⟨.node node, "disconnected", none, true, true⟩) fun parent node hnode =>
          removeChild_frame ((IdMap.contains_iff _ _).mp (hreports node hnode))
      refine ⟨_, child_reports hprogram hafter (fun hdone => ?_) fun hfailed => ?_⟩
      · obtain ⟨helements, parent, node, hparent, hnode, hframe⟩ := hdone
        cases hframe.happened hchange
        exact ⟨hparent, helements, rfl⟩
      · rcases hfailed with hhost | ⟨parent, node, -, hdocument⟩
        · exact hsame _ hhost rfl
        · exact hsame _ rfl hdocument
    | _ => exact hreports.elim

end ObserverRun

end GhitaBrowser.Page
