import GhitaBrowser.Live.EditStates
import GhitaBrowser.Live.Interaction

/-!
# Nodes that edits leave stored

Only clearing the children of a node removes nodes, and it removes what is below that
node. Every other edit leaves all stored nodes stored. Shadow records come from
`attach_shadow`, with both of their nodes stored.
-/

namespace GhitaBrowser.Live

open Dom Page

/-! ## Edits that remove nothing -/

/-- The nodes of `kept` are stored, and the shadow records are those of `table`. -/
structure Holds (kept : NodeId → Prop) (table : IdMap ShadowRootRecord)
    (document : LiveDocument) : Prop where
  stored : ∀ node, kept node → (document.nodes[node]?).isSome
  shadows : document.shadows = table

section Edits

variable {kept : NodeId → Prop} {table : IdMap ShadowRootRecord} {P : LiveDocument → Prop}

theorem updateNode_holds (node : NodeId) (message : String) (f : LiveNode → LiveNode) :
    Keeps (Holds kept table) (updateNode node message f) := by
  refine Meets.bind Meets.get fun document => Meets.ite (fun _ => ?_) fun _ => ?_
  · rintro s ⟨h, rfl⟩
    refine ⟨fun other hother => ?_, h.shadows⟩
    rw [LiveDocument.isSome_modify]
    exact h.stored other hother
  · rintro s ⟨h, rfl⟩
    exact h

theorem allocatePreferred_meets (kind : LiveNodeKind) (preferred : Option NodeId) :
    Meets (Holds kept table) (allocatePreferred kind preferred)
      (fun id document => Holds (fun node => kept node ∨ node = id) table document)
      (Holds kept table) := by
  refine Meets.bind Meets.get fun document => Meets.ite (fun _ => ?_) fun _ => Meets.ite (fun _ => ?_) fun _ => ?_
  · rintro s ⟨h, rfl⟩
    exact h
  · rintro s ⟨h, rfl⟩
    exact h
  · rintro s ⟨h, rfl⟩
    refine ⟨fun node hnode => ?_, h.shadows⟩
    show (Std.ExtTreeMap.insert _ _ _)[node]?.isSome
    rw [IdMap.getElem?_insert]
    split
    · rfl
    · next hne => exact h.stored node (hnode.resolve_right hne)

theorem Holds.weaken {kept' : NodeId → Prop} {document : LiveDocument}
    (h : Holds kept table document) (hkept : ∀ node, kept' node → kept node) :
    Holds kept' table document := ⟨fun node hnode => h.stored node (hkept node hnode), h.shadows⟩

theorem allocatePreferred_holds (kind : LiveNodeKind) (preferred : Option NodeId) :
    Keeps (Holds kept table) (allocatePreferred kind preferred) :=
  (allocatePreferred_meets kind preferred).weaken (fun _ _ h => h.weaken fun _ => .inl) fun _ h => h

theorem createTextNode_holds (text : String) : Keeps (Holds kept table) (createTextNode text) :=
  allocatePreferred_holds _ _

theorem createElement_holds (tag : String) : Keeps (Holds kept table) (createElement tag) :=
  Keeps.bind (Keeps.ite (Keeps.pure _) (Keeps.throw _)) fun _ => allocatePreferred_holds _ _

theorem pushAndSet_holds (parent child : NodeId) :
    Keeps (Holds kept table) (do
      updateNode parent parentGone (LiveNode.pushChild child)
      updateNode child childGone (LiveNode.setParent (some parent))) :=
  Keeps.bind (updateNode_holds _ _ _) fun _ => updateNode_holds _ _ _

theorem appendChildWithoutInvalidation_holds (parent child : NodeId) :
    Keeps (Holds kept table) (appendChildWithoutInvalidation parent child) :=
  Keeps.bind (requireElement_keeps parent) fun _ => Keeps.bind (requireNode_keeps child) fun _ =>
    Keeps.bind (depthBudgetOk_keeps parent) fun _ => pushAndSet_holds parent child

theorem detach_holds (child : NodeId) : Keeps (Holds kept table) (detach child) := by
  refine Keeps.bind (requireNode_keeps child) fun entry => ?_
  split
  · exact Keeps.pure _
  · exact Keeps.bind (updateNode_holds _ _ _) fun _ => updateNode_holds _ _ _

theorem appendChild_holds (parent child : NodeId) :
    Keeps (Holds kept table) (appendChild parent child) := by
  refine Keeps.bind (requireElement_keeps parent) fun _ => Keeps.bind (requireNode_keeps child)
    fun _ => Keeps.bind (depthBudgetOk_keeps parent) fun _ => Keeps.bind Keeps.get fun _ => ?_
  exact Keeps.ite (Keeps.throw _) (Keeps.bind (detach_holds child) fun _ => pushAndSet_holds _ _)

theorem removeChild_holds (parent child : NodeId) :
    Keeps (Holds kept table) (removeChild parent child) := by
  refine Keeps.bind (requireNode_keeps parent) fun _ => Keeps.ite (Keeps.throw _) ?_
  exact Keeps.bind (updateNode_holds _ _ _) fun _ => updateNode_holds _ _ _

theorem setAttribute_holds (node : NodeId) (name value : String) :
    Keeps (Holds kept table) (setAttribute node name value) :=
  Keeps.bind (normalizeAttributeName_keeps name) fun _ =>
    Keeps.bind (requireElementMut_keeps node) fun _ => updateNode_holds _ _ _

theorem removeAttribute_holds (node : NodeId) (name : String) :
    Keeps (Holds kept table) (removeAttribute node name) :=
  Keeps.bind (normalizeAttributeName_keeps name) fun _ =>
    Keeps.bind (requireElementMut_keeps node) fun _ => updateNode_holds _ _ _

theorem appendText_holds (parent : NodeId) (text : String) :
    Keeps (Holds kept table) (do
      let child ← createTextNode text
      appendChildWithoutInvalidation parent child) :=
  Keeps.bind (createTextNode_holds text) fun _ => appendChildWithoutInvalidation_holds _ _

theorem holds_rules : ImportRules (Holds kept table) (fun _ => True) (fun _ => True)
    fun _ _ => True where
  element _ _ _ _ _ := (allocatePreferred_holds _ _).weaken (fun _ _ h => ⟨h, trivial⟩)
    fun _ h => h
  text _ := (allocatePreferred_holds _ _).weaken (fun _ _ h => ⟨h, trivial⟩) fun _ h => h
  append _ _ _ _ := appendChildWithoutInvalidation_holds _ _
  fill _ _ := trivial

theorem importElement_holds (element : Element) (parent : Option NodeId) :
    Keeps (Holds kept table) (importElement element parent) :=
  (holds_rules.importElement element (Element.every_of_forall (fun _ _ => trivial) element) parent
    fun _ _ => trivial).weaken (fun _ _ h => h.1) fun _ h => h

theorem importSubtree_holds (element : Element) : Keeps (Holds kept table) (importSubtree element) :=
  importElement_holds _ _

theorem appendParsedFragment_holds (parsed : Element) (parent : NodeId) :
    Keeps (Holds kept table) (appendParsedFragment parsed parent) :=
  holds_rules.appendParsedFragment trivial (Element.every_of_forall (fun _ _ => trivial) parsed)

end Edits

mutual

variable {table : IdMap ShadowRootRecord}

theorem cloneNode_holds {kept : NodeId → Prop} (room : Nat)
    (node : NodeId) (deep : Bool) : Keeps (Holds kept table) (cloneNode room node deep) := by
  rw [cloneNode]
  refine Keeps.bind (requireNode_keeps node) fun entry =>
    Keeps.bind (allocatePreferred_holds _ _) fun clone => ?_
  cases room with
  | zero => exact Keeps.throw _
  | succ room =>
    refine Keeps.ite ?_ (Keeps.pure _)
    exact Keeps.bind (cloneChildren_holds room clone entry.children) fun _ => Keeps.pure _
termination_by (room, 0)

theorem cloneChildren_holds {kept : NodeId → Prop} (room : Nat)
    (clone : NodeId) (children : List NodeId) :
    Keeps (Holds kept table) (cloneChildren room clone children) := by
  rw [cloneChildren.eq_def]
  cases children with
  | nil => exact Keeps.pure _
  | cons child children =>
    exact Keeps.bind (cloneNode_holds room child true) fun _ =>
      Keeps.bind (appendChild_holds _ _) fun _ => cloneChildren_holds room clone children
termination_by (room, children.length + 1)

end

/-! ## Edits that clear a node -/

/-- Nothing of `kept` lies below the node. -/
def Clear (kept : NodeId → Prop) (document : LiveDocument) (node : NodeId) : Prop :=
  ∀ other, kept other → ¬ document.links.Below other node

section Clears

variable {kept : NodeId → Prop} {table : IdMap ShadowRootRecord} {document : LiveDocument}
  {node : NodeId} (linked : document.Linked) (h : Holds kept table document)

include linked h

theorem cleared_holds (hclear : Clear kept document node) (stored : (document.nodes[node]?).isSome) :
    Holds kept table (cleared document node) :=
  ⟨fun other hother => (cleared_stored linked stored).mpr ⟨h.stored other hother, hclear other hother⟩,
    h.shadows⟩

theorem setTextContent_holds (hclear : Clear kept document node) (value : String) :
    Holds kept table (endState (setTextContent node value) document) := by
  have hmeets := @setTextContent_meets document (Holds kept table) linked h node value
    (fun _ _ _ _ => ⟨fun other hother => ?_, h.shadows⟩) fun stored =>
      Keeps.meets (Keeps.ite (Keeps.pure _) (appendText_holds node _)) (cleared_holds linked h hclear stored)
  · exact (hmeets.endState rfl).elim id id
  · rw [LiveDocument.isSome_modify]
    exact h.stored other hother

variable [HtmlParser] {html : String}

theorem setInnerHtml_holds (hclear : html.utf8ByteSize ≤ maxShadowHtmlBytes → Clear kept document node) :
    Holds kept table (endState (setInnerHtml node html) document) :=
  ((setInnerHtml_meets linked h fun hsize stored => (appendParsedFragment_holds _ _).meets
    (cleared_holds linked h (hclear hsize) stored)).endState rfl).elim id id

theorem setShadowHtml_holds (hclear : html.utf8ByteSize ≤ maxShadowHtmlBytes →
      (document.shadows.toList.any fun entry => entry.2.root == node) → Clear kept document node) :
    Holds kept table (endState (setShadowHtml node html) document) :=
  ((setShadowHtml_meets linked h fun hsize hroot stored => (appendParsedFragment_holds _ _).meets
    (cleared_holds linked h (hclear hsize hroot) stored)).endState rfl).elim id id

end Clears

/-! ## Shadow roots -/

/-- The records after `attach_shadow`: those of `table`, or one more. -/
structure Attached (kept : NodeId → Prop) (table : IdMap ShadowRootRecord)
    (document : LiveDocument) : Prop where
  stored : ∀ node, kept node → (document.nodes[node]?).isSome
  records : ∀ (key : NodeId) (record : ShadowRootRecord), document.shadows[key]? = some record →
    table[key]? = some record ∨
      (document.nodes[record.host]?).isSome ∧ (document.nodes[record.root]?).isSome

variable {kept : NodeId → Prop}

theorem Holds.attached {table : IdMap ShadowRootRecord}
    {document : LiveDocument} (h : Holds kept table document) : Attached kept table document where
  stored := h.stored
  records _ _ hrecord := .inl (h.shadows ▸ hrecord)

theorem attachShadow_attached {table : IdMap ShadowRootRecord}
    {document : LiveDocument} (linked : document.Linked) (h : Holds kept table document)
    (host : NodeId) (mode : ShadowMode) :
    Attached kept table (endState (attachShadow host mode) document) := by
  have hmade := (allocatePreferred_holds shadowKind none).meets h
  rcases (attachShadow_known linked (hmade.onError fun _ _ => trivial)
    host mode).endState rfl with ⟨attachment, -, hafter⟩ | hafter | ⟨holds, -⟩
  · rw [hafter]
    have hstored (node : NodeId) : ((withShadow document host mode).nodes[node]?).isSome ↔
        node = document.nextNodeId ∨ (document.nodes[node]?).isSome := by
      rw [← attachment.made.isSome, withShadow, appended, modify_stored]
    obtain ⟨entry, hentry, -⟩ := attachment.plain
    refine ⟨fun node hnode => (hstored node).mpr (.inr (h.stored node hnode)), fun key record hrecord => ?_⟩
    rw [withShadow, IdMap.getElem?_insert] at hrecord
    split at hrecord
    · obtain rfl := Option.some.inj hrecord
      exact .inr ⟨(hstored host).mpr (.inr (by rw [hentry]; rfl)), (hstored _).mpr (.inl rfl)⟩
    · exact .inl (h.shadows ▸ hrecord)
  · rw [hafter]
    exact h.attached
  · exact holds.attached

/-! ## One edit -/

/-- The node whose children an edit clears. -/
def editClears (document : LiveDocument) : Dom.Operation → Option NodeId
  | .setTextContent node _ => some node
  | .setInnerHtml node html => if html.utf8ByteSize ≤ maxShadowHtmlBytes then some node else none
  | .setShadowHtml root html =>
    if html.utf8ByteSize ≤ maxShadowHtmlBytes ∧
        (document.shadows.toList.any fun entry => entry.2.root == root) then some root
    else none
  | _ => none

theorem discard_keeps {ε τ α : Type} {P : τ → Prop} {program : EStateM ε τ α}
    (h : Keeps P program) : Keeps P (discard program) :=
  Keeps.bind h fun _ => Keeps.pure _

variable [HtmlParser]

/-- An edit leaves the nodes of `kept` stored when it does not clear above them. -/
theorem endState_edit_attached {document : LiveDocument}
    (linked : document.Linked) (operation : Dom.Operation)
    (hkept : ∀ node, kept node → (document.nodes[node]?).isSome)
    (hclear : ∀ node, editClears document operation = some node → Clear kept document node) :
    Attached kept document.shadows (endState operation.edit document) := by
  have holds : Holds kept document.shadows document := ⟨hkept, rfl⟩
  cases operation with
  | createElement tag => exact ((discard_keeps (createElement_holds tag)).endState holds).attached
  | createTextNode text => exact ((discard_keeps (createTextNode_holds text)).endState holds).attached
  | importSubtree element =>
    exact ((discard_keeps (importSubtree_holds element)).endState holds).attached
  | cloneNode node deep =>
    exact ((discard_keeps (cloneNode_holds _ node deep)).endState holds).attached
  | appendChild parent child => exact ((appendChild_holds parent child).endState holds).attached
  | removeChild parent child => exact ((removeChild_holds parent child).endState holds).attached
  | setTextContent node value =>
    exact (setTextContent_holds linked holds (hclear node rfl) value).attached
  | setAttribute node name value =>
    exact ((setAttribute_holds node name value).endState holds).attached
  | removeAttribute node name => exact ((removeAttribute_holds node name).endState holds).attached
  | attachShadow host mode =>
    have hpure : endState (discard (Dom.attachShadow host mode)) document =
        endState (Dom.attachShadow host mode) document := endState_bind_pure
    show Attached _ _ (endState (discard (Dom.attachShadow host mode)) document)
    rw [hpure]
    exact attachShadow_attached linked holds host mode
  | setShadowHtml root html =>
    refine (setShadowHtml_holds linked holds fun hsize hroot => ?_).attached
    exact hclear root (if_pos ⟨hsize, hroot⟩)
  | setInnerHtml node html =>
    exact (setInnerHtml_holds linked holds fun hsize => hclear node (if_pos hsize)).attached

end GhitaBrowser.Live
