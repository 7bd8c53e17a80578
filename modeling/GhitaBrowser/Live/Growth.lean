import GhitaBrowser.Live.EditStates

/-!
# Growth of a live document

Creating, importing and cloning nodes gives them new ids. What was there before keeps its
entry, up to the children of the nodes that something may be appended to.
-/

namespace GhitaBrowser.Live

open Dom Page

/-- What an edit of the children leaves alone. -/
def frame (node : LiveNode) : Option NodeId × LiveNodeKind := (node.parent, node.kind)

/-- `document` has grown out of `base`: new nodes have new ids, kinds that `fits` allows, and
hang below new nodes or below those of `touched`. -/
structure Grown (base : LiveDocument) (touched : NodeId → Prop) (fits : LiveNodeKind → Prop)
    (document : LiveDocument) : Prop where
  shadows : document.shadows = base.shadows
  root : document.root = base.root
  next : base.nextNodeId ≤ document.nextNodeId
  below : ∀ node : NodeId, (document.nodes[node]?).isSome → node < document.nextNodeId
  frames : ∀ node : NodeId, node < base.nextNodeId →
    (document.nodes[node]?).map frame = (base.nodes[node]?).map frame
  same : ∀ node : NodeId, node < base.nextNodeId → ¬ touched node →
    document.nodes[node]? = base.nodes[node]?
  parents : ∀ (node : NodeId) (entry : LiveNode), base.nextNodeId ≤ node →
    document.nodes[node]? = some entry → ∀ parent, entry.parent = some parent →
      touched parent ∨ base.nextNodeId ≤ parent
  kinds : ∀ (node : NodeId) (entry : LiveNode), base.nextNodeId ≤ node →
    document.nodes[node]? = some entry → fits entry.kind

theorem Grown.refl {base : LiveDocument} (linked : base.Linked) (touched : NodeId → Prop)
    (fits : LiveNodeKind → Prop) : Grown base touched fits base := by
  have hnew {node : NodeId} {entry : LiveNode} (hnode : base.nextNodeId ≤ node)
      (hentry : base.nodes[node]? = some entry) : False := by
    have hlt := linked.below node (by rw [hentry]; rfl)
    exact Nat.lt_irrefl _ (Nat.lt_of_lt_of_le hlt hnode)
  exact ⟨rfl, rfl, Nat.le_refl _, linked.below, fun _ _ => rfl, fun _ _ _ => rfl,
    fun _ _ hnode hentry => (hnew hnode hentry).elim, fun _ _ hnode hentry => (hnew hnode hentry).elim⟩

section Edits

variable {base : LiveDocument} {touched : NodeId → Prop} {fits : LiveNodeKind → Prop}

abbrev KeepsGrown {α : Type} (base : LiveDocument) (touched : NodeId → Prop)
    (fits : LiveNodeKind → Prop) (edit : Edit α) : Prop := Keeps (Grown base touched fits) edit

/-- The edit gives a new node. -/
abbrev GivesNew (base : LiveDocument) (touched : NodeId → Prop) (fits : LiveNodeKind → Prop)
    (edit : Edit NodeId) : Prop :=
  Meets (Grown base touched fits) edit
    (fun id document => Grown base touched fits document ∧ base.nextNodeId ≤ id)
    (Grown base touched fits)

theorem GivesNew.bind {α : Type} {edit : Edit NodeId} {next : NodeId → Edit α}
    {Q : α → LiveDocument → Prop} (h : GivesNew base touched fits edit)
    (hnext : ∀ id, base.nextNodeId ≤ id →
      Meets (Grown base touched fits) (next id) Q (Grown base touched fits)) :
    Meets (Grown base touched fits) (edit >>= next) Q (Grown base touched fits) := by
  refine Meets.bind h fun id => ?_
  rintro document ⟨grown, hid⟩
  exact hnext id hid document grown

theorem chooseId_new {document : LiveDocument} (grown : Grown base touched fits document)
    {preferred : Option NodeId} (hpreferred : preferred = none ∨ base.nextNodeId ≤ 1) :
    base.nextNodeId ≤ document.chooseId preferred := by
  rcases hpreferred with rfl | hone
  · exact grown.next
  · rw [LiveDocument.chooseId]
    cases h : preferred.filter _ with
    | none => exact grown.next
    | some id =>
      obtain ⟨-, hid⟩ := Option.filter_eq_some_iff.mp h
      simp only [Bool.and_eq_true, bne_iff_ne] at hid
      exact Nat.le_trans hone (Nat.one_le_iff_ne_zero.mpr hid.1.1)

theorem allocatePreferred_gives {kind : LiveNodeKind} (hkind : fits kind)
    {preferred : Option NodeId} (hpreferred : preferred = none ∨ base.nextNodeId ≤ 1) :
    GivesNew base touched fits (allocatePreferred kind preferred) := by
  refine Meets.bind Meets.get fun document => Meets.ite (fun _ => ?_) fun _ => Meets.ite (fun _ => ?_) fun _ => ?_
  · rintro s ⟨grown, rfl⟩
    exact grown
  · rintro s ⟨grown, rfl⟩
    exact grown
  · rintro s ⟨grown, rfl⟩
    have hnew := chooseId_new grown hpreferred
    have hold {node : NodeId} (hnode : node < base.nextNodeId) :
        (document.nodes.insert (document.chooseId preferred)
          ⟨document.chooseId preferred, none, [], kind⟩)[node]? = document.nodes[node]? := by
      rw [IdMap.getElem?_insert, if_neg (Nat.ne_of_lt (Nat.lt_of_lt_of_le hnode hnew))]
    refine ⟨⟨grown.shadows, grown.root, ?_, fun node hnode => ?_, fun node hnode => ?_,
      fun node hnode htouched => ?_, fun node entry hnode hentry => ?_,
      fun node entry hnode hentry => ?_⟩, hnew⟩
    · exact Nat.le_succ_of_le (Nat.le_trans grown.next (Nat.le_max_left _ _))
    · simp only [IdMap.getElem?_insert] at hnode
      split at hnode
      · next heq =>
        subst heq
        exact Nat.lt_succ_of_le (Nat.le_max_right _ _)
      · exact Nat.lt_succ_of_lt (Nat.lt_of_lt_of_le (grown.below node hnode) (Nat.le_max_left _ _))
    · exact (congrArg _ (hold hnode)).trans (grown.frames node hnode)
    · exact (hold hnode).trans (grown.same node hnode htouched)
    · simp only [IdMap.getElem?_insert] at hentry
      split at hentry
      · obtain rfl := Option.some.inj hentry
        exact nofun
      · exact grown.parents node entry hnode hentry
    · simp only [IdMap.getElem?_insert] at hentry
      split at hentry
      · obtain rfl := Option.some.inj hentry
        exact hkind
      · exact grown.kinds node entry hnode hentry

/-- A node to which something may be appended. -/
def Free (base : LiveDocument) (touched : NodeId → Prop) (node : NodeId) : Prop :=
  touched node ∨ base.nextNodeId ≤ node

theorem updateNode_grown {node : NodeId} {message : String} {f : LiveNode → LiveNode}
    (hnode : Free base touched node ∧ (∀ entry, frame (f entry) = frame entry) ∨
      base.nextNodeId ≤ node ∧ ∀ entry, (f entry).kind = entry.kind ∧
        ∀ parent, (f entry).parent = some parent → Free base touched parent) :
    KeepsGrown base touched fits (updateNode node message f) := by
  have hframe (hlt : node < base.nextNodeId) :
      touched node ∧ ∀ entry, frame (f entry) = frame entry := by
    rcases hnode with ⟨htouched | hnew, h⟩ | ⟨hnew, -⟩
    · exact ⟨htouched, h⟩
    · exact absurd hnew (Nat.not_le.mpr hlt)
    · exact absurd hnew (Nat.not_le.mpr hlt)
  have hkind (entry : LiveNode) : (f entry).kind = entry.kind := by
    rcases hnode with ⟨-, h⟩ | ⟨-, h⟩
    · exact congrArg Prod.snd (h entry)
    · exact (h entry).1
  refine Meets.bind Meets.get fun document => Meets.ite (fun _ => ?_) fun _ => ?_
  · rintro s ⟨grown, rfl⟩
    refine ⟨grown.shadows, grown.root, grown.next, fun other hother => ?_, fun other hother => ?_,
      fun other hother htouched => ?_, fun other entry hother hentry => ?_,
      fun other entry hother hentry => ?_⟩
    · rw [LiveDocument.isSome_modify] at hother
      exact grown.below other hother
    · rw [← grown.frames other hother]
      show ((document.nodes.modify node f)[other]?).map frame = _
      rw [IdMap.getElem?_modify]
      split
      · next heq =>
        subst heq
        rw [Option.map_map]
        exact congrArg (fun g => (document.nodes[other]?).map g) (funext (hframe hother).2)
      · rfl
    · rw [← grown.same other hother htouched]
      show (document.nodes.modify node f)[other]? = _
      rw [IdMap.getElem?_modify, if_neg]
      rintro rfl
      exact htouched (hframe hother).1
    · simp only [IdMap.getElem?_modify] at hentry
      split at hentry
      · next heq =>
        subst heq
        obtain ⟨before, hbefore, rfl⟩ := Option.map_eq_some_iff.mp hentry
        intro parent hparent
        rcases hnode with ⟨-, h⟩ | ⟨-, h⟩
        · refine grown.parents other before hother hbefore parent ?_
          exact (congrArg Prod.fst (h before)).symm.trans hparent
        · exact (h before).2 parent hparent
      · exact grown.parents other entry hother hentry
    · simp only [IdMap.getElem?_modify] at hentry
      split at hentry
      · next heq =>
        subst heq
        obtain ⟨before, hbefore, rfl⟩ := Option.map_eq_some_iff.mp hentry
        rw [hkind before]
        exact grown.kinds other before hother hbefore
      · exact grown.kinds other entry hother hentry
  · rintro s ⟨grown, rfl⟩
    exact grown

variable {parent : NodeId}

theorem pushChild_grown (hparent : Free base touched parent) (child : NodeId) (message : String) :
    KeepsGrown base touched fits (updateNode parent message (LiveNode.pushChild child)) :=
  updateNode_grown (.inl ⟨hparent, fun _ => rfl⟩)

theorem setParent_grown {child : NodeId} (hchild : base.nextNodeId ≤ child) {parent : Option NodeId}
    (hparent : ∀ node, parent = some node → Free base touched node) (message : String) :
    KeepsGrown base touched fits (updateNode child message (LiveNode.setParent parent)) :=
  updateNode_grown (.inr ⟨hchild, fun _ => ⟨rfl, hparent⟩⟩)

theorem pushAndSet_grown {child : NodeId} (hparent : Free base touched parent)
    (hchild : base.nextNodeId ≤ child) :
    KeepsGrown base touched fits (do
      updateNode parent parentGone (LiveNode.pushChild child)
      updateNode child childGone (LiveNode.setParent (some parent))) := by
  refine Keeps.bind (pushChild_grown hparent child _) fun _ => setParent_grown hchild ?_ _
  rintro node hnode
  obtain rfl := Option.some.inj hnode
  exact hparent

theorem appendChildWithoutInvalidation_grown {child : NodeId}
    (hparent : Free base touched parent) (hchild : base.nextNodeId ≤ child) :
    KeepsGrown base touched fits (appendChildWithoutInvalidation parent child) :=
  Keeps.bind (requireElement_keeps parent) fun _ => Keeps.bind (requireNode_keeps child) fun _ =>
    Keeps.bind (depthBudgetOk_keeps parent) fun _ => pushAndSet_grown hparent hchild

theorem detach_grown {child : NodeId} (hchild : base.nextNodeId ≤ child) :
    KeepsGrown base touched fits (detach child) := by
  have hentry : Meets (Grown base touched fits) (requireNode child)
      (fun entry document => Grown base touched fits document ∧
        ∀ parent, entry.parent = some parent → Free base touched parent)
      (Grown base touched fits) := by
    refine Meets.bind Meets.get fun document => ?_
    split
    · next entry hentry =>
      rintro s ⟨grown, rfl⟩
      exact ⟨grown, grown.parents child entry hchild hentry⟩
    · rintro s ⟨grown, rfl⟩
      exact grown
  refine hentry.bind fun entry => ?_
  rintro document ⟨grown, hparents⟩
  cases hparent : entry.parent with
  | none => exact grown
  | some parent =>
    have hunlink : KeepsGrown base touched fits (do
        updateNode parent parentGone fun node =>
          { node with children := node.children.filter (· ≠ child) }
        updateNode child childGone (LiveNode.setParent none)) :=
      Keeps.bind (updateNode_grown (.inl ⟨hparents parent hparent, fun _ => rfl⟩)) fun _ =>
        setParent_grown hchild (by rintro node ⟨⟩) _
    exact hunlink document grown

theorem appendChild_grown {child : NodeId} (hparent : Free base touched parent)
    (hchild : base.nextNodeId ≤ child) : KeepsGrown base touched fits (appendChild parent child) := by
  refine Keeps.bind (requireElement_keeps parent) fun _ => Keeps.bind (requireNode_keeps child)
    fun _ => Keeps.bind (depthBudgetOk_keeps parent) fun _ => Keeps.bind Keeps.get fun _ => ?_
  exact Keeps.ite (Keeps.throw _) (Keeps.bind (detach_grown hchild) fun _ =>
    pushAndSet_grown hparent hchild)

/-! ## Parsed elements -/

theorem allocate_gives {kind : LiveNodeKind} (hkind : fits kind) :
    GivesNew base touched fits (allocate kind) := allocatePreferred_gives hkind (.inl rfl)

theorem appendText_grown (htext : ∀ text, fits (.text text))
    (hparent : Free base touched parent) (text : String) :
    KeepsGrown base touched fits (do
      let child ← allocate (.text text)
      appendChildWithoutInvalidation parent child) :=
  GivesNew.bind (allocate_gives (htext text)) fun _ hchild =>
    appendChildWithoutInvalidation_grown hparent hchild

/-- The steps of an import of plain ids. -/
theorem grown_rules (htext : ∀ text, fits (.text text)) :
    ImportRules (Grown base touched fits) (base.nextNodeId ≤ ·) (Free base touched)
      fun nodeId tag => (nodeId = none ∨ base.nextNodeId ≤ 1) ∧
        ∀ attrs isVoid, fits (.element tag attrs isVoid) where
  element _ _ hallowed _ _ := allocatePreferred_gives (hallowed.2 _ _) hallowed.1
  text text := allocate_gives (htext text)
  append _ _ := appendChildWithoutInvalidation_grown
  fill _ := .inr

/-- The kinds of an element's tree are allowed. -/
abbrev Allowed (fits : LiveNodeKind → Prop) (element : Element) : Prop :=
  element.Every fun _ tag => ∀ attrs isVoid, fits (.element tag attrs isVoid)

theorem importSubtree_grown (htext : ∀ text, fits (.text text)) {element : Element}
    (helement : Allowed fits element) : GivesNew base touched fits (importSubtree element) :=
  (grown_rules htext).importSubtree
    (Element.every_mono (fun _ _ h => ⟨.inl rfl, h⟩) element helement)

theorem appendParsedFragment_grown (htext : ∀ text, fits (.text text))
    (hparent : Free base touched parent) {parsed : Element} (hparsed : Allowed fits parsed) :
    KeepsGrown base touched fits (appendParsedFragment parsed parent) :=
  (grown_rules htext).appendParsedFragment hparent
    (Element.every_mono (fun _ _ h => ⟨.inl rfl, h⟩) parsed hparsed)

end Edits

/-! ## Clones -/

section Clones

variable {base : LiveDocument} {touched : NodeId → Prop} {fits : LiveNodeKind → Prop}

mutual

theorem cloneNode_grown (hall : ∀ kind, fits kind) (room : Nat) (node : NodeId) (deep : Bool) :
    GivesNew base touched fits (cloneNode room node deep) := by
  rw [cloneNode]
  refine Meets.bind (Q := fun _ => Grown base touched fits) (requireNode_keeps node) fun entry => ?_
  refine GivesNew.bind (allocate_gives (hall _)) fun clone hclone => ?_
  have hend : Meets (Grown base touched fits) (Pure.pure clone : Edit NodeId)
      (fun id document => Grown base touched fits document ∧ base.nextNodeId ≤ id)
      (Grown base touched fits) := fun _ grown => ⟨grown, hclone⟩
  cases room with
  | zero => exact Meets.throw
  | succ room =>
    dsimp only
    split
    · exact Meets.bind (cloneChildren_grown hall room hclone entry.children) fun _ => hend
    · exact hend
termination_by (room, 0)

theorem cloneChildren_grown (hall : ∀ kind, fits kind) (room : Nat) {clone : NodeId}
    (hclone : base.nextNodeId ≤ clone)
    (children : List NodeId) :
    KeepsGrown base touched fits (cloneChildren room clone children) := by
  rw [cloneChildren.eq_def]
  cases children with
  | nil => exact Keeps.pure _
  | cons child children =>
    refine GivesNew.bind (cloneNode_grown hall room child true) fun childClone hchild => ?_
    exact Keeps.bind (appendChild_grown (.inr hclone) hchild) fun _ =>
      cloneChildren_grown hall room hclone children
termination_by (room, children.length + 1)

end

end Clones

end GhitaBrowser.Live
