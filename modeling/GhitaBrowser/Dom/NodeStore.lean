import GhitaBrowser.Dom.LiveDocument
import GhitaBrowser.Lib.Forest
import GhitaBrowser.Lib.Keeps

/-!
# The node store is a forest

The links of a document are a `LinkStore`, and each operation edits them as one of the
edits that keep a forest. The walk of `is_ancestor` gives up after 256 steps; it is
enough because `depth_budget_ok` has refused a parent with a longer chain before.
-/

namespace GhitaBrowser.Dom

variable {f : LiveNode → LiveNode}

namespace LiveNode

def links (node : LiveNode) : Links NodeId := ⟨node.parent, node.children⟩

end LiveNode

namespace LiveDocument

def links (document : LiveDocument) : LinkStore NodeId := fun node =>
  document.nodes[node]?.map LiveNode.links

/-- What every operation keeps: a forest, with all ids below the next one. -/
structure Linked (document : LiveDocument) : Prop where
  forest : document.links.IsForest
  below : ∀ node, (document.nodes[node]?).isSome → node < document.nextNodeId

theorem links_eq {document : LiveDocument} {node : NodeId} {entry : LiveNode}
    (h : document.nodes[node]? = some entry) : document.links node = some entry.links := by
  rw [links, h]
  rfl

theorem isSome_links (document : LiveDocument) (node : NodeId) :
    (document.links node).isSome = (document.nodes[node]?).isSome := by
  rw [links, Option.isSome_map]

theorem isParent_iff (document : LiveDocument) (c p : NodeId) :
    document.links.IsParent c p ↔ document.parentOf c = some p := by
  simp only [LinkStore.IsParent, links, parentOf]
  cases document.nodes[c]? <;> simp [LiveNode.links]

/-! ## The two walks -/

theorem not_reaches_of_walks {document : LiveDocument} {candidate : NodeId} (steps more : Nat)
    (start : Option NodeId) (hdepth : document.depthWalk steps start = true)
    (hwalk : document.ancestorWalk candidate (steps + more) start = false) {node : NodeId}
    (hstart : start = some node) :
    ¬ Relation.ReflTransGen document.links.IsParent node candidate := by
  induction steps generalizing start node with
  | zero => cases hdepth
  | succ steps ih =>
    subst hstart
    rw [Nat.add_right_comm] at hwalk
    simp only [depthWalk, ancestorWalk] at hdepth hwalk
    split at hwalk
    · cases hwalk
    · next hne =>
      intro reaches
      rcases Relation.ReflTransGen.cases_head reaches with heq | ⟨parent, hparent, rest⟩
      · exact hne heq
      · exact ih (document.parentOf node) hdepth hwalk ((isParent_iff document node parent).mp hparent)
          rest

/-- The cycle check of `append_child`. -/
theorem not_reaches_of_checks {document : LiveDocument} {parent child : NodeId}
    (hdepth : document.depthWalk (maxLiveDepth - 1) (document.parentOf parent) = true)
    (hancestor : document.isAncestor child parent = false) :
    ¬ Relation.ReflTransGen document.links.IsParent parent child :=
  not_reaches_of_walks maxLiveDepth 0 (some parent) hdepth hancestor rfl

/-! ## Edits of the links -/

theorem links_modify (document : LiveDocument) (node : NodeId) (f : LiveNode → LiveNode)
    (g : Links NodeId → Links NodeId) (h : ∀ entry, (f entry).links = g entry.links) :
    links { document with nodes := document.nodes.modify node f } =
      Function.update document.links node ((document.links node).map g) := by
  funext other
  simp only [links, IdMap.getElem?_modify, Function.update_apply]
  split
  · cases document.nodes[node]? <;> simp [h]
  · rfl

theorem links_insert (document : LiveDocument) (id next : NodeId) (kind : LiveNodeKind) :
    links { document with
      nextNodeId := next, nodes := document.nodes.insert id ⟨id, none, [], kind⟩ } =
      document.links.create id := by
  funext other
  simp only [links, IdMap.getElem?_insert, LinkStore.create, Function.update_apply]
  split <;> rfl

theorem links_erase (nodes : IdMap LiveNode) (document : LiveDocument) (id : NodeId) :
    links { document with nodes := nodes.erase id } =
      LinkStore.erase (links { document with nodes := nodes }) id := by
  funext other
  simp only [links, IdMap.getElem?_erase, LinkStore.erase, Function.update_apply]
  split <;> rfl

theorem isSome_modify (document : LiveDocument) (node other : NodeId) (f : LiveNode → LiveNode) :
    ((document.nodes.modify node f)[other]?).isSome = (document.nodes[other]?).isSome := by
  rw [IdMap.getElem?_modify]
  split
  · next h =>
    subst h
    rw [Option.isSome_map]
  · rfl

end LiveDocument

/-! ## What an edit ensures -/

/-- The edit ends well with `Q`, or fails with its links in order. -/
def Edit.Ensures {α : Type} (edit : Edit α) (document : LiveDocument)
    (Q : α → LiveDocument → Prop) : Prop :=
  match edit document with
  | .ok value after => Q value after
  | .error _ after => after.Linked

namespace Edit.Ensures

variable {α β : Type} {document : LiveDocument}

variable {Q : α → LiveDocument → Prop}

theorem pure {value : α} (h : Q value document) :
    Edit.Ensures (Pure.pure value) document Q := h

theorem throw {failure : Failure} (h : document.Linked) :
    Edit.Ensures (throw failure : Edit α) document Q := h

theorem fail {message : String} (h : document.Linked) :
    Edit.Ensures (Dom.fail message : Edit α) document Q := h

theorem bind {edit : Edit α} {next : α → Edit β} {Q : β → LiveDocument → Prop}
    (h : Edit.Ensures edit document fun value after => Edit.Ensures (next value) after Q) :
    Edit.Ensures (edit >>= next) document Q := by
  simp only [Edit.Ensures, Bind.bind, EStateM.bind] at h ⊢
  cases hr : edit document with
  | ok value after =>
    rw [hr] at h
    exact h
  | error failure after =>
    rw [hr] at h
    exact h

theorem mono {edit : Edit α} {P : α → LiveDocument → Prop} (h : Edit.Ensures edit document P)
    (hpq : ∀ value after, P value after → Q value after) : Edit.Ensures edit document Q := by
  simp only [Edit.Ensures] at h ⊢
  cases hr : edit document with
  | ok value after =>
    rw [hr] at h
    exact hpq value after h
  | error failure after =>
    rw [hr] at h
    exact h

theorem ite {c : Prop} [Decidable c] {first second : Edit α}
    (hfirst : c → Edit.Ensures first document Q) (hsecond : ¬c → Edit.Ensures second document Q) :
    Edit.Ensures (if c then first else second) document Q := by
  by_cases h : c
  · rw [if_pos h]
    exact hfirst h
  · rw [if_neg h]
    exact hsecond h

theorem after {edit : Edit α} (h : Edit.Ensures edit document Q)
    (hq : ∀ value after, Q value after → after.Linked) : (document.after edit).Linked := by
  simp only [Edit.Ensures] at h
  simp only [LiveDocument.after]
  cases hr : edit document with
  | ok value after =>
    rw [hr] at h
    exact hq value after h
  | error failure after =>
    rw [hr] at h
    exact h

end Edit.Ensures

/-! ## Reading -/

section Specs

variable {α : Type} {document : LiveDocument}

variable {Q : LiveNode → LiveDocument → Prop}

theorem requireNode_ok {node : NodeId} {entry : LiveNode}
    (found : document.nodes[node]? = some entry) :
    requireNode node document = .ok entry document := by
  rw [requireNode, bind_get, found]
  rfl

theorem requireNode_missing {node : NodeId} (missing : document.nodes[node]? = none) :
    requireNode node document =
      .error (.error "NotFoundError: node does not belong to this document") document := by
  rw [requireNode, bind_get, missing]
  rfl

theorem indexNode_ok {node : NodeId} {entry : LiveNode}
    (found : document.nodes[node]? = some entry) : indexNode node document = .ok entry document := by
  rw [indexNode, bind_get, found]
  rfl

theorem requireNode_ensures {node : NodeId} (linked : document.Linked)
    (h : ∀ entry, document.nodes[node]? = some entry → Q entry document) :
    (requireNode node).Ensures document Q := by
  refine Edit.Ensures.bind (?_ : Edit.Ensures _ document Q)
  cases found : document.nodes[node]? with
  | some entry => exact h entry found
  | none => exact .fail linked

theorem requireElement_ensures {node : NodeId} (linked : document.Linked)
    (h : ∀ entry, document.nodes[node]? = some entry → Q entry document) :
    (requireElement node).Ensures document Q := by
  refine Edit.Ensures.bind (requireNode_ensures linked fun entry hentry => ?_)
  split
  · exact h entry hentry
  · exact .fail linked

theorem requireElementMut_ensures {node : NodeId} (linked : document.Linked)
    (h : ∀ entry, document.nodes[node]? = some entry → Q entry document) :
    (requireElementMut node).Ensures document Q := by
  refine Edit.Ensures.bind (requireNode_ensures linked fun entry hentry => ?_)
  split
  · exact h entry hentry
  · exact .fail linked

theorem indexNode_ensures {node : NodeId} (linked : document.Linked)
    (h : ∀ entry, document.nodes[node]? = some entry → Q entry document) :
    (indexNode node).Ensures document Q := by
  refine Edit.Ensures.bind (?_ : Edit.Ensures _ document Q)
  cases found : document.nodes[node]? with
  | some entry => exact h entry found
  | none => exact .throw linked

theorem depthBudgetOk_ensures {node : NodeId} {Q : Unit → LiveDocument → Prop}
    (linked : document.Linked)
    (h : document.depthWalk (maxLiveDepth - 1) (document.parentOf node) = true → Q () document) :
    (depthBudgetOk node).Ensures document Q := by
  refine Edit.Ensures.bind ?_
  show Edit.Ensures (if document.depthWalk (maxLiveDepth - 1) (document.parentOf node) then _
    else _) document Q
  split
  · next hwalk => exact h hwalk
  · exact .fail linked

/-! ## One node -/

theorem updateNode_ensures {node : NodeId} {message : String}
    {Q : Unit → LiveDocument → Prop} (hnode : (document.nodes[node]?).isSome)
    (h : Q () { document with nodes := document.nodes.modify node f }) :
    (updateNode node message f).Ensures document Q := by
  refine Edit.Ensures.bind ?_
  show Edit.Ensures (if document.nodes.contains node then _ else _) document Q
  rw [if_pos ((IdMap.contains_iff _ _).mpr hnode)]
  exact h

theorem updateNode_linked {node : NodeId} {message : String}
    (linked : document.Linked) (hf : ∀ entry, (f entry).links = entry.links) :
    (updateNode node message f).Ensures document fun _ after => after.Linked := by
  refine Edit.Ensures.bind ?_
  show Edit.Ensures (if document.nodes.contains node then _ else _) document _
  split
  · show LiveDocument.Linked _
    have hlinks := document.links_modify node f id hf
    rw [Option.map_id, id, Function.update_eq_self] at hlinks
    refine ⟨hlinks ▸ linked.forest, fun other hother => linked.below other ?_⟩
    rwa [LiveDocument.isSome_modify] at hother
  · exact .fail linked

/-! ## A new node -/

theorem LiveDocument.chooseId_free
    (hbelow : ∀ node : NodeId, (document.nodes[node]?).isSome → node < document.nextNodeId)
    (preferred : Option NodeId) :
    document.nodes[document.chooseId preferred]? = none := by
  rw [LiveDocument.chooseId]
  cases h : preferred.filter _ with
  | none =>
    rw [Option.getD_none, ← Option.not_isSome_iff_eq_none]
    exact fun hsome => Nat.lt_irrefl _ (hbelow _ hsome)
  | some id =>
    obtain ⟨-, hid⟩ := Option.filter_eq_some_iff.mp h
    simp only [Bool.and_eq_true, Bool.not_eq_true'] at hid
    rw [Option.getD_some, ← Option.not_isSome_iff_eq_none, ← IdMap.contains_iff, hid.1.2]
    exact Bool.false_ne_true

/-- `id` is new in `after`, without links; nothing else has changed. -/
structure Allocated (document : LiveDocument) (id : NodeId) (after : LiveDocument) : Prop where
  linked : after.Linked
  fresh : document.nodes[id]? = none
  links : after.links = document.links.create id

theorem allocatePreferred_ensures {kind : LiveNodeKind} {preferred : Option NodeId}
    (linked : document.Linked) :
    (allocatePreferred kind preferred).Ensures document (Allocated document) := by
  refine Edit.Ensures.bind ?_
  show Edit.Ensures (if document.nodes.size ≥ maxLiveNodes then _ else _) document _
  split
  · exact .fail linked
  · dsimp only
    split
    · exact .fail linked
    · have hfree := LiveDocument.chooseId_free linked.below preferred
      refine ⟨⟨?_, fun node hnode => ?_⟩, hfree, document.links_insert _ _ kind⟩
      · rw [document.links_insert]
        refine linked.forest.create ?_
        rw [LiveDocument.links, hfree]
        rfl
      · simp only [IdMap.getElem?_insert] at hnode
        split at hnode
        · next heq =>
          subst heq
          exact Nat.lt_succ_of_le (Nat.le_max_right _ _)
        · have hbelow := linked.below node hnode
          exact Nat.lt_succ_of_lt (Nat.lt_of_lt_of_le hbelow (Nat.le_max_left _ _))

theorem Allocated.isSome {id : NodeId} {after : LiveDocument}
    (allocated : Allocated document id after) (node : NodeId) :
    (after.nodes[node]?).isSome ↔ node = id ∨ (document.nodes[node]?).isSome := by
  rw [← after.isSome_links, ← document.isSome_links, allocated.links, LinkStore.create,
    Function.update_apply]
  split <;> simp_all

/-! ## A new link -/

/-- `c` gets the parent `p`. -/
structure Appended (document : LiveDocument) (p c : NodeId) (after : LiveDocument) : Prop where
  linked : after.Linked
  links : after.links = document.links.link p c

theorem pushAndSet_ensures {p c : NodeId} (linked : document.Linked)
    (hp : (document.nodes[p]?).isSome) {links : Links NodeId} (hc : document.links c = some links)
    (hroot : links.parent = none) (hcycle : ¬ Relation.ReflTransGen document.links.IsParent p c) :
    Edit.Ensures (do
      updateNode p parentGone (LiveNode.pushChild c)
      updateNode c childGone (LiveNode.setParent (some p)))
      document fun _ after => Appended document p c after := by
  have hsome : (document.nodes[c]?).isSome := by
    rw [← document.isSome_links, hc]
    rfl
  refine Edit.Ensures.bind (updateNode_ensures hp ?_)
  refine updateNode_ensures (by rwa [LiveDocument.isSome_modify]) ?_
  have hlinks := LiveDocument.links_modify
    { document with nodes := document.nodes.modify p (LiveNode.pushChild c) } c
    (LiveNode.setParent (some p)) (fun links => { links with parent := some p }) fun _ => rfl
  rw [document.links_modify p (LiveNode.pushChild c)
    (fun links => { links with children := links.children ++ [c] }) fun _ => rfl] at hlinks
  have hlink : LiveDocument.links _ = document.links.link p c := hlinks
  refine ⟨⟨?_, fun node hnode => linked.below node ?_⟩, hlink⟩
  · rw [hlink]
    exact linked.forest.link (by rwa [document.isSome_links]) hc hroot hcycle
  · rwa [LiveDocument.isSome_modify, LiveDocument.isSome_modify] at hnode

theorem appendChildWithoutInvalidation_ensures {p c : NodeId} (linked : document.Linked)
    {links : Links NodeId} (hc : document.links c = some links) (hroot : links.parent = none)
    (hcycle : ¬ Relation.ReflTransGen document.links.IsParent p c) :
    (appendChildWithoutInvalidation p c).Ensures document
      fun _ after => (document.nodes[p]?).isSome ∧ Appended document p c after := by
  refine .bind (requireElement_ensures linked fun entry hp => ?_)
  have hp : (document.nodes[p]?).isSome := by rw [hp]; rfl
  refine .bind (requireNode_ensures linked fun _ _ => ?_)
  refine .bind (depthBudgetOk_ensures linked fun _ => ?_)
  exact (pushAndSet_ensures linked hp hc hroot hcycle).mono fun _ _ appended => ⟨hp, appended⟩

/-! ## Import -/

/-- Every node of `document` is still there with the parent it had. -/
structure Extends (document after : LiveDocument) : Prop where
  linked : after.Linked
  isSome : ∀ node : NodeId, (document.nodes[node]?).isSome → (after.nodes[node]?).isSome
  parentOf : ∀ node : NodeId, (document.nodes[node]?).isSome → after.parentOf node = document.parentOf node

theorem Extends.refl (linked : document.Linked) : Extends document document :=
  ⟨linked, fun _ h => h, fun _ _ => rfl⟩

theorem Extends.trans {middle after : LiveDocument} (first : Extends document middle)
    (second : Extends middle after) : Extends document after where
  linked := second.linked
  isSome node h := second.isSome node (first.isSome node h)
  parentOf node h := (second.parentOf node (first.isSome node h)).trans (first.parentOf node h)

theorem Extends.old_of_reaches {after : LiveDocument} (linked : document.Linked)
    (extend : Extends document after) {x y : NodeId} (hx : (document.nodes[x]?).isSome)
    (reaches : Relation.ReflTransGen after.links.IsParent x y) : (document.nodes[y]?).isSome := by
  induction reaches with
  | refl => exact hx
  | @tail y z _ hparent ih =>
    rw [LiveDocument.isParent_iff, extend.parentOf y ih, ← LiveDocument.isParent_iff] at hparent
    rw [← document.isSome_links]
    exact linked.forest.parent_exists hparent

theorem Allocated.extends {id : NodeId} {after : LiveDocument}
    (allocated : Allocated document id after) : Extends document after := by
  refine ⟨allocated.linked, fun node h => (allocated.isSome node).mpr (.inr h), fun node h => ?_⟩
  have hne : node ≠ id := by
    rintro rfl
    rw [allocated.fresh] at h
    cases h
  have hlinks : after.links node = document.links node := by
    rw [allocated.links, LinkStore.create, Function.update_of_ne hne]
  simp only [LiveDocument.links] at hlinks
  simp only [LiveDocument.parentOf]
  cases ha : after.nodes[node]? <;> cases hd : document.nodes[node]? <;> simp_all [LiveNode.links]

theorem Appended.isSome {middle after : LiveDocument} {p c : NodeId}
    (appended : Appended middle p c after) {node : NodeId} (h : (middle.nodes[node]?).isSome) :
    (after.nodes[node]?).isSome := by
  rwa [← after.isSome_links, appended.links, LinkStore.isSome_link, middle.isSome_links]

theorem Appended.extends {middle after : LiveDocument} {p c : NodeId}
    (extend : Extends document middle) (hc : document.nodes[c]? = none)
    (hsome : (middle.nodes[c]?).isSome) (hne : c ≠ p) (appended : Appended middle p c after) :
    Extends document after := by
  have hparent (node : NodeId) (hnode : node ≠ c) : after.parentOf node = middle.parentOf node := by
    refine Option.ext fun q => ?_
    rw [← LiveDocument.isParent_iff, ← LiveDocument.isParent_iff, appended.links,
      LinkStore.isParent_link (by rwa [middle.isSome_links]) hne, if_neg hnode]
  have hold {node : NodeId} (h : (document.nodes[node]?).isSome) : node ≠ c := by
    rintro rfl
    rw [hc] at h
    cases h
  refine ⟨appended.linked, fun node h => ?_, fun node h => ?_⟩
  · exact appended.isSome (extend.isSome node h)
  · rw [hparent node (hold h), extend.parentOf node h]

/-- `id` is the root of a new tree in `after`. -/
structure Imported (document : LiveDocument) (id : NodeId) (after : LiveDocument) : Prop where
  extend : Extends document after
  fresh : document.nodes[id]? = none
  isSome : (after.nodes[id]?).isSome

/-- A new text node or a new root, without links, is appended to `p`. -/
theorem appendFresh_ensures {p c : NodeId} {middle : LiveDocument}
    (linked : document.Linked) (extend : Extends document middle)
    (hp : (document.nodes[p]?).isSome) (hc : document.nodes[c]? = none)
    (hsome : (middle.nodes[c]?).isSome) (hroot : middle.parentOf c = none) :
    (appendChildWithoutInvalidation p c).Ensures middle fun _ after =>
      Extends document after ∧ (after.nodes[c]?).isSome := by
  obtain ⟨entry, hentry⟩ := Option.isSome_iff_exists.mp hsome
  rw [LiveDocument.parentOf, hentry] at hroot
  have hnot : ¬ Relation.ReflTransGen middle.links.IsParent p c := by
    intro reaches
    have hold := extend.old_of_reaches linked hp reaches
    rw [hc] at hold
    cases hold
  have hne : c ≠ p := by
    rintro rfl
    exact hnot .refl
  exact (appendChildWithoutInvalidation_ensures extend.linked (LiveDocument.links_eq hentry) hroot
    hnot).mono fun _ _ appended =>
      ⟨Appended.extends extend hc hsome hne appended.2, appended.2.isSome hsome⟩

theorem Allocated.parentOf {id : NodeId} {after : LiveDocument}
    (allocated : Allocated document id after) : after.parentOf id = none := by
  refine Option.eq_none_iff_forall_not_mem.mpr fun q hq => ?_
  obtain ⟨links, hlinks, hq⟩ := (LiveDocument.isParent_iff after id q).mpr hq
  rw [allocated.links, LinkStore.create, Function.update_self] at hlinks
  obtain rfl := Option.some.inj hlinks
  cases hq

/-- A new text node at the end of `p`. -/
theorem appendText_ensures {p : NodeId} {text : String} (linked : document.Linked)
    (hp : (document.nodes[p]?).isSome) :
    Edit.Ensures (do
      let child ← allocate (.text text)
      appendChildWithoutInvalidation p child) document fun _ after => Extends document after :=
  .bind ((allocatePreferred_ensures linked).mono fun child _ allocated =>
    (appendFresh_ensures linked allocated.extends hp allocated.fresh
      ((allocated.isSome child).mpr (.inl rfl)) allocated.parentOf).mono fun _ _ h => h.1)

mutual

theorem importElement_ensures (element : Element) (parent : Option NodeId) (document : LiveDocument)
    (linked : document.Linked) (hparent : ∀ p ∈ parent, (document.nodes[p]?).isSome) :
    (importElement element parent).Ensures document fun id after =>
      Imported document id after ∧ (parent = none → after.parentOf id = none) := by
  obtain ⟨nodeId, tag, attrs, children, text, isVoid⟩ := element
  rw [importElement]
  refine .bind ((allocatePreferred_ensures linked).mono fun id middle allocated => ?_)
  have hid : (middle.nodes[id]?).isSome := (allocated.isSome id).mpr (.inl rfl)
  -- What follows the link to the parent leaves the link of `id` alone.
  have hrest (start : LiveDocument) (extend : Extends document start)
      (hsome : (start.nodes[id]?).isSome) (hroot : parent = none → start.parentOf id = none) :
      Edit.Ensures (do
        if !text.isEmpty then
          let child ← allocate (.text (boundedText text))
          appendChildWithoutInvalidation id child
        importChildren id children
        return id) start fun id after =>
          Imported document id after ∧ (parent = none → after.parentOf id = none) := by
    have hchildren (first : LiveDocument) (grown : Extends start first) :
        Edit.Ensures (do importChildren id children; return id) first fun id after =>
          Imported document id after ∧ (parent = none → after.parentOf id = none) := by
      refine .bind ((importChildren_ensures children id first grown.linked
        (grown.isSome id hsome)).mono fun _ after last => .pure ?_)
      have whole : Extends start after := grown.trans last
      refine ⟨⟨extend.trans whole, allocated.fresh, whole.isSome id hsome⟩, fun h => ?_⟩
      rw [whole.parentOf id hsome, hroot h]
    split
    · refine .bind ((allocatePreferred_ensures extend.linked).mono fun child _ text => ?_)
      exact .bind ((appendFresh_ensures extend.linked text.extends hsome text.fresh
        ((text.isSome child).mpr (.inl rfl)) text.parentOf).mono fun _ first grown =>
          hchildren first grown.1)
    · exact hchildren start (.refl extend.linked)
  cases parent with
  | none => exact hrest middle allocated.extends hid fun _ => allocated.parentOf
  | some p =>
    have hp : (document.nodes[p]?).isSome := hparent p rfl
    refine .bind ((appendFresh_ensures linked allocated.extends hp allocated.fresh hid
      allocated.parentOf).mono fun _ start appended => ?_)
    exact hrest start appended.1 appended.2 nofun

theorem importChildren_ensures (children : List Element) (parent : NodeId) (document : LiveDocument)
    (linked : document.Linked) (hparent : (document.nodes[parent]?).isSome) :
    (importChildren parent children).Ensures document fun _ after => Extends document after := by
  cases children with
  | nil =>
    rw [importChildren]
    exact .pure (.refl linked)
  | cons child children =>
    rw [importChildren]
    refine .bind ((importElement_ensures child (some parent) document linked
      (by rintro p ⟨⟩; exact hparent)).mono fun _ middle imported => ?_)
    have extend : Extends document middle := imported.1.extend
    exact (importChildren_ensures children parent middle extend.linked
      (extend.isSome parent hparent)).mono fun _ _ last => extend.trans last

end

theorem importSubtree_ensures (element : Element) (linked : document.Linked) :
    (importSubtree element).Ensures document fun id after =>
      Imported document id after ∧ after.parentOf id = none :=
  (importElement_ensures (clearNodeIds element) none document linked nofun).mono
    fun _ _ h => ⟨h.1, h.2 rfl⟩

theorem appendSubtrees_ensures (parent : NodeId) (children : List Element)
    (linked : document.Linked) (hparent : (document.nodes[parent]?).isSome) :
    (appendSubtrees parent children).Ensures document fun _ after => Extends document after := by
  induction children generalizing document with
  | nil => exact .pure (.refl linked)
  | cons child children ih =>
    refine .bind ((importSubtree_ensures child linked).mono fun node _ imported => ?_)
    refine .bind ((appendFresh_ensures linked imported.1.extend hparent imported.1.fresh
      imported.1.isSome imported.2).mono fun _ middle appended => ?_)
    have extend : Extends document middle := appended.1
    exact (ih extend.linked (extend.isSome parent hparent)).mono fun _ _ last => extend.trans last

theorem appendParsedFragment_ensures (parsed : Element) (parent : NodeId)
    (linked : document.Linked) (hparent : (document.nodes[parent]?).isSome) :
    (appendParsedFragment parsed parent).Ensures document fun _ after => after.Linked := by
  obtain ⟨nodeId, tag, attrs, children, text, isVoid⟩ := parsed
  have htext (middle : LiveDocument) (extend : Extends document middle) :
      Edit.Ensures (if text.isEmpty then return () else do
        let child ← createTextNode text
        appendChildWithoutInvalidation parent child) middle fun _ after => after.Linked := by
    split
    · exact .pure extend.linked
    · exact (appendText_ensures extend.linked (extend.isSome parent hparent)).mono
        fun _ _ last => last.linked
  simp only [appendParsedFragment]
  split
  · exact .bind ((appendSubtrees_ensures parent children linked hparent).mono
      fun _ middle extend => htext middle extend)
  · exact .bind ((appendSubtrees_ensures parent _ linked hparent).mono
      fun _ middle extend => htext middle extend)

/-! ## Freeing -/

theorem freeSubtrees_pruning {origin : LinkStore NodeId} (forest : origin.IsForest) (n : NodeId)
    (work : List NodeId) (nodes : IdMap LiveNode)
    (pruning : LinkStore.Pruning origin n work (LiveDocument.links { document with nodes := nodes })) :
    LinkStore.Pruning origin n []
      (LiveDocument.links { document with nodes := freeSubtrees work nodes }) := by
  fun_induction freeSubtrees work nodes with
  | case1 nodes => exact pruning
  | case2 nodes root rest hroot ih =>
    refine ih (pruning.skip ?_)
    simp only [LiveDocument.links, hroot, Option.map_none]
  | case3 nodes root rest entry hroot ih =>
    refine ih ?_
    rw [LiveDocument.links_erase]
    have hlinks : LiveDocument.links { document with nodes := nodes } root = some entry.links := by
      simp only [LiveDocument.links, hroot, Option.map_some]
    exact pruning.remove forest hlinks

theorem clearChildren_ensures {node : NodeId} {gone : String} (linked : document.Linked) :
    (clearChildren node gone).Ensures document fun _ after =>
      after.Linked ∧ (after.nodes[node]?).isSome := by
  refine .bind (indexNode_ensures linked fun entry hentry => ?_)
  have hnode := LiveDocument.links_eq hentry
  have pruning := @freeSubtrees_pruning document document.links linked.forest node entry.children
    document.nodes (.start linked.forest hnode)
  refine .bind ?_
  show Edit.Ensures _ { document with nodes := freeSubtrees entry.children document.nodes } _
  generalize freeSubtrees entry.children document.nodes = nodes at pruning ⊢
  have hsome : (nodes[node]?).isSome := by
    have hkept := pruning.kept
    rw [hnode] at hkept
    rw [← LiveDocument.isSome_links { document with nodes := nodes }, hkept]
    rfl
  refine updateNode_ensures hsome ⟨⟨?_, fun other hother => ?_⟩, ?_⟩
  · rw [LiveDocument.links_modify { document with nodes := nodes } node _
      (fun links => { links with children := [] }) fun _ => rfl]
    exact pruning.finish linked.forest
  · rw [LiveDocument.isSome_modify { document with nodes := nodes },
      ← LiveDocument.isSome_links] at hother
    obtain ⟨links, hlinks⟩ := Option.isSome_iff_exists.mp hother
    refine linked.below other ?_
    rw [← document.isSome_links, pruning.origin_of other links hlinks]
    rfl
  · rwa [LiveDocument.isSome_modify { document with nodes := nodes }]

/-! ## Moving -/

theorem unlink_ensures {p c : NodeId} (linked : document.Linked)
    (hparent : document.links.IsParent c p)
    (hf : ∀ entry, document.nodes[p]? = some entry →
      (f entry).links = ⟨entry.parent, entry.children.filter (· ≠ c)⟩) :
    Edit.Ensures (do
      updateNode p parentGone f
      updateNode c childGone (LiveNode.setParent none))
      document fun _ after => after.Linked ∧ after.links = document.links.unlink p c := by
  have hp : (document.nodes[p]?).isSome := by
    rw [← document.isSome_links]
    exact linked.forest.parent_exists hparent
  have hc : (document.nodes[c]?).isSome := by
    obtain ⟨_, hc, -⟩ := hparent
    rw [← document.isSome_links, hc]
    rfl
  refine .bind (updateNode_ensures hp ?_)
  refine updateNode_ensures (by rwa [LiveDocument.isSome_modify]) ?_
  have hfirst : LiveDocument.links { document with nodes := document.nodes.modify p f } =
      Function.update document.links p ((document.links p).map fun links =>
        { links with children := links.children.filter (· ≠ c) }) := by
    funext other
    simp only [LiveDocument.links, IdMap.getElem?_modify, Function.update_apply]
    split
    · cases he : document.nodes[p]? with
      | none => rfl
      | some entry =>
        show some (f entry).links = _
        rw [hf entry he]
        rfl
    · rfl
  have hlinks := LiveDocument.links_modify
    { document with nodes := document.nodes.modify p f } c
    (LiveNode.setParent none) (fun links => { links with parent := none }) fun _ => rfl
  rw [hfirst] at hlinks
  have hunlink : LiveDocument.links _ = document.links.unlink p c := hlinks
  refine ⟨⟨?_, fun node hnode => linked.below node ?_⟩, hunlink⟩
  · rw [hunlink]
    exact linked.forest.unlink hparent
  · rwa [LiveDocument.isSome_modify, LiveDocument.isSome_modify] at hnode

/-- After `detach` the node has no parent; the parents of the others are as before. -/
structure Detached (document : LiveDocument) (c : NodeId) (after : LiveDocument) : Prop where
  linked : after.Linked
  isSome : ∀ node : NodeId, (document.nodes[node]?).isSome → (after.nodes[node]?).isSome
  root : after.parentOf c = none
  isParent : ∀ x y, after.links.IsParent x y → document.links.IsParent x y

theorem detach_ensures {c : NodeId} (linked : document.Linked) :
    (detach c).Ensures document fun _ after => Detached document c after := by
  refine .bind (requireNode_ensures linked fun entry hentry => ?_)
  split
  · next hnone =>
    refine .pure ⟨linked, fun _ h => h, ?_, fun _ _ h => h⟩
    rw [LiveDocument.parentOf, hentry, Option.bind_some, hnone]
  · next p hsome =>
    have hparent : document.links.IsParent c p := by
      rw [LiveDocument.isParent_iff, LiveDocument.parentOf, hentry, Option.bind_some, hsome]
    have hne : c ≠ p := linked.forest.ne_of_isParent hparent
    refine (unlink_ensures linked hparent fun _ _ => rfl).mono fun _ after h => ?_
    refine ⟨h.1, fun node hnode => ?_, ?_, fun x y hxy => ?_⟩
    · rwa [← after.isSome_links, h.2, LinkStore.isSome_unlink, document.isSome_links]
    · refine Option.eq_none_iff_forall_not_mem.mpr fun q hq => ?_
      have hq := (LiveDocument.isParent_iff after c q).mpr hq
      rw [h.2, LinkStore.isParent_unlink hne] at hq
      exact hq.1 rfl
    · rw [h.2, LinkStore.isParent_unlink hne] at hxy
      exact hxy.2

theorem appendChild_linked {parent child : NodeId} (linked : document.Linked) :
    (appendChild parent child).Ensures document fun _ after => after.Linked := by
  refine .bind (requireElement_ensures linked fun _ hparent => ?_)
  refine .bind (requireNode_ensures linked fun _ hchild => ?_)
  refine .bind (depthBudgetOk_ensures linked fun hdepth => ?_)
  refine .bind ?_
  show Edit.Ensures (if parent = child || document.isAncestor child parent then _ else _) document _
  split
  · exact .fail linked
  · next hcheck =>
    simp only [Bool.or_eq_true, not_or, Bool.not_eq_true] at hcheck
    have hcycle := LiveDocument.not_reaches_of_checks hdepth hcheck.2
    refine .bind (detach_ensures linked |>.mono fun _ middle detached => ?_)
    obtain ⟨entry, hentry⟩ := Option.isSome_iff_exists.mp
      (detached.isSome child (by rw [hchild]; rfl))
    have hroot := detached.root
    rw [LiveDocument.parentOf, hentry] at hroot
    refine (pushAndSet_ensures detached.linked (detached.isSome parent (by rw [hparent]; rfl))
      (LiveDocument.links_eq hentry) hroot fun reaches => hcycle ?_).mono
        fun _ _ appended => appended.linked
    exact Relation.ReflTransGen.mono detached.isParent _ _ reaches

theorem removeChild_linked {parent child : NodeId} (linked : document.Linked) :
    (removeChild parent child).Ensures document fun _ after => after.Linked := by
  refine .bind (requireNode_ensures linked fun entry hentry => ?_)
  split
  · exact .fail linked
  · next hmem =>
    rw [Bool.not_eq_true', Bool.not_eq_false, List.contains_iff_mem] at hmem
    have hparent : document.links.IsParent child parent :=
      (linked.forest.agree parent child).mp ⟨_, LiveDocument.links_eq hentry, hmem⟩
    refine (unlink_ensures linked hparent fun other hother => ?_).mono fun _ _ h => h.1
    rw [hentry] at hother
    obtain rfl := Option.some.inj hother
    have hnodup : entry.children.Nodup :=
      linked.forest.nodup parent _ (LiveDocument.links_eq hentry)
    show Links.mk entry.parent (entry.children.erase child) = _
    rw [hnodup.erase_eq_filter child]
    exact congrArg _ (List.filter_congr fun x _ => by simp [bne, beq_eq_decide])

/-! ## The other operations -/

theorem setTextContent_linked (node : NodeId) (value : String) (linked : document.Linked) :
    (setTextContent node value).Ensures document fun _ after => after.Linked := by
  refine .bind (requireNode_ensures linked fun entry _ => ?_)
  dsimp only
  split
  · exact updateNode_linked linked fun _ => rfl
  · refine .bind ((clearChildren_ensures linked).mono fun _ middle cleared => ?_)
    split
    · exact .pure cleared.1
    · exact (appendText_ensures cleared.1 cleared.2).mono fun _ _ extend => extend.linked

theorem normalizeAttributeName_ensures {name : String} {Q : String → LiveDocument → Prop}
    (linked : document.Linked) (h : ∀ name, Q name document) :
    (normalizeAttributeName name).Ensures document Q :=
  .ite (fun _ => .pure (h _)) fun _ => .fail linked

theorem setAttribute_linked (node : NodeId) (name value : String) (linked : document.Linked) :
    (setAttribute node name value).Ensures document fun _ after => after.Linked := by
  refine .bind (normalizeAttributeName_ensures linked fun name => ?_)
  refine .bind (requireElementMut_ensures linked fun _ _ => ?_)
  refine updateNode_linked linked fun entry => ?_
  split <;> rfl

theorem removeAttribute_linked (node : NodeId) (name : String) (linked : document.Linked) :
    (removeAttribute node name).Ensures document fun _ after => after.Linked := by
  refine .bind (normalizeAttributeName_ensures linked fun name => ?_)
  refine .bind (requireElementMut_ensures linked fun _ _ => ?_)
  refine updateNode_linked linked fun entry => ?_
  split <;> rfl

theorem createElement_linked (tag : String) (linked : document.Linked) :
    (createElement tag).Ensures document fun _ after => after.Linked := by
  have hallocate (tag : String) : (allocate (.element tag ∅ false)).Ensures document
      fun _ after => after.Linked :=
    (allocatePreferred_ensures linked).mono fun _ _ allocated => allocated.linked
  exact .bind (.ite (fun _ => .pure (hallocate _)) fun _ => .fail linked)

theorem attachShadow_linked (host : NodeId) (mode : ShadowMode) (linked : document.Linked) :
    (attachShadow host mode).Ensures document fun _ after => after.Linked := by
  refine .bind ?_
  show Edit.Ensures (if document.shadows.size ≥ maxShadowRoots then _ else _) document _
  split
  · exact .fail linked
  · refine .bind (requireElement_ensures linked fun entry hhost => ?_)
    have hhost : (document.nodes[host]?).isSome := by rw [hhost]; rfl
    refine .ite (fun _ => .fail linked) fun _ => .ite (fun _ => .fail linked) fun _ => ?_
    refine .bind ((allocatePreferred_ensures linked).mono fun root _ allocated => ?_)
    refine .bind ((appendFresh_ensures linked allocated.extends hhost allocated.fresh
      ((allocated.isSome root).mpr (.inl rfl)) allocated.parentOf).mono fun _ _ appended => ?_)
    exact ⟨appended.1.linked.forest, appended.1.linked.below⟩

section Html

variable [HtmlParser]

theorem setInnerHtml_linked (node : NodeId) (html : String) (linked : document.Linked) :
    (setInnerHtml node html).Ensures document fun _ after => after.Linked := by
  simp only [setInnerHtml]
  split
  · exact .fail linked
  · refine .bind (requireNode_ensures linked fun _ _ => ?_)
    exact .bind ((clearChildren_ensures linked).mono fun _ _ cleared =>
      appendParsedFragment_ensures _ node cleared.1 cleared.2)

theorem setShadowHtml_linked (root : NodeId) (html : String) (linked : document.Linked) :
    (setShadowHtml root html).Ensures document fun _ after => after.Linked := by
  simp only [setShadowHtml]
  split
  · exact .fail linked
  · refine .bind ?_
    show Edit.Ensures (if !document.shadows.toList.any _ then _ else _) document _
    split
    · exact .fail linked
    · exact .bind ((clearChildren_ensures linked).mono fun _ _ cleared =>
        appendParsedFragment_ensures _ root cleared.1 cleared.2)

end Html

end Specs

mutual

theorem cloneNode_linked (room : Nat) (node : NodeId) (deep : Bool) (document : LiveDocument)
    (linked : document.Linked) :
    (cloneNode room node deep).Ensures document fun _ after => after.Linked := by
  rw [cloneNode]
  refine .bind (requireNode_ensures linked fun entry _ => ?_)
  refine .bind ((allocatePreferred_ensures linked).mono fun clone middle allocated => ?_)
  cases room with
  | zero => exact .fail allocated.linked
  | succ room =>
    dsimp only
    split
    · exact .bind ((cloneChildren_linked room clone entry.children middle allocated.linked).mono
        fun _ _ last => .pure last)
    · exact .pure allocated.linked
termination_by (room, 0)

theorem cloneChildren_linked (room : Nat) (clone : NodeId) (children : List NodeId)
    (document : LiveDocument) (linked : document.Linked) :
    (cloneChildren room clone children).Ensures document fun _ after => after.Linked := by
  rw [cloneChildren.eq_def]
  cases children with
  | nil => exact .pure linked
  | cons child children =>
    refine .bind ((cloneNode_linked room child true document linked).mono fun _ middle first => ?_)
    refine .bind ((appendChild_linked first).mono fun _ second appended => ?_)
    exact cloneChildren_linked room clone children second appended
termination_by (room, children.length + 1)

end

/-! ## Runs -/

variable {document : LiveDocument}

theorem discard_linked {α : Type} {edit : Edit α}
    (h : edit.Ensures document fun _ after => after.Linked) :
    (discard edit).Ensures document fun _ after => after.Linked :=
  .bind (h.mono fun _ _ linked => .pure linked)

variable [HtmlParser]

/-- The step: every operation keeps the store a forest, also when it fails. -/
theorem Operation.edit_linked (operation : Operation)
    (linked : document.Linked) : operation.edit.Ensures document fun _ after => after.Linked := by
  cases operation with
  | createElement tag => exact discard_linked (createElement_linked tag linked)
  | createTextNode text =>
    exact discard_linked ((allocatePreferred_ensures linked).mono fun _ _ allocated =>
      allocated.linked)
  | importSubtree element =>
    exact discard_linked ((importSubtree_ensures element linked).mono fun _ _ imported =>
      imported.1.extend.linked)
  | cloneNode node deep => exact discard_linked (cloneNode_linked _ node deep document linked)
  | appendChild parent child => exact appendChild_linked linked
  | removeChild parent child => exact removeChild_linked linked
  | setTextContent node value => exact setTextContent_linked node value linked
  | setAttribute node name value => exact setAttribute_linked node name value linked
  | removeAttribute node name => exact removeAttribute_linked node name linked
  | attachShadow host mode => exact discard_linked (attachShadow_linked host mode linked)
  | setShadowHtml root html => exact setShadowHtml_linked root html linked
  | setInnerHtml node html => exact setInnerHtml_linked node html linked

namespace LiveDocument

omit [HtmlParser] in
theorem empty_linked : empty.Linked where
  forest := by
    have hnone : empty.links = fun _ => none := by
      funext node
      simp [links, empty]
    rw [hnone]
    exact LinkStore.IsForest.empty
  below node h := by simp [empty] at h

omit [HtmlParser] in
theorem fromElement_linked (root : Element) : (fromElement root).Linked := by
  have h := importElement_ensures root none empty empty_linked nofun
  simp only [Edit.Ensures] at h
  simp only [fromElement]
  split
  · next id document heq =>
    rw [heq] at h
    exact ⟨h.1.extend.linked.forest, h.1.extend.linked.below⟩
  · next failure document heq =>
    rw [heq] at h
    exact h

theorem run_linked (root : Element) (operations : List Operation) :
    (run root operations).Linked := by
  simp only [run]
  generalize hstart : fromElement root = start
  have linked : start.Linked := hstart ▸ fromElement_linked root
  clear hstart
  induction operations generalizing start with
  | nil => exact linked
  | cons operation operations ih =>
    exact ih _ ((operation.edit_linked linked).after fun _ _ h => h)

/-- The parent links followed from `node`. -/
def ancestor (document : LiveDocument) (node : NodeId) : Nat → Option NodeId
  | 0 => some node
  | count + 1 => (document.ancestor node count).bind document.parentOf

omit [HtmlParser] in
theorem below_of_ancestor {node other : NodeId} (count : Nat)
    (h : document.ancestor node (count + 1) = some other) : document.links.Below node other := by
  induction count generalizing other with
  | zero =>
    rw [ancestor, ancestor, Option.bind_some, ← isParent_iff] at h
    exact .single h
  | succ count ih =>
    rw [ancestor] at h
    obtain ⟨middle, hmiddle, hparent⟩ := Option.bind_eq_some_iff.mp h
    exact (ih hmiddle).tail ((isParent_iff document middle other).mpr hparent)

/-- The node store as one can read it. -/
structure IsForest (document : LiveDocument) : Prop where
  children_iff : ∀ node child : NodeId,
    (∃ entry, document.nodes[node]? = some entry ∧ child ∈ entry.children) ↔
      ∃ entry, document.nodes[child]? = some entry ∧ entry.parent = some node
  nodup : ∀ (node : NodeId) (entry : LiveNode), document.nodes[node]? = some entry →
    entry.children.Nodup
  child_exists : ∀ (node : NodeId) (entry : LiveNode), document.nodes[node]? = some entry →
    ∀ child ∈ entry.children, document.nodes.contains child
  parent_exists : ∀ (node parent : NodeId) (entry : LiveNode), document.nodes[node]? = some entry →
    entry.parent = some parent → document.nodes.contains parent
  acyclic : ∀ (node : NodeId) (count : Nat), document.ancestor node (count + 1) ≠ some node

omit [HtmlParser] in
theorem Linked.isForest (linked : document.Linked) :
    document.IsForest := by
  have hlists (node child : NodeId) : document.links.Lists node child ↔
      ∃ entry, document.nodes[node]? = some entry ∧ child ∈ entry.children := by
    simp only [LinkStore.Lists, links]
    cases document.nodes[node]? <;> simp [LiveNode.links]
  have hparent (child node : NodeId) : document.links.IsParent child node ↔
      ∃ entry, document.nodes[child]? = some entry ∧ entry.parent = some node := by
    simp only [LinkStore.IsParent, links]
    cases document.nodes[child]? <;> simp [LiveNode.links]
  refine ⟨fun node child => ?_, fun node entry h => ?_, fun node entry h child hchild => ?_,
    fun node parent entry h hentry => ?_, fun node count h => ?_⟩
  · rw [← hlists, ← hparent, linked.forest.agree]
  · exact linked.forest.nodup node _ (links_eq h)
  · rw [IdMap.contains_iff, ← isSome_links]
    exact linked.forest.child_exists ((hlists node child).mpr ⟨entry, h, hchild⟩)
  · rw [IdMap.contains_iff, ← isSome_links]
    exact linked.forest.parent_exists ((hparent node parent).mpr ⟨entry, h, hentry⟩)
  · exact linked.forest.acyclic node (below_of_ancestor count h)

/-- After any operations on any page the node store is a forest. -/
theorem run_isForest (root : Element) (operations : List Operation) :
    (run root operations).IsForest :=
  (run_linked root operations).isForest

end LiveDocument

end GhitaBrowser.Dom
