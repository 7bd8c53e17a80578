import GhitaBrowser.Dom.LiveDocument
import GhitaBrowser.Lib.Keeps
import GhitaBrowser.Live.Composed
import GhitaBrowser.Page.Defaults

/-!
# Imports and the states that edits end in

An import allocates nodes and appends them to nodes it has allocated before, or to the
node it was asked to fill. What these two steps keep, an import keeps.
-/

namespace GhitaBrowser.Dom

namespace Element

mutual

/-- Every element of a tree has an id and a tag that `P` allows. -/
def Every (P : Option NodeId → String → Prop) : Element → Prop
  | mk nodeId tag _ children _ _ => P nodeId tag ∧ EveryChild P children

def EveryChild (P : Option NodeId → String → Prop) : List Element → Prop
  | [] => True
  | child :: children => child.Every P ∧ EveryChild P children

end

mutual

variable {P : Option NodeId → String → Prop}

variable {Q : Option NodeId → String → Prop}

theorem every_clearNodeIds
    (hPQ : ∀ nodeId tag, P nodeId tag → Q none tag) (element : Element) (h : element.Every P) :
    (clearNodeIds element).Every Q := by
  obtain ⟨nodeId, tag, attrs, children, text, isVoid⟩ := element
  rw [clearNodeIds, Every]
  rw [Every] at h
  exact ⟨hPQ nodeId tag h.1, everyChild_clearAllNodeIds hPQ children h.2⟩

theorem everyChild_clearAllNodeIds
    (hPQ : ∀ nodeId tag, P nodeId tag → Q none tag) (children : List Element)
    (h : EveryChild P children) : EveryChild Q (clearAllNodeIds children) := by
  cases children with
  | nil => trivial
  | cons child children =>
    rw [clearAllNodeIds, EveryChild]
    exact ⟨every_clearNodeIds hPQ child h.1, everyChild_clearAllNodeIds hPQ children h.2⟩

end

mutual

theorem every_mono {Q : Option NodeId → String → Prop}
    (hPQ : ∀ nodeId tag, P nodeId tag → Q nodeId tag) (element : Element) (h : element.Every P) :
    element.Every Q := by
  obtain ⟨nodeId, tag, attrs, children, text, isVoid⟩ := element
  rw [Every] at h ⊢
  exact ⟨hPQ nodeId tag h.1, everyChild_mono hPQ children h.2⟩

theorem everyChild_mono {Q : Option NodeId → String → Prop}
    (hPQ : ∀ nodeId tag, P nodeId tag → Q nodeId tag) (children : List Element)
    (h : EveryChild P children) : EveryChild Q children := by
  cases children with
  | nil => trivial
  | cons child children => exact ⟨every_mono hPQ child h.1, everyChild_mono hPQ children h.2⟩

end

mutual

theorem every_of_forall (h : ∀ nodeId tag, P nodeId tag) (element : Element) : element.Every P := by
  obtain ⟨nodeId, tag, attrs, children, text, isVoid⟩ := element
  exact ⟨h nodeId tag, everyChild_of_forall h children⟩

theorem everyChild_of_forall (h : ∀ nodeId tag, P nodeId tag)
    (children : List Element) : EveryChild P children := by
  cases children with
  | nil => trivial
  | cons child children => exact ⟨every_of_forall h child, everyChild_of_forall h children⟩

end

end Element

end GhitaBrowser.Dom

namespace GhitaBrowser.Live

open Dom

/-- The steps of an import keep `P`. New nodes are in `new`, and those that get children are
in `filled`. -/
structure ImportRules (P : LiveDocument → Prop) (new filled : NodeId → Prop)
    (allowed : Option NodeId → String → Prop) : Prop where
  element : ∀ (nodeId : Option NodeId) (tag : String), allowed nodeId tag → ∀ attrs isVoid,
    Meets P (allocatePreferred (.element tag attrs isVoid) nodeId) (fun id s => P s ∧ new id) P
  text : ∀ text, Meets P (allocate (.text text)) (fun id s => P s ∧ new id) P
  append : ∀ parent child, filled parent → new child →
    Keeps P (appendChildWithoutInvalidation parent child)
  fill : ∀ node, new node → filled node

namespace ImportRules

variable {P : LiveDocument → Prop} {new filled : NodeId → Prop}
  {allowed : Option NodeId → String → Prop}

theorem gives {α : Type} {edit : Edit NodeId} {next : NodeId → Edit α} {Q : α → LiveDocument → Prop}
    (h : Meets P edit (fun id s => P s ∧ new id) P) (hnext : ∀ id, new id → Meets P (next id) Q P) :
    Meets P (edit >>= next) Q P := by
  refine Meets.bind h fun id => ?_
  rintro s ⟨hs, hid⟩
  exact hnext id hid s hs

theorem appendText (rules : ImportRules P new filled allowed) {parent : NodeId}
    (hparent : filled parent) (text : String) : Keeps P (do
      let child ← allocate (.text text)
      appendChildWithoutInvalidation parent child) :=
  gives (rules.text text) fun child hchild => rules.append parent child hparent hchild

mutual

theorem importElement (rules : ImportRules P new filled allowed) (element : Element)
    (helement : element.Every allowed) (parent : Option NodeId)
    (hparent : ∀ node, parent = some node → filled node) :
    Meets P (Dom.importElement element parent) (fun id s => P s ∧ new id) P := by
  obtain ⟨nodeId, tag, attrs, children, text, isVoid⟩ := element
  obtain ⟨hallowed, hchildren⟩ := helement
  rw [Dom.importElement]
  refine gives (rules.element nodeId tag hallowed _ _) fun id hnew => ?_
  have hrest : Meets P (do
      Dom.importChildren id children
      return id) (fun id s => P s ∧ new id) P :=
    Meets.bind (importChildren rules children hchildren id (rules.fill id hnew)) fun _ _ hs => ⟨hs, hnew⟩
  have hbody : Meets P (do
      if !text.isEmpty then
        let child ← allocate (.text (boundedText text))
        appendChildWithoutInvalidation id child
      Dom.importChildren id children
      return id) (fun id s => P s ∧ new id) P := by
    split
    · exact gives (rules.text _) fun child hchild =>
        Meets.bind (rules.append id child (rules.fill id hnew) hchild) fun _ => hrest
    · exact hrest
  cases parent with
  | none => exact hbody
  | some parent => exact Meets.bind (rules.append parent id (hparent parent rfl) hnew) fun _ => hbody

theorem importChildren (rules : ImportRules P new filled allowed) (children : List Element)
    (hchildren : Element.EveryChild allowed children) (parent : NodeId) (hparent : filled parent) :
    Keeps P (Dom.importChildren parent children) := by
  cases children with
  | nil =>
    rw [Dom.importChildren]
    exact Keeps.pure _
  | cons child children =>
    rw [Dom.importChildren]
    refine gives (importElement rules child hchildren.1 (some parent) ?_) fun _ _ =>
      importChildren rules children hchildren.2 parent hparent
    rintro node hnode
    obtain rfl := Option.some.inj hnode
    exact hparent

end

theorem importSubtree (rules : ImportRules P new filled allowed) {element : Element}
    (helement : element.Every fun _ tag => allowed none tag) :
    Meets P (Dom.importSubtree element) (fun id s => P s ∧ new id) P :=
  rules.importElement _ (Element.every_clearNodeIds (fun _ _ h => h) element helement) none
    fun _ h => nomatch h

theorem appendSubtrees (rules : ImportRules P new filled allowed) {parent : NodeId}
    (hparent : filled parent) {children : List Element}
    (hchildren : Element.EveryChild (fun _ tag => allowed none tag) children) :
    Keeps P (Dom.appendSubtrees parent children) := by
  induction children with
  | nil => exact Keeps.pure _
  | cons child children ih =>
    refine gives (rules.importSubtree hchildren.1) fun node hnode => ?_
    exact Keeps.bind (rules.append parent node hparent hnode) fun _ => ih hchildren.2

theorem appendParsedFragment (rules : ImportRules P new filled allowed) {parent : NodeId}
    (hparent : filled parent) {parsed : Element}
    (hparsed : parsed.Every fun _ tag => allowed none tag) :
    Keeps P (Dom.appendParsedFragment parsed parent) := by
  have hwhole : Keeps P (Dom.appendSubtrees parent [parsed]) :=
    rules.appendSubtrees hparent ⟨hparsed, trivial⟩
  obtain ⟨nodeId, tag, attrs, children, text, isVoid⟩ := parsed
  have hend : Keeps P (if text.isEmpty then return () else do
      let child ← createTextNode text
      appendChildWithoutInvalidation parent child) :=
    Keeps.ite (Keeps.pure _) (rules.appendText hparent _)
  rw [Dom.appendParsedFragment]
  exact Keeps.ite (Keeps.bind (rules.appendSubtrees hparent hparsed.2) fun _ => hend)
    (Keeps.bind hwhole fun _ => hend)

end ImportRules

end GhitaBrowser.Live

/-!
## The states that edits end in

What document an edit ends in is known, also when it fails: the checks of an edit leave the
document alone, and each of its writes is a function of the document.
-/

namespace GhitaBrowser.Live

open Dom Page

section Checks

variable {P : LiveDocument → Prop}

theorem requireElement_keeps (node : NodeId) : Keeps P (requireElement node) :=
  Keeps.bind (requireNode_keeps node) fun _ => Keeps.ite (Keeps.pure _) (Keeps.throw _)

theorem depthBudgetOk_keeps (node : NodeId) : Keeps P (depthBudgetOk node) :=
  Keeps.bind Keeps.get fun _ => Keeps.ite (Keeps.pure _) (Keeps.throw _)

theorem keeps_linked {α : Type} {change : Edit α}
    (h : ∀ document, document.Linked → change.Ensures document fun _ after => after.Linked) :
    Keeps LiveDocument.Linked change := by
  intro document linked
  have hensures := h document linked
  unfold Edit.Ensures at hensures
  revert hensures
  cases change document with
  | ok value after => exact id
  | error failure after => exact id

end Checks

/-! ## End states -/

section Known

variable {d : LiveDocument} {E : LiveDocument → Prop}

theorem requireNode_known (hE : E d) (node : NodeId) :
    Meets (· = d) (requireNode node)
      (fun entry document => document = d ∧ d.nodes[node]? = some entry) E := by
  refine Meets.bind Meets.get fun document => ?_
  split
  · next entry hentry =>
    rintro s ⟨rfl, rfl⟩
    exact ⟨rfl, hentry⟩
  · rintro s ⟨rfl, -⟩
    exact hE

theorem requireElement_known (hE : E d) (node : NodeId) :
    Meets (· = d) (requireElement node)
      (fun entry document => document = d ∧ d.nodes[node]? = some entry) E := by
  refine (requireNode_known hE node).bind fun entry => Meets.ite (fun _ => ?_) fun _ => ?_
  · exact fun _ h => h
  · rintro s ⟨rfl, -⟩
    exact hE

theorem depthBudgetOk_known (hE : E d) (node : NodeId) :
    Meets (· = d) (depthBudgetOk node)
      (fun _ document => document = d ∧
        d.depthWalk (maxLiveDepth - 1) (d.parentOf node) = true) E := by
  refine Meets.bind Meets.get fun document => Meets.ite (fun hwalk => ?_) fun _ => ?_
  · rintro s ⟨rfl, rfl⟩
    exact ⟨rfl, hwalk⟩
  · rintro s ⟨rfl, -⟩
    exact hE

theorem updateNode_known {node : NodeId} (hnode : (d.nodes[node]?).isSome) (message : String)
    (f : LiveNode → LiveNode) :
    Meets (· = d) (updateNode node message f)
      (fun _ document => document = { d with nodes := d.nodes.modify node f }) E := by
  refine Meets.get_bind (Meets.ite (fun _ => ?_) fun hnot => ?_)
  · rintro s rfl
    rfl
  · exact absurd ((IdMap.contains_iff _ _).mpr hnode) hnot

/-- The document after `push` and `set parent`. -/
def appended (document : LiveDocument) (p c : NodeId) : LiveDocument :=
  { document with
    nodes := (document.nodes.modify p (LiveNode.pushChild c)).modify c (LiveNode.setParent (some p)) }

theorem pushAndSet_known {p c : NodeId} (hp : (d.nodes[p]?).isSome) (hc : (d.nodes[c]?).isSome) :
    Meets (· = d) (do
      updateNode p parentGone (LiveNode.pushChild c)
      updateNode c childGone (LiveNode.setParent (some p)))
      (fun _ document => document = appended d p c) E := by
  refine (updateNode_known hp _ _).bind fun _ => ?_
  refine updateNode_known (d := { d with nodes := d.nodes.modify p _ }) ?_ _ _
  rwa [LiveDocument.isSome_modify]

/-- The document after `detach`. -/
def detached (document : LiveDocument) (c : NodeId) : LiveDocument :=
  match document.parentOf c with
  | none => document
  | some p =>
    { document with
      nodes := (document.nodes.modify p fun node =>
        { node with children := node.children.filter (· ≠ c) }).modify c (LiveNode.setParent none) }

theorem modify_stored (document : LiveDocument) (p c node : NodeId) (f g : LiveNode → LiveNode) :
    (((document.nodes.modify p f).modify c g)[node]?).isSome = (document.nodes[node]?).isSome := by
  rw [LiveDocument.isSome_modify { document with nodes := document.nodes.modify p f },
    LiveDocument.isSome_modify]

theorem detached_stored (document : LiveDocument) (c node : NodeId) :
    ((detached document c).nodes[node]?).isSome = (document.nodes[node]?).isSome := by
  rw [detached]
  split
  · rfl
  · exact modify_stored document _ c node _ _

theorem detach_known (linked : d.Linked) {c : NodeId} (hc : (d.nodes[c]?).isSome) :
    Meets (· = d) (detach c) (fun _ document => document = detached d c) E := by
  obtain ⟨entry, hentry⟩ := Option.isSome_iff_exists.mp hc
  have hparentOf : d.parentOf c = entry.parent := by
    rw [LiveDocument.parentOf, hentry, Option.bind_some]
  refine Meets.bind (Q := fun found document => document = d ∧ found = entry) ?_ fun found => ?_
  · refine Meets.get_bind ?_
    rw [hentry]
    rintro s rfl
    exact ⟨rfl, rfl⟩
  · rintro s ⟨rfl, rfl⟩
    rw [detached, hparentOf]
    cases hparent : found.parent with
    | none => rfl
    | some p =>
      have hp : (s.nodes[p]?).isSome := by
        rw [← s.isSome_links]
        refine linked.forest.parent_exists (c := c) ?_
        rw [LiveDocument.isParent_iff, hparentOf, hparent]
      have hunlink : Meets (· = s) (do
          updateNode p parentGone fun node =>
            { node with children := node.children.filter (· ≠ c) }
          updateNode c childGone (LiveNode.setParent none))
          (fun _ document => document = { s with
            nodes := (s.nodes.modify p fun node =>
              { node with children := node.children.filter (· ≠ c) }).modify c (LiveNode.setParent none) })
          E := by
        refine (updateNode_known hp _ _).bind fun _ => ?_
        refine updateNode_known (d := { s with nodes := s.nodes.modify p _ }) ?_ _ _
        rwa [LiveDocument.isSome_modify]
      exact hunlink s rfl

/-- The checks of `append_child`. -/
def Appends (document : LiveDocument) (p c : NodeId) : Prop :=
  (document.nodes[p]?).isSome ∧ (document.nodes[c]?).isSome ∧
    document.depthWalk (maxLiveDepth - 1) (document.parentOf p) = true ∧
    (p = c || document.isAncestor c p) = false

/-- `append_child` is refused, or it detaches and appends. -/
theorem appendChild_known (linked : d.Linked) (p c : NodeId) :
    Meets (· = d) (appendChild p c)
      (fun _ document => Appends d p c ∧ document = appended (detached d c) p c)
      (· = d) := by
  refine (requireElement_known (E := (· = d)) rfl p).bind fun entry => ?_
  have hnode : Meets (fun document => document = d ∧ d.nodes[p]? = some entry)
      (requireNode c) (fun live document => (document = d ∧ d.nodes[c]? = some live) ∧
        d.nodes[p]? = some entry) (· = d) := by
    rintro s ⟨rfl, hp⟩
    have hmeets := requireNode_known (d := s) (E := (· = s)) rfl c s rfl
    revert hmeets
    cases requireNode c s with
    | ok value after => exact fun h => ⟨h, hp⟩
    | error failure after => exact id
  refine hnode.bind fun live => ?_
  rintro s ⟨⟨rfl, hc⟩, hp⟩
  have hp : (s.nodes[p]?).isSome := by rw [hp]; rfl
  have hc : (s.nodes[c]?).isSome := by rw [hc]; rfl
  refine ((depthBudgetOk_known (E := (· = s)) rfl p).bind fun _ => ?_) s rfl
  rintro t ⟨rfl, hdepth⟩
  have hstored := detached_stored t c
  have hbody : Meets (· = t) (if p = c || t.isAncestor c p then
        fail "HierarchyRequestError: append would create a cycle"
      else do
        detach c
        updateNode p parentGone (LiveNode.pushChild c)
        updateNode c childGone (LiveNode.setParent (some p)))
      (fun _ document => Appends t p c ∧ document = appended (detached t c) p c) (· = t) := by
    refine Meets.ite (fun _ => fun _ h => h) fun hcheck => (detach_known linked hc).bind fun _ => ?_
    refine (pushAndSet_known (by rwa [hstored]) (by rwa [hstored])).weaken
      (fun _ _ h => ⟨⟨hp, hc, hdepth, ?_⟩, h⟩) fun _ h => h
    exact Bool.eq_false_iff.mpr hcheck
  exact Meets.get_bind hbody t rfl

/-- The document after `remove_child`. -/
def unlinked (document : LiveDocument) (p c : NodeId) : LiveDocument :=
  { document with
    nodes := (document.nodes.modify p fun node =>
      { node with children := node.children.erase c }).modify c (LiveNode.setParent none) }

theorem removeChild_known (linked : d.Linked) (p c : NodeId) :
    Meets (· = d) (removeChild p c)
      (fun _ document => d.links.Lists p c ∧ document = unlinked d p c) (· = d) := by
  refine (requireNode_known (E := (· = d)) rfl p).bind fun entry => ?_
  rintro s ⟨rfl, hentry⟩
  refine (Meets.ite (P := (· = s)) (fun _ => fun t ht => ht) fun hmem => ?_) s rfl
  rw [Bool.not_eq_true', Bool.not_eq_false, List.contains_iff_mem] at hmem
  have hlists : s.links.Lists p c := ⟨_, LiveDocument.links_eq hentry, hmem⟩
  have hc : (s.nodes[c]?).isSome := by
    rw [← s.isSome_links]
    exact linked.forest.child_exists hlists
  refine (updateNode_known (by rw [hentry]; rfl) _ _).bind fun _ => ?_
  refine (updateNode_known (d := { s with nodes := s.nodes.modify p _ }) ?_ _ _).weaken
    (fun _ _ h => ⟨hlists, h⟩) fun _ h => h
  rwa [LiveDocument.isSome_modify]

theorem ensures_known {α : Type} {change : Edit α} {Q : α → LiveDocument → Prop} {after : LiveDocument}
    (h : change.Ensures d Q) (hknown : Meets (· = d) change (fun _ document => document = after)
      fun _ => False) : ∃ value, Q value after := by
  have hend := hknown d rfl
  rw [Edit.Ensures] at h
  revert h hend
  cases change d with
  | ok value document =>
    rintro hQ rfl
    exact ⟨value, hQ⟩
  | error failure document => exact fun _ => False.elim

end Known

/-! ## New nodes and new links -/

variable {document : LiveDocument}

/-- The document after `allocate`. -/
def allocated (document : LiveDocument) (kind : LiveNodeKind) : LiveDocument :=
  { document with
    nextNodeId := max document.nextNodeId document.nextNodeId + 1
    nodes := document.nodes.insert document.nextNodeId ⟨document.nextNodeId, none, [], kind⟩ }

theorem allocate_known (kind : LiveNodeKind) :
    Meets (· = document) (allocate kind)
      (fun id after => id = document.nextNodeId ∧ after = allocated document kind) (· = document) := by
  refine Meets.get_bind (Meets.ite (fun _ => ?_) fun _ => Meets.ite (fun _ => ?_) fun _ => ?_)
  · exact fun _ h => h
  · exact fun _ h => h
  · rintro s rfl
    exact ⟨rfl, rfl⟩

theorem meets_of_ensures {α : Type} {change : Edit α} {Q : α → LiveDocument → Prop}
    (h : change.Ensures document Q) : Meets (· = document) change Q LiveDocument.Linked := by
  rintro s rfl
  unfold Edit.Ensures at h
  revert h
  cases change s with
  | ok value after => exact id
  | error failure after => exact id

/-- An append that does not look at the parent of the child: what it has checked. -/
def Appendable (document : LiveDocument) (p c : NodeId) : Prop :=
  (document.nodes[p]?).isSome ∧ (document.nodes[c]?).isSome ∧
    document.depthWalk (maxLiveDepth - 1) (document.parentOf p) = true

theorem appendChildWithoutInvalidation_checks (p c : NodeId) :
    Meets (· = document) (appendChildWithoutInvalidation p c)
      (fun _ after => Appendable document p c ∧ after = appended document p c) (· = document) := by
  refine (requireElement_known (E := (· = document)) rfl p).bind fun entry => ?_
  rintro s ⟨rfl, hp⟩
  refine ((requireNode_known (E := (· = s)) rfl c).bind fun live => ?_) s rfl
  rintro t ⟨rfl, hc⟩
  refine ((depthBudgetOk_known (E := (· = t)) rfl p).bind fun _ => ?_) t rfl
  rintro u ⟨rfl, hdepth⟩
  have hp : (u.nodes[p]?).isSome := by rw [hp]; rfl
  have hc : (u.nodes[c]?).isSome := by rw [hc]; rfl
  exact (pushAndSet_known (E := (· = u)) hp hc).weaken (fun _ _ h => ⟨⟨hp, hc, hdepth⟩, h⟩) (fun _ h => h) u rfl

theorem appended_spec (linked : document.Linked) {p c : NodeId} (hp : (document.nodes[p]?).isSome)
    (hc : (document.nodes[c]?).isSome) (orphan : document.parentOf c = none)
    (hcycle : ¬ Relation.ReflTransGen document.links.IsParent p c) :
    Appended document p c (appended document p c) := by
  obtain ⟨entry, hentry⟩ := Option.isSome_iff_exists.mp hc
  rw [LiveDocument.parentOf, hentry] at orphan
  exact (ensures_known (pushAndSet_ensures linked hp (LiveDocument.links_eq hentry) orphan hcycle)
    (pushAndSet_known hp hc)).choose_spec

/-! ## Clearing a node -/

/-- `free_subtree` removes only what is below the cleared node. -/
theorem freeSubtrees_outside {document : LiveDocument} {origin : LinkStore NodeId}
    (forest : origin.IsForest) {n m : NodeId} (hm : ¬ origin.Below m n) (work : List NodeId)
    (nodes : IdMap LiveNode)
    (pruning : LinkStore.Pruning origin n work (LiveDocument.links { document with nodes := nodes })) :
    (freeSubtrees work nodes)[m]? = nodes[m]? := by
  fun_induction freeSubtrees work nodes with
  | case1 nodes => rfl
  | case2 nodes root rest hroot ih =>
    refine ih (pruning.skip ?_)
    simp only [LiveDocument.links, hroot, Option.map_none]
  | case3 nodes root rest entry hroot ih =>
    have hne : m ≠ root := by
      rintro rfl
      exact hm (pruning.below m List.mem_cons_self)
    have hlinks : LiveDocument.links { document with nodes := nodes } root = some entry.links := by
      simp only [LiveDocument.links, hroot, Option.map_some]
    have hpruned := pruning.remove forest hlinks
    rw [← LiveDocument.links_erase] at hpruned
    rw [ih hpruned, IdMap.getElem?_erase, if_neg hne]

/-- The document after the children of a node were freed. -/
def cleared (document : LiveDocument) (node : NodeId) : LiveDocument :=
  { document with
    nodes := (freeSubtrees (childrenOf document node) document.nodes).modify node fun node =>
      { node with children := [] } }

theorem freeSubtrees_entry (work : List NodeId) (nodes : IdMap LiveNode) {node : NodeId}
    {entry : LiveNode} (h : (freeSubtrees work nodes)[node]? = some entry) :
    nodes[node]? = some entry := by
  fun_induction freeSubtrees work nodes with
  | case1 nodes => exact h
  | case2 nodes root rest hroot ih => exact ih h
  | case3 nodes root rest live hroot ih =>
    have hkept := ih h
    rw [IdMap.getElem?_erase] at hkept
    split at hkept
    · cases hkept
    · exact hkept

section Cleared

variable (linked : document.Linked) {node : NodeId} (hnode : (document.nodes[node]?).isSome)

include linked hnode

theorem pruning_cleared : LinkStore.Pruning document.links node []
    (LiveDocument.links { document with nodes := freeSubtrees (childrenOf document node) document.nodes }) := by
  obtain ⟨entry, hentry⟩ := Option.isSome_iff_exists.mp hnode
  rw [childrenOf_eq hentry]
  exact @freeSubtrees_pruning document document.links linked.forest node entry.children
    document.nodes (.start linked.forest (LiveDocument.links_eq hentry))

theorem not_stored_below {other : NodeId} (h : document.links.Below other node) :
    (freeSubtrees (childrenOf document node) document.nodes)[other]? = none := by
  have pruning := pruning_cleared linked hnode
  induction h using Relation.TransGen.head_induction_on with
  | @single other hparent =>
    refine Option.eq_none_iff_forall_ne_some.mpr fun entry hentry => ?_
    have hkept := LiveDocument.links_eq (freeSubtrees_entry _ _ hentry)
    obtain ⟨links, hlinks, hparent⟩ := hparent
    rw [hkept] at hlinks
    obtain rfl := Option.some.inj hlinks
    rcases pruning.linked other node ⟨entry.links, by
        rw [@LiveDocument.links_eq { document with nodes := _ } _ _ hentry], hparent⟩ with
      ⟨hne, -⟩ | hwork
    · exact hne rfl
    · cases hwork
  | @head other above hparent _ ih =>
    refine Option.eq_none_iff_forall_ne_some.mpr fun entry hentry => ?_
    have hkept := LiveDocument.links_eq (freeSubtrees_entry _ _ hentry)
    obtain ⟨links, hlinks, hparent⟩ := hparent
    rw [hkept] at hlinks
    obtain rfl := Option.some.inj hlinks
    rcases pruning.linked other above ⟨entry.links, by
        rw [@LiveDocument.links_eq { document with nodes := _ } _ _ hentry], hparent⟩ with
      ⟨-, others, hlists, -⟩ | hwork
    · rw [LiveDocument.links] at hlists
      simp only [ih, Option.map_none] at hlists
      cases hlists
    · cases hwork

theorem cleared_stored {other : NodeId} :
    ((cleared document node).nodes[other]?).isSome ↔
      (document.nodes[other]?).isSome ∧ ¬ document.links.Below other node := by
  rw [cleared, LiveDocument.isSome_modify { document with nodes := _ }]
  by_cases hbelow : document.links.Below other node
  · rw [not_stored_below linked hnode hbelow]
    exact iff_of_false Bool.false_ne_true fun h => h.2 hbelow
  · obtain ⟨entry, hentry⟩ := Option.isSome_iff_exists.mp hnode
    rw [childrenOf_eq hentry, @freeSubtrees_outside document _ linked.forest _ _ hbelow entry.children
      document.nodes (.start linked.forest (LiveDocument.links_eq hentry))]
    exact (and_iff_left hbelow).symm

theorem cleared_linked : (cleared document node).Linked := by
  obtain ⟨entry, hentry⟩ := Option.isSome_iff_exists.mp hnode
  have hlinks := LiveDocument.links_modify
    { document with nodes := freeSubtrees (childrenOf document node) document.nodes } node
    (fun node => { node with children := [] }) (fun links => { links with children := [] }) fun _ => rfl
  refine ⟨?_, fun other hother => ?_⟩
  · rw [cleared, hlinks]
    exact (pruning_cleared linked hnode).finish linked.forest
  · exact linked.below other ((cleared_stored linked hnode).mp hother).1

omit linked hnode in
theorem cleared_entry {other : NodeId} {entry : LiveNode}
    (h : (cleared document node).nodes[other]? = some entry) :
    ∃ before, document.nodes[other]? = some before ∧ entry.kind = before.kind ∧
      ∀ child ∈ entry.children, child ∈ before.children := by
  rw [cleared, IdMap.getElem?_modify] at h
  split at h
  · next heq =>
    subst heq
    obtain ⟨before, hbefore, rfl⟩ := Option.map_eq_some_iff.mp h
    exact ⟨before, freeSubtrees_entry _ _ hbefore, rfl, nofun⟩
  · exact ⟨entry, freeSubtrees_entry _ _ h, rfl, fun _ hchild => hchild⟩

omit linked hnode in
theorem clearChildren_known (linked : document.Linked) (node : NodeId) (gone : String) :
    Meets (· = document) (clearChildren node gone)
      (fun _ after => (document.nodes[node]?).isSome ∧ after = cleared document node) (· = document) := by
  have hindex : Meets (· = document) (indexNode node)
      (fun entry after => after = document ∧ document.nodes[node]? = some entry) (· = document) := by
    refine Meets.bind Meets.get fun start => ?_
    split
    · next entry hentry =>
      rintro s ⟨rfl, rfl⟩
      exact ⟨rfl, hentry⟩
    · rintro s ⟨rfl, -⟩
      rfl
  refine hindex.bind fun entry => ?_
  rintro s ⟨rfl, hentry⟩
  have hnode : (s.nodes[node]?).isSome := by rw [hentry]; rfl
  have hstored : ((freeSubtrees (childrenOf s node) s.nodes)[node]?).isSome := by
    have hkept := (@cleared_stored s linked node hnode node).mpr ⟨hnode, linked.forest.acyclic node⟩
    rwa [cleared, LiveDocument.isSome_modify { s with nodes := _ }] at hkept
  rw [← childrenOf_eq hentry]
  have hupdate := updateNode_known (d := { s with nodes := freeSubtrees (childrenOf s node) s.nodes })
    (E := (· = s)) hstored gone fun node => { node with children := [] }
  exact hupdate.weaken (fun _ _ h => ⟨hnode, h⟩) (fun _ h => h) _ rfl

end Cleared

theorem cleared_isSome (linked : document.Linked) {node : NodeId}
    (hnode : (document.nodes[node]?).isSome) : ((cleared document node).nodes[node]?).isSome :=
  (cleared_stored linked hnode).mpr ⟨hnode, linked.forest.acyclic node⟩

/-! ## Filling a node -/

section Fill

variable {P : LiveDocument → Prop} (linked : document.Linked) (h : P document) {node : NodeId}

include linked h

theorem refill_meets (gone : String) {next : Edit Unit} (hnext : (document.nodes[node]?).isSome →
      Meets (· = cleared document node) next (fun _ => P) P) :
    Meets (· = document) (do
      clearChildren node gone
      next) (fun _ => P) P := by
  refine ((clearChildren_known linked node gone).onError fun _ hs => hs ▸ h).bind fun _ => ?_
  rintro s ⟨stored, rfl⟩
  exact hnext stored _ rfl

theorem setTextContent_meets {value : String}
    (htext : ∀ (entry : LiveNode) (text : String), document.nodes[node]? = some entry →
      entry.kind = .text text → P { document with nodes := document.nodes.modify node fun node =>
        { node with kind := .text (boundedText value) } })
    (hnext : (document.nodes[node]?).isSome → Meets (· = cleared document node)
      (if (boundedText value).isEmpty then return () else do
        let child ← createTextNode (boundedText value)
        appendChildWithoutInvalidation node child) (fun _ => P) P) :
    Meets (· = document) (setTextContent node value) (fun _ => P) P := by
  refine (requireNode_known h node).bind fun entry => ?_
  rintro s ⟨rfl, hentry⟩
  cases hkind : entry.kind with
  | text text =>
    refine ((updateNode_known (by rw [hentry]; rfl) _ _).weaken ?_ fun _ hs => hs) s rfl
    rintro _ _ rfl
    exact htext entry text hentry hkind
  | element tag attrs isVoid => exact refill_meets linked h nodeGone hnext s rfl

variable [HtmlParser] {html : String}

theorem setInnerHtml_meets
    (hnext : html.utf8ByteSize ≤ maxShadowHtmlBytes → (document.nodes[node]?).isSome →
      Meets (· = cleared document node) (appendParsedFragment (HtmlParser.parseHtml html) node)
        (fun _ => P) P) :
    Meets (· = document) (setInnerHtml node html) (fun _ => P) P := by
  refine Meets.ite (fun _ _ hs => hs ▸ h) fun hsize => ?_
  refine (requireNode_known h node).bind fun entry => ?_
  rintro s ⟨rfl, -⟩
  exact refill_meets linked h nodeGone (hnext (Nat.not_lt.mp hsize)) s rfl

theorem setShadowHtml_meets
    (hnext : html.utf8ByteSize ≤ maxShadowHtmlBytes →
      (document.shadows.toList.any fun entry => entry.2.root == node) →
        (document.nodes[node]?).isSome → Meets (· = cleared document node)
          (appendParsedFragment (HtmlParser.parseHtml html) node) (fun _ => P) P) :
    Meets (· = document) (setShadowHtml node html) (fun _ => P) P := by
  refine Meets.ite (fun _ _ hs => hs ▸ h) fun hsize => Meets.get_bind ?_
  refine Meets.ite (fun _ _ hs => hs ▸ h) fun hroot => ?_
  rw [Bool.not_eq_true', Bool.not_eq_false] at hroot
  exact refill_meets linked h shadowGone (hnext (Nat.not_lt.mp hsize) hroot)

end Fill

/-! ## Shadow roots -/

/-- The document after `attach_shadow`. -/
def withShadow (document : LiveDocument) (host : NodeId) (mode : ShadowMode) : LiveDocument :=
  let joined := appended (allocated document (.element "shadow-root" ∅ false)) host document.nextNodeId
  { joined with shadows := joined.shadows.insert host ⟨host, document.nextNodeId, mode⟩ }

/-- Whether `attach_shadow` gets past its first checks. -/
def Attaches (document : LiveDocument) (host : NodeId) : Prop :=
  document.shadows.size < maxShadowRoots ∧ document.shadows[host]? = none

/-- The kind of a new shadow root. -/
abbrev shadowKind : LiveNodeKind := .element "shadow-root" ∅ false

/-- What `attach_shadow` has found when it records the root. -/
structure Attachment (document : LiveDocument) (host : NodeId) : Prop where
  attaches : Attaches document host
  plain : ∃ entry, document.nodes[host]? = some entry ∧ entry.kind.isShadowRoot = false
  made : Allocated document document.nextNodeId (allocated document shadowKind)
  checked : Appendable (allocated document shadowKind) host document.nextNodeId

theorem attachShadow_known {P : LiveDocument → Prop} (linked : document.Linked)
    (hmakes : Meets (· = document) (allocate shadowKind) (fun _ => P) fun _ => True) (host : NodeId)
    (mode : ShadowMode) :
    Meets (· = document) (attachShadow host mode)
      (fun _ after => Attachment document host ∧ P (allocated document shadowKind) ∧
        after = withShadow document host mode)
      (fun after => after = document ∨ P after ∧ after = allocated document shadowKind) := by
  refine Meets.get_bind (Meets.ite (fun _ _ => .inl) fun hsize => ?_)
  refine (requireElement_known (.inl rfl) host).bind fun entry => ?_
  rintro s ⟨rfl, hentry⟩
  refine Meets.ite (P := (· = s)) (fun _ _ hs => Or.inl hs) (fun hplain =>
    Meets.ite (P := (· = s)) (fun _ _ hs => Or.inl hs) fun hnew => ?_) s rfl
  have hmade := ((allocate_known shadowKind).and (meets_of_ensures
    (allocatePreferred_ensures linked))).and hmakes
  refine (hmade.onError fun _ hs => .inl hs.1.1).bind fun root => ?_
  rintro _ ⟨⟨⟨rfl, rfl⟩, made⟩, holds⟩
  refine (((appendChildWithoutInvalidation_checks host _).onError
    fun _ hs => .inr ⟨hs ▸ holds, hs⟩).bind fun _ => ?_) _ rfl
  rintro _ ⟨checked, rfl⟩
  refine ⟨⟨⟨Nat.not_le.mp hsize, ?_⟩, ⟨entry, hentry, Bool.eq_false_iff.mpr hplain⟩, made, checked⟩,
    holds, rfl⟩
  rwa [IdMap.contains_iff, Option.not_isSome_iff_eq_none] at hnew

end GhitaBrowser.Live
