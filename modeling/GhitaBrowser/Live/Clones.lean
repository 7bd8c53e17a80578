import Mathlib.Data.Set.Card
import GhitaBrowser.Live.Budget
import GhitaBrowser.Live.Retarget

/-!
# The sizes of subtrees

How many nodes a subtree has, what a cleared node gives back to the budget, and exactly when
a clone is made.

Results:
1. `clearChildren_size`: clearing a node leaves the node itself of its subtree.
2. `cloneNode_settles`: a clone is made exactly when the budget affords the whole subtree.
   Its depth is never checked: every copy is appended to a node without a parent.
-/

namespace GhitaBrowser.Live

open Dom Page Relation

variable {document after : LiveDocument} {node : NodeId}

/-! ## Sizes -/

theorem size_eq_ncard (nodes : IdMap LiveNode) :
    nodes.size = {node : NodeId | (nodes[node]?).isSome}.ncard := by
  have keys : {node : NodeId | (nodes[node]?).isSome} = ((nodes.keys.toFinset : Finset NodeId) : Set NodeId) := by
    ext node
    rw [List.coe_toFinset, Set.mem_ofPred_eq, Set.mem_ofPred_eq, Std.ExtTreeMap.mem_keys,
      Std.ExtTreeMap.mem_iff_contains, IdMap.contains_iff]
  have distinct : nodes.keys.Nodup := by
    have h := Std.ExtTreeMap.distinct_keys (t := nodes)
    refine h.imp fun {a b} hne => ?_
    rintro rfl
    exact hne (Std.ReflCmp.compare_self)
  rw [keys, Set.ncard_coe_finset, List.toFinset_card_of_nodup distinct, Std.ExtTreeMap.length_keys]

/-- The nodes below a node, the node included. -/
def subtree (document : LiveDocument) (node : NodeId) : Set NodeId :=
  {other | ReflTransGen document.links.IsParent other node}

noncomputable def span (document : LiveDocument) (node : NodeId) : Nat := (subtree document node).ncard

theorem stored_of_reaches {other : NodeId} (stored : (document.nodes[node]?).isSome)
    (h : ReflTransGen document.links.IsParent other node) : (document.nodes[other]?).isSome := by
  rcases ReflTransGen.cases_head h with rfl | ⟨parent, ⟨links, found, -⟩, -⟩
  · exact stored
  · rw [← document.isSome_links, found]
    rfl

theorem subtree_finite (linked : document.Linked) (stored : (document.nodes[node]?).isSome) :
    (subtree document node).Finite :=
  (Set.finite_lt_nat document.nextNodeId).subset fun other h =>
    linked.below other (stored_of_reaches stored h)

/-- What a cleared node gives back to the budget. -/
theorem clearChildren_size (linked : document.Linked) (stored : (document.nodes[node]?).isSome) :
    (cleared document node).nodes.size + span document node = document.nodes.size + 1 := by
  have finite := subtree_finite linked stored
  have below : subtree document node = insert node {other | document.links.Below other node} := by
    ext other
    rw [subtree, Set.mem_ofPred_eq, reflTransGen_iff_eq_or_transGen, eq_comm]
    rfl
  have all : {other : NodeId | (document.nodes[other]?).isSome} =
      {other : NodeId | ((cleared document node).nodes[other]?).isSome} ∪
        {other | document.links.Below other node} := by
    ext other
    have kept : ((cleared document node).nodes[other]?).isSome ↔
        (document.nodes[other]?).isSome ∧ ¬ document.links.Below other node :=
      cleared_stored linked stored
    have reached (h : document.links.Below other node) : (document.nodes[other]?).isSome :=
      stored_of_reaches stored h.to_reflTransGen
    simp only [Set.mem_ofPred_eq, Set.mem_union]
    tauto
  have apart : Disjoint {other : NodeId | ((cleared document node).nodes[other]?).isSome}
      {other | document.links.Below other node} :=
    Set.disjoint_left.mpr fun other kept freed => ((cleared_stored linked stored).mp kept).2 freed
  have freedFinite : {other | document.links.Below other node}.Finite :=
    finite.subset (below ▸ Set.subset_insert _ _)
  have keptFinite : {other : NodeId | ((cleared document node).nodes[other]?).isSome}.Finite :=
    (Set.finite_lt_nat document.nextNodeId).subset fun other kept =>
      linked.below other ((cleared_stored linked stored).mp kept).1
  have self : node ∉ {other | document.links.Below other node} := linked.forest.acyclic node
  rw [size_eq_ncard, size_eq_ncard document.nodes, all, Set.ncard_union_eq apart keptFinite freedFinite,
    span, below, Set.ncard_insert_of_notMem self freedFinite, Nat.add_assoc]

/-- What is afforded after the children of a node were freed. -/
def AffordsCleared (document : LiveDocument) (node : NodeId) (count : Nat) : Prop :=
  count = 0 ∨ document.nodes.size + 1 + count ≤ maxLiveNodes + span document node ∧
    document.nextNodeId + count ≤ maxNodeId

theorem affords_cleared (linked : document.Linked) (stored : (document.nodes[node]?).isSome) (count : Nat) :
    Affords (cleared document node) count ↔ AffordsCleared document node count := by
  rw [AffordsCleared, ← clearChildren_size linked stored, Nat.add_right_comm, Nat.add_le_add_iff_right]
  rfl

theorem takes_cleared (linked : document.Linked) (stored : (document.nodes[node]?).isSome) :
    Takes (cleared document node) node ↔ Takes document node := by
  have pruned := pruned_cleared linked stored
  have above (steps : Nat) (other : NodeId) (reaches : ReflTransGen document.links.IsParent node other) :
      (cleared document node).depthWalk steps ((cleared document node).parentOf other) =
        document.depthWalk steps (document.parentOf other) := by
    induction steps generalizing other with
    | zero => rfl
    | succ steps ih =>
      have kept : ((cleared document node).nodes[other]?).isSome := by
        refine (cleared_stored linked stored).mpr ⟨?_, fun below => ?_⟩
        · rcases ReflTransGen.cases_tail reaches with rfl | ⟨child, -, up⟩
          · exact stored
          · rw [← document.isSome_links]
            exact linked.forest.parent_exists up
        · exact linked.forest.acyclic other (TransGen.trans_left below reaches)
      rw [parentOf_cleared kept]
      cases up : document.parentOf other with
      | none => rfl
      | some parent =>
        exact ih parent (reaches.tail ((LiveDocument.isParent_iff _ _ _).mpr up))
  have self : ((cleared document node).nodes[node]?).isSome :=
    (cleared_stored linked stored).mpr ⟨stored, linked.forest.acyclic node⟩
  rw [Takes, Takes, above _ _ .refl, IsElement, IsElement, pruned.tags node self]

theorem cleared_nodes_iff {entry : LiveNode} (found : document.nodes[node]? = some entry) :
    (cleared document node).nodes = document.nodes ↔ entry.children = [] := by
  constructor
  · intro same
    have kept := congrArg (fun nodes : IdMap LiveNode => nodes[node]?) same
    simp only [cleared, IdMap.getElem?_modify, if_true, found] at kept
    obtain ⟨before, -, rfl⟩ := Option.map_eq_some_iff.mp kept
    rfl
  · intro none
    have unchanged : childrenOf document node = [] := (childrenOf_eq found).trans none
    rw [cleared, unchanged, freeSubtrees]
    refine Std.ExtTreeMap.ext_getElem? fun {other} => ?_
    rw [IdMap.getElem?_modify]
    split
    · next same =>
      rw [same, found, Option.map_some, ← none]
    · rfl

/-! ## The children of a subtree -/

theorem mem_children {entry : LiveNode} (linked : document.Linked)
    (found : document.nodes[node]? = some entry) {child : NodeId} :
    child ∈ entry.children ↔ document.links.IsParent child node := by
  rw [← linked.forest.agree node child]
  exact ⟨fun member => ⟨_, LiveDocument.links_eq found, member⟩, fun ⟨links, h, member⟩ => by
    rw [LiveDocument.links_eq found] at h
    obtain rfl := Option.some.inj h
    exact member⟩

theorem siblings_apart (linked : document.Linked) {first second : NodeId}
    (hfirst : document.links.IsParent first node) (hsecond : document.links.IsParent second node)
    (hne : first ≠ second) {other : NodeId} (inFirst : other ∈ subtree document first) :
    other ∉ subtree document second := by
  have above {child other : NodeId} (hchild : document.links.IsParent child node)
      (hother : document.links.IsParent other node) (hne : child ≠ other)
      (reaches : ReflTransGen document.links.IsParent child other) : False := by
    rcases ReflTransGen.cases_head reaches with rfl | ⟨parent, up, rest⟩
    · exact hne rfl
    · obtain rfl := LinkStore.isParent_unique hchild up
      exact linked.forest.acyclic other (TransGen.head' hother rest)
  intro inSecond
  have unique : Relator.RightUnique document.links.IsParent := fun _ _ _ => LinkStore.isParent_unique
  rcases ReflTransGen.total_of_right_unique unique inFirst inSecond with up | down
  · exact above hfirst hsecond hne up
  · exact above hsecond hfirst hne.symm down

theorem ncard_siblings (linked : document.Linked) {children : List NodeId} (distinct : children.Nodup)
    (siblings : ∀ child ∈ children, document.links.IsParent child node) :
    {other | ∃ child ∈ children, other ∈ subtree document child}.ncard =
        (children.map (span document)).sum ∧
      {other | ∃ child ∈ children, other ∈ subtree document child}.Finite := by
  induction children with
  | nil => simp
  | cons child children ih =>
    obtain ⟨new, distinct⟩ := List.nodup_cons.mp distinct
    obtain ⟨first, rest⟩ := List.forall_mem_cons.mp siblings
    obtain ⟨count, finite⟩ := ih distinct rest
    have stored : (document.nodes[child]?).isSome := by
      obtain ⟨links, found, -⟩ := first
      rw [← document.isSome_links, found]
      rfl
    have both : {other | ∃ some ∈ child :: children, other ∈ subtree document some} =
        subtree document child ∪ {other | ∃ some ∈ children, other ∈ subtree document some} := by
      ext other
      simp
    have apart : Disjoint (subtree document child)
        {other | ∃ some ∈ children, other ∈ subtree document some} := by
      refine Set.disjoint_left.mpr fun other inChild => ?_
      rintro ⟨sibling, member, inSibling⟩
      refine siblings_apart linked first (rest sibling member) ?_ inChild inSibling
      rintro rfl
      exact new member
    have here := subtree_finite linked stored
    rw [both]
    refine ⟨?_, here.union finite⟩
    rw [Set.ncard_union_eq apart here finite, count]
    rfl

theorem span_eq (linked : document.Linked) {entry : LiveNode} (found : document.nodes[node]? = some entry) :
    span document node = 1 + (entry.children.map (span document)).sum := by
  have distinct : entry.children.Nodup := linked.forest.nodup node _ (LiveDocument.links_eq found)
  obtain ⟨count, finite⟩ := ncard_siblings linked distinct fun child => (mem_children linked found).mp
  have whole : subtree document node =
      insert node {other | ∃ child ∈ entry.children, other ∈ subtree document child} := by
    ext other
    constructor
    · intro reaches
      rcases ReflTransGen.cases_tail reaches with same | ⟨child, below, up⟩
      · exact .inl same.symm
      · exact .inr ⟨child, (mem_children linked found).mpr up, below⟩
    · rintro (rfl | ⟨child, member, below⟩)
      · exact .refl
      · exact ReflTransGen.tail below ((mem_children linked found).mp member)
  have outside : node ∉ {other | ∃ child ∈ entry.children, other ∈ subtree document child} := by
    rintro ⟨child, member, below⟩
    have up := (mem_children linked found).mp member
    exact linked.forest.acyclic node (TransGen.tail' below up)
  rw [span, whole, Set.ncard_insert_of_notMem outside finite, ← count, Nat.add_comm]

/-! ## Text nodes have no children -/

/-- Only elements have children. -/
def Leafed (document : LiveDocument) : Prop :=
  ∀ (node : NodeId) (entry : LiveNode), document.nodes[node]? = some entry →
    entry.children ≠ [] → entry.kind.isElement = true

/-- The node is an element. -/
def LeafedAt (node : NodeId) (document : LiveDocument) : Prop :=
  Leafed document ∧ ∃ entry, document.nodes[node]? = some entry ∧ entry.kind.isElement = true

theorem updateNode_leafed_of (node : NodeId) (message : String) (f : LiveNode → LiveNode) :
    Meets (fun s => Leafed s ∧ ∀ entry, s.nodes[node]? = some entry →
      (f entry).children ≠ [] → (f entry).kind.isElement = true) (updateNode node message f)
      (fun _ => Leafed) Leafed := by
  refine Meets.bind Meets.get fun document => Meets.ite (fun _ => ?_) fun _ => ?_
  · rintro s ⟨⟨leafed, here⟩, rfl⟩
    intro other entry found
    simp only [IdMap.getElem?_modify] at found
    split at found
    · obtain ⟨before, hbefore, rfl⟩ := Option.map_eq_some_iff.mp found
      exact here before hbefore
    · exact leafed other entry found
  · rintro s ⟨⟨leafed, -⟩, rfl⟩
    exact leafed

theorem updateNode_leafed (node : NodeId) (message : String) {f : LiveNode → LiveNode}
    (hf : ∀ entry, (entry.children ≠ [] → entry.kind.isElement = true) →
      (f entry).children ≠ [] → (f entry).kind.isElement = true) :
    Keeps Leafed (updateNode node message f) :=
  (updateNode_leafed_of node message f).mono
    (fun _ leafed => ⟨leafed, fun entry found => hf entry (leafed node entry found)⟩) (fun _ _ h => h)
    fun _ h => h

theorem updateNode_leafedAt (target node : NodeId) (message : String) {f : LiveNode → LiveNode}
    (kind : ∀ entry, (f entry).kind = entry.kind)
    (children : ∀ entry, (f entry).children ≠ [] → entry.children ≠ []) :
    Keeps (LeafedAt target) (updateNode node message f) := by
  have whole := updateNode_leafed node message (f := f) fun entry h some => by
    rw [kind]
    exact h (children entry some)
  refine Keeps.of_endState fun s hs => ⟨whole.endState hs.1, ?_⟩
  obtain ⟨entry, found, element⟩ := hs.2
  have known : Meets (· = s) (updateNode node message f)
      (fun _ after => ∃ entry, after.nodes[target]? = some entry ∧ entry.kind.isElement = true)
      fun after => ∃ entry, after.nodes[target]? = some entry ∧ entry.kind.isElement = true := by
    refine Meets.get_bind (Meets.ite (fun _ => ?_) fun _ => ?_)
    · rintro t rfl
      show ∃ live, (t.nodes.modify node f)[target]? = some live ∧ live.kind.isElement = true
      rw [IdMap.getElem?_modify]
      split
      · next same =>
        rw [← same, found]
        exact ⟨f entry, rfl, by rwa [kind]⟩
      · exact ⟨entry, found, element⟩
    · rintro t rfl
      exact ⟨entry, found, element⟩
  exact (known.endState rfl).elim id id

theorem pushChild_leafed (parent child : NodeId) (message : String) :
    Meets (LeafedAt parent) (updateNode parent message (LiveNode.pushChild child))
      (fun _ => Leafed) Leafed := by
  refine (updateNode_leafed_of parent message _).mono (fun s hs => ?_) (fun _ _ h => h) fun _ h => h
  obtain ⟨leafed, entry, found, element⟩ := hs
  refine ⟨leafed, fun other here _ => ?_⟩
  rw [found] at here
  obtain rfl := Option.some.inj here
  exact element

theorem setParent_leafed (node : NodeId) (message : String) (parent : Option NodeId) :
    Keeps Leafed (updateNode node message (LiveNode.setParent parent)) :=
  updateNode_leafed node message fun _ h => h

theorem requireElement_leafed (node : NodeId) :
    Meets Leafed (requireElement node) (fun _ => LeafedAt node) Leafed := by
  intro s leafed
  have h := (requireElement_settles s node).meets.and
    ((requireElement_keeps node).mono (fun _ hs => hs ▸ leafed) (fun _ _ h => h) fun _ h => h :
      Meets (· = s) (requireElement node) (fun _ => Leafed) Leafed) s rfl
  revert h
  cases requireElement node s with
  | ok entry after =>
    rintro ⟨⟨element, rfl, found⟩, leafed⟩
    exact ⟨leafed, entry, found, (isElement_entry found).mp element⟩
  | error failure after => exact And.right

theorem appendChildWithoutInvalidation_leafed (parent child : NodeId) :
    Keeps Leafed (appendChildWithoutInvalidation parent child) := by
  refine Meets.bind (requireElement_leafed parent) fun _ => ?_
  have checks {α : Type} {next : Edit α} {Q : α → LiveDocument → Prop}
      (h : Meets (LeafedAt parent) next Q Leafed) : Meets (LeafedAt parent) (do
        let _ ← requireNode child
        depthBudgetOk parent
        next) Q Leafed := by
    refine Meets.bind ((requireNode_keeps child).onError fun _ => And.left)
      fun _ => Meets.bind ((depthBudgetOk_keeps parent).onError fun _ => And.left) fun _ => h
  exact checks (Meets.bind (pushChild_leafed parent child _) fun _ => setParent_leafed _ _ _)

theorem detach_leafedAt (node child : NodeId) : Keeps (LeafedAt node) (detach child) := by
  refine Keeps.bind (requireNode_keeps child) fun entry => ?_
  split
  · exact Keeps.pure _
  · refine Keeps.bind (updateNode_leafedAt node _ _ (fun _ => rfl) fun entry some => ?_) fun _ =>
      updateNode_leafedAt node _ _ (fun _ => rfl) fun _ some => some
    rintro none
    exact some (by rw [none, List.filter_nil])

theorem appendChild_leafed (parent child : NodeId) : Keeps Leafed (appendChild parent child) := by
  refine Meets.bind (requireElement_leafed parent) fun _ => ?_
  have weaken {α : Type} {change : Edit α} (h : Keeps (LeafedAt parent) change) :
      Meets (LeafedAt parent) change (fun _ => LeafedAt parent) Leafed :=
    h.onError fun _ => And.left
  refine Meets.bind (weaken (requireNode_keeps child)) fun _ =>
    Meets.bind (weaken (depthBudgetOk_keeps parent)) fun _ => ?_
  refine Meets.bind (weaken Keeps.get) fun document => Meets.ite (fun _ _ hs => hs.1) fun _ => ?_
  refine Meets.bind (weaken (detach_leafedAt parent child)) fun _ => ?_
  exact Meets.bind (pushChild_leafed parent child _) fun _ => setParent_leafed _ _ _

theorem removeChild_leafed (parent child : NodeId) : Keeps Leafed (removeChild parent child) := by
  refine Keeps.bind (requireNode_keeps parent) fun _ => Keeps.ite (Keeps.throw _) ?_
  refine Keeps.bind (updateNode_leafed _ _ fun entry h some => h ?_) fun _ => setParent_leafed _ _ _
  rintro none
  exact some (by rw [none, List.erase_nil])

theorem updateAttributes_leafed (node : NodeId) (message : String) (f : Attributes → Attributes) :
    Keeps Leafed (updateNode node message fun entry =>
      match entry.kind with
      | .element tag attrs isVoid => { entry with kind := .element tag (f attrs) isVoid }
      | .text _ => entry) := by
  refine updateNode_leafed _ _ fun entry h some => ?_
  cases hkind : entry.kind with
  | element tag attrs isVoid => rfl
  | text text =>
    rw [hkind] at some
    exact h some

theorem setAttribute_leafed (node : NodeId) (name value : String) :
    Keeps Leafed (setAttribute node name value) :=
  Keeps.bind (normalizeAttributeName_keeps name) fun _ =>
    Keeps.bind (requireElementMut_keeps node) fun _ => updateAttributes_leafed _ _ _

theorem removeAttribute_leafed (node : NodeId) (name : String) :
    Keeps Leafed (removeAttribute node name) :=
  Keeps.bind (normalizeAttributeName_keeps name) fun _ =>
    Keeps.bind (requireElementMut_keeps node) fun _ => updateAttributes_leafed _ _ _

theorem allocatePreferred_leafed (kind : LiveNodeKind) (preferred : Option NodeId) :
    Keeps Leafed (allocatePreferred kind preferred) := by
  refine Meets.bind Meets.get fun document => Meets.ite (fun _ => ?_) fun _ => Meets.ite (fun _ => ?_) fun _ => ?_
  · exact fun _ h => h.1
  · exact fun _ h => h.1
  · rintro s ⟨leafed, rfl⟩
    intro other entry found some
    simp only [IdMap.getElem?_insert] at found
    split at found
    · obtain rfl := Option.some.inj found
      exact absurd rfl some
    · exact leafed other entry found some

theorem createElement_leafed (tag : String) : Keeps Leafed (createElement tag) :=
  Keeps.bind (Keeps.ite (Keeps.pure _) (Keeps.throw _)) fun _ => allocatePreferred_leafed _ _

theorem leafed_rules : ImportRules Leafed (fun _ => True) (fun _ => True) fun _ _ => True where
  element _ _ _ _ _ := (allocatePreferred_leafed _ _).weaken (fun _ _ h => ⟨h, trivial⟩)
    fun _ h => h
  text _ := (allocatePreferred_leafed _ _).weaken (fun _ _ h => ⟨h, trivial⟩) fun _ h => h
  append _ _ _ _ := appendChildWithoutInvalidation_leafed _ _
  fill _ _ := trivial

theorem importElement_leafed (element : Element) (parent : Option NodeId) :
    Keeps Leafed (importElement element parent) :=
  (leafed_rules.importElement element (Element.every_of_forall (fun _ _ => trivial) element) parent
    fun _ _ => trivial).weaken (fun _ _ h => h.1) fun _ h => h

theorem appendParsedFragment_leafed (parsed : Element) (node : NodeId) :
    Keeps Leafed (appendParsedFragment parsed node) :=
  leafed_rules.appendParsedFragment trivial (Element.every_of_forall (fun _ _ => trivial) parsed)

mutual

theorem cloneNode_leafed (room : Nat) (node : NodeId) (deep : Bool) :
    Keeps Leafed (cloneNode room node deep) := by
  rw [cloneNode]
  refine Keeps.bind (requireNode_keeps node) fun entry =>
    Keeps.bind (allocatePreferred_leafed _ _) fun clone => ?_
  cases room with
  | zero => exact Keeps.throw _
  | succ room =>
    refine Keeps.ite ?_ (Keeps.pure _)
    exact Keeps.bind (cloneChildren_leafed room clone entry.children) fun _ => Keeps.pure _
termination_by (room, 0)

theorem cloneChildren_leafed (room : Nat) (clone : NodeId) (children : List NodeId) :
    Keeps Leafed (cloneChildren room clone children) := by
  rw [cloneChildren.eq_def]
  cases children with
  | nil => exact Keeps.pure _
  | cons child children =>
    exact Keeps.bind (cloneNode_leafed room child true) fun _ =>
      Keeps.bind (appendChild_leafed _ _) fun _ => cloneChildren_leafed room clone children
termination_by (room, children.length + 1)

end

theorem clearChildren_leafed (node : NodeId) (gone : String) : Keeps Leafed (clearChildren node gone) := by
  refine Keeps.bind ?_ fun entry => Keeps.bind (Keeps.modify fun s leafed => ?_) fun _ =>
    updateNode_leafed _ _ fun _ _ some => absurd rfl some
  · refine Keeps.bind Keeps.get fun document => ?_
    split
    · exact Keeps.pure _
    · exact Keeps.throw _
  · exact fun other live found some => leafed other live (freeSubtrees_entry _ _ found) some

theorem setTextContent_leafed (node : NodeId) (value : String) : Keeps Leafed (setTextContent node value) := by
  intro start leafed
  refine (Meets.bind (requireNode_known (d := start) (E := Leafed) leafed node) fun entry => ?_ :
    Meets (· = start) (setTextContent node value) (fun _ => Leafed) Leafed) start rfl
  rintro s ⟨rfl, found⟩
  cases hkind : entry.kind with
  | text text =>
    have bare : entry.children = [] := by
      by_contra some
      have element := leafed node entry found some
      rw [hkind] at element
      cases element
    refine (updateNode_leafed_of node nodeGone _).mono (A := (· = s)) (fun _ same => ?_)
      (fun _ _ h => h) (fun _ h => h) s rfl
    subst same
    refine ⟨leafed, fun other here some => ?_⟩
    rw [found] at here
    obtain rfl := Option.some.inj here
    exact absurd bare some
  | element tag attrs isVoid =>
    refine (Keeps.bind (clearChildren_leafed node nodeGone) fun _ => ?_ : Keeps Leafed _) _ leafed
    exact Keeps.ite (Keeps.pure _) (Keeps.bind (allocatePreferred_leafed _ _) fun _ =>
      appendChildWithoutInvalidation_leafed _ _)

section Markup

variable [HtmlParser]

theorem setInnerHtml_leafed (node : NodeId) (html : String) : Keeps Leafed (setInnerHtml node html) :=
  Keeps.ite (Keeps.throw _) (Keeps.bind (requireNode_keeps node) fun _ =>
    Keeps.bind (clearChildren_leafed _ _) fun _ => appendParsedFragment_leafed _ _)

theorem setShadowHtml_leafed (root : NodeId) (html : String) : Keeps Leafed (setShadowHtml root html) :=
  Keeps.ite (Keeps.throw _) (Keeps.bind Keeps.get fun _ => Keeps.ite (Keeps.throw _)
    (Keeps.bind (clearChildren_leafed _ _) fun _ => appendParsedFragment_leafed _ _))

end Markup

theorem attachShadow_leafed (host : NodeId) (mode : ShadowMode) : Keeps Leafed (attachShadow host mode) := by
  refine Keeps.bind Keeps.get fun _ => Keeps.ite (Keeps.throw _) ?_
  refine Keeps.bind (requireElement_keeps host) fun entry => Keeps.ite (Keeps.throw _) ?_
  refine Keeps.ite (Keeps.throw _) (Keeps.bind (allocatePreferred_leafed _ _) fun root => ?_)
  refine Keeps.bind (appendChildWithoutInvalidation_leafed _ _) fun _ => ?_
  exact Keeps.bind (Keeps.modify fun _ leafed => leafed) fun _ => Keeps.pure _

section Runs

variable [HtmlParser]

theorem edit_leafed (operation : Dom.Operation) : Keeps Leafed operation.edit := by
  cases operation with
  | createElement tag => exact discard_keeps (createElement_leafed tag)
  | createTextNode text => exact discard_keeps (allocatePreferred_leafed _ _)
  | importSubtree element => exact discard_keeps (importElement_leafed _ _)
  | cloneNode node deep => exact discard_keeps (cloneNode_leafed _ node deep)
  | appendChild parent child => exact appendChild_leafed parent child
  | removeChild parent child => exact removeChild_leafed parent child
  | setTextContent node value => exact setTextContent_leafed node value
  | setAttribute node name value => exact setAttribute_leafed node name value
  | removeAttribute node name => exact removeAttribute_leafed node name
  | attachShadow host mode => exact discard_keeps (attachShadow_leafed host mode)
  | setShadowHtml root html => exact setShadowHtml_leafed root html
  | setInnerHtml node html => exact setInnerHtml_leafed node html

theorem run_leafed (root : Element) (operations : List Dom.Operation) :
    Leafed (LiveDocument.run root operations) := by
  have loaded : Leafed (LiveDocument.fromElement root) := by
    have imported := importElement_leafed root none .empty (fun _ _ found => by cases found)
    rw [LiveDocument.fromElement]
    revert imported
    cases importElement root none .empty with
    | ok made document => exact id
    | error failure document => exact id
  refine List.foldlRecOn operations _ loaded fun document leafed operation _ => ?_
  rw [after_eq]
  exact (edit_leafed operation).endState leafed

end Runs

/-! ## Clones -/

section Clones

variable {base : LiveDocument}

theorem appendChild_settles {p c : NodeId} (element : IsElement document p)
    (top : document.parentOf p = none) (stored : (document.nodes[c]?).isSome)
    (orphan : document.parentOf c = none) (hne : c ≠ p) :
    Settles document (appendChild p c) True fun _ after => after = appended document p c := by
  have level : Level document p 0 := ⟨p, rfl, top⟩
  have walk := (depthWalk_level level (maxLiveDepth - 1)).mpr (by decide)
  have apart : (p = c || document.isAncestor c p) = false := by
    have none : document.isAncestor c p = false := by
      show (if p = c then true else document.ancestorWalk c 255 (document.parentOf p)) = false
      rw [if_neg hne.symm, top]
      rfl
    rw [none, Bool.or_false]
    exact decide_eq_false hne.symm
  have detach : Settles document (detach c) True fun _ after => after = document := by
    refine ((requireNode_settles document c).bind (D := True)
      (R := fun _ after => after = document) ?_).congr (iff_of_true ⟨stored, trivial⟩ trivial)
    rintro entry _ ⟨rfl, found⟩
    rw [LiveDocument.parentOf, found, Option.bind_some] at orphan
    rw [orphan]
    exact Decides.pure rfl
  have appends : Settles document (do
      Dom.detach c
      updateNode p parentGone (LiveNode.pushChild c)
      updateNode c childGone (LiveNode.setParent (some p))) True fun _ after =>
        after = appended document p c := by
    refine (detach.bind (D := True) ?_).congr (and_self_iff)
    rintro _ _ rfl
    exact pushAndSet_settles (stored_of_isElement element) stored
  refine ((requireElement_settles document p).bind (D := True)
    (R := fun _ after => after = appended document p c) ?_).congr (iff_of_true ⟨element, trivial⟩ trivial)
  rintro entry s ⟨rfl, -⟩
  refine ((requireNode_settles s c).bind (D := True) (R := fun _ after => after = appended s p c) ?_).congr
    (iff_of_true ⟨stored, trivial⟩ trivial)
  rintro live t ⟨rfl, -⟩
  refine ((depthBudgetOk_settles t p).bind (D := True) (R := fun _ after => after = appended t p c) ?_).congr
    (iff_of_true ⟨walk, trivial⟩ trivial)
  rintro _ u rfl
  refine Decides.get_bind ?_
  show Settles u (if (p = c || u.isAncestor c p) = true then _ else _) True _
  rw [apart, if_neg Bool.false_ne_true]
  exact appends

/-- A state of a clone: the nodes of `base` are as they were. -/
abbrev Cloning (base : LiveDocument) : LiveDocument → Prop := Grown base (fun _ => False) fun _ => True

theorem cloneNode_gives {start : LiveDocument} (grown : Cloning base start) (room : Nat) (node : NodeId)
    (deep : Bool) : Meets (· = start) (cloneNode room node deep)
      (fun id after => Cloning base after ∧ base.nextNodeId ≤ id) (Cloning base) :=
  (cloneNode_grown (fun _ => trivial) room node deep).mono (fun _ h => h ▸ grown) (fun _ _ h => h)
    fun _ h => h

theorem appendChild_cloning {start : LiveDocument} (grown : Cloning base start) {p c : NodeId}
    (hp : base.nextNodeId ≤ p) (hc : base.nextNodeId ≤ c) :
    Meets (· = start) (appendChild p c) (fun _ => Cloning base) (Cloning base) :=
  (appendChild_grown (.inr hp) hc).mono (fun _ h => h ▸ grown) (fun _ _ h => h) fun _ h => h

noncomputable def cloneCount (base : LiveDocument) (node : NodeId) (deep : Bool) : Nat :=
  if deep then span base node else 1

mutual

theorem cloneNode_settles (linked : base.Linked) (leafed : Leafed base) (room : Nat) (node : NodeId)
    (deep : Bool) (start : LiveDocument) (hlinked : start.Linked) (grown : Cloning base start)
    (stored : (base.nodes[node]?).isSome) (hroom : maxLiveNodes ≤ room + start.nodes.size) :
    Settles start (cloneNode room node deep) (Affords start (cloneCount base node deep))
      fun id after => Built start (cloneCount base node deep) after ∧ start.nodes[id]? = none ∧
        (after.nodes[id]?).isSome ∧ after.parentOf id = none := by
  obtain ⟨entry, found⟩ := Option.isSome_iff_exists.mp stored
  have same := (grown.same node (linked.below node stored) id).trans found
  have counted : cloneCount base node deep =
      1 + if deep then (entry.children.map (span base)).sum else 0 := by
    unfold cloneCount
    split
    · exact span_eq linked found
    · rfl
  rw [cloneNode, counted]
  refine ((requireNode_settles start node).bind (D := Affords start _) ?_).congr
    (and_iff_right (by rw [same]; rfl))
  rintro _ s ⟨rfl, here⟩
  rw [same] at here
  obtain rfl := Option.some.inj here
  rw [Affords, hasRoom_add]
  have allocation : Meets (· = s) (allocate entry.kind)
      (fun id after => Cloning base after ∧ base.nextNodeId ≤ id) (Cloning base) :=
    (allocate_gives trivial).mono (fun _ h => h ▸ grown) (fun _ _ h => h) fun _ h => h
  refine ((allocate_settles s entry.kind).known.and allocation).bind fun clone middle made => ?_
  obtain ⟨⟨afford, rfl, rfl⟩, cloning, new⟩ := made
  obtain ⟨fresh, built⟩ := allocated_made hlinked entry.kind
  have isSome := (fresh.isSome s.nextNodeId).mpr (.inl rfl)
  cases room with
  | zero =>
    -- the budget is full before the turns run out
    rw [Nat.zero_add] at hroom
    exact absurd (hasRoom_one.mp afford).1 (Nat.not_lt.mpr hroom)
  | succ room =>
    have bound : maxLiveNodes ≤ room + (allocated s entry.kind).nodes.size := by
      rw [built.size, Nat.add_comm s.nodes.size, ← Nat.add_assoc]
      exact hroom
    have below := cloneChildren_settles linked leafed room s.nextNodeId entry.children _ fresh.linked
      cloning new isSome fresh.parentOf (fun some => ?_) (fun child member => ?_) bound
    · have missing : s.nodes[s.nextNodeId]? = none := fresh.fresh
      cases deep with
      | false => exact (Decides.pure ⟨built, missing, isSome, fresh.parentOf⟩ :
          Settles _ (pure s.nextNodeId : Edit NodeId) True _).congr (iff_of_true trivial (.inl rfl))
      | true =>
        rw [← built.left, if_pos rfl]
        refine (below.bind (D := True) fun _ after rest => ?_).congr (and_iff_left trivial)
        refine Decides.pure ⟨built.trans rest, missing, rest.extend.isSome _ isSome, ?_⟩
        exact (rest.extend.parentOf _ isSome).trans fresh.parentOf
    · have element := leafed node entry found some
      have here : (allocated s entry.kind).nodes[s.nextNodeId]? =
          Option.some ⟨s.nextNodeId, none, [], entry.kind⟩ :=
        (IdMap.getElem?_insert _ _ _ _).trans (if_pos rfl)
      rw [isElement_entry here]
      exact element
    · rw [← base.isSome_links]
      exact linked.forest.child_exists ⟨_, LiveDocument.links_eq found, member⟩
termination_by (room, 0)

theorem cloneChildren_settles (linked : base.Linked) (leafed : Leafed base) (room : Nat) (clone : NodeId)
    (children : List NodeId) (start : LiveDocument) (hlinked : start.Linked) (grown : Cloning base start)
    (new : base.nextNodeId ≤ clone) (stored : (start.nodes[clone]?).isSome)
    (top : start.parentOf clone = none) (element : children ≠ [] → IsElement start clone)
    (old : ∀ child ∈ children, (base.nodes[child]?).isSome)
    (hroom : maxLiveNodes ≤ room + start.nodes.size) :
    Settles start (cloneChildren room clone children) (Affords start (children.map (span base)).sum)
      fun _ after => Built start (children.map (span base)).sum after := by
  rw [cloneChildren.eq_def]
  cases children with
  | nil =>
    have ends : Settles start (pure () : Edit Unit) True fun _ after => Built start 0 after :=
      Decides.pure (.refl hlinked)
    exact ends.congr (iff_of_true trivial (.inl rfl))
  | cons child children =>
    obtain ⟨first, rest⟩ := List.forall_mem_cons.mp old
    rw [List.map_cons, List.sum_cons, Affords, hasRoom_add]
    have hchild := (cloneNode_settles linked leafed room child true start hlinked grown first hroom).and
      (cloneNode_gives grown room child true)
    refine hchild.bind fun id middle done => ?_
    obtain ⟨⟨built, fresh, isSome, orphan⟩, cloning, newId⟩ := done
    have built : Built start (span base child) middle := built
    have hne : id ≠ clone := by
      rintro rfl
      rw [fresh] at stored
      cases stored
    have isElement : IsElement middle clone := by
      rw [IsElement, built.tags clone stored]
      exact element (List.cons_ne_nil _ _)
    have append := (appendChild_settles isElement ((built.extend.parentOf clone stored).trans top) isSome
      orphan hne).and (appendChild_cloning cloning new newId)
    refine (append.bind fun _ after done => ?_).congr (and_iff_right trivial)
    obtain ⟨rfl, cloning⟩ := done
    obtain ⟨joined, -, -⟩ := built.appended hlinked stored fresh isSome orphan
    rw [← joined.left]
    refine (cloneChildren_settles linked leafed room clone children _ joined.extend.linked cloning new
      (joined.extend.isSome clone stored) ((joined.extend.parentOf clone stored).trans top) (fun _ => ?_)
      rest ?_).mono fun _ _ last => joined.trans last
    · rw [IsElement, joined.tags clone stored]
      exact element (List.cons_ne_nil _ _)
    · rw [joined.size]
      exact Nat.le_trans hroom (Nat.add_le_add_left (Nat.le_add_right _ _) room)
termination_by (room, children.length + 1)

end

end Clones

end GhitaBrowser.Live
