import GhitaBrowser.Lib.Keeps
import GhitaBrowser.Live.Depth

/-!
# When new nodes fit

An edit that makes nodes asks for them one after the other, and each append checks the depth
of its parent. What follows says exactly when all of it goes through: when the budget of
nodes and of ids affords the whole count and no tree is too high.
-/

namespace GhitaBrowser.Live

open Dom Page

variable {document middle after : LiveDocument} {node : NodeId}

/-! ## Steps -/

/-- A failure that the caller gets as an error. -/
def IsMessage (failure : Failure) : Prop := ∃ message, failure = .error message

/-- The edit succeeds exactly when `C` holds, and else answers with an error. -/
abbrev Settles {α : Type} (document : LiveDocument) (change : Edit α) (C : Prop)
    (Q : α → LiveDocument → Prop) : Prop := Decides IsMessage document change C Q

theorem fail_settles {α : Type} {message : String} {Q : α → LiveDocument → Prop} :
    Settles document (fail message) False Q := Decides.throw ⟨message, rfl⟩

theorem requireNode_settles (document : LiveDocument) (node : NodeId) :
    Settles document (requireNode node) ((document.nodes[node]?).isSome)
      fun entry after => after = document ∧ document.nodes[node]? = some entry := by
  refine Decides.get_bind ?_
  cases found : document.nodes[node]? with
  | some entry => exact (Decides.pure ⟨rfl, rfl⟩).congr (by simp)
  | none => exact fail_settles.congr (by simp)

theorem isElement_entry {entry : LiveNode} (found : document.nodes[node]? = some entry) :
    IsElement document node ↔ entry.kind.isElement = true := by
  rw [IsElement, elementTag_bind, found, Option.bind_some]
  cases entry.kind <;> simp [kindTag, LiveNodeKind.isElement]

theorem stored_of_isElement (h : IsElement document node) : (document.nodes[node]?).isSome := by
  rw [IsElement, elementTag_bind] at h
  exact Option.isSome_of_isSome_bind h

theorem requireElement_settles (document : LiveDocument) (node : NodeId) :
    Settles document (requireElement node) (IsElement document node)
      fun entry after => after = document ∧ document.nodes[node]? = some entry := by
  refine ((requireNode_settles document node).bind (D := IsElement document node)
    (R := fun entry after => after = document ∧ document.nodes[node]? = some entry) ?_).congr
      (and_iff_right_of_imp stored_of_isElement)
  rintro entry _ ⟨rfl, found⟩
  refine Decides.ite (fun element => ?_) fun text => ?_
  · exact (Decides.pure ⟨rfl, found⟩).congr (by simpa using (isElement_entry found).mpr element)
  · exact fail_settles.congr (by rw [isElement_entry found]; simp [text])

theorem depthBudgetOk_settles (document : LiveDocument) (node : NodeId) :
    Settles document (depthBudgetOk node)
      (document.depthWalk (maxLiveDepth - 1) (document.parentOf node) = true)
      fun _ after => after = document := by
  refine Decides.get_bind (Decides.ite (fun walk => ?_) fun walk => ?_)
  · have ends : Settles document (pure () : Edit Unit) True fun _ after => after = document :=
      Decides.pure rfl
    exact ends.congr (by simp [walk])
  · exact fail_settles.congr (by simp [walk])

theorem updateNode_settles (document : LiveDocument) (node : NodeId) (message : String)
    (f : LiveNode → LiveNode) :
    Settles document (updateNode node message f) ((document.nodes[node]?).isSome)
      fun _ after => after = { document with nodes := document.nodes.modify node f } := by
  refine Decides.get_bind (Decides.ite (fun stored => ?_) fun stored => ?_)
  · have stored := (IdMap.contains_iff _ _).mp stored
    show Decides IsMessage document (set _) _ _
    exact ⟨stored, rfl⟩
  · exact fail_settles.congr (by simpa [IdMap.contains_iff] using stored)

/-- Where something may be appended. -/
def Takes (document : LiveDocument) (node : NodeId) : Prop :=
  IsElement document node ∧
    document.depthWalk (maxLiveDepth - 1) (document.parentOf node) = true

theorem pushAndSet_settles {p c : NodeId} (hp : (document.nodes[p]?).isSome)
    (hc : (document.nodes[c]?).isSome) :
    Settles document (do
      updateNode p parentGone (LiveNode.pushChild c)
      updateNode c childGone (LiveNode.setParent (some p))) True
      fun _ after => after = appended document p c := by
  refine ((updateNode_settles document p _ _).bind (D := True)
    (R := fun _ after => after = appended document p c) ?_).congr (by simp [hp])
  rintro _ _ rfl
  refine (updateNode_settles _ c _ _).congr ?_
  rw [LiveDocument.isSome_modify]
  simp [hc]

/-- `append_child_without_invalidation` makes three checks. -/
theorem appendChildWithoutInvalidation_settles {p c : NodeId} (hc : (document.nodes[c]?).isSome) :
    Settles document (appendChildWithoutInvalidation p c) (Takes document p)
      fun _ after => after = appended document p c := by
  refine ((requireElement_settles document p).bind
    (D := document.depthWalk (maxLiveDepth - 1) (document.parentOf p) = true)
    (R := fun _ after => after = appended document p c) ?_).congr Iff.rfl
  rintro entry _ ⟨rfl, found⟩
  refine ((requireNode_settles _ c).bind
    (D := LiveDocument.depthWalk _ (maxLiveDepth - 1) (LiveDocument.parentOf _ p) = true)
    (R := fun _ after => after = appended _ p c) ?_).congr (and_iff_right hc)
  rintro live s ⟨rfl, -⟩
  refine ((depthBudgetOk_settles s p).bind (D := True) (R := fun _ after => after = appended s p c)
    ?_).congr (and_iff_left trivial)
  rintro _ _ rfl
  exact pushAndSet_settles (by rw [found]; rfl) hc

/-! ## Counting -/

/-- Beside `size` nodes and below the id `next`, so many new nodes can be made. -/
def HasRoom (size next count : Nat) : Prop :=
  count = 0 ∨ size + count ≤ maxLiveNodes ∧ next + count ≤ maxNodeId

theorem hasRoom_add {size next first second : Nat} : HasRoom size next (first + second) ↔
    HasRoom size next first ∧ HasRoom (size + first) (next + first) second := by
  unfold HasRoom
  omega

theorem hasRoom_one {size next : Nat} :
    HasRoom size next 1 ↔ size < maxLiveNodes ∧ next + 1 ≤ maxNodeId := by
  unfold HasRoom
  omega

abbrev Affords (document : LiveDocument) (count : Nat) : Prop :=
  HasRoom document.nodes.size document.nextNodeId count

/-- `after` has `count` new nodes, and the old ones are where they were. -/
structure Built (document : LiveDocument) (count : Nat) (after : LiveDocument) : Prop where
  extend : Extends document after
  tags : ∀ node : NodeId, (document.nodes[node]?).isSome →
    elementTag after node = elementTag document node
  size : after.nodes.size = document.nodes.size + count
  next : after.nextNodeId = document.nextNodeId + count

theorem Built.refl (linked : document.Linked) : Built document 0 document :=
  ⟨.refl linked, fun _ _ => rfl, rfl, rfl⟩

theorem Built.trans {first second : Nat} (built : Built document first middle)
    (rest : Built middle second after) : Built document (first + second) after where
  extend := built.extend.trans rest.extend
  tags node stored := (rest.tags node (built.extend.isSome node stored)).trans (built.tags node stored)
  size := by rw [rest.size, built.size, Nat.add_assoc]
  next := by rw [rest.next, built.next, Nat.add_assoc]

theorem Built.left {count : Nat} (built : Built document count after) (more : Nat) :
    Affords after more ↔ HasRoom (document.nodes.size + count) (document.nextNodeId + count) more := by
  rw [Affords, built.size, built.next]

theorem allocate_settles (document : LiveDocument) (kind : LiveNodeKind) :
    Settles document (allocate kind) (Affords document 1)
      fun id after => id = document.nextNodeId ∧ after = allocated document kind := by
  have next : max document.nextNodeId document.nextNodeId = document.nextNodeId := Nat.max_self _
  refine Decides.get_bind (Decides.ite (fun full => ?_) fun room => Decides.ite (fun last => ?_) fun more => ?_)
  · exact fail_settles.congr (iff_of_false id fun h => Nat.not_le.mpr (hasRoom_one.mp h).1 full)
  · refine fail_settles.congr (iff_of_false id fun h => Nat.not_le.mpr last ?_)
    exact (congrArg (· + 1) next).trans_le (hasRoom_one.mp h).2
  · refine ⟨hasRoom_one.mpr ⟨Nat.not_le.mp room, ?_⟩, rfl, rfl⟩
    exact (congrArg (· + 1) next).symm.trans_le (Nat.not_lt.mp more)

theorem allocated_made (linked : document.Linked) (kind : LiveNodeKind) :
    Allocated document document.nextNodeId (allocated document kind) ∧
      Built document 1 (allocated document kind) := by
  have fresh : document.nodes[document.nextNodeId]? = none := by
    refine Option.not_isSome_iff_eq_none.mp fun stored => ?_
    exact Nat.lt_irrefl _ (linked.below _ stored)
  have made : Allocated document document.nextNodeId (allocated document kind) := by
    refine ⟨⟨?_, fun other stored => ?_⟩, fresh, document.links_insert _ _ kind⟩
    · rw [allocated, document.links_insert]
      exact linked.forest.create (by rw [LiveDocument.links, fresh]; rfl)
    · refine Nat.lt_succ_of_le ?_
      simp only [allocated, IdMap.getElem?_insert] at stored
      split at stored
      · next same => exact same ▸ Nat.le_max_right _ _
      · exact Nat.le_trans (Nat.le_of_lt (linked.below other stored)) (Nat.le_max_left _ _)
  refine ⟨made, made.extends, fun other stored => elementTag_congr ?_, ?_, ?_⟩
  · have hne : other ≠ document.nextNodeId := by
      rintro rfl
      rw [fresh] at stored
      cases stored
    exact congrArg (Option.map LiveNode.kind) ((IdMap.getElem?_insert _ _ _ _).trans (if_neg hne))
  · refine Std.ExtTreeMap.size_insert.trans (if_neg fun member => ?_)
    have stored := (IdMap.contains_iff _ _).mp (Std.ExtTreeMap.mem_iff_contains.mp member)
    rw [fresh] at stored
    cases stored
  · exact congrArg (· + 1) (Nat.max_self _)

theorem Built.appended {count : Nat} {p c : NodeId} (linked : document.Linked)
    (built : Built document count middle) (hp : (document.nodes[p]?).isSome)
    (fresh : document.nodes[c]? = none) (hc : (middle.nodes[c]?).isSome)
    (orphan : middle.parentOf c = none) :
    Built document count (appended middle p c) ∧ ((appended middle p c).nodes[c]?).isSome ∧
      (appended middle p c).parentOf c = some p := by
  have hcycle := apart_of_extends linked built.extend hp fresh
  have hne : c ≠ p := by
    rintro rfl
    exact hcycle .refl
  have spec := appended_spec built.extend.linked (built.extend.isSome p hp) hc orphan hcycle
  refine ⟨⟨spec.extends built.extend fresh hc hne, fun node stored => ?_, ?_, built.next⟩,
    spec.isSome hc, ?_⟩
  · rw [← built.tags node stored]
    exact elementTag_modify middle p c node (fun _ => rfl) fun _ => rfl
  · rw [← built.size, Live.appended]
    exact Std.ExtTreeMap.size_modify.trans Std.ExtTreeMap.size_modify
  · rw [← LiveDocument.isParent_iff, spec.links,
      LinkStore.isParent_link (by rwa [middle.isSome_links]) hne, if_pos rfl]

/-! ## Levels -/

/-- `level` nodes are above the node. -/
def Level (document : LiveDocument) (node : NodeId) (level : Nat) : Prop :=
  ∃ top, document.links.Climbs level node top ∧ document.parentOf top = none

theorem depthWalk_level {level : Nat} (h : Level document node level) (steps : Nat) :
    document.depthWalk steps (document.parentOf node) = true ↔ level < steps := by
  obtain ⟨top, climbs, orphan⟩ := h
  induction level generalizing node steps with
  | zero =>
    obtain rfl := climbs
    rw [orphan]
    cases steps with
    | zero => exact iff_of_false Bool.false_ne_true (Nat.lt_irrefl 0)
    | succ steps => exact iff_of_true rfl (Nat.zero_lt_succ steps)
  | succ level ih =>
    obtain ⟨parent, up, rest⟩ := climbs
    rw [(LiveDocument.isParent_iff _ _ _).mp up]
    cases steps with
    | zero => exact iff_of_false Bool.false_ne_true (Nat.not_lt_zero _)
    | succ steps => exact (ih steps rest).trans Nat.succ_lt_succ_iff.symm

theorem depthWalk_extends (linked : document.Linked) (extend : Extends document after)
    (stored : (document.nodes[node]?).isSome) (steps : Nat) :
    after.depthWalk steps (after.parentOf node) = document.depthWalk steps (document.parentOf node) := by
  induction steps generalizing node with
  | zero => rfl
  | succ steps ih =>
    rw [extend.parentOf node stored]
    cases up : document.parentOf node with
    | none => rfl
    | some parent =>
      refine ih ?_
      rw [← document.isSome_links]
      exact linked.forest.parent_exists ((LiveDocument.isParent_iff _ _ _).mpr up)

theorem Built.takes {count : Nat} (linked : document.Linked) (built : Built document count after)
    (stored : (document.nodes[node]?).isSome) : Takes after node ↔ Takes document node := by
  rw [Takes, Takes, IsElement, IsElement, built.tags node stored,
    depthWalk_extends linked built.extend stored]

theorem Built.level {count level : Nat} (linked : document.Linked) (built : Built document count after)
    (stored : (document.nodes[node]?).isSome) (h : Level document node level) :
    Level after node level := by
  obtain ⟨top, climbs, orphan⟩ := h
  refine ⟨top, climbs_extended linked built.extend stored climbs, ?_⟩
  rcases Relation.ReflTransGen.cases_tail climbs.reaches with rfl | ⟨below, -, up⟩
  · rw [built.extend.parentOf top stored, orphan]
  · have stored : (document.nodes[top]?).isSome := by
      rw [← document.isSome_links]
      exact linked.forest.parent_exists up
    rw [built.extend.parentOf top stored, orphan]

/-! ## Imported trees -/

/-- A text is no node when it is empty. -/
def textCount (text : String) : Nat := if text.isEmpty then 0 else 1

mutual

/-- The nodes that an import of the element makes. -/
def count : Element → Nat
  | .mk _ _ _ children text _ => 1 + (textCount text + childCount children)

def childCount : List Element → Nat
  | [] => 0
  | child :: children => count child + childCount children

end

mutual

theorem count_clearNodeIds : ∀ element, count (clearNodeIds element) = count element
  | .mk _ _ _ children text _ =>
    congrArg (fun below => 1 + (textCount text + below)) (childCount_clearAllNodeIds children)

theorem childCount_clearAllNodeIds : ∀ children, childCount (clearAllNodeIds children) = childCount children
  | [] => rfl
  | child :: children => congrArg₂ (· + ·) (count_clearNodeIds child) (childCount_clearAllNodeIds children)

end

/-- Where the trees of an import are put. -/
structure Site (document : LiveDocument) (node : NodeId) (level : Nat) : Prop where
  linked : document.Linked
  element : IsElement document node
  level : Level document node level

namespace Site

variable {level : Nat}

theorem stored (site : Site document node level) : (document.nodes[node]?).isSome :=
  stored_of_isElement site.element

theorem built {count : Nat} (site : Site document node level) (built : Built document count after) :
    Site after node level where
  linked := built.extend.linked
  element := by
    rw [IsElement, built.tags node site.stored]
    exact site.element
  level := built.level site.linked site.stored site.level

theorem takes (site : Site document node level) :
    Takes document node ↔ level + 1 ≤ maxLiveDepth - 1 := by
  rw [Takes, depthWalk_level site.level]
  exact and_iff_right site.element

theorem append {c : NodeId} {kind : LiveNodeKind} (site : Site document node level)
    (h : c = document.nextNodeId ∧ middle = allocated document kind) :
    Settles middle (appendChildWithoutInvalidation node c) (level + 1 ≤ maxLiveDepth - 1)
      fun _ after => Built document 1 after ∧ (after.nodes[c]?).isSome ∧
        after.parentOf c = some node ∧ after = appended middle node c := by
  obtain ⟨rfl, rfl⟩ := h
  obtain ⟨made, built⟩ := allocated_made site.linked kind
  have stored := (made.isSome document.nextNodeId).mpr (.inl rfl)
  refine ((appendChildWithoutInvalidation_settles stored).congr ?_).mono ?_
  · rw [built.takes site.linked site.stored, site.takes]
  · rintro _ _ rfl
    obtain ⟨built, stored, up⟩ :=
      built.appended site.linked site.stored made.fresh stored made.parentOf
    exact ⟨built, stored, up, rfl⟩

end Site

theorem site_allocated (linked : document.Linked) (tag : String) (attrs : Attributes) (isVoid : Bool) :
    Site (allocated document (.element tag attrs isVoid)) document.nextNodeId 0 := by
  obtain ⟨made, built⟩ := allocated_made linked (.element tag attrs isVoid)
  refine ⟨made.linked, ?_, document.nextNodeId, rfl, made.parentOf⟩
  rw [IsElement, elementTag, allocated, IdMap.getElem?_insert, if_pos rfl]
  rfl

theorem Site.appended {level : Nat} {tag : String} {attrs : Attributes} {isVoid : Bool}
    (site : Site document node level)
    (linked : (appended (allocated document (.element tag attrs isVoid)) node document.nextNodeId).Linked)
    (up : (Live.appended (allocated document (.element tag attrs isVoid)) node
      document.nextNodeId).parentOf document.nextNodeId = some node)
    (built : Built document 1
      (Live.appended (allocated document (.element tag attrs isVoid)) node document.nextNodeId)) :
    Site (Live.appended (allocated document (.element tag attrs isVoid)) node document.nextNodeId)
      document.nextNodeId (level + 1) := by
  have alone := site_allocated site.linked tag attrs isVoid
  refine ⟨linked, ?_, ?_⟩
  · have same := elementTag_modify (allocated document (.element tag attrs isVoid)) node
      document.nextNodeId document.nextNodeId (f := LiveNode.pushChild document.nextNodeId)
      (g := LiveNode.setParent (some node)) (fun _ => rfl) fun _ => rfl
    have element := alone.element
    rw [IsElement, ← same] at element
    exact element
  · obtain ⟨top, climbs, orphan⟩ := (site.built built).level
    exact ⟨top, ⟨node, (LiveDocument.isParent_iff _ _ _).mpr up, climbs⟩, orphan⟩

mutual

/-- `level` nodes are above the imported tree. -/
theorem importElement_settles (element : Element) (plain : element.Every fun nodeId _ => nodeId = none)
    (parent : Option NodeId) (document : LiveDocument) (linked : document.Linked) (level : Nat)
    (hparent : ∀ p ∈ parent, ∃ above, above + 1 = level ∧ Site document p above)
    (hnone : parent = none → level = 0) :
    Settles document (importElement element parent)
      (Affords document (count element) ∧ level + height element ≤ maxLiveDepth - 1)
      fun id after => Built document (count element) after ∧ (after.nodes[id]?).isSome ∧
        document.nodes[id]? = none ∧ after.parentOf id = parent := by
  obtain ⟨nodeId, tag, attrs, children, text, isVoid⟩ := element
  obtain ⟨rfl, plain⟩ := plain
  rw [importElement, count, height]
  -- what follows the link to the parent is below `id`
  have fill (start : LiveDocument) (id : NodeId) (site : Site start id level)
      (low : level ≤ maxLiveDepth - 1) : Settles start (do
        if !text.isEmpty then
          let child ← allocate (.text (boundedText text))
          appendChildWithoutInvalidation id child
        importChildren id children
        return id)
        (Affords start (textCount text + childCount children) ∧
          level + max (if text.isEmpty then 0 else 1) (childHeight children) ≤ maxLiveDepth - 1)
        fun made after => made = id ∧ Built start (textCount text + childCount children) after := by
    have hchildren (middle : LiveDocument) (site : Site middle id level) :
        Settles middle (do importChildren id children; return id)
          (Affords middle (childCount children) ∧ level + childHeight children ≤ maxLiveDepth - 1)
          fun made after => made = id ∧ Built middle (childCount children) after :=
      ((importChildren_settles children plain id middle site low).bind (D := True)
        (R := fun made after => made = id ∧ Built middle (childCount children) after)
        fun _ after built => Decides.pure ⟨rfl, built⟩).congr (and_iff_left trivial)
    have limit : level + max (if text.isEmpty then 0 else 1) (childHeight children) ≤ maxLiveDepth - 1 ↔
        level + (if text.isEmpty then 0 else 1) ≤ maxLiveDepth - 1 ∧
          level + childHeight children ≤ maxLiveDepth - 1 := by
      rw [← Nat.add_max_add_left, Nat.max_le]
    rw [limit, Affords, hasRoom_add, textCount]
    split
    · next nonempty =>
      rw [Bool.not_eq_true'] at nonempty
      rw [nonempty, if_neg Bool.false_ne_true]
      have hrest (child : NodeId) (middle : LiveDocument)
          (h : child = start.nextNodeId ∧ middle = allocated start (.text (boundedText text))) :
          Settles middle (do
            appendChildWithoutInvalidation id child
            importChildren id children
            return id) (level + 1 ≤ maxLiveDepth - 1 ∧
              HasRoom (start.nodes.size + 1) (start.nextNodeId + 1) (childCount children) ∧
                level + childHeight children ≤ maxLiveDepth - 1)
            fun made after => made = id ∧ Built start (1 + childCount children) after := by
        refine (site.append h).bind fun _ next done => ?_
        have built := done.1
        rw [← built.left]
        exact (hchildren next (site.built built)).mono fun _ _ h => ⟨h.1, built.trans h.2⟩
      refine ((allocate_settles start _).bind hrest).congr ?_
      tauto
    · next empty =>
      rw [Bool.not_eq_true', Bool.not_eq_false] at empty
      rw [empty, if_pos rfl, Nat.zero_add, Nat.add_zero, Nat.add_zero, Nat.add_zero]
      refine (hchildren start site).congr ?_
      exact ⟨fun h => ⟨⟨.inl rfl, h.1⟩, low, h.2⟩, fun h => ⟨h.1.2, h.2.2⟩⟩
  -- the document in which `id` has its place
  have finish (start : LiveDocument) (id : NodeId) (built : Built document 1 start)
      (site : Site start id level) (fresh : document.nodes[id]? = none) (up : start.parentOf id = parent)
      (low : level ≤ maxLiveDepth - 1) :=
    ((fill start id site low).mono (R := fun made after =>
      Built document (1 + (textCount text + childCount children)) after ∧ (after.nodes[made]?).isSome ∧
        document.nodes[made]? = none ∧ after.parentOf made = parent) fun made after h => by
          obtain ⟨rfl, rest⟩ := h
          exact ⟨built.trans rest, rest.extend.isSome made site.stored, fresh,
            (rest.extend.parentOf made site.stored).trans up⟩).congr
      (and_congr_left' (built.left _))
  rw [Affords, hasRoom_add]
  cases parent with
  | none =>
    obtain rfl := hnone rfl
    refine ((allocate_settles document _).bind fun id middle h => ?_).congr and_assoc.symm
    obtain ⟨rfl, rfl⟩ := h
    obtain ⟨made, built⟩ := allocated_made linked (.element tag (retainedAttributes attrs) isVoid)
    exact finish _ _ built (site_allocated linked _ _ _) made.fresh made.parentOf (Nat.zero_le _)
  | some p =>
    obtain ⟨above, rfl, site⟩ := hparent p rfl
    refine ((allocate_settles document _).bind (D := above + 1 ≤ maxLiveDepth - 1 ∧
      HasRoom (document.nodes.size + 1) (document.nextNodeId + 1) (textCount text + childCount children) ∧
        above + 1 + max (if text.isEmpty then 0 else 1) (childHeight children) ≤ maxLiveDepth - 1)
      fun id middle h => ?_).congr ?_
    · refine (site.append h).known.bind fun _ start done => ?_
      obtain ⟨rfl, rfl⟩ := h
      obtain ⟨low, built, stored, up, rfl⟩ := done
      have fresh := (allocated_made linked (.element tag (retainedAttributes attrs) isVoid)).1.fresh
      exact finish _ _ built (site.appended built.extend.linked up built) fresh up low
    · have low (h : above + 1 + max (if text.isEmpty then 0 else 1) (childHeight children) ≤
          maxLiveDepth - 1) : above + 1 ≤ maxLiveDepth - 1 := Nat.le_trans (Nat.le_add_right _ _) h
      tauto

theorem importChildren_settles (children : List Element)
    (plain : Element.EveryChild (fun nodeId _ => nodeId = none) children) (parent : NodeId)
    (document : LiveDocument) {level : Nat} (site : Site document parent level)
    (low : level ≤ maxLiveDepth - 1) :
    Settles document (importChildren parent children)
      (Affords document (childCount children) ∧ level + childHeight children ≤ maxLiveDepth - 1)
      fun _ after => Built document (childCount children) after := by
  cases children with
  | nil =>
    rw [importChildren, childCount, childHeight]
    have ends : Settles document (pure () : Edit Unit) True fun _ after => Built document 0 after :=
      Decides.pure (.refl site.linked)
    exact ends.congr (iff_of_true trivial ⟨.inl rfl, low⟩)
  | cons child children =>
    obtain ⟨first, rest⟩ := plain
    rw [importChildren, childCount, childHeight, Affords, hasRoom_add]
    have hchild := importElement_settles child first (some parent) document site.linked
      (level + 1) (by rintro p ⟨⟩; exact ⟨level, rfl, site⟩) nofun
    refine (hchild.bind (D := HasRoom (document.nodes.size + count child)
      (document.nextNodeId + count child) (childCount children) ∧
        level + childHeight children ≤ maxLiveDepth - 1) fun _ middle done => ?_).congr ?_
    · have built := done.1
      rw [← built.left]
      exact (importChildren_settles children rest parent middle (site.built built) low).mono
        fun _ _ next => built.trans next
    · rw [← Nat.add_max_add_left, Nat.max_le, Nat.add_right_comm level 1, Nat.add_assoc level]
      tauto

end

theorem importSubtree_settles (linked : document.Linked) (element : Element) :
    Settles document (importSubtree element)
      (Affords document (count element) ∧ height element ≤ maxLiveDepth - 1)
      fun id after => Built document (count element) after ∧ (after.nodes[id]?).isSome ∧
        document.nodes[id]? = none ∧ after.parentOf id = none := by
  have plain := Element.every_clearNodeIds (P := fun _ _ => True) (Q := fun nodeId _ => nodeId = none)
    (fun _ _ _ => rfl) element (Element.every_of_forall (fun _ _ => trivial) element)
  have imported := importElement_settles (clearNodeIds element) plain none document linked 0
    nofun fun _ => rfl
  rwa [count_clearNodeIds, height_clearNodeIds, Nat.zero_add] at imported

theorem plant_settles (linked : document.Linked) (stored : (document.nodes[node]?).isSome)
    (element : Element) :
    Settles document (importSubtree element >>= appendChildWithoutInvalidation node)
      ((Affords document (count element) ∧ height element ≤ maxLiveDepth - 1) ∧ Takes document node)
      fun _ after => Built document (count element) after := by
  refine (importSubtree_settles linked element).bind fun id middle done => ?_
  obtain ⟨built, isSome, fresh, orphan⟩ := done
  refine ((appendChildWithoutInvalidation_settles isSome).congr (built.takes linked stored)).mono ?_
  rintro _ _ rfl
  exact (built.appended linked stored fresh isSome orphan).1

theorem appendSubtrees_settles (node : NodeId) (children : List Element) (document : LiveDocument)
    (linked : document.Linked) (stored : (document.nodes[node]?).isSome) :
    Settles document (appendSubtrees node children)
      (Affords document (childCount children) ∧
        ∀ child ∈ children, height child ≤ maxLiveDepth - 1 ∧ Takes document node)
      fun _ after => Built document (childCount children) after := by
  induction children generalizing document with
  | nil =>
    have ends : Settles document (appendSubtrees node []) True fun _ after => Built document 0 after :=
      Decides.pure (.refl linked)
    exact ends.congr (iff_of_true trivial ⟨.inl rfl, nofun⟩)
  | cons child children ih =>
    rw [appendSubtrees, ← bind_assoc, childCount, Affords, hasRoom_add]
    refine ((plant_settles linked stored child).bind (D := HasRoom (document.nodes.size + count child)
      (document.nextNodeId + count child) (childCount children) ∧
        ∀ other ∈ children, height other ≤ maxLiveDepth - 1 ∧ Takes document node)
      fun _ middle built => ?_).congr ?_
    · rw [← built.left, ← built.takes linked stored]
      exact (ih middle built.extend.linked (built.extend.isSome node stored)).mono fun _ _ rest =>
        built.trans rest
    · rw [List.forall_mem_cons]
      tauto

theorem appendText_settles (linked : document.Linked) (stored : (document.nodes[node]?).isSome)
    (text : String) :
    Settles document (if text.isEmpty then return () else do
      let child ← createTextNode text
      appendChildWithoutInvalidation node child)
      (Affords document (textCount text) ∧ (text.isEmpty ∨ Takes document node)) fun _ _ => True := by
  unfold textCount
  refine Decides.ite (fun empty => ?_) fun nonempty => ?_
  · have ends : Settles document (return () : Edit Unit) True fun _ _ => True := Decides.pure trivial
    rw [if_pos empty]
    exact ends.congr (iff_of_true trivial ⟨.inl rfl, .inl empty⟩)
  · rw [if_neg nonempty, or_iff_right nonempty]
    refine (allocate_settles document _).bind fun child middle h => ?_
    obtain ⟨rfl, rfl⟩ := h
    obtain ⟨made, built⟩ := allocated_made linked (.text (boundedText text))
    refine (appendChildWithoutInvalidation_settles ((made.isSome _).mpr (.inl rfl))).mono
      (fun _ _ _ => trivial) |>.congr (built.takes linked stored)

def fragmentText : Element → String
  | .mk _ _ _ _ text _ => text

/-- The nodes that a fragment is appended as. -/
def fragmentCount (parsed : Element) : Nat := childCount (pieces parsed) + textCount (fragmentText parsed)

/-- No tree of the fragment is too high, and the node takes what there is. -/
def FragmentFits (document : LiveDocument) (node : NodeId) (parsed : Element) : Prop :=
  (∀ piece ∈ pieces parsed, height piece ≤ maxLiveDepth - 1 ∧ Takes document node) ∧
    ((fragmentText parsed).isEmpty ∨ Takes document node)

theorem appendParsedFragment_settles (linked : document.Linked) (stored : (document.nodes[node]?).isSome)
    (parsed : Element) :
    Settles document (appendParsedFragment parsed node)
      (Affords document (fragmentCount parsed) ∧ FragmentFits document node parsed) fun _ _ => True := by
  have both (trees : List Element) (text : String) : Settles document (do
      appendSubtrees node trees
      if text.isEmpty then return () else do
        let child ← createTextNode text
        appendChildWithoutInvalidation node child)
      (Affords document (childCount trees + textCount text) ∧
        (∀ tree ∈ trees, height tree ≤ maxLiveDepth - 1 ∧ Takes document node) ∧
          (text.isEmpty ∨ Takes document node)) fun _ _ => True := by
    refine ((appendSubtrees_settles node trees document linked stored).bind
      (D := HasRoom (document.nodes.size + childCount trees) (document.nextNodeId + childCount trees)
        (textCount text) ∧ (text.isEmpty ∨ Takes document node)) fun _ middle built => ?_).congr ?_
    · rw [← built.left, ← built.takes linked stored]
      exact appendText_settles built.extend.linked (built.extend.isSome node stored) text
    · rw [Affords, Affords, hasRoom_add]
      tauto
  obtain ⟨nodeId, tag, attrs, children, text, isVoid⟩ := parsed
  simp only [appendParsedFragment, fragmentCount, FragmentFits, pieces, fragmentText]
  split
  · exact both children text
  · exact both _ text

end GhitaBrowser.Live
