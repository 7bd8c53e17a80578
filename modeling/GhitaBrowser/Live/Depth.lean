import GhitaBrowser.Lib.Forest
import GhitaBrowser.Lib.History
import GhitaBrowser.Live.ExportLaw

/-!
# The depth of the tree

`append_child` and its siblings look at the ancestors of the new parent only, and a moved or
a parsed subtree brings its own height. A run stays within the depth budget as long as every
subtree that it appends fits (`run_depth`).
-/

namespace GhitaBrowser.Live

open Dom Page

/-! ## Checks of the depth -/

section Checks

variable {document : LiveDocument}

theorem climbs_of_depthWalk {steps : Nat} {start : Option NodeId}
    (walks : document.depthWalk steps start = true) {node : NodeId} (here : start = some node)
    {count : Nat} {top : NodeId} (climbs : document.links.Climbs count node top) :
    count + 1 < steps := by
  induction steps generalizing start node count with
  | zero => cases walks
  | succ steps ih =>
    subst here
    rw [LiveDocument.depthWalk] at walks
    cases count with
    | zero =>
      -- the walk has at least the turn that finds no parent
      cases steps with
      | zero => cases walks
      | succ steps => exact Nat.succ_lt_succ (Nat.succ_pos steps)
    | succ count =>
      obtain ⟨parent, first, rest⟩ := climbs
      exact Nat.succ_lt_succ (ih walks ((LiveDocument.isParent_iff document node parent).mp first) rest)

theorem rises_of_depthWalk {node : NodeId}
    (walks : document.depthWalk (maxLiveDepth - 1) (document.parentOf node) = true) {count : Nat}
    {top : NodeId} (climbs : document.links.Climbs count node top) : count + 1 < maxLiveDepth := by
  cases count with
  | zero => decide
  | succ count =>
    obtain ⟨parent, first, rest⟩ := climbs
    have below := climbs_of_depthWalk walks ((LiveDocument.isParent_iff document node parent).mp first) rest
    exact Nat.succ_lt_succ below

end Checks

/-! ## Shallow documents -/

/-- Every node below the root is less than the budget of links away from it. -/
structure Shallow (document : LiveDocument) : Prop where
  linked : document.Linked
  rootBelow : document.root < document.nextNodeId
  depth : ∀ node count, document.links.Climbs count node document.root → count < maxLiveDepth

section Shallow

variable {document after : LiveDocument}

theorem Shallow.of_links (shallow : Shallow document) (linked : after.Linked)
    (root : after.root = document.root) (next : document.nextNodeId ≤ after.nextNodeId)
    (links : ∀ c p, after.links.IsParent c p → document.links.IsParent c p) : Shallow after where
  linked := linked
  rootBelow := by
    rw [root]
    exact Nat.lt_of_lt_of_le shallow.rootBelow next
  depth node count climbs := by
    rw [root] at climbs
    exact shallow.depth node count (climbs.mono links)

theorem Shallow.pruned (shallow : Shallow document) (pruned : Pruned document after) :
    Shallow after :=
  shallow.of_links pruned.linked pruned.root pruned.next.ge fun c p h =>
    (shallow.linked.forest.agree p c).mp
      (pruned.lists p c ((pruned.linked.forest.agree p c).mpr h))

theorem Grown.climbs {fits : LiveNodeKind → Prop}
    (grown : Grown document (fun _ => False) fits after) {count : Nat} {node top : NodeId}
    (old : top < document.nextNodeId) (climbs : after.links.Climbs count node top) :
    node < document.nextNodeId ∧ document.links.Climbs count node top := by
  induction count generalizing node with
  | zero =>
    obtain rfl := climbs
    exact ⟨old, rfl⟩
  | succ count ih =>
    obtain ⟨parent, first, rest⟩ := climbs
    obtain ⟨parentOld, rest⟩ := ih rest
    have nodeOld : node < document.nextNodeId := by
      by_contra new
      obtain ⟨links, stored, hparent⟩ := first
      obtain ⟨entry, hentry, rfl⟩ := Option.map_eq_some_iff.mp stored
      rcases grown.parents node entry (Nat.not_lt.mp new) hentry parent hparent with touched | parentNew
      · exact touched
      · exact absurd parentOld (Nat.not_lt.mpr parentNew)
    exact ⟨nodeOld, parent, (grown.isParent_old nodeOld).mp first, rest⟩

theorem Shallow.grown {fits : LiveNodeKind → Prop} (shallow : Shallow document)
    (linked : after.Linked) (grown : Grown document (fun _ => False) fits after) : Shallow after where
  linked := linked
  rootBelow := by
    rw [grown.root]
    exact Nat.lt_of_lt_of_le shallow.rootBelow grown.next
  depth node count climbs := by
    rw [grown.root] at climbs
    exact shallow.depth node count (grown.climbs shallow.rootBelow climbs).2

theorem steady_shallow : Steady Shallow where
  linked _ shallow := shallow.linked
  grows _ _ shallow linked grown := shallow.grown linked grown

end Shallow

/-! ## New nodes -/

section Extends

variable {document middle after : LiveDocument}

theorem climbs_of_extends (linked : document.Linked) (extend : Extends document after) {count : Nat}
    {node top : NodeId} (old : (document.nodes[node]?).isSome)
    (climbs : after.links.Climbs count node top) : document.links.Climbs count node top := by
  induction count generalizing node with
  | zero => exact climbs
  | succ count ih =>
    obtain ⟨parent, first, rest⟩ := climbs
    rw [LiveDocument.isParent_iff, extend.parentOf node old, ← LiveDocument.isParent_iff] at first
    have parentOld : (document.nodes[parent]?).isSome := by
      rw [← document.isSome_links]
      exact linked.forest.parent_exists first
    exact ⟨parent, first, ih parentOld rest⟩

theorem climbs_extended (linked : document.Linked) (extend : Extends document after) {count : Nat}
    {node top : NodeId} (old : (document.nodes[node]?).isSome)
    (climbs : document.links.Climbs count node top) : after.links.Climbs count node top := by
  induction count generalizing node with
  | zero => exact climbs
  | succ count ih =>
    obtain ⟨parent, first, rest⟩ := climbs
    have parentOld : (document.nodes[parent]?).isSome := by
      rw [← document.isSome_links]
      exact linked.forest.parent_exists first
    refine ⟨parent, ?_, ih parentOld rest⟩
    rwa [LiveDocument.isParent_iff, extend.parentOf node old, ← LiveDocument.isParent_iff]

theorem rises_extended (linked : document.Linked) (extend : Extends document after) {node : NodeId}
    {most : Nat} (old : (document.nodes[node]?).isSome) (rises : document.links.Rises node most) :
    after.links.Rises node most :=
  fun count top climbs => rises count top (climbs_of_extends linked extend old climbs)

theorem rises_of_absent {node : NodeId} (absent : document.nodes[node]? = none) :
    document.links.Rises node 0 := by
  refine LinkStore.rises_of_orphan fun p h => ?_
  obtain ⟨links, stored, -⟩ := h
  rw [LiveDocument.links, absent] at stored
  cases stored

/-- `after` has new nodes, none of them with more than `most` nodes above it. -/
structure Sprouted (document : LiveDocument) (most : Nat) (after : LiveDocument) : Prop where
  extend : Extends document after
  rises : ∀ node : NodeId, document.nodes[node]? = none → after.links.Rises node most

theorem Sprouted.refl (linked : document.Linked) (most : Nat) : Sprouted document most document where
  extend := .refl linked
  rises _ absent := (rises_of_absent absent).le (Nat.zero_le most)

theorem Sprouted.le {most limit : Nat} (sprouted : Sprouted document most after) (h : most ≤ limit) :
    Sprouted document limit after where
  extend := sprouted.extend
  rises node new := (sprouted.rises node new).le h

theorem Sprouted.trans {most : Nat} (first : Sprouted document most middle)
    (second : Sprouted middle most after) : Sprouted document most after where
  extend := first.extend.trans second.extend
  rises node new := by
    cases stored : middle.nodes[node]? with
    | none => exact second.rises node stored
    | some entry =>
      exact rises_extended first.extend.linked second.extend (by rw [stored]; rfl)
        (first.rises node new)

theorem sprouted_of_allocated {id : NodeId} (allocated : Allocated document id after) :
    Sprouted document 0 after where
  extend := allocated.extends
  rises node new := by
    by_cases same : node = id
    · subst same
      refine LinkStore.rises_of_orphan fun p h => ?_
      rw [LiveDocument.isParent_iff, allocated.parentOf] at h
      cases h
    · refine rises_of_absent (Option.not_isSome_iff_eq_none.mp fun stored => ?_)
      rcases (allocated.isSome node).mp stored with isNew | isOld
      · exact same isNew
      · rw [new] at isOld
        cases isOld

theorem apart_of_extends (linked : document.Linked) (extend : Extends document middle) {p c : NodeId}
    (old : (document.nodes[p]?).isSome) (fresh : document.nodes[c]? = none) :
    ¬ Relation.ReflTransGen middle.links.IsParent p c := by
  intro reaches
  have isOld := extend.old_of_reaches linked old reaches
  rw [fresh] at isOld
  cases isOld

theorem appendLeaf_known (linked : document.Linked) {p c : NodeId}
    (old : (document.nodes[p]?).isSome) (allocated : Allocated document c middle) {above limit : Nat}
    (rises : document.links.Rises p above)
    (fits : above + 1 ≤ limit ∨ maxLiveDepth ≤ limit + 1) :
    Meets (· = middle) (appendChildWithoutInvalidation p c)
      (fun _ after => Sprouted document limit after ∧ (after.nodes[c]?).isSome ∧
        after.links.Rises c (above + 1))
      (· = middle) := by
  refine (appendChildWithoutInvalidation_checks p c).weaken ?_ fun _ h => h
  rintro _ _ ⟨⟨hp, hc, walks⟩, rfl⟩
  have hcycle := apart_of_extends linked allocated.extends old allocated.fresh
  have hne : c ≠ p := by
    rintro rfl
    exact hcycle .refl
  have spec := appended_spec allocated.linked hp hc allocated.parentOf hcycle
  have extend := spec.extends allocated.extends allocated.fresh hc hne
  have rise {most : Nat} (h : document.links.Rises p most) :
      (appended middle p c).links.Rises c (most + 1) := by
    refine (rises_extended linked extend old h).child fun q hq => ?_
    rwa [spec.links, LinkStore.isParent_link (by rwa [middle.isSome_links]) hne, if_pos rfl] at hq
  refine ⟨⟨extend, fun node new => ?_⟩, spec.isSome hc, rise rises⟩
  by_cases same : node = c
  · subst same
    rcases fits with low | high
    · exact (rise rises).le low
    · -- the check has found a place for the child
      have checked : document.links.Rises p (maxLiveDepth - 2) := fun count top climbs => by
        have := rises_of_depthWalk walks (climbs_extended linked allocated.extends old climbs)
        exact Nat.le_sub_of_add_le this
      exact (rise checked).le (Nat.le_of_succ_le_succ high)
  · refine (rises_of_absent (Option.not_isSome_iff_eq_none.mp fun stored => ?_)).le (Nat.zero_le _)
    rw [← LiveDocument.isSome_links, spec.links, LinkStore.isSome_link, middle.isSome_links] at stored
    rcases (allocated.isSome node).mp stored with isNew | isOld
    · exact same isNew
    · rw [new] at isOld
      cases isOld

end Extends

/-! ## Imported trees -/

mutual

/-- The links from the top of an imported tree down to its deepest node. -/
def height : Element → Nat
  | .mk _ _ _ children text _ => max (if text.isEmpty then 0 else 1) (childHeight children)

/-- The same from the parent of the imported trees. -/
def childHeight : List Element → Nat
  | [] => 0
  | child :: children => max (height child + 1) (childHeight children)

end

mutual

theorem height_clearNodeIds : ∀ element, height (clearNodeIds element) = height element
  | .mk _ _ _ children text _ =>
    congrArg (max (if text.isEmpty then 0 else 1)) (childHeight_clearAllNodeIds children)

theorem childHeight_clearAllNodeIds : ∀ children,
    childHeight (clearAllNodeIds children) = childHeight children
  | [] => rfl
  | child :: children => congrArg₂ (fun first rest => max (first + 1) rest)
    (height_clearNodeIds child) (childHeight_clearAllNodeIds children)

end

section Import

variable {document middle after : LiveDocument} {limit : Nat}

/-- A change only makes nodes with at most `limit` nodes above them, also when it fails. -/
abbrev Sprouts {α : Type} (document : LiveDocument) (limit : Nat) (change : Edit α)
    (Q : α → LiveDocument → Prop) : Prop :=
  Meets (· = document) change (fun value after => Sprouted document limit after ∧ Q value after)
    (Sprouted document limit)

theorem Sprouts.bind {α β : Type} {first : Edit α} {next : α → Edit β}
    {Q : α → LiveDocument → Prop} {R : β → LiveDocument → Prop}
    (h : Sprouts document limit first Q)
    (hnext : ∀ value middle, Sprouted document limit middle → Q value middle →
      Sprouts middle limit (next value) R) :
    Sprouts document limit (first >>= next) R := by
  refine Meets.bind h fun value => ?_
  rintro middle ⟨sprouted, known⟩
  exact (hnext value middle sprouted known).weaken (fun _ _ h => ⟨sprouted.trans h.1, h.2⟩)
    (fun _ h => sprouted.trans h) middle rfl

theorem allocatePreferred_unchanged (kind : LiveNodeKind) (preferred : Option NodeId) :
    Meets (· = document) (allocatePreferred kind preferred) (fun _ _ => True) (· = document) := by
  refine Meets.get_bind (Meets.ite (fun _ => ?_) fun _ => Meets.ite (fun _ => ?_) fun _ => ?_)
  · exact fun _ h => h
  · exact fun _ h => h
  · exact fun _ _ => trivial

theorem allocatePreferred_known (linked : document.Linked) (kind : LiveNodeKind)
    (preferred : Option NodeId) :
    Meets (· = document) (allocatePreferred kind preferred) (Allocated document) (· = document) :=
  ((meets_of_ensures (allocatePreferred_ensures linked)).and
    (allocatePreferred_unchanged kind preferred)).weaken (fun _ _ h => h.1) fun _ h => h.2

mutual

/-- `level` nodes are above the imported tree. -/
theorem importElement_sprouts (element : Element) (parent : Option NodeId)
    (document : LiveDocument) (linked : document.Linked) {level : Nat}
    (hparent : ∀ p ∈ parent, (document.nodes[p]?).isSome ∧
      ∃ above, above + 1 = level ∧ document.links.Rises p above)
    (fits : level + height element ≤ limit ∨ maxLiveDepth ≤ limit + 1) :
    Sprouts document limit (importElement element parent) fun id after =>
      document.nodes[id]? = none ∧ (after.nodes[id]?).isSome ∧
        (parent = none → after.parentOf id = none) := by
  obtain ⟨nodeId, tag, attrs, children, text, isVoid⟩ := element
  rw [importElement]
  refine Meets.bind ((allocatePreferred_known linked _ nodeId).onError fun _ h => h ▸ .refl linked limit) fun id => ?_
  intro middle allocated
  have here : level ≤ limit ∨ maxLiveDepth ≤ limit + 1 :=
    fits.imp_left (Nat.le_trans (Nat.le_add_right level _))
  -- what follows the link to the parent is below `id`
  have hrest (start : LiveDocument) (sprouted : Sprouted document limit start)
      (hsome : (start.nodes[id]?).isSome) (rises : start.links.Rises id level)
      (hroot : parent = none → start.parentOf id = none) :
      Meets (· = start) (do
        if !text.isEmpty then
          let child ← allocate (.text (boundedText text))
          appendChildWithoutInvalidation id child
        importChildren id children
        return id) (fun id after => Sprouted document limit after ∧ document.nodes[id]? = none ∧
          (after.nodes[id]?).isSome ∧ (parent = none → after.parentOf id = none))
        (Sprouted document limit) := by
    have hchildren (first : LiveDocument) (grown : Sprouted start limit first) :
        Meets (· = first) (do importChildren id children; return id) (fun id after =>
          Sprouted document limit after ∧ document.nodes[id]? = none ∧
            (after.nodes[id]?).isSome ∧ (parent = none → after.parentOf id = none))
          (Sprouted document limit) := by
      have fitsChildren : level + childHeight children ≤ limit ∨ maxLiveDepth ≤ limit + 1 :=
        fits.imp_left (Nat.le_trans (Nat.add_le_add_left (Nat.le_max_right _ _) level))
      refine Meets.bind ((importChildren_sprouts children id first grown.extend.linked
        (grown.extend.isSome id hsome)
        (rises_extended sprouted.extend.linked grown.extend hsome rises) fitsChildren).weaken
          (fun _ _ h => h.1) fun _ h => sprouted.trans (grown.trans h)) fun _ => ?_
      intro after last
      have whole := grown.trans last
      refine ⟨sprouted.trans whole, allocated.fresh, whole.extend.isSome id hsome, fun h => ?_⟩
      rw [whole.extend.parentOf id hsome, hroot h]
    split
    · next nonempty =>
      have fitsText : level + 1 ≤ limit ∨ maxLiveDepth ≤ limit + 1 := by
        refine fits.imp_left (Nat.le_trans (Nat.add_le_add_left ?_ level))
        rw [height, if_neg (by simpa using nonempty)]
        exact Nat.le_max_left 1 _
      refine Meets.bind ((allocatePreferred_known sprouted.extend.linked _ none).onError
        fun _ h => h ▸ sprouted) fun child => ?_
      intro second added
      have append := appendLeaf_known sprouted.extend.linked hsome added rises fitsText
      refine (Meets.bind (append.weaken (fun _ _ h => h.1) fun _ h =>
        h ▸ sprouted.trans ((sprouted_of_allocated added).le (Nat.zero_le limit))) fun _ => ?_) second rfl
      intro first grown
      exact hchildren first grown first rfl
    · exact hchildren start (.refl sprouted.extend.linked limit)
  cases parent with
  | none =>
    have alone := sprouted_of_allocated allocated
    exact hrest middle (alone.le (Nat.zero_le limit)) ((allocated.isSome id).mpr (.inl rfl))
      ((alone.rises id allocated.fresh).le (Nat.zero_le level)) (fun _ => allocated.parentOf) middle rfl
  | some p =>
    obtain ⟨old, above, rfl, rises⟩ := hparent p rfl
    have append := appendLeaf_known linked old allocated rises here
    refine (Meets.bind (append.onError fun _ h =>
      h ▸ (sprouted_of_allocated allocated).le (Nat.zero_le limit)) fun _ => ?_) middle rfl
    rintro start ⟨sprouted, hsome, rises⟩
    exact hrest start sprouted hsome rises nofun start rfl

theorem importChildren_sprouts (children : List Element) (parent : NodeId)
    (document : LiveDocument) (linked : document.Linked) {level : Nat}
    (old : (document.nodes[parent]?).isSome) (rises : document.links.Rises parent level)
    (fits : level + childHeight children ≤ limit ∨ maxLiveDepth ≤ limit + 1) :
    Sprouts document limit (importChildren parent children) fun _ _ => True := by
  cases children with
  | nil =>
    rw [importChildren]
    rintro s rfl
    exact ⟨.refl linked limit, trivial⟩
  | cons child children =>
    rw [importChildren]
    have first : level + 1 + height child ≤ limit ∨ maxLiveDepth ≤ limit + 1 := by
      refine fits.imp_left fun h => Nat.le_trans ?_ h
      rw [Nat.add_assoc, Nat.add_comm 1]
      exact Nat.add_le_add_left (Nat.le_max_left _ _) level
    have rest : level + childHeight children ≤ limit ∨ maxLiveDepth ≤ limit + 1 :=
      fits.imp_left (Nat.le_trans (Nat.add_le_add_left (Nat.le_max_right _ _) level))
    have parents : ∀ p ∈ some parent, (document.nodes[p]?).isSome ∧
        ∃ above, above + 1 = level + 1 ∧ document.links.Rises p above := by
      rintro p ⟨⟩
      exact ⟨old, level, rfl, rises⟩
    refine (importElement_sprouts child (some parent) document linked parents first).bind
      fun _ middle sprouted _ => ?_
    exact importChildren_sprouts children parent middle sprouted.extend.linked
      (sprouted.extend.isSome parent old) (rises_extended linked sprouted.extend old rises) rest

end

end Import

/-! ## Appended trees -/

/-- A tree of that height fits wherever `append_child` takes it below `node`. -/
def Room (document : LiveDocument) (node : NodeId) (height : Nat) : Prop :=
  ∀ above, document.links.Climbs above node document.root → above + 1 < maxLiveDepth →
    above + 1 + height < maxLiveDepth

theorem room_zero (document : LiveDocument) (node : NodeId) : Room document node 0 :=
  fun _ _ h => h

/-- `after` has a new tree with the root `id`. -/
structure Planted (document : LiveDocument) (id : NodeId) (height : Nat) (after : LiveDocument) :
    Prop where
  sprouted : Sprouted document height after
  fresh : document.nodes[id]? = none
  isSome : (after.nodes[id]?).isSome
  orphan : after.parentOf id = none
  shallow : Shallow after
  root : after.root = document.root

/-- A shallow document with everything of another one. -/
structure Filled (document after : LiveDocument) : Prop where
  shallow : Shallow after
  extend : Extends document after
  root : after.root = document.root

section Fill

variable {document middle after : LiveDocument} {node : NodeId}

theorem Filled.trans (first : Filled document middle) (second : Filled middle after) :
    Filled document after where
  shallow := second.shallow
  extend := first.extend.trans second.extend
  root := second.root.trans first.root

theorem Filled.room (linked : document.Linked) (filled : Filled document after)
    (old : (document.nodes[node]?).isSome) {height : Nat} (room : Room document node height) :
    Room after node height := fun above climbs => by
  rw [filled.root] at climbs
  exact room above (climbs_of_extends linked filled.extend old climbs)

theorem Planted.appended {id : NodeId} {height : Nat} (shallow : Shallow document)
    (planted : Planted document id height middle) (old : (document.nodes[node]?).isSome)
    (room : Room document node height) (checked : Appendable middle node id) :
    Filled document (appended middle node id) := by
  have linked := shallow.linked
  have extend := planted.sprouted.extend
  have hcycle := apart_of_extends linked extend old planted.fresh
  have hne : id ≠ node := by
    rintro rfl
    exact hcycle .refl
  have spec := appended_spec planted.shallow.linked checked.1 checked.2.1 planted.orphan hcycle
  have whole := spec.extends extend planted.fresh checked.2.1 hne
  refine ⟨⟨spec.linked, planted.shallow.rootBelow, fun other count climbs => ?_⟩, whole, planted.root⟩
  have climbs : (Live.appended middle node id).links.Climbs count other middle.root := climbs
  rw [spec.links] at climbs
  rcases LinkStore.climbs_link (by rw [middle.isSome_links]; exact checked.2.1) hne hcycle climbs with
    before | ⟨low, high, rfl, below, above⟩
  · exact planted.shallow.depth other count before
  · rw [planted.root] at above
    have above := climbs_of_extends linked extend old above
    have checkedHigh := rises_of_depthWalk checked.2.2 (climbs_extended linked extend old above)
    -- what is below the new root is new
    have new : document.nodes[other]? = none := by
      refine Option.not_isSome_iff_eq_none.mp fun stored => ?_
      exact apart_of_extends linked extend stored planted.fresh below.reaches
    have lowest := planted.sprouted.rises other new low id below
    have fits := room high above checkedHigh
    rw [Nat.add_right_comm, Nat.add_comm low high, Nat.add_right_comm]
    exact Nat.lt_of_le_of_lt (Nat.add_le_add_left lowest (high + 1)) fits

theorem plant_fills {make : Edit NodeId} {height : Nat} (shallow : Shallow document)
    (hmake : Meets (· = document) make (fun id => Planted document id height) Shallow)
    (old : (document.nodes[node]?).isSome) (room : Room document node height) :
    Meets (· = document) (make >>= appendChildWithoutInvalidation node)
      (fun _ => Filled document) Shallow := by
  refine Meets.bind hmake fun id => ?_
  intro middle planted
  refine (appendChildWithoutInvalidation_checks node id).weaken ?_
    (fun _ h => h ▸ planted.shallow) middle rfl
  rintro _ _ ⟨checked, rfl⟩
  exact planted.appended shallow old room checked

theorem grown_from {α : Type} {change : Edit α} (linked : document.Linked)
    (h : KeepsGrown document (fun _ => False) (fun _ => True) change) :
    Meets (· = document) change (fun _ => Grown document (fun _ => False) fun _ => True)
      (Grown document (fun _ => False) fun _ => True) :=
  h.mono (fun _ hs => hs ▸ .refl linked _ _) (fun _ _ h => h) fun _ h => h

theorem allocate_planted (shallow : Shallow document) (kind : LiveNodeKind) :
    Meets (· = document) (allocate kind) (fun id => Planted document id 0) Shallow := by
  have hgrown : KeepsGrown document (fun _ => False) (fun _ => True) (allocate kind) :=
    (allocate_gives trivial).weaken (fun _ _ h => h.1) fun _ h => h
  refine ((allocatePreferred_known shallow.linked kind none).and (grown_from shallow.linked hgrown)).weaken
    ?_ fun _ h => h.1 ▸ shallow
  rintro id after ⟨allocated, grown⟩
  exact ⟨sprouted_of_allocated allocated, allocated.fresh, (allocated.isSome id).mpr (.inl rfl),
    allocated.parentOf, shallow.grown allocated.linked grown, grown.root⟩

theorem importSubtree_planted (shallow : Shallow document) (element : Element) :
    Meets (· = document) (importSubtree element)
      (fun id => Planted document id (height element)) Shallow := by
  have hgrown : KeepsGrown document (fun _ => False) (fun _ => True) (importSubtree element) :=
    (importSubtree_grown (fun _ => trivial) (Element.every_of_forall (fun _ _ _ _ => trivial) element)).weaken
      (fun _ _ h => h.1) fun _ h => h
  have fits : 0 + height (clearNodeIds element) ≤ height element ∨
      maxLiveDepth ≤ height element + 1 := by
    rw [height_clearNodeIds, Nat.zero_add]
    exact .inl (Nat.le_refl _)
  have hsprouts := importElement_sprouts (clearNodeIds element) none document shallow.linked nofun fits
  refine (hsprouts.and (grown_from shallow.linked hgrown)).weaken ?_ fun _ h =>
    shallow.grown h.1.extend.linked h.2
  rintro id after ⟨⟨sprouted, fresh, isSome, orphan⟩, grown⟩
  exact ⟨sprouted, fresh, isSome, orphan rfl, shallow.grown sprouted.extend.linked grown, grown.root⟩

theorem appendSubtrees_fills (node : NodeId) (children : List Element) (document : LiveDocument)
    (shallow : Shallow document) (old : (document.nodes[node]?).isSome)
    (room : ∀ child ∈ children, Room document node (height child)) :
    Meets (· = document) (appendSubtrees node children) (fun _ => Filled document) Shallow := by
  induction children generalizing document with
  | nil =>
    rintro s rfl
    exact ⟨shallow, .refl shallow.linked, rfl⟩
  | cons child children ih =>
    have first := plant_fills shallow (importSubtree_planted shallow child) old
      (room child List.mem_cons_self)
    rw [appendSubtrees, ← bind_assoc]
    refine first.bind fun _ => ?_
    intro middle filled
    have rest := ih middle filled.shallow (filled.extend.isSome node old) fun other member =>
      filled.room shallow.linked old (room other (List.mem_cons_of_mem _ member))
    exact rest.weaken (fun _ _ => filled.trans) (fun _ h => h) middle rfl

/-- The trees that a fragment is appended as. -/
def pieces : Element → List Element
  | .mk nodeId tag attrs children text isVoid =>
    if ["root", "html", "body"].contains tag then children
    else [.mk nodeId tag attrs children text isVoid]

theorem appendText_shallow (shallow : Shallow document) (old : (document.nodes[node]?).isSome)
    (text : String) :
    Meets (· = document) (if text.isEmpty then return () else do
      let child ← createTextNode text
      appendChildWithoutInvalidation node child) (fun _ => Shallow) Shallow := by
  refine Meets.ite (fun _ => ?_) fun _ => ?_
  · rintro s rfl
    exact shallow
  · exact (plant_fills shallow (allocate_planted shallow _) old (room_zero document node)).weaken
      (fun _ _ h => h.shallow) fun _ h => h

theorem appendParsedFragment_shallow (shallow : Shallow document)
    (old : (document.nodes[node]?).isSome) {parsed : Element}
    (room : ∀ piece ∈ pieces parsed, Room document node (height piece)) :
    Meets (· = document) (appendParsedFragment parsed node) (fun _ => Shallow) Shallow := by
  obtain ⟨nodeId, tag, attrs, children, text, isVoid⟩ := parsed
  have hrest {trees : List Element} (hroom : ∀ tree ∈ trees, Room document node (height tree)) :
      Meets (· = document) (do
        appendSubtrees node trees
        if text.isEmpty then return () else do
          let child ← createTextNode text
          appendChildWithoutInvalidation node child) (fun _ => Shallow) Shallow := by
    refine (appendSubtrees_fills node trees document shallow old hroom).bind fun _ => ?_
    intro middle filled
    exact appendText_shallow filled.shallow (filled.extend.isSome node old) text middle rfl
  simp only [appendParsedFragment]
  simp only [pieces] at room
  split
  · next htag =>
    rw [if_pos htag] at room
    exact hrest room
  · next htag =>
    rw [if_neg htag] at room
    exact hrest room

end Fill

/-! ## The operations -/

section Operations

variable {document after : LiveDocument} {node : NodeId}

theorem cleared_shallow (shallow : Shallow document) (stored : (document.nodes[node]?).isSome) :
    Shallow (cleared document node) :=
  shallow.pruned (pruned_cleared shallow.linked stored)

theorem Room.cleared (shallow : Shallow document) (stored : (document.nodes[node]?).isSome)
    {height : Nat} (room : Room document node height) : Room (cleared document node) node height := by
  have pruned := pruned_cleared shallow.linked stored
  intro above climbs
  rw [pruned.root] at climbs
  refine room above (climbs.mono fun c p h => ?_)
  exact (shallow.linked.forest.agree p c).mp
    (pruned.lists p c ((pruned.linked.forest.agree p c).mpr h))

theorem fillMarkup_shallow (shallow : Shallow document) (stored : (document.nodes[node]?).isSome)
    {parsed : Element} (room : ∀ piece ∈ pieces parsed, Room document node (height piece)) :
    Meets (· = cleared document node) (appendParsedFragment parsed node) (fun _ => Shallow) Shallow :=
  appendParsedFragment_shallow (cleared_shallow shallow stored) (cleared_isSome shallow.linked stored)
    fun piece member => (room piece member).cleared shallow stored

theorem withShadow_shallow (shallow : Shallow document) {host : NodeId}
    (attachment : Attachment document host) (middle : Shallow (allocated document shadowKind))
    (mode : ShadowMode) : Shallow (withShadow document host mode) := by
  have made := attachment.made
  obtain ⟨entry, hentry, -⟩ := attachment.plain
  have planted : Planted document document.nextNodeId 0 (allocated document shadowKind) :=
    ⟨sprouted_of_allocated made, made.fresh, (made.isSome _).mpr (.inl rfl), made.parentOf, middle, rfl⟩
  have filled := planted.appended shallow (by rw [hentry]; rfl) (room_zero document host) attachment.checked
  -- the table of shadow roots is no part of the tree
  exact filled.shallow.of_links ⟨filled.shallow.linked.forest, filled.shallow.linked.below⟩ rfl
    (Nat.le_refl _) fun _ _ h => h

/-- Whatever is moved fits below its new parent. -/
def Moves (document : LiveDocument) (p c : NodeId) : Prop :=
  ∀ above, document.links.Climbs above p document.root →
    ∀ below node, document.links.Climbs below node c → above + 1 + below < maxLiveDepth

theorem appendChild_shallow (shallow : Shallow document) {p c : NodeId} (checks : Appends document p c)
    (fits : Moves document p c) : Shallow (appended (detached document c) p c) := by
  have moving := checks.moving shallow.linked
  have middle := shallow.pruned moving.pruned
  refine ⟨moving.appended.linked, middle.rootBelow, fun node count climbs => ?_⟩
  have climbs : (appended (detached document c) p c).links.Climbs count node
    (detached document c).root := climbs
  rw [moving.appended.links] at climbs
  have stored : ((detached document c).links c).isSome := by
    rw [LiveDocument.isSome_links, detached_stored]
    exact checks.2.1
  rcases LinkStore.climbs_link stored moving.ne moving.apart climbs with
    before | ⟨low, high, rfl, below, above⟩
  · exact middle.depth node count before
  · rw [moving.pruned.root] at above
    have room := fits high (above.mono moving.detached.isParent) low node
      (below.mono moving.detached.isParent)
    rw [Nat.add_right_comm, Nat.add_comm low high, Nat.add_right_comm]
    exact room

end Operations

/-! ## Runs -/

section Runs

variable [HtmlParser]

/-- What an operation appends fits below the node that gets it. -/
def FitsDepth (document : LiveDocument) : Dom.Operation → Prop
  | .appendChild p c => Appends document p c → Moves document p c
  | .setInnerHtml node html => html.utf8ByteSize ≤ maxShadowHtmlBytes →
      (document.nodes[node]?).isSome → ∀ piece ∈ pieces (HtmlParser.parseHtml html),
        Room document node (height piece)
  | .setShadowHtml root html => html.utf8ByteSize ≤ maxShadowHtmlBytes →
      (document.shadows.toList.any fun entry => entry.2.root == root) →
        (document.nodes[root]?).isSome → ∀ piece ∈ pieces (HtmlParser.parseHtml html),
          Room document root (height piece)
  | _ => True

theorem shallow_rules : EditRules Shallow FitsDepth where
  steady := steady_shallow
  update shallow stored relabels := shallow.pruned (trimmed_modify shallow.linked stored relabels).pruned
  append shallow fits checks := appendChild_shallow shallow checks (fits checks)
  remove shallow _ lists := shallow.pruned (trimmed_unlinked shallow.linked lists).pruned
  text shallow _ stored :=
    appendText_shallow (cleared_shallow shallow stored) (cleared_isSome shallow.linked stored) _
  innerHtml shallow fits size stored := fillMarkup_shallow shallow stored (fits size stored)
  shadowHtml shallow fits size isRoot stored :=
    fillMarkup_shallow shallow stored (fits size isRoot stored)
  attach shallow _ attachment middle := withShadow_shallow shallow attachment middle _

omit [HtmlParser] in
theorem after_eq {α : Type} (document : LiveDocument) (change : Edit α) :
    document.after change = endState change document := by
  rw [LiveDocument.after, endState]
  cases change document <;> rfl

omit [HtmlParser] in
theorem chooseId_pos (document : LiveDocument) (preferred : Option NodeId)
    (h : 0 < document.nextNodeId) : 0 < document.chooseId preferred := by
  rw [LiveDocument.chooseId]
  cases hchosen : preferred.filter _ with
  | none => exact h
  | some id =>
    obtain ⟨-, hid⟩ := Option.filter_eq_some_iff.mp hchosen
    simp only [Bool.and_eq_true, bne_iff_ne] at hid
    exact Nat.pos_of_ne_zero hid.1.1

omit [HtmlParser] in
theorem fromElement_shallow (root : Element) : Shallow (LiveDocument.fromElement root) := by
  have fits : 0 + height root ≤ maxLiveDepth - 1 ∨ maxLiveDepth ≤ maxLiveDepth - 1 + 1 := .inr (by decide)
  have himport := importElement_sprouts root none .empty LiveDocument.empty_linked nofun fits .empty rfl
  have hallowed : Allowed (fun _ => True) root := Element.every_of_forall (fun _ _ _ _ => trivial) root
  have hgrown := importElement_empty (fun _ => trivial) hallowed
  have deep {document : LiveDocument} (sprouted : Sprouted .empty (maxLiveDepth - 1) document)
      (top node : NodeId) (count : Nat) (climbs : document.links.Climbs count node top) :
      count < maxLiveDepth :=
    Nat.lt_of_le_pred (by decide) (sprouted.rises node rfl count top climbs)
  obtain ⟨nodeId, tag, attrs, children, text, isVoid⟩ := root
  have hloading := importElement_loading nodeId tag attrs children text isVoid .empty rfl
  rw [endState] at hgrown
  rw [LiveDocument.fromElement]
  revert himport hgrown hloading
  cases importElement (.mk nodeId tag attrs children text isVoid) none .empty with
  | ok id document =>
    rintro ⟨sprouted, -, isSome, -⟩ - -
    have linked := sprouted.extend.linked
    exact ⟨⟨linked.forest, linked.below⟩, linked.below id isSome, deep sprouted id⟩
  | error failure document =>
    intro sprouted grown loading
    refine ⟨sprouted.extend.linked, ?_, deep sprouted document.root⟩
    -- the root keeps the number 1 and no node has a lower one
    have stored : (document.nodes[LiveDocument.empty.chooseId nodeId]?).isSome := by
      have element := loading.element
      rw [elementTag_bind] at element
      exact Option.isSome_of_isSome_bind element
    have first := chooseId_pos .empty nodeId (by decide)
    rw [grown.root]
    exact Nat.lt_of_le_of_lt first (loading.below _ stored)

/-- The steps of a run, as `History` reads them. -/
abbrev editStep (document : LiveDocument) (operation : Dom.Operation) : LiveDocument :=
  document.after operation.edit

theorem run_shallow {document : LiveDocument} (shallow : Shallow document) {operations : List Dom.Operation}
    (fits : ∀ moment ∈ History.history editStep document operations, FitsDepth moment.1 moment.2) :
    Shallow (History.run editStep document operations) := by
  induction operations generalizing document with
  | nil => exact shallow
  | cons operation operations ih =>
    obtain ⟨first, rest⟩ := List.forall_mem_cons.mp fits
    refine ih ?_ rest
    rw [editStep, after_eq]
    exact shallow_rules.edit shallow first

/-- Below the root of a document no path is longer than the budget, the root included, while
every subtree that the run appends fits. -/
theorem run_depth (root : Element) (operations : List Dom.Operation)
    (fits : ∀ moment ∈ History.history editStep (.fromElement root) operations,
      FitsDepth moment.1 moment.2) :
    ∀ node count, (LiveDocument.run root operations).links.Climbs count node
      (LiveDocument.run root operations).root → count + 1 ≤ maxLiveDepth :=
  (run_shallow (fromElement_shallow root) fits).depth

end Runs

/-- A parser that reads one empty paragraph. -/
@[reducible] def paragraphParser : HtmlParser where
  parseHtml _ := .mk none "root" [] [.mk none "p" [] [] "" false] "" false

/-- `count` elements below one another. -/
def nested : Nat → Element
  | 0 => .mk none "div" [] [] "" false
  | count + 1 => .mk none "div" [] [nested count] "" false

def climb (document : LiveDocument) : Nat → NodeId → Option NodeId
  | 0, node => some node
  | count + 1, node => (document.parentOf node).bind (climb document count)

/-- Every parent has a smaller id than its children. -/
def Older (document : LiveDocument) (newest : NodeId) : Prop :=
  ∀ entry ∈ document.nodes.toList,
    entry.1 ≤ newest ∧ ∀ parent ∈ entry.2.parent, parent < entry.1

variable {document : LiveDocument}

theorem climbs_le {newest : NodeId} (older : Older document newest)
    {count node top : Nat} (climbs : document.links.Climbs count node top) :
    top + count ≤ node := by
  induction count generalizing node with
  | zero => exact Nat.le_of_eq climbs.symm
  | succ count ih =>
    obtain ⟨parent, first, rest⟩ := climbs
    obtain ⟨entry, found, below⟩ :=
      Option.bind_eq_some_iff.mp ((LiveDocument.isParent_iff _ _ _).mp first)
    have smaller := (older _ (Std.ExtTreeMap.mem_toList_iff_getElem?_eq_some.mpr found)).2 _ below
    exact Nat.lt_of_le_of_lt (ih rest) smaller

theorem Older.moves {newest : Nat} (older : Older document newest)
    {p c : Nat} (fits : p + newest + 1 < document.root + c + maxLiveDepth)
    (among : c ≤ newest) : Moves document p c := by
  intro above climbs below node down
  have high := climbs_le older climbs
  have low := climbs_le older down
  have bound : c + below ≤ newest := by
    cases below with
    | zero => exact among
    | succ below =>
      obtain ⟨parent, first, -⟩ := down
      obtain ⟨entry, found, -⟩ :=
        Option.bind_eq_some_iff.mp ((LiveDocument.isParent_iff _ _ _).mp first)
      exact low.trans (older _ (Std.ExtTreeMap.mem_toList_iff_getElem?_eq_some.mpr found)).1
  omega

theorem fitsDepth_pair [HtmlParser] {first second : Dom.Operation}
    (h : FitsDepth document first) (h' : FitsDepth (editStep document first) second) :
    ∀ moment ∈ History.history editStep document [first, second], FitsDepth moment.1 moment.2 := by
  intro moment member
  rcases List.mem_cons.mp member with rfl | member
  · exact h
  · obtain rfl := List.mem_singleton.mp member
    exact h'

/-- A tree of sixteen levels goes below the last node of a page of as many. -/
def grownPage : LiveDocument :=
  @LiveDocument.run paragraphParser (nested 15) [.importSubtree (nested 15), .appendChild 16 17]

def importedPage : LiveDocument :=
  @editStep paragraphParser (.fromElement (nested 15)) (.importSubtree (nested 15))

/-- All of it is moved at once, to the thirty-second level. -/
theorem run_depth_paragraph :
    (∀ node count, grownPage.links.Climbs count node grownPage.root → count + 1 ≤ maxLiveDepth) ∧
      climb grownPage 31 32 = some grownPage.root := by
  have older : Older importedPage 32 := by
    unfold Older
    decide +kernel
  have root : importedPage.root = 1 := by decide +kernel
  have moves : Moves importedPage 16 17 := older.moves (by rw [root]; decide) (by decide)
  unfold importedPage at moves
  exact ⟨@run_depth paragraphParser _ _ (@fitsDepth_pair _ paragraphParser _ _ trivial
    fun _ => moves), by decide +kernel⟩

theorem climbs_of_climb {count : Nat} {node top : NodeId}
    (h : climb document count node = some top) : document.links.Climbs count node top := by
  induction count generalizing node with
  | zero => exact Option.some.inj h
  | succ count ih =>
    obtain ⟨parent, first, rest⟩ := Option.bind_eq_some_iff.mp h
    exact ⟨parent, (LiveDocument.isParent_iff _ _ _).mpr first, ih rest⟩

/-- Sixteen trees of sixteen levels are joined from below, the last one to the page. -/
def tower : List Dom.Operation :=
  List.replicate 16 (.importSubtree (nested 15)) ++
    (List.range 16).reverse.map fun k => .appendChild (16 * (k + 1)) (16 * (k + 1) + 1)

/-- The check of the last append sees sixteen levels; 256 more come with the child. -/
theorem tower_too_deep : ¬ ∀ node count,
    (@LiveDocument.run paragraphParser (nested 15) tower).links.Climbs count node
      (@LiveDocument.run paragraphParser (nested 15) tower).root → count + 1 ≤ maxLiveDepth := by
  intro shallow
  have deep : (match @LiveDocument.run paragraphParser (nested 15) tower with
      | document => climb document 256 257 == some document.root) = true := by
    decide +kernel
  exact absurd (shallow 257 256 (climbs_of_climb (eq_of_beq deep))) (by decide)

end GhitaBrowser.Live
