import GhitaBrowser.Live.Growth

/-!
# Edits of the composed tree

An edit makes new nodes, removes links, or adds one link. Each keeps a document
composable under a condition on the state before it.
-/

namespace GhitaBrowser.Live

open Dom Page Relation

variable {base document after : LiveDocument}

/-! ## Reading -/

variable {node : NodeId}

theorem elementTag_congr
    (h : (after.nodes[node]?).map LiveNode.kind = (base.nodes[node]?).map LiveNode.kind) :
    elementTag after node = elementTag base node := by
  rw [elementTag, elementTag, h]

theorem isShadowRoot_congr (h : elementTag after node = elementTag base node) :
    isShadowRoot after node = isShadowRoot base node := by
  rw [isShadowRoot, isShadowRoot, h]

theorem isShadowRoot_missing (h : document.nodes[node]? = none) :
    isShadowRoot document node = false := by
  rw [isShadowRoot, elementTag, h]
  rfl

theorem isShadowRoot_entry {entry : LiveNode} (h : document.nodes[node]? = some entry) :
    isShadowRoot document node = entry.kind.isShadowRoot := by
  rw [isShadowRoot, elementTag, h, Option.map_some]
  cases entry.kind with
  | text text => rfl
  | element tag attrs isVoid => exact Bool.eq_iff_iff.mpr (by simp [LiveNodeKind.isShadowRoot])

theorem stored_of_lists (linked : document.Linked) {child : NodeId}
    (h : document.links.Lists node child) :
    (document.nodes[node]?).isSome ∧ (document.nodes[child]?).isSome := by
  rw [← document.isSome_links, ← document.isSome_links]
  refine ⟨?_, linked.forest.child_exists h⟩
  obtain ⟨links, hlinks, -⟩ := h
  rw [hlinks]
  rfl

theorem grounded_lists (linked : document.Linked) : Grounded document.links.Lists := by
  refine grounded_of_acyclic ((Set.finite_lt_nat document.nextNodeId).subset ?_) fun node hloop => ?_
  · rintro child ⟨node, hlists⟩
    exact linked.below child (stored_of_lists linked hlists).2
  · refine linked.forest.acyclic node (transGen_swap.mp ?_)
    exact TransGen.mono (fun p c => (linked.forest.agree p c).mp) node node hloop

/-! ## New nodes -/

namespace Grown

variable {touched : NodeId → Prop} {fits : LiveNodeKind → Prop}

theorem elementTag_old (grown : Grown base touched fits after)
    (hnode : node < base.nextNodeId) : elementTag after node = elementTag base node := by
  refine elementTag_congr ?_
  have hframe := congrArg (Option.map Prod.snd) (grown.frames node hnode)
  rwa [Option.map_map, Option.map_map] at hframe

theorem isSome_old (grown : Grown base touched fits after) (hnode : node < base.nextNodeId) :
    (after.nodes[node]?).isSome = (base.nodes[node]?).isSome := by
  have hframe := congrArg Option.isSome (grown.frames node hnode)
  rwa [Option.isSome_map, Option.isSome_map] at hframe

theorem isParent_old (grown : Grown base touched fits after) {child : NodeId}
    (hchild : child < base.nextNodeId) :
    after.links.IsParent child node ↔ base.links.IsParent child node := by
  have hframe := congrArg (fun value => value.bind Prod.fst) (grown.frames child hchild)
  have hbind (value : Option LiveNode) : (value.map frame).bind Prod.fst = value.bind LiveNode.parent := by
    cases value <;> rfl
  rw [LiveDocument.isParent_iff, LiveDocument.isParent_iff, LiveDocument.parentOf,
    LiveDocument.parentOf, ← hbind, ← hbind]
  exact iff_of_eq (congrArg (· = some node) hframe)

variable (linked : base.Linked) (linked' : after.Linked) (grown : Grown base touched fits after)

include linked linked' grown

theorem lists_old {child : NodeId} (hnode : node < base.nextNodeId)
    (h : after.links.Lists node child) :
    base.links.Lists node child ∨ touched node ∧ base.nextNodeId ≤ child := by
  rcases Nat.lt_or_ge child base.nextNodeId with hchild | hchild
  · refine .inl ((linked.forest.agree node child).mpr ?_)
    exact (grown.isParent_old hchild).mp ((linked'.forest.agree node child).mp h)
  · by_cases htouched : touched node
    · exact .inr ⟨htouched, hchild⟩
    · left
      rwa [LinkStore.Lists, LiveDocument.links, ← grown.same node hnode htouched]

theorem lists_new {child : NodeId} (hnode : base.nextNodeId ≤ node)
    (h : after.links.Lists node child) : base.nextNodeId ≤ child := by
  refine Nat.not_lt.mp fun hchild => ?_
  have hparent := (grown.isParent_old hchild).mp ((linked'.forest.agree node child).mp h)
  have hstored := (stored_of_lists linked ((linked.forest.agree node child).mpr hparent)).1
  exact Nat.not_lt.mpr hnode (linked.below node hstored)

theorem grounded (hgrounded : Grounded (Composed base)) (recorded : Recorded base) :
    Grounded (Composed after) := by
  refine hgrounded.grow (grounded_lists linked') (· < base.nextNodeId) (fun node child hnode h => ?_)
    fun node child hnode h => ?_
  · cases h with
    | child hlists hplain =>
      rcases lists_old linked linked' grown hnode hlists with hlists | hnew
      · have hchild := linked.below child (stored_of_lists linked hlists).2
        refine .inl (.child hlists fun hroot => ?_)
        rw [← grown.shadows]
        exact hplain ((isShadowRoot_congr (grown.elementTag_old hchild)).trans hroot)
      · exact .inr (Nat.not_lt.mpr hnew.2)
    | shadow hrecord =>
      rw [grown.shadows] at hrecord
      exact .inl (.shadow hrecord)
  · cases h with
    | child hlists _ =>
      exact ⟨Nat.not_lt.mpr (lists_new linked linked' grown (Nat.not_lt.mp hnode) hlists), hlists⟩
    | shadow hrecord =>
      rw [grown.shadows] at hrecord
      exact absurd (recorded.host_below _ _ hrecord) hnode

omit linked linked' in
theorem recorded (h : Recorded base) : Recorded after where
  host_below host record hrecord := by
    rw [grown.shadows] at hrecord
    exact Nat.lt_of_lt_of_le (h.host_below host record hrecord) grown.next
  root_below host record hrecord := by
    rw [grown.shadows] at hrecord
    exact Nat.lt_of_lt_of_le (h.root_below host record hrecord) grown.next
  host_plain host record hrecord := by
    rw [grown.shadows] at hrecord
    have hold := h.host_below host record hrecord
    exact (isShadowRoot_congr (grown.elementTag_old hold)).trans (h.host_plain host record hrecord)
  root_named host record hrecord hstored := by
    rw [grown.shadows] at hrecord
    have hold := h.root_below host record hrecord
    rw [grown.isSome_old hold] at hstored
    exact (isShadowRoot_congr (grown.elementTag_old hold)).trans (h.root_named host record hrecord hstored)

/-- Something new may show. -/
def Shows (base : LiveDocument) (touched : NodeId → Prop) : Prop :=
  ∃ node, touched node ∧ Visible base node

theorem visible (h : Composable base) (hvisible : Visible after node) :
    node < base.nextNodeId ∧ Visible base node ∨
      base.nextNodeId ≤ node ∧ (after.nodes[node]?).isSome ∧ Shows base touched := by
  have hold {other : NodeId} (hother : Visible base other) : other < base.nextNodeId :=
    linked.below other (h.intact other hother).stored
  have hroot : Visible base base.root := .refl
  refine closed_of_reaches (V := fun node => node < base.nextNodeId ∧ Visible base node ∨
      base.nextNodeId ≤ node ∧ (after.nodes[node]?).isSome ∧ Shows base touched)
    (fun node child hnode hstep => ?_) ?_ hvisible
  · rcases hnode with ⟨hlt, hnode⟩ | ⟨hge, -, hshows⟩
    · cases hstep with
      | child hlists hplain =>
        rcases lists_old linked linked' grown hlt hlists with hlists' | ⟨htouched, hnew⟩
        · have hchild := linked.below child (stored_of_lists linked hlists').2
          have hstep : Composed base node child := .child hlists' fun hroot => by
            rw [← grown.shadows]
            exact hplain ((isShadowRoot_congr (grown.elementTag_old hchild)).trans hroot)
          exact .inl ⟨hchild, hnode.tail hstep⟩
        · exact .inr ⟨hnew, (stored_of_lists linked' hlists).2, node, htouched, hnode⟩
      | shadow hrecord =>
        rw [grown.shadows] at hrecord
        have hshown : Visible base _ := hnode.tail (.shadow hrecord)
        exact .inl ⟨hold hshown, hshown⟩
    · cases hstep with
      | child hlists _ =>
        exact .inr ⟨lists_new linked linked' grown hge hlists, (stored_of_lists linked' hlists).2, hshows⟩
      | shadow hrecord =>
        rw [grown.shadows] at hrecord
        exact absurd (h.recorded.host_below _ _ hrecord) (Nat.not_lt.mpr hge)
  · rw [grown.root]
    exact .inl ⟨hold hroot, hroot⟩

theorem composable (h : Composable base)
    (hplain : Shows base touched → ∀ kind, fits kind → kind.isShadowRoot = false) :
    Composable after where
  linked := linked'
  recorded := grown.recorded h.recorded
  grounded := grown.grounded linked linked' h.grounded h.recorded
  root_element := by
    have hold := linked.below _ (h.intact base.root .refl).stored
    rw [IsElement, grown.root, grown.elementTag_old hold]
    exact h.root_element
  root_plain := by
    have hold := linked.below _ (h.intact base.root .refl).stored
    rw [grown.root, isShadowRoot_congr (grown.elementTag_old hold)]
    exact h.root_plain
  intact node hvisible := by
    have hnew {other : NodeId} (hother : base.nextNodeId ≤ other) (hstored : (after.nodes[other]?).isSome)
        (hshows : Shows base touched) : isShadowRoot after other = false := by
      obtain ⟨entry, hentry⟩ := Option.isSome_iff_exists.mp hstored
      rw [isShadowRoot_entry hentry]
      exact hplain hshows _ (grown.kinds other entry hother hentry)
    rcases grown.visible linked linked' h hvisible with ⟨hlt, hnode⟩ | ⟨hge, hstored, hshows⟩
    · have hintact := h.intact node hnode
      refine ⟨?_, fun hhost => ?_, fun hnone child hlists => ?_⟩
      · rw [grown.isSome_old hlt]
        exact hintact.stored
      · rw [grown.shadows] at hhost
        rw [grown.elementTag_old hlt]
        exact hintact.slot hhost
      · rw [grown.shadows] at hnone
        rcases grown.lists_old linked linked' hlt hlists with hlists' | ⟨htouched, hge⟩
        · have hchild := linked.below child (stored_of_lists linked hlists').2
          rw [isShadowRoot_congr (grown.elementTag_old hchild)]
          exact hintact.plain hnone child hlists'
        · exact hnew hge (stored_of_lists linked' hlists).2 ⟨node, htouched, hnode⟩
    · refine ⟨hstored, fun hhost => ?_, fun hnone child hlists => ?_⟩
      · rw [grown.shadows] at hhost
        obtain ⟨record, hrecord⟩ := Option.isSome_iff_exists.mp hhost
        exact absurd (h.recorded.host_below node record hrecord) (Nat.not_lt.mpr hge)
      · exact hnew (grown.lists_new linked linked' hge hlists) (stored_of_lists linked' hlists).2 hshows

end Grown

/-! ## Links removed -/

/-- `after` has lost links and nodes of `base`. -/
structure Pruned (base after : LiveDocument) : Prop where
  linked : after.Linked
  shadows : after.shadows = base.shadows
  root : after.root = base.root
  next : after.nextNodeId = base.nextNodeId
  stored : ∀ node : NodeId, (after.nodes[node]?).isSome → (base.nodes[node]?).isSome
  tags : ∀ node : NodeId, (after.nodes[node]?).isSome → elementTag after node = elementTag base node
  lists : ∀ node child : NodeId, after.links.Lists node child → base.links.Lists node child

namespace Pruned

variable (pruned : Pruned base after)

include pruned

theorem isShadowRoot_child {child : NodeId} (h : after.links.Lists node child) :
    isShadowRoot after child = isShadowRoot base child :=
  isShadowRoot_congr (pruned.tags child (stored_of_lists pruned.linked h).2)

theorem composed {child : NodeId} (h : Composed after node child) : Composed base node child := by
  cases h with
  | child hlists hplain =>
    refine .child (pruned.lists node child hlists) fun hroot => ?_
    rw [← pruned.shadows]
    exact hplain ((pruned.isShadowRoot_child hlists).trans hroot)
  | shadow hrecord =>
    rw [pruned.shadows] at hrecord
    exact .shadow hrecord

theorem reaches {other : NodeId} (h : ReflTransGen (Composed after) node other) :
    ReflTransGen (Composed base) node other :=
  ReflTransGen.mono (fun _ _ => pruned.composed) node other h

theorem visible (h : Visible after node) : Visible base node := by
  rw [Visible, ← pruned.root]
  exact pruned.reaches h

theorem recorded (h : Recorded base) : Recorded after where
  host_below host record hrecord := by
    rw [pruned.shadows] at hrecord
    exact pruned.next ▸ h.host_below host record hrecord
  root_below host record hrecord := by
    rw [pruned.shadows] at hrecord
    exact pruned.next ▸ h.root_below host record hrecord
  host_plain host record hrecord := by
    rw [pruned.shadows] at hrecord
    cases hstored : after.nodes[host]? with
    | none => exact isShadowRoot_missing hstored
    | some entry =>
      rw [isShadowRoot_congr (pruned.tags host (by rw [hstored]; rfl))]
      exact h.host_plain host record hrecord
  root_named host record hrecord hstored := by
    rw [pruned.shadows] at hrecord
    rw [isShadowRoot_congr (pruned.tags _ hstored)]
    exact h.root_named host record hrecord (pruned.stored _ hstored)

theorem intact (h : Intact base node) (hstored : (after.nodes[node]?).isSome) :
    Intact after node where
  stored := hstored
  slot hhost := by
    rw [pruned.shadows] at hhost
    rw [pruned.tags node hstored]
    exact h.slot hhost
  plain hnone child hlists := by
    rw [pruned.shadows] at hnone
    rw [pruned.isShadowRoot_child hlists]
    exact h.plain hnone child (pruned.lists node child hlists)

theorem composable (h : Composable base)
    (hstored : ∀ node, Visible after node → (after.nodes[node]?).isSome) : Composable after where
  linked := pruned.linked
  recorded := pruned.recorded h.recorded
  grounded := h.grounded.mono fun _ _ => pruned.composed
  root_element := by
    rw [IsElement, pruned.tags _ (hstored after.root .refl), pruned.root]
    exact h.root_element
  root_plain := by
    rw [isShadowRoot_congr (pruned.tags _ (hstored after.root .refl)), pruned.root]
    exact h.root_plain
  intact node hvisible := pruned.intact (h.intact node (pruned.visible hvisible)) (hstored node hvisible)

end Pruned

/-! ## A link added -/

/-- `after` has one link more than `base`. -/
structure Joined (base : LiveDocument) (p c : NodeId) (after : LiveDocument) : Prop where
  linked : after.Linked
  shadows : after.shadows = base.shadows
  root : after.root = base.root
  next : after.nextNodeId = base.nextNodeId
  stored : ∀ node : NodeId, (after.nodes[node]?).isSome = (base.nodes[node]?).isSome
  tags : ∀ node : NodeId, elementTag after node = elementTag base node
  lists : ∀ node child : NodeId, after.links.Lists node child ↔
    base.links.Lists node child ∨ node = p ∧ child = c

/-- The child does not lead back to the parent. Where the parent shows, everything that the
child shows is intact. A host does not show a shadow root that is appended to it. -/
def MayAppend (document : LiveDocument) (p c : NodeId) : Prop :=
  (isShadowRoot document c = true → document.shadows[p]? = none) →
    ¬ ReflTransGen (Composed document) c p ∧
      (Visible document p → isShadowRoot document c = false ∧
        ∀ node, ReflTransGen (Composed document) c node → Intact document node)

theorem MayAppend.prune {p c : NodeId} (h : MayAppend base p c) (pruned : Pruned base after)
    (hstored : ∀ node : NodeId, (after.nodes[node]?).isSome = (base.nodes[node]?).isSome)
    (hc : (after.nodes[c]?).isSome) : MayAppend after p c := by
  intro hcounts
  have htag := isShadowRoot_congr (pruned.tags c hc)
  rw [htag, pruned.shadows] at hcounts
  obtain ⟨hback, hshown⟩ := h hcounts
  refine ⟨fun hreach => hback (pruned.reaches hreach), fun hvisible => ?_⟩
  obtain ⟨hplain, hintact⟩ := hshown (pruned.visible hvisible)
  refine ⟨htag.trans hplain, fun node hreach => ?_⟩
  have hnode := hintact node (pruned.reaches hreach)
  exact pruned.intact hnode ((hstored node).trans hnode.stored)

namespace Joined

variable {p c : NodeId} (joined : Joined base p c after)

include joined

theorem isShadowRoot_eq (node : NodeId) : isShadowRoot after node = isShadowRoot base node :=
  isShadowRoot_congr (joined.tags node)

theorem composed {child : NodeId} (h : Composed after node child) :
    Composed base node child ∨
      (isShadowRoot base c = true → base.shadows[p]? = none) ∧ node = p ∧ child = c := by
  cases h with
  | child hlists hplain =>
    rw [joined.isShadowRoot_eq, joined.shadows] at hplain
    rcases (joined.lists node child).mp hlists with hlists | ⟨rfl, rfl⟩
    · exact .inl (.child hlists hplain)
    · exact .inr ⟨hplain, rfl, rfl⟩
  | shadow hrecord =>
    rw [joined.shadows] at hrecord
    exact .inl (.shadow hrecord)

theorem recorded (h : Recorded base) : Recorded after where
  host_below host record hrecord := by
    rw [joined.shadows] at hrecord
    exact joined.next ▸ h.host_below host record hrecord
  root_below host record hrecord := by
    rw [joined.shadows] at hrecord
    exact joined.next ▸ h.root_below host record hrecord
  host_plain host record hrecord := by
    rw [joined.shadows] at hrecord
    exact (joined.isShadowRoot_eq host).trans (h.host_plain host record hrecord)
  root_named host record hrecord hstored := by
    rw [joined.shadows] at hrecord
    rw [joined.stored] at hstored
    exact (joined.isShadowRoot_eq _).trans (h.root_named host record hrecord hstored)

theorem grounded (hgrounded : Grounded (Composed base)) (hmay : MayAppend base p c) :
    Grounded (Composed after) := by
  by_cases hcounts : isShadowRoot base c = true → base.shadows[p]? = none
  · refine hgrounded.link (hmay hcounts).1 fun node child h => ?_
    exact (joined.composed h).imp_right And.right
  · exact hgrounded.mono fun node child h => (joined.composed h).resolve_right fun hnew => hcounts hnew.1

theorem visible (hmay : MayAppend base p c) (hvisible : Visible after node) :
    Visible base node ∨ (isShadowRoot base c = true → base.shadows[p]? = none) ∧ Visible base p ∧
      ReflTransGen (Composed base) c node := by
  refine closed_of_reaches (V := fun node => Visible base node ∨
      (isShadowRoot base c = true → base.shadows[p]? = none) ∧ Visible base p ∧
        ReflTransGen (Composed base) c node) (fun node child hnode hstep => ?_) ?_ hvisible
  · rcases joined.composed hstep with hstep | ⟨hcounts, rfl, rfl⟩
    · rcases hnode with hnode | ⟨hcounts, hp, hreach⟩
      · exact .inl (hnode.tail hstep)
      · exact .inr ⟨hcounts, hp, hreach.tail hstep⟩
    · rcases hnode with hnode | ⟨-, hp, -⟩
      · exact .inr ⟨hcounts, hnode, .refl⟩
      · exact .inr ⟨hcounts, hp, .refl⟩
  · rw [joined.root]
    exact .inl .refl

theorem composable (h : Composable base) (hmay : MayAppend base p c) : Composable after where
  linked := joined.linked
  recorded := joined.recorded h.recorded
  grounded := joined.grounded h.grounded hmay
  root_element := by
    rw [IsElement, joined.tags, joined.root]
    exact h.root_element
  root_plain := by
    rw [joined.isShadowRoot_eq, joined.root]
    exact h.root_plain
  intact node hvisible := by
    have hcases := joined.visible hmay hvisible
    have hintact : Intact base node := by
      rcases hcases with hnode | ⟨hcounts, hp, hreach⟩
      · exact h.intact node hnode
      · exact ((hmay hcounts).2 hp).2 node hreach
    refine ⟨?_, fun hhost => ?_, fun hnone child hlists => ?_⟩
    · rw [joined.stored]
      exact hintact.stored
    · rw [joined.shadows] at hhost
      rw [joined.tags]
      exact hintact.slot hhost
    · rw [joined.shadows] at hnone
      rw [joined.isShadowRoot_eq]
      rcases (joined.lists node child).mp hlists with hlists | ⟨rfl, rfl⟩
      · exact hintact.plain hnone child hlists
      · have hshown : Visible base node := by
          rcases hcases with hnode | ⟨-, hp, -⟩
          · exact hnode
          · exact hp
        exact ((hmay fun _ => hnone).2 hshown).1

end Joined

/-! ## A new host -/

/-- `after` has a new shadow root below `host`, and a record of it. -/
structure Hosted (base : LiveDocument) (host shadow : NodeId) (after : LiveDocument) : Prop where
  linked : after.Linked
  root : after.root = base.root
  below : base.nextNodeId ≤ shadow ∧ shadow < after.nextNodeId
  stored : ∀ node : NodeId, (after.nodes[node]?).isSome ↔ (base.nodes[node]?).isSome ∨ node = shadow
  tags : ∀ node : NodeId, node ≠ shadow → elementTag after node = elementTag base node
  tag : elementTag after shadow = some "shadow-root"
  lists : ∀ node child : NodeId, after.links.Lists node child →
    base.links.Lists node child ∨ node = host ∧ child = shadow
  shadows : ∃ mode, after.shadows = base.shadows.insert host ⟨host, shadow, mode⟩
  held : (base.nodes[host]?).isSome
  plain : isShadowRoot base host = false
  new : base.shadows[host]? = none

namespace Hosted

variable {host shadow : NodeId} (hosted : Hosted base host shadow after) (linked : base.Linked)

section

include hosted

theorem record_cases {key : NodeId} {record : ShadowRootRecord} (h : after.shadows[key]? = some record) :
    base.shadows[key]? = some record ∨ key = host ∧ record.host = host ∧ record.root = shadow := by
  obtain ⟨mode, hshadows⟩ := hosted.shadows
  rw [hshadows, IdMap.getElem?_insert] at h
  split at h
  · next hkey =>
    obtain rfl := Option.some.inj h
    exact .inr ⟨hkey, rfl, rfl⟩
  · exact .inl h

theorem not_recorded {key : NodeId} (h : after.shadows[key]? = none) :
    key ≠ host ∧ base.shadows[key]? = none := by
  obtain ⟨mode, hshadows⟩ := hosted.shadows
  rw [hshadows, IdMap.getElem?_insert] at h
  split at h
  · cases h
  · next hkey => exact ⟨hkey, h⟩

end

section

include hosted linked

theorem ne_shadow (h : (base.nodes[node]?).isSome) : node ≠ shadow := by
  rintro rfl
  exact Nat.lt_irrefl _ (Nat.lt_of_lt_of_le (linked.below _ h) hosted.below.1)

theorem isShadowRoot_old (h : (base.nodes[node]?).isSome) :
    isShadowRoot after node = isShadowRoot base node :=
  isShadowRoot_congr (hosted.tags node (ne_shadow hosted linked h))

theorem composed {child : NodeId} (h : Composed after node child) :
    Composed base node child ∨ node = host ∧ child = shadow := by
  cases h with
  | child hlists hplain =>
    rcases hosted.lists node child hlists with hlists | hnew
    · refine .inl (.child hlists fun hroot => ?_)
      rw [← isShadowRoot_old hosted linked (stored_of_lists linked hlists).2] at hroot
      exact (hosted.not_recorded (hplain hroot)).2
    · exact .inr hnew
  | shadow hrecord =>
    rcases hosted.record_cases hrecord with hrecord | ⟨hkey, -, hroot⟩
    · exact .inl (.shadow hrecord)
    · exact .inr ⟨hkey, hroot⟩

variable (recorded : Recorded base)

include recorded

theorem not_composed_shadow (child : NodeId) : ¬ Composed base shadow child := by
  intro h
  cases h with
  | child hlists _ => exact ne_shadow hosted linked (stored_of_lists linked hlists).1 rfl
  | shadow hrecord =>
    exact Nat.not_lt.mpr hosted.below.1 (recorded.host_below _ _ hrecord)

theorem grounded (hgrounded : Grounded (Composed base)) : Grounded (Composed after) := by
  refine hgrounded.link (p := host) (q := shadow) (fun hreach => ?_) fun _ _ => composed hosted linked
  rcases ReflTransGen.cases_head hreach with heq | ⟨child, hstep, -⟩
  · exact ne_shadow hosted linked hosted.held heq.symm
  · exact not_composed_shadow hosted linked recorded child hstep

theorem recorded_after : Recorded after where
  host_below key record h := by
    have hnext : base.nextNodeId ≤ after.nextNodeId :=
      Nat.le_of_lt (Nat.lt_of_le_of_lt hosted.below.1 hosted.below.2)
    rcases hosted.record_cases h with hold | ⟨rfl, -, -⟩
    · exact Nat.lt_of_lt_of_le (recorded.host_below key record hold) hnext
    · exact Nat.lt_of_lt_of_le (linked.below _ hosted.held) hnext
  root_below key record h := by
    rcases hosted.record_cases h with hold | ⟨-, -, hroot⟩
    · exact Nat.lt_trans (Nat.lt_of_lt_of_le (recorded.root_below key record hold) hosted.below.1) hosted.below.2
    · exact hroot ▸ hosted.below.2
  host_plain key record h := by
    rcases hosted.record_cases h with hold | ⟨rfl, -, -⟩
    · have hne : key ≠ shadow := Nat.ne_of_lt
        (Nat.lt_of_lt_of_le (recorded.host_below key record hold) hosted.below.1)
      exact (isShadowRoot_congr (hosted.tags key hne)).trans (recorded.host_plain key record hold)
    · exact (isShadowRoot_old hosted linked hosted.held).trans hosted.plain
  root_named key record h hstored := by
    rcases hosted.record_cases h with hold | ⟨-, -, hroot⟩
    · have hne : record.root ≠ shadow :=
        Nat.ne_of_lt (Nat.lt_of_lt_of_le (recorded.root_below key record hold) hosted.below.1)
      have hstored := ((hosted.stored record.root).mp hstored).resolve_right hne
      exact (isShadowRoot_congr (hosted.tags _ hne)).trans (recorded.root_named key record hold hstored)
    · rw [hroot, isShadowRoot, hosted.tag]
      rfl

theorem visible (hvisible : Visible after node) :
    Visible base node ∨ node = shadow := by
  refine closed_of_reaches (V := fun node => Visible base node ∨ node = shadow)
    (fun node child hnode hstep => ?_) ?_ hvisible
  · rcases composed hosted linked hstep with hstep | ⟨-, rfl⟩
    · rcases hnode with hnode | rfl
      · exact .inl (hnode.tail hstep)
      · exact absurd hstep (not_composed_shadow hosted linked recorded child)
    · exact .inr rfl
  · rw [hosted.root]
    exact .inl .refl

omit recorded in
theorem composable (h : Composable base)
    (hslot : Visible base host → elementTag base host ≠ some "slot") : Composable after where
  linked := hosted.linked
  recorded := recorded_after hosted linked h.recorded
  grounded := grounded hosted linked h.recorded h.grounded
  root_element := by
    rw [IsElement, hosted.root, hosted.tags _ (ne_shadow hosted linked (h.intact base.root .refl).stored)]
    exact h.root_element
  root_plain := by
    rw [hosted.root, isShadowRoot_old hosted linked (h.intact base.root .refl).stored]
    exact h.root_plain
  intact node hvisible := by
    rcases visible hosted linked h.recorded hvisible with hnode | rfl
    · have hintact := h.intact node hnode
      refine ⟨(hosted.stored node).mpr (.inl hintact.stored), fun hhost => ?_, fun hnone child hlists => ?_⟩
      · rw [hosted.tags node (ne_shadow hosted linked hintact.stored)]
        obtain ⟨record, hrecord⟩ := Option.isSome_iff_exists.mp hhost
        rcases hosted.record_cases hrecord with hold | ⟨rfl, -, -⟩
        · exact hintact.slot (by rw [hold]; rfl)
        · exact hslot hnode
      · obtain ⟨hne, hnone⟩ := hosted.not_recorded hnone
        have hlists := (hosted.lists node child hlists).resolve_right fun hnew => hne hnew.1
        rw [isShadowRoot_old hosted linked (stored_of_lists linked hlists).2]
        exact hintact.plain hnone child hlists
    · refine ⟨(hosted.stored node).mpr (.inr rfl), fun _ => ?_, fun _ child hlists => ?_⟩
      · rw [hosted.tag]
        decide
      · rcases hosted.lists node child hlists with hlists | ⟨rfl, -⟩
        · exact absurd rfl (ne_shadow hosted linked (stored_of_lists linked hlists).1)
        · exact absurd rfl (ne_shadow hosted linked hosted.held)

end

end Hosted

end GhitaBrowser.Live
