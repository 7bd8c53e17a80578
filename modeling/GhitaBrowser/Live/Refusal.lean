import GhitaBrowser.Live.Clones

/-!
# What a refused edit leaves

An edit that answers with an error may have changed the nodes already: it frees the old
children before it makes the new ones, and it makes nodes one at a time. A run of checks in
advance would have to find out whether everything fits.

`refusal_unchanged_iff`: exactly when an edit that is refused leaves the nodes as they were.
-/

namespace GhitaBrowser.Live

open Dom Page

variable {document after : LiveDocument} {node : NodeId}

/-! ## Traces -/

/-- The first node was made and is still there. -/
def Left (document after : LiveDocument) : Prop :=
  Affords document 1 ∧ (after.nodes[document.nextNodeId]?).isSome

/-- A failure leaves the document alone only where the first allocation is refused. -/
def Spoiled (document after : LiveDocument) : Prop :=
  ¬ Affords document 1 ∧ after = document ∨ Left document after

theorem left_of_holds {α : Type} {change : Edit α}
    (h : ∀ table, Keeps (Holds (· = document.nextNodeId) table) change) :
    Keeps (Left document) change := by
  rintro s ⟨afford, stored⟩
  have held := h s.shadows s ⟨by rintro _ rfl; exact stored, rfl⟩
  revert held
  cases change s with
  | ok value after => exact fun held => ⟨afford, held.stored _ rfl⟩
  | error failure after => exact fun held => ⟨afford, held.stored _ rfl⟩

theorem allocate_leaves {α : Type} (kind : LiveNodeKind) {next : NodeId → Edit α}
    (hnext : ∀ id, Keeps (Left document) (next id)) :
    Meets (· = document) (allocate kind >>= next) (fun _ => Left document) (Spoiled document) := by
  have made : Meets (· = document) (allocate kind) (fun _ => Left document)
      fun after => ¬ Affords document 1 ∧ after = document := by
    refine ((allocate_settles document kind).meets.and (allocate_known kind)).weaken ?_
      fun _ h => h
    rintro _ _ ⟨⟨afford, -, rfl⟩, -⟩
    refine ⟨afford, ?_⟩
    rw [allocated, IdMap.getElem?_insert, if_pos rfl]
    rfl
  refine Meets.bind (made.onError fun _ => .inl) fun id => ?_
  exact (hnext id).onError fun _ => .inr

theorem appendNew_leaves (kind : LiveNodeKind) (node : NodeId) :
    Meets (· = document) (do
      let child ← allocate kind
      appendChildWithoutInvalidation node child) (fun _ => Left document) (Spoiled document) :=
  allocate_leaves kind fun _ => left_of_holds fun _ => appendChildWithoutInvalidation_holds _ _

theorem importSubtree_leaves (element : Element) :
    Meets (· = document) (importSubtree element) (fun _ => Left document) (Spoiled document) := by
  obtain ⟨nodeId, tag, attrs, children, text, isVoid⟩ := element
  rw [importSubtree, clearNodeIds, importElement]
  refine allocate_leaves _ fun id => left_of_holds fun table => ?_
  have below : Keeps (Holds (· = document.nextNodeId) table) (importChildren id (clearAllNodeIds children)) :=
    holds_rules.importChildren _ (Element.everyChild_of_forall (fun _ _ => trivial) _) id trivial
  have rest : Keeps (Holds (· = document.nextNodeId) table) (do
      importChildren id (clearAllNodeIds children)
      return id) := Keeps.bind below fun _ => Keeps.pure _
  dsimp only
  split
  · exact Keeps.bind (allocatePreferred_holds _ _) fun _ =>
      Keeps.bind (appendChildWithoutInvalidation_holds _ _) fun _ => rest
  · exact rest

theorem appendText_leaves (node : NodeId) (text : String) :
    Meets (· = document) (if text.isEmpty then return () else do
      let child ← createTextNode text
      appendChildWithoutInvalidation node child) (fun _ _ => True) (Spoiled document) :=
  Meets.ite (fun _ _ _ => trivial) fun _ =>
    (appendNew_leaves _ node).weaken (fun _ _ _ => trivial) fun _ h => h

theorem appendParsedFragment_leaves (parsed : Element) (node : NodeId) :
    Meets (· = document) (appendParsedFragment parsed node) (fun _ _ => True) (Spoiled document) := by
  have both (trees : List Element) (text : String) : Meets (· = document) (do
      appendSubtrees node trees
      if text.isEmpty then return () else do
        let child ← createTextNode text
        appendChildWithoutInvalidation node child) (fun _ _ => True) (Spoiled document) := by
    cases trees with
    | nil => exact appendText_leaves node text
    | cons tree trees =>
      rw [appendSubtrees, bind_assoc]
      refine (importSubtree_leaves tree).bind fun id => ?_
      refine (left_of_holds fun table => ?_ : Keeps (Left document) _).weaken (fun _ _ _ => trivial) fun _ => .inr
      refine Keeps.bind (Keeps.bind (appendChildWithoutInvalidation_holds _ _) fun _ =>
        holds_rules.appendSubtrees trivial (Element.everyChild_of_forall (fun _ _ => trivial) _)) fun _ => ?_
      exact Keeps.ite (Keeps.pure _) (Keeps.bind (createTextNode_holds _) fun _ =>
        appendChildWithoutInvalidation_holds _ _)
  obtain ⟨nodeId, tag, attrs, children, text, isVoid⟩ := parsed
  simp only [appendParsedFragment]
  split
  · exact both children text
  · exact both _ text

theorem cloneNode_leaves (stored : (document.nodes[node]?).isSome) (room : Nat) (deep : Bool) :
    Meets (· = document) (cloneNode room node deep) (fun _ _ => True) (Spoiled document) := by
  rw [cloneNode]
  have found : Meets (· = document) (requireNode node) (fun _ => (· = document)) (Spoiled document) := by
    obtain ⟨entry, found⟩ := Option.isSome_iff_exists.mp stored
    refine Meets.get_bind ?_
    rw [found]
    exact fun _ same => same
  refine found.bind fun entry => (allocate_leaves _ fun clone => left_of_holds fun table => ?_).weaken
    (fun _ _ _ => trivial) fun _ h => h
  cases room with
  | zero => exact Keeps.throw _
  | succ room =>
    refine Keeps.ite ?_ (Keeps.pure _)
    exact Keeps.bind (cloneChildren_holds room clone entry.children) fun _ => Keeps.pure _

/-! ## Refusals -/

section Unchanged

variable {α : Type} {change : Edit α} {C : Prop} {Q : α → LiveDocument → Prop}

/-- An answer with an error leaves the nodes as they were. -/
def Unchanged (change : Edit α) (document : LiveDocument) : Prop :=
  ∀ message after, change document = .error (.error message) after → after.nodes = document.nodes

variable {R : α → LiveDocument → Prop}

theorem unchanged_of_known
    (h : Meets (· = document) change R (· = document)) : Unchanged change document := by
  intro message after refused
  have hmeets := h document rfl
  rw [refused] at hmeets
  rw [hmeets]

theorem unchanged_discard : Unchanged (discard change) document ↔ Unchanged change document := by
  have same (failure : Failure) (after : LiveDocument) : discard change document = .error failure after ↔
      change document = .error failure after := by
    cases h : change document with
    | ok value middle =>
      rw [show discard change document = .ok () middle from bind_ok h]
      exact iff_of_false nofun nofun
    | error other middle =>
      rw [show discard change document = .error other middle from bind_error h]
      simp
  simp only [Unchanged, same]

theorem unchanged_ite {c : Prop} [Decidable c] {message : String} :
    Unchanged (if c then fail message else change) document ↔ (¬ c → Unchanged change document) := by
  split
  · next h => exact iff_of_true (unchanged_of_known (R := fun _ _ => True) fun _ same => same) fun hn => absurd h hn
  · next h => exact ⟨fun unchanged _ => unchanged, fun unchanged => unchanged h⟩

theorem unchanged_requireNode {next : LiveNode → Edit α} :
    Unchanged (requireNode node >>= next) document ↔
      ∀ entry, document.nodes[node]? = some entry → Unchanged (next entry) document := by
  cases found : document.nodes[node]? with
  | none =>
    refine iff_of_true (fun message after refused => ?_) fun _ same => by cases same
    rw [bind_error (requireNode_missing found)] at refused
    cases refused
    rfl
  | some entry =>
    simp only [Unchanged, bind_ok (requireNode_ok found)]
    exact ⟨fun h _ same => Option.some.inj same ▸ h, fun h => h entry rfl⟩

theorem unchanged_requireElement {next : LiveNode → Edit α} :
    Unchanged (requireElement node >>= next) document ↔
      ∀ entry, document.nodes[node]? = some entry → entry.kind.isElement = true →
        Unchanged (next entry) document := by
  rw [requireElement, bind_assoc, unchanged_requireNode]
  refine forall_congr' fun entry => forall_congr' fun _ => ?_
  split
  · next element => exact ⟨fun unchanged _ => unchanged, fun unchanged => unchanged element⟩
  · next text =>
    have fails : (fail "HierarchyRequestError: parent must be an element" : Edit LiveNode) document =
        .error (.error "HierarchyRequestError: parent must be an element") document := rfl
    refine iff_of_true (fun message after refused => ?_) fun element => absurd element text
    rw [bind_error fails] at refused
    cases refused
    rfl

theorem unchanged_iff (linked : document.Linked) (settles : Settles document change C Q)
    (leaves : Meets (· = document) change R (Spoiled document)) :
    Unchanged change document ↔ (Affords document 1 → C) := by
  constructor
  · intro unchanged afford
    by_contra hC
    obtain ⟨failure, after, refused, message, rfl⟩ := settles.error_of_not hC
    have left := leaves document rfl
    rw [refused] at left
    rcases left with ⟨short, -⟩ | ⟨-, new⟩
    · exact short afford
    · rw [unchanged message after refused] at new
      exact Nat.lt_irrefl _ (linked.below _ new)
  · intro enough message after refused
    have left := leaves document rfl
    rw [refused] at left
    rcases left with ⟨-, rfl⟩ | ⟨afford, -⟩
    · rfl
    · exact absurd (enough afford) (settles.not_of_error refused)

theorem clearChildren_ends (linked : document.Linked) (stored : (document.nodes[node]?).isSome)
    (gone : String) : clearChildren node gone document = .ok () (cleared document node) := by
  obtain ⟨entry, found⟩ := Option.isSome_iff_exists.mp stored
  have kept := (cleared_stored linked stored).mpr ⟨stored, linked.forest.acyclic node⟩
  rw [cleared, LiveDocument.isSome_modify { document with nodes := _ }, childrenOf_eq found] at kept
  have updates := (updateNode_settles
    { document with nodes := freeSubtrees entry.children document.nodes } node gone
    fun node => { node with children := [] }).congr (iff_true_intro kept)
  rw [cleared, childrenOf_eq found]
  refine (bind_ok (indexNode_ok found)).trans ?_
  show updateNode node gone _ _ = _
  unfold Settles Decides at updates
  revert updates
  cases updateNode node gone (fun node => { node with children := [] })
      { document with nodes := freeSubtrees entry.children document.nodes } with
  | ok value after => exact fun updates => updates.2 ▸ rfl
  | error failure after => exact fun updates => absurd trivial updates.1

theorem unchanged_clear_iff (linked : document.Linked) {entry : LiveNode}
    (found : document.nodes[node]? = some entry) {gone : String} {next : Unit → Edit α}
    (settles : Settles (cleared document node) (next ()) C Q)
    (leaves : Meets (· = cleared document node) (next ()) R (Spoiled (cleared document node))) :
    Unchanged (clearChildren node gone >>= next) document ↔
      (entry.children ≠ [] ∨ AffordsCleared document node 1 → C) := by
  have stored : (document.nodes[node]?).isSome := by rw [found]; rfl
  simp only [Unchanged, bind_ok (clearChildren_ends linked stored gone), ← affords_cleared linked stored]
  constructor
  · intro unchanged some
    by_contra hC
    obtain ⟨failure, after, refused, message, rfl⟩ := settles.error_of_not hC
    have left := leaves _ rfl
    rw [refused] at left
    have same := unchanged message after refused
    rcases left with ⟨short, rfl⟩ | ⟨-, new⟩
    · exact (some.resolve_right short) ((cleared_nodes_iff found).mp same)
    · rw [same] at new
      exact Nat.lt_irrefl _ (linked.below _ new)
  · intro enough message after refused
    have hC := settles.not_of_error refused
    have left := leaves _ rfl
    rw [refused] at left
    rcases left with ⟨-, rfl⟩ | ⟨afford, -⟩
    · refine (cleared_nodes_iff found).mpr ?_
      by_contra some
      exact hC (enough (.inl some))
    · exact absurd (enough (.inr afford)) hC

end Unchanged

/-! ## The operations -/

section Operations

variable (linked : document.Linked)

include linked

theorem importSubtree_unchanged_iff (element : Element) :
    Unchanged (importSubtree element) document ↔
      (Affords document 1 → Affords document (count element) ∧ height element ≤ maxLiveDepth - 1) :=
  unchanged_iff linked (importSubtree_settles linked element) (importSubtree_leaves element)

theorem cloneNode_unchanged_iff (leafed : Leafed document) (node : NodeId) (deep : Bool) :
    Unchanged (cloneNode maxLiveNodes node deep) document ↔
      ((document.nodes[node]?).isSome → Affords document 1 →
        Affords document (cloneCount document node deep)) := by
  by_cases stored : (document.nodes[node]?).isSome
  · rw [forall_prop_of_true stored]
    have settles := cloneNode_settles linked leafed maxLiveNodes node deep document linked
      (.refl linked _ _) stored (Nat.le_add_right _ _)
    exact unchanged_iff linked settles (cloneNode_leaves stored maxLiveNodes deep)
  · refine iff_of_true ?_ fun h => absurd h stored
    rw [cloneNode]
    refine unchanged_requireNode.mpr fun entry found => absurd ?_ stored
    rw [found]
    rfl

/-- What `attach_shadow` checks before it makes the root. -/
def Attachable (document : LiveDocument) (host : NodeId) : Prop :=
  document.shadows.size < maxShadowRoots ∧ IsElement document host ∧
    isShadowRoot document host = false ∧ document.shadows[host]? = none

theorem attachShadow_unchanged_iff (host : NodeId) (mode : ShadowMode) :
    Unchanged (attachShadow host mode) document ↔
      (Attachable document host → Affords document 1 →
        document.depthWalk (maxLiveDepth - 1) (document.parentOf host) = true) := by
  have rest (element : IsElement document host) : Unchanged (do
      let root ← allocate (.element "shadow-root" ∅ false)
      appendChildWithoutInvalidation host root
      modify fun document =>
        { document with shadows := document.shadows.insert host ⟨host, root, mode⟩ }
      return root) document ↔ (Affords document 1 →
        document.depthWalk (maxLiveDepth - 1) (document.parentOf host) = true) := by
    have stored := stored_of_isElement element
    have settles := (allocate_settles document (.element "shadow-root" ∅ false)).bind
      (D := Takes document host) (R := fun _ _ => True) (f := fun root => do
        appendChildWithoutInvalidation host root
        modify fun document =>
          { document with shadows := document.shadows.insert host ⟨host, root, mode⟩ }
        return root) fun root middle made => by
      obtain ⟨rfl, rfl⟩ := made
      obtain ⟨made, built⟩ := allocated_made linked (.element "shadow-root" ∅ false)
      refine (((appendChildWithoutInvalidation_settles ((made.isSome _).mpr (.inl rfl))).bind (D := True)
        fun _ after _ => ?_).congr (and_iff_left trivial)).congr (built.takes linked stored)
      exact ⟨trivial, trivial⟩
    refine (unchanged_iff linked settles (allocate_leaves _ fun root => ?_)).trans ?_
    · refine Keeps.bind (left_of_holds fun _ => appendChildWithoutInvalidation_holds _ _) fun _ => ?_
      exact Keeps.bind (Keeps.modify fun _ left => left) fun _ => Keeps.pure _
    · exact ⟨fun h afford => (h afford).2.2, fun h afford => ⟨afford, element, h afford⟩⟩
  have body : Unchanged (attachShadow host mode) document ↔ Unchanged (
      if document.shadows.size ≥ maxShadowRoots then
        fail "QuotaExceededError: shadow-root budget exceeded"
      else do
        let entry ← requireElement host
        if entry.kind.isShadowRoot then fail "NotSupportedError: shadow root is not a valid host"
        else if document.shadows.contains host then
          fail "NotSupportedError: host already has a shadow root"
        else do
          let root ← allocate (.element "shadow-root" ∅ false)
          appendChildWithoutInvalidation host root
          modify fun document =>
            { document with shadows := document.shadows.insert host ⟨host, root, mode⟩ }
          return root) document := Iff.rfl
  rw [body, unchanged_ite, unchanged_requireElement]
  simp only [unchanged_ite]
  constructor
  · rintro unchanged ⟨size, element, plain, new⟩
    obtain ⟨entry, found⟩ := Option.isSome_iff_exists.mp (stored_of_isElement element)
    rw [isShadowRoot_entry found] at plain
    refine (rest element).mp (unchanged (Nat.not_le.mpr size) entry found
      ((isElement_entry found).mp element) (Bool.eq_false_iff.mp plain) ?_)
    rw [IdMap.contains_iff, new]
    exact Bool.false_ne_true
  · intro enough size entry found element plain new
    have isElement := (isElement_entry found).mpr element
    refine (rest isElement).mpr (enough ⟨Nat.not_le.mp size, isElement, ?_, ?_⟩)
    · rw [isShadowRoot_entry found]
      exact Bool.eq_false_iff.mpr plain
    · rwa [IdMap.contains_iff, Option.not_isSome_iff_eq_none] at new

/-- After the children of a node were freed, everything that is to come below it fits, or else nothing
was freed and nothing is made. -/
def Refill (document : LiveDocument) (node : NodeId) (count : Nat) (fits : Prop) : Prop :=
  ∀ entry, document.nodes[node]? = some entry →
    (entry.children ≠ [] ∨ AffordsCleared document node 1 →
      AffordsCleared document node count ∧ fits)

theorem refill_unchanged_iff {count : Nat} {fits : Prop} {Q : Unit → LiveDocument → Prop}
    (gone : String) {f : Unit → Edit Unit} (settles : (document.nodes[node]?).isSome →
      Settles (cleared document node) (f ()) (Affords (cleared document node) count ∧ fits) Q)
    {R : Unit → LiveDocument → Prop}
    (leaves : Meets (· = cleared document node) (f ()) R (Spoiled (cleared document node)))
    {entry : LiveNode} (found : document.nodes[node]? = some entry) :
    Unchanged (clearChildren node gone >>= f) document ↔ Refill document node count fits := by
  have stored : (document.nodes[node]?).isSome := by rw [found]; rfl
  have settles := (settles stored).congr (and_congr_left' (affords_cleared linked stored count))
  rw [unchanged_clear_iff linked found settles leaves, Refill, found]
  exact ⟨fun h _ same => Option.some.inj same ▸ h, fun h => h entry rfl⟩

theorem setTextContent_unchanged_iff (node : NodeId) (value : String) :
    Unchanged (setTextContent node value) document ↔ (IsElement document node →
      Refill document node (textCount (boundedText value))
        ((boundedText value).isEmpty ∨ Takes document node)) := by
  refine unchanged_requireNode.trans ?_
  cases found : document.nodes[node]? with
  | none =>
    refine iff_of_true nofun fun element => ?_
    have stored := stored_of_isElement element
    rw [found] at stored
    cases stored
  | some entry =>
    have stored : (document.nodes[node]?).isSome := by rw [found]; rfl
    rw [isElement_entry found]
    refine Iff.trans ⟨fun h => h entry rfl, fun h _ same => Option.some.inj same ▸ h⟩ ?_
    cases hkind : entry.kind with
    | text text =>
      refine iff_of_true (fun message after refused => ?_) fun element => by cases element
      exact absurd stored ((updateNode_settles document node nodeGone _).not_of_error refused)
    | element tag attrs isVoid =>
      have below (stored : (document.nodes[node]?).isSome) :=
        (appendText_settles (cleared_linked linked stored)
          ((cleared_stored linked stored).mpr ⟨stored, linked.forest.acyclic node⟩)
          (boundedText value)).congr (and_congr_right' (or_congr_right (takes_cleared linked stored)))
      rw [← refill_unchanged_iff linked nodeGone (f := fun _ => _) below (appendText_leaves _ _) found]
      exact ⟨fun h _ => h, fun h => h rfl⟩

section Markup

variable [HtmlParser]

/-- A node is filled with parsed markup. -/
def RefillMarkup (document : LiveDocument) (node : NodeId) (html : String) : Prop :=
  Refill document node (fragmentCount (HtmlParser.parseHtml html))
    (FragmentFits document node (HtmlParser.parseHtml html))

theorem refillMarkup_unchanged_iff (gone html : String) {entry : LiveNode}
    (found : document.nodes[node]? = some entry) :
    Unchanged (do
      clearChildren node gone
      appendParsedFragment (HtmlParser.parseHtml html) node) document ↔ RefillMarkup document node html := by
  refine refill_unchanged_iff linked gone (Q := fun _ _ => True) (f := fun _ => _) (fun stored => ?_)
    (appendParsedFragment_leaves _ _) found
  have still := (cleared_stored linked stored).mpr ⟨stored, linked.forest.acyclic node⟩
  refine (appendParsedFragment_settles (cleared_linked linked stored) still _).congr (and_congr_right' ?_)
  rw [FragmentFits, FragmentFits, takes_cleared linked stored]

theorem setInnerHtml_unchanged_iff (node : NodeId) (html : String) :
    Unchanged (setInnerHtml node html) document ↔
      (html.utf8ByteSize ≤ maxShadowHtmlBytes → RefillMarkup document node html) := by
  refine unchanged_ite.trans (imp_congr Nat.not_lt ?_)
  rw [unchanged_requireNode]
  constructor
  · intro unchanged entry found
    exact (refillMarkup_unchanged_iff linked nodeGone html found).mp (unchanged entry found) entry found
  · intro fits entry found
    exact (refillMarkup_unchanged_iff linked nodeGone html found).mpr fits

theorem setShadowHtml_unchanged_iff (root : NodeId) (html : String) :
    Unchanged (setShadowHtml root html) document ↔ (html.utf8ByteSize ≤ maxShadowHtmlBytes →
      (document.shadows.toList.any fun entry => entry.2.root == root) = true →
        RefillMarkup document root html) := by
  refine unchanged_ite.trans (imp_congr Nat.not_lt ?_)
  have body : Unchanged (do
      let document ← get
      if !document.shadows.toList.any fun entry => entry.2.root == root then
        fail "NotFoundError: node is not a shadow root"
      else do
        clearChildren root shadowGone
        appendParsedFragment (HtmlParser.parseHtml html) root) document ↔ Unchanged (
      if !document.shadows.toList.any fun entry => entry.2.root == root then
        fail "NotFoundError: node is not a shadow root"
      else do
        clearChildren root shadowGone
        appendParsedFragment (HtmlParser.parseHtml html) root) document := Iff.rfl
  rw [body, unchanged_ite, Bool.not_eq_true', Bool.not_eq_false]
  refine imp_congr Iff.rfl ?_
  cases found : document.nodes[root]? with
  | some entry => exact refillMarkup_unchanged_iff linked shadowGone html found
  | none =>
    have stops : clearChildren root shadowGone document = .error .panicked document := by
      refine bind_error ?_
      rw [indexNode, bind_get, found]
      rfl
    refine iff_of_true (fun message after refused => ?_) fun entry present => ?_
    · rw [bind_error stops] at refused
      cases refused
    · rw [found] at present
      cases present

end Markup

end Operations

/-! ## Runs -/

section Runs

variable [HtmlParser]

/-- An operation that is refused is refused before its first change: whatever it makes fits, or not
even the first node can be made and nothing was freed for it. -/
def Whole (document : LiveDocument) : Dom.Operation → Prop
  | .importSubtree element =>
    Affords document 1 → Affords document (count element) ∧ height element ≤ maxLiveDepth - 1
  | .cloneNode node deep => (document.nodes[node]?).isSome → Affords document 1 →
      Affords document (cloneCount document node deep)
  | .attachShadow host _ => Attachable document host → Affords document 1 →
      document.depthWalk (maxLiveDepth - 1) (document.parentOf host) = true
  | .setTextContent node value => IsElement document node →
      Refill document node (textCount (boundedText value))
        ((boundedText value).isEmpty ∨ Takes document node)
  | .setInnerHtml node html =>
    html.utf8ByteSize ≤ maxShadowHtmlBytes → RefillMarkup document node html
  | .setShadowHtml root html => html.utf8ByteSize ≤ maxShadowHtmlBytes →
      (document.shadows.toList.any fun entry => entry.2.root == root) = true →
        RefillMarkup document root html
  | _ => True

omit [HtmlParser] in
theorem updateNode_unchanged (node : NodeId) (message : String) (f : LiveNode → LiveNode) :
    Meets (· = document) (updateNode node message f) (fun _ _ => True) (· = document) :=
  Meets.get_bind (Meets.ite (fun _ _ _ => trivial) fun _ _ h => h)

theorem edit_unchanged_iff {document : LiveDocument} (linked : document.Linked) (leafed : Leafed document)
    (operation : Dom.Operation) : Unchanged operation.edit document ↔ Whole document operation := by
  have refused {change : Edit Unit} {R : Unit → LiveDocument → Prop}
      (h : Meets (· = document) change R (· = document)) : Unchanged change document ↔ True :=
    iff_true_intro (unchanged_of_known h)
  cases operation with
  | createElement tag =>
    have normalizes : Keeps (· = document) (normalizeTag tag) := Keeps.ite (Keeps.pure _) (Keeps.throw _)
    have h : Unchanged (createElement tag) document :=
      unchanged_of_known (Meets.bind normalizes fun _ => allocatePreferred_unchanged _ none)
    exact iff_true_intro (unchanged_discard.mpr h)
  | createTextNode text =>
    have h : Unchanged (createTextNode text) document := unchanged_of_known (allocate_known _)
    exact iff_true_intro (unchanged_discard.mpr h)
  | importSubtree element => exact unchanged_discard.trans (importSubtree_unchanged_iff linked element)
  | cloneNode node deep => exact unchanged_discard.trans (cloneNode_unchanged_iff linked leafed node deep)
  | appendChild parent child => exact refused (appendChild_known linked parent child)
  | removeChild parent child => exact refused (removeChild_known linked parent child)
  | setTextContent node value => exact setTextContent_unchanged_iff linked node value
  | setAttribute node name value =>
    exact refused (Meets.bind (normalizeAttributeName_keeps name) fun _ =>
      Meets.bind (requireElementMut_keeps node) fun _ => updateNode_unchanged _ _ _)
  | removeAttribute node name =>
    exact refused (Meets.bind (normalizeAttributeName_keeps name) fun _ =>
      Meets.bind (requireElementMut_keeps node) fun _ => updateNode_unchanged _ _ _)
  | attachShadow host mode => exact unchanged_discard.trans (attachShadow_unchanged_iff linked host mode)
  | setShadowHtml root html => exact setShadowHtml_unchanged_iff linked root html
  | setInnerHtml node html => exact setInnerHtml_unchanged_iff linked node html

/-- In every document that a run reaches, and for every operation: when it answers with an error the
nodes are as before, exactly if it is refused before its first change. -/
theorem refusal_unchanged_iff (root : Element) (operations : List Dom.Operation)
    (operation : Dom.Operation) :
    (∀ message after, operation.edit (LiveDocument.run root operations) = .error (.error message) after →
      after.nodes = (LiveDocument.run root operations).nodes) ↔
        Whole (LiveDocument.run root operations) operation :=
  edit_unchanged_iff (LiveDocument.run_linked root operations) (run_leafed root operations) operation

end Runs

theorem height_nested (levels : Nat) : height (nested levels) = levels := by
  induction levels with
  | zero => rfl
  | succ levels ih =>
    show max 0 (max (height (nested levels) + 1) 0) = levels + 1
    rw [ih, Nat.max_zero, Nat.zero_max]

/-- An import that is refused at its last level leaves the levels above. -/
theorem refused_import_stays : ¬ ∀ message after,
    @Dom.Operation.edit paragraphParser (.importSubtree (nested 256))
        (@LiveDocument.run paragraphParser (.mk none "body" [] [] "" false) []) =
      EStateM.Result.error (Failure.error message) after →
        after.nodes = (@LiveDocument.run paragraphParser (.mk none "body" [] [] "" false) []).nodes := by
  intro unchanged
  have room : HasRoom (@LiveDocument.run paragraphParser (.mk none "body" [] [] "" false) []).nodes.size
      (@LiveDocument.run paragraphParser (.mk none "body" [] [] "" false) []).nextNodeId 1 :=
    hasRoom_one.mpr (by decide)
  have whole := (@edit_unchanged_iff paragraphParser _
    (@LiveDocument.run_linked paragraphParser (.mk none "body" [] [] "" false) [])
    (@run_leafed paragraphParser (.mk none "body" [] [] "" false) []) (.importSubtree (nested 256))).mp unchanged
  have fits := (whole room).2
  rw [height_nested] at fits
  exact absurd fits (by decide)

end GhitaBrowser.Live
