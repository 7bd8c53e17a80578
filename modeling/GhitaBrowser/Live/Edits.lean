import GhitaBrowser.Live.Composition
import GhitaBrowser.Live.SideTables

/-!
# Edits that keep a document composable

What state an edit ends in is known, also when it fails. Each edit keeps a document
composable under a condition on the state before it.
-/

namespace GhitaBrowser.Live

open Dom Page

/-! ## Links -/

variable {document : LiveDocument}

theorem kinds_modify (nodes : IdMap LiveNode) (node other : NodeId) {f : LiveNode → LiveNode}
    (hf : ∀ entry, (f entry).kind = entry.kind) :
    ((nodes.modify node f)[other]?).map LiveNode.kind = (nodes[other]?).map LiveNode.kind := by
  rw [IdMap.getElem?_modify]
  split
  · next heq =>
    subst heq
    rw [Option.map_map]
    exact congrArg (fun g => (nodes[other]?).map g) (funext hf)
  · rfl

theorem elementTag_modify (document : LiveDocument) (p c node : NodeId) {f g : LiveNode → LiveNode}
    (hf : ∀ entry, (f entry).kind = entry.kind) (hg : ∀ entry, (g entry).kind = entry.kind) :
    elementTag { document with nodes := (document.nodes.modify p f).modify c g } node =
      elementTag document node :=
  elementTag_congr ((kinds_modify _ c node hg).trans (kinds_modify document.nodes p node hf))

theorem lists_of_isParent {base after : LiveDocument} (linked : base.Linked) (linked' : after.Linked)
    (h : ∀ child node, after.links.IsParent child node → base.links.IsParent child node)
    {node child : NodeId} (hlists : after.links.Lists node child) : base.links.Lists node child :=
  (linked.forest.agree node child).mpr (h child node ((linked'.forest.agree node child).mp hlists))

theorem detached_spec (linked : document.Linked) {c : NodeId} (hc : (document.nodes[c]?).isSome) :
    Detached document c (detached document c) := by
  obtain ⟨_, hdetached⟩ := ensures_known (detach_ensures linked) (detach_known linked hc)
  exact hdetached

theorem pruned_detached (linked : document.Linked) {c : NodeId} (hc : (document.nodes[c]?).isSome) :
    Pruned document (detached document c) := by
  have hspec := detached_spec linked hc
  have hfields : (detached document c).shadows = document.shadows ∧
      (detached document c).root = document.root ∧
      (detached document c).nextNodeId = document.nextNodeId ∧
      ∀ node, elementTag (detached document c) node = elementTag document node := by
    rw [detached]
    split
    · exact ⟨rfl, rfl, rfl, fun _ => rfl⟩
    · exact ⟨rfl, rfl, rfl, fun node => elementTag_modify document _ c node (fun _ => rfl) fun _ => rfl⟩
  obtain ⟨hshadows, hroot, hnext, htags⟩ := hfields
  refine ⟨hspec.linked, hshadows, hroot, hnext, fun node h => ?_, fun node _ => htags node,
    fun node child => lists_of_isParent linked hspec.linked hspec.isParent⟩
  rwa [detached_stored] at h

theorem joined_appended {p c : NodeId} (hp : (document.nodes[p]?).isSome) (hne : c ≠ p)
    (hspec : Appended document p c (appended document p c)) :
    Joined document p c (appended document p c) := by
  refine ⟨hspec.linked, rfl, rfl, rfl, fun node => modify_stored document p c node _ _,
    fun node => elementTag_modify document p c node (fun _ => rfl) fun _ => rfl, fun node child => ?_⟩
  rw [hspec.links]
  exact LinkStore.lists_link (by rwa [document.isSome_links]) hne node child

/-- What `append_child` does once it has checked its nodes. -/
structure Moving (document : LiveDocument) (p c : NodeId) : Prop where
  detached : Detached document c (Live.detached document c)
  pruned : Pruned document (Live.detached document c)
  ne : c ≠ p
  apart : ¬ Relation.ReflTransGen (Live.detached document c).links.IsParent p c
  appended : Appended (Live.detached document c) p c (appended (Live.detached document c) p c)

theorem Appends.moving (linked : document.Linked) {p c : NodeId} (checks : Appends document p c) :
    Moving document p c := by
  obtain ⟨hp, hc, hdepth, hcheck⟩ := checks
  have hspec := detached_spec linked hc
  have hcycle : ¬ Relation.ReflTransGen (detached document c).links.IsParent p c := by
    intro hreach
    simp only [Bool.or_eq_false_iff, decide_eq_false_iff_not] at hcheck
    refine LiveDocument.not_reaches_of_checks hdepth hcheck.2 ?_
    exact Relation.ReflTransGen.mono hspec.isParent p c hreach
  have hne : c ≠ p := by
    rintro rfl
    exact hcycle .refl
  exact ⟨hspec, pruned_detached linked hc, hne, hcycle, appended_spec hspec.linked
    (by rwa [detached_stored]) (by rwa [detached_stored]) hspec.root hcycle⟩

/-! ## Removing -/

/-- Links may go; the nodes stay. -/
structure Trimmed (document after : LiveDocument) : Prop where
  pruned : Pruned document after
  stored : ∀ node : NodeId, (after.nodes[node]?).isSome = (document.nodes[node]?).isSome

theorem Trimmed.composable {after : LiveDocument} (trimmed : Trimmed document after)
    (h : Composable document) : Composable after := by
  refine trimmed.pruned.composable h fun node hvisible => ?_
  rw [trimmed.stored]
  exact (h.intact node (trimmed.pruned.visible hvisible)).stored

theorem trimmed_unlinked (linked : document.Linked) {p c : NodeId}
    (hlists : document.links.Lists p c) : Trimmed document (unlinked document p c) := by
  have hparent : document.links.IsParent c p := (linked.forest.agree p c).mp hlists
  obtain ⟨hp, hc⟩ := stored_of_lists linked hlists
  have hknown : Meets (· = document) (do
      updateNode p parentGone fun node => { node with children := node.children.erase c }
      updateNode c childGone (LiveNode.setParent none))
      (fun _ after => after = unlinked document p c) fun _ => False := by
    refine (updateNode_known hp _ _).bind fun _ => ?_
    refine updateNode_known (d := { document with nodes := document.nodes.modify p _ }) ?_ _ _
    rwa [LiveDocument.isSome_modify]
  obtain ⟨_, hlinked, hlinks⟩ := ensures_known (unlink_ensures linked hparent fun entry hentry => by
    have hnodup : entry.children.Nodup := linked.forest.nodup p _ (LiveDocument.links_eq hentry)
    show Links.mk entry.parent (entry.children.erase c) = _
    rw [hnodup.erase_eq_filter c]
    exact congrArg _ (List.filter_congr fun x _ => by simp [bne, beq_eq_decide])) hknown
  refine ⟨⟨hlinked, rfl, rfl, rfl, fun node hnode => ?_, fun node _ => ?_, fun node child hlists => ?_⟩,
    fun node => modify_stored document p c node _ _⟩
  · rwa [unlinked, modify_stored] at hnode
  · exact elementTag_modify document p c node (fun _ => rfl) fun _ => rfl
  · rw [hlinks, LinkStore.lists_unlink (linked.forest.ne_of_isParent hparent)] at hlists
    exact hlists.1

/-! ## Attributes and text -/

def kindTag : LiveNodeKind → Option String
  | .element tag .. => some tag
  | .text _ => none

theorem elementTag_bind (document : LiveDocument) (node : NodeId) :
    elementTag document node = (document.nodes[node]?).bind fun entry => kindTag entry.kind := by
  rw [elementTag]
  cases document.nodes[node]? with
  | none => rfl
  | some entry =>
    rw [Option.map_some, Option.bind_some]
    cases entry.kind <;> rfl

/-- An entry keeps its links and its tag. -/
structure Relabels (document : LiveDocument) (node : NodeId) (f : LiveNode → LiveNode) : Prop where
  links : ∀ entry, (f entry).links = entry.links
  tag : ∀ entry, document.nodes[node]? = some entry → kindTag (f entry).kind = kindTag entry.kind

theorem relabels_attributes (document : LiveDocument) (node : NodeId) (f : Attributes → Attributes) :
    Relabels document node fun entry =>
      match entry.kind with
      | .element tag attrs isVoid => { entry with kind := .element tag (f attrs) isVoid }
      | .text _ => entry where
  links entry := by split <;> rfl
  tag entry _ := by
    cases hkind : entry.kind with
    | element tag attrs isVoid => rfl
    | text text => exact congrArg kindTag hkind

theorem trimmed_modify (linked : document.Linked) {node : NodeId} {f : LiveNode → LiveNode}
    (hstored : (document.nodes[node]?).isSome) (relabels : Relabels document node f) :
    Trimmed document { document with nodes := document.nodes.modify node f } := by
  obtain ⟨_, hlinked⟩ := ensures_known (updateNode_linked linked relabels.links)
    (updateNode_known hstored nodeGone f)
  have hsame := document.links_modify node f id relabels.links
  rw [Option.map_id, id, Function.update_eq_self] at hsame
  refine ⟨⟨hlinked, rfl, rfl, rfl, fun other hother => ?_, fun other _ => ?_, fun _ _ hlists => hsame ▸ hlists⟩,
    fun other => LiveDocument.isSome_modify document node other f⟩
  · rwa [LiveDocument.isSome_modify] at hother
  · rw [elementTag_bind, elementTag_bind]
    simp only [IdMap.getElem?_modify]
    split
    · next heq =>
      subst heq
      cases hentry : document.nodes[other]? with
      | none => rfl
      | some entry => exact relabels.tag entry hentry
    · rfl

/-! ## What new nodes and new attributes keep -/

/-- A property that new nodes leave alone. -/
structure Steady (P : LiveDocument → Prop) : Prop where
  linked : ∀ document, P document → document.Linked
  grows : ∀ base after, P base → after.Linked →
    Grown base (fun _ => False) (fun _ => True) after → P after

namespace Steady

variable {P : LiveDocument → Prop} (steady : Steady P)

include steady

theorem keeps {α : Type} {change : Edit α} (hlinked : Keeps LiveDocument.Linked change)
    (hgrown : ∀ base, KeepsGrown base (fun _ => False) (fun _ => True) change) : Keeps P change := by
  refine Keeps.of_endState fun s hs => ?_
  have before := steady.linked s hs
  exact steady.grows s _ hs (hlinked.endState before) ((hgrown s).endState (.refl before _ _))

theorem allocate (kind : LiveNodeKind) : Keeps P (allocate kind) := by
  refine steady.keeps (keeps_linked fun _ linked => ?_) fun base => ?_
  · exact (allocatePreferred_ensures linked).mono fun _ _ allocated => allocated.linked
  · exact (allocate_gives trivial).weaken (fun _ _ h => h.1) fun _ h => h

theorem createElement (tag : String) : Keeps P (createElement tag) :=
  Keeps.bind (Keeps.ite (Keeps.pure _) (Keeps.throw _)) fun _ => steady.allocate _

theorem importSubtree (element : Element) : Keeps P (importSubtree element) := by
  refine steady.keeps (keeps_linked fun _ linked => ?_) fun base => ?_
  · exact (importSubtree_ensures element linked).mono fun _ _ imported => imported.1.extend.linked
  · exact (importSubtree_grown (fun _ => trivial)
      (Element.every_of_forall (fun _ _ _ _ => trivial) element)).weaken (fun _ _ h => h.1)
        fun _ h => h

theorem cloneNode (room : Nat) (node : NodeId) (deep : Bool) : Keeps P (cloneNode room node deep) := by
  refine steady.keeps (keeps_linked fun document => cloneNode_linked room node deep document)
    fun base => ?_
  exact (cloneNode_grown (fun _ => trivial) room node deep).weaken (fun _ _ h => h.1)
    fun _ h => h

end Steady

/-! ## The rules of an edit -/

/-- A property that every edit keeps which may be made. -/
structure EditRules [HtmlParser] (P : LiveDocument → Prop)
    (May : LiveDocument → Dom.Operation → Prop) : Prop where
  steady : Steady P
  update {document : LiveDocument} {node : NodeId} {f : LiveNode → LiveNode} : P document →
    (document.nodes[node]?).isSome → Relabels document node f →
      P { document with nodes := document.nodes.modify node f }
  append {document : LiveDocument} {p c : NodeId} : P document → May document (.appendChild p c) →
    Appends document p c → P (appended (detached document c) p c)
  remove {document : LiveDocument} {p c : NodeId} : P document → May document (.removeChild p c) →
    document.links.Lists p c → P (unlinked document p c)
  text {document : LiveDocument} {node : NodeId} {value : String} : P document →
    May document (.setTextContent node value) → (document.nodes[node]?).isSome →
      Meets (· = cleared document node) (if (boundedText value).isEmpty then return () else do
        let child ← createTextNode (boundedText value)
        appendChildWithoutInvalidation node child) (fun _ => P) P
  innerHtml {document : LiveDocument} {node : NodeId} {html : String} : P document →
    May document (.setInnerHtml node html) → html.utf8ByteSize ≤ maxShadowHtmlBytes →
      (document.nodes[node]?).isSome → Meets (· = cleared document node)
        (appendParsedFragment (HtmlParser.parseHtml html) node) (fun _ => P) P
  shadowHtml {document : LiveDocument} {root : NodeId} {html : String} : P document →
    May document (.setShadowHtml root html) → html.utf8ByteSize ≤ maxShadowHtmlBytes →
      (document.shadows.toList.any fun entry => entry.2.root == root) →
        (document.nodes[root]?).isSome → Meets (· = cleared document root)
          (appendParsedFragment (HtmlParser.parseHtml html) root) (fun _ => P) P
  attach {document : LiveDocument} {host : NodeId} {mode : ShadowMode} : P document →
    May document (.attachShadow host mode) → Attachment document host →
      P (allocated document shadowKind) → P (withShadow document host mode)

namespace EditRules

variable [HtmlParser] {P : LiveDocument → Prop} {May : LiveDocument → Dom.Operation → Prop}
  (rules : EditRules P May)

include rules

theorem updateAttributes (node : NodeId) (message : String) (f : Attributes → Attributes) :
    Keeps P (updateNode node message fun entry =>
      match entry.kind with
      | .element tag attrs isVoid => { entry with kind := .element tag (f attrs) isVoid }
      | .text _ => entry) := by
  refine Meets.bind Meets.get fun document => Meets.ite (fun hnode => ?_) fun _ => ?_
  · rintro s ⟨h, rfl⟩
    exact rules.update h ((IdMap.contains_iff _ _).mp hnode) (relabels_attributes document node f)
  · exact fun _ h => h.1

theorem setAttribute (node : NodeId) (name value : String) : Keeps P (setAttribute node name value) :=
  Keeps.bind (normalizeAttributeName_keeps name) fun _ =>
    Keeps.bind (requireElementMut_keeps node) fun _ => rules.updateAttributes node nodeGone _

theorem removeAttribute (node : NodeId) (name : String) : Keeps P (removeAttribute node name) :=
  Keeps.bind (normalizeAttributeName_keeps name) fun _ =>
    Keeps.bind (requireElementMut_keeps node) fun _ => rules.updateAttributes node nodeGone _

variable (h : P document)

include h

theorem setTextContent {node : NodeId} {value : String} (may : May document (.setTextContent node value)) :
    P (endState (setTextContent node value) document) := by
  refine ((setTextContent_meets (rules.steady.linked document h) h (fun entry text hentry hkind => ?_)
    (rules.text h may)).endState rfl).elim id id
  refine rules.update h (by rw [hentry]; rfl) ⟨fun _ => rfl, fun other hother => ?_⟩
  rw [hentry] at hother
  obtain rfl := Option.some.inj hother
  rw [hkind]
  rfl

theorem attachShadow {host : NodeId} {mode : ShadowMode} (may : May document (.attachShadow host mode)) :
    Meets (· = document) (attachShadow host mode) (fun _ => P) P := by
  have hmade := (rules.steady.allocate shadowKind).meets h
  refine (attachShadow_known (rules.steady.linked document h)
    (hmade.onError fun _ _ => trivial) host mode).weaken
      ?_ ?_
  · rintro _ _ ⟨attachment, made, rfl⟩
    exact rules.attach h may attachment made
  · rintro _ (rfl | ⟨made, -⟩)
    · exact h
    · exact made

theorem edit {operation : Dom.Operation} (may : May document operation) :
    P (endState operation.edit document) := by
  have linked := rules.steady.linked document h
  have known {change : Edit Unit} (hmeets : Meets (· = document) change (fun _ => P) P) :
      P (endState change document) := (hmeets.endState rfl).elim id id
  cases operation with
  | createElement tag => exact (discard_keeps (rules.steady.createElement tag)).endState h
  | createTextNode text => exact (discard_keeps (rules.steady.allocate _)).endState h
  | importSubtree element => exact (discard_keeps (rules.steady.importSubtree element)).endState h
  | cloneNode node deep => exact (discard_keeps (rules.steady.cloneNode _ node deep)).endState h
  | appendChild p c =>
    refine known ((appendChild_known linked p c).weaken ?_ fun _ hs => hs ▸ h)
    rintro _ _ ⟨checks, rfl⟩
    exact rules.append h may checks
  | removeChild p c =>
    refine known ((removeChild_known linked p c).weaken ?_ fun _ hs => hs ▸ h)
    rintro _ _ ⟨hlists, rfl⟩
    exact rules.remove h may hlists
  | setTextContent node value => exact rules.setTextContent h may
  | setAttribute node name value => exact (rules.setAttribute node name value).endState h
  | removeAttribute node name => exact (rules.removeAttribute node name).endState h
  | attachShadow host mode => exact known ((rules.attachShadow h may).bind fun _ _ hs => hs)
  | setShadowHtml root html => exact known (setShadowHtml_meets linked h (rules.shadowHtml h may))
  | setInnerHtml node html => exact known (setInnerHtml_meets linked h (rules.innerHtml h may))

end EditRules

/-! ## Clearing a node -/

section Cleared

variable (linked : document.Linked) {node : NodeId} (hnode : (document.nodes[node]?).isSome)

include linked hnode

theorem pruned_cleared : Pruned document (cleared document node) := by
  refine ⟨cleared_linked linked hnode, rfl, rfl, rfl, fun other hother => ?_, fun other hother => ?_,
    fun other child hlists => ?_⟩
  · exact ((cleared_stored linked hnode).mp hother).1
  · obtain ⟨entry, hentry⟩ := Option.isSome_iff_exists.mp hother
    obtain ⟨before, hbefore, hkind, -⟩ := cleared_entry hentry
    refine elementTag_congr ?_
    rw [hentry, hbefore, Option.map_some, Option.map_some, hkind]
  · rw [← mem_childrenOf, childrenOf] at hlists ⊢
    cases hentry : (cleared document node).nodes[other]? with
    | none =>
      rw [hentry] at hlists
      cases hlists
    | some entry =>
      rw [hentry] at hlists
      obtain ⟨before, hbefore, -, hchildren⟩ := cleared_entry hentry
      rw [hbefore]
      exact hchildren child hlists

end Cleared

section Fill

variable {P : LiveDocument → Prop} (linked : document.Linked) {node : NodeId}
  (stored : (document.nodes[node]?).isSome) {F : LiveNodeKind → Prop}
  (htext : ∀ text, F (.text text)) (h : ∀ after, after.Linked →
    Grown (cleared document node) (· = node) F after → P after)

include linked stored h

omit htext in
theorem fill_grown {next : Edit Unit}
    (hlinked : next.Ensures (cleared document node) fun _ after => after.Linked)
    (hgrown : KeepsGrown (cleared document node) (· = node) F next) :
    Meets (· = cleared document node) next (fun _ => P) P :=
  ((meets_of_ensures hlinked).and (hgrown.meets (.refl (cleared_linked linked stored) _ _))).weaken
    (fun _ _ hs => h _ hs.1 hs.2) fun _ hs => h _ hs.1 hs.2

include htext

theorem fillText_grown (text : String) :
    Meets (· = cleared document node) (if text.isEmpty then return () else do
      let child ← createTextNode text
      appendChildWithoutInvalidation node child) (fun _ => P) P := by
  have hlinked := cleared_linked linked stored
  have hfree : Free (cleared document node) (· = node) node := .inl rfl
  refine fill_grown linked stored h ?_ (Keeps.ite (Keeps.pure _) (appendText_grown htext hfree _))
  refine .ite (fun _ => .pure hlinked) fun _ => ?_
  exact (appendText_ensures hlinked (cleared_isSome linked stored)).mono fun _ _ extend => extend.linked

theorem fillMarkup_grown {parsed : Element} (hparsed : Allowed F parsed) :
    Meets (· = cleared document node) (appendParsedFragment parsed node) (fun _ => P) P := by
  have hfree : Free (cleared document node) (· = node) node := .inl rfl
  exact fill_grown linked stored h
    (appendParsedFragment_ensures parsed node (cleared_linked linked stored) (cleared_isSome linked stored))
    (appendParsedFragment_grown htext hfree hparsed)

end Fill

/-! ## Composable documents -/

theorem steady_composable : Steady Composable where
  linked _ h := h.linked
  grows _ _ h linked grown := grown.composable h.linked linked h fun ⟨_, touched, _⟩ => touched.elim

theorem appendChild_composable (h : Composable document) {p c : NodeId} (checks : Appends document p c)
    (hmay : MayAppend document p c) : Composable (appended (detached document c) p c) := by
  have moving := checks.moving h.linked
  have hstored := detached_stored document c
  refine (joined_appended ((hstored p).trans checks.1) moving.ne moving.appended).composable
    (Trimmed.composable ⟨moving.pruned, hstored⟩ h) ?_
  exact hmay.prune moving.pruned hstored ((hstored c).trans checks.2.1)

/-- The root is not freed, and no shadow root of a visible host that stays. -/
structure ClearsWell (document : LiveDocument) (node : NodeId) : Prop where
  root : ¬ document.links.Below document.root node
  hosts : ∀ (host : NodeId) (record : ShadowRootRecord), Visible document host →
    document.shadows[host]? = some record → document.links.Below record.root node →
      document.links.Below host node

theorem cleared_composable (h : Composable document) {node : NodeId}
    (hnode : (document.nodes[node]?).isSome) (hclears : ClearsWell document node) :
    Composable (cleared document node) := by
  have hpruned := pruned_cleared h.linked hnode
  have hstored {other : NodeId} (hvisible : Visible document other)
      (hbelow : ¬ document.links.Below other node) :
      ((cleared document node).nodes[other]?).isSome :=
    (cleared_stored h.linked hnode).mpr ⟨(h.intact other hvisible).stored, hbelow⟩
  refine hpruned.composable h fun other hvisible => ?_
  refine (closed_of_reaches (V := fun other => Visible document other ∧
      ((cleared document node).nodes[other]?).isSome) (fun other child hother hstep => ?_) ?_ hvisible).2
  · have hshown : Visible document child := hother.1.tail (hpruned.composed hstep)
    refine ⟨hshown, ?_⟩
    cases hstep with
    | child hlists _ => exact (stored_of_lists hpruned.linked hlists).2
    | shadow hrecord =>
      refine hstored hshown fun hbelow => ?_
      exact ((cleared_stored h.linked hnode).mp hother.2).2 (hclears.hosts other _ hother.1 hrecord hbelow)
  · exact ⟨.refl, hstored .refl hclears.root⟩

theorem refilled_composable (h : Composable document) {node : NodeId}
    (hclears : ClearsWell document node) (stored : (document.nodes[node]?).isSome)
    {fits : LiveNodeKind → Prop} (hplain : Visible document node → ∀ kind, fits kind → kind.isShadowRoot = false)
    (after : LiveDocument) (hlinked : after.Linked)
    (hgrown : Grown (cleared document node) (· = node) fits after) : Composable after := by
  have hpruned := pruned_cleared h.linked stored
  refine hgrown.composable hpruned.linked hlinked (cleared_composable h stored hclears) ?_
  rintro ⟨_, rfl, hvisible⟩
  exact hplain (hpruned.visible hvisible)

/-- Markup without an element that is named as a shadow root. -/
def Plain (markup : Element) : Prop := markup.Every fun _ tag => tag ≠ "shadow-root"

theorem allowed_of_plain {visible : Prop} {markup : Element} (h : visible → Plain markup) :
    Allowed (fun kind => visible → kind.isShadowRoot = false) markup := by
  by_cases hvisible : visible
  · refine Element.every_mono (fun _ tag htag => ?_) markup (h hvisible)
    exact fun _ _ _ => beq_eq_false_iff_ne.mpr htag
  · exact Element.every_of_forall (fun _ _ _ _ hshown => absurd hshown hvisible) markup

theorem fillMarkup_composable (h : Composable document) {node : NodeId}
    (hclears : ClearsWell document node) (stored : (document.nodes[node]?).isSome) {parsed : Element}
    (hplain : Visible document node → Plain parsed) :
    Meets (· = cleared document node) (appendParsedFragment parsed node) (fun _ => Composable) Composable :=
  fillMarkup_grown h.linked stored (F := fun kind => Visible document node → kind.isShadowRoot = false)
    (fun _ _ => rfl) (refilled_composable h hclears stored fun hvisible _ hkind => hkind hvisible)
    (allowed_of_plain hplain)

theorem hosted_withShadow (linked : document.Linked) {host : NodeId} {entry : LiveNode}
    (hentry : document.nodes[host]? = some entry) (hplain : entry.kind.isShadowRoot = false)
    (hnew : document.shadows[host]? = none) (mode : ShadowMode)
    (hallocated : Allocated document document.nextNodeId
      (allocated document (.element "shadow-root" ∅ false))) :
    Hosted document host document.nextNodeId (withShadow document host mode) := by
  have hhost : (document.nodes[host]?).isSome := by rw [hentry]; rfl
  have hfresh := hallocated.fresh
  have hcycle : ¬ Relation.ReflTransGen
      (allocated document (.element "shadow-root" ∅ false)).links.IsParent host document.nextNodeId := by
    intro hreach
    have hold := hallocated.extends.old_of_reaches linked hhost hreach
    rw [hfresh] at hold
    cases hold
  have hne : document.nextNodeId ≠ host := fun heq => hcycle (heq ▸ .refl)
  have hheld := (hallocated.isSome host).mpr (.inr hhost)
  have hjoined := joined_appended hheld hne (appended_spec hallocated.linked hheld
    ((hallocated.isSome _).mpr (.inl rfl)) hallocated.parentOf hcycle)
  have hentries (node : NodeId) :
      (allocated document (.element "shadow-root" ∅ false)).nodes[node]? =
        if node = document.nextNodeId then
          some ⟨document.nextNodeId, none, [], .element "shadow-root" ∅ false⟩
        else document.nodes[node]? := IdMap.getElem?_insert _ _ _ _
  refine ⟨⟨hjoined.linked.forest, hjoined.linked.below⟩, rfl, ⟨Nat.le_refl _, ?_⟩, fun node => ?_,
    fun node hnode => ?_, ?_, fun node child hlists => ?_, ⟨mode, rfl⟩, hhost, ?_, hnew⟩
  · exact Nat.lt_succ_of_le (Nat.le_max_left _ _)
  · have hstored := hjoined.stored node
    rw [Bool.eq_iff_iff] at hstored
    exact hstored.trans ((hallocated.isSome node).trans or_comm)
  · refine (hjoined.tags node).trans (elementTag_congr ?_)
    rw [hentries, if_neg hnode]
  · refine (hjoined.tags document.nextNodeId).trans ?_
    rw [elementTag, hentries, if_pos rfl]
    rfl
  · rcases (hjoined.lists node child).mp hlists with hlists | hlink
    · rw [hallocated.links, LinkStore.lists_create] at hlists
      · exact .inl hlists
      · rw [LiveDocument.links, hfresh]
        rfl
    · exact .inr hlink
  · rw [isShadowRoot_entry hentry]
    exact hplain

end GhitaBrowser.Live
