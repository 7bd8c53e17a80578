import GhitaBrowser.Live.Edits

/-!
# Exports of a page

While the operations of a run meet a condition on the state before them, the export of
every node ends and that of the root succeeds.
-/

namespace GhitaBrowser.Live

open Dom Page EventDocument

variable {κ σ ς α : Type}

/-! ## Properties of the nodes -/

/-- The program keeps a property of the nodes. -/
abbrev KeepsNodes (Q : LiveDocument → Prop) (program : Interaction κ σ ς α) : Prop :=
  Keeps (fun s => Q s.toLiveDocument) program

section Nodes

variable {Q : LiveDocument → Prop} {call : Callbacks κ σ}

theorem lift_nodes {change : Edit α} (h : Keeps Q change) :
    KeepsNodes (κ := κ) (σ := σ) (ς := ς) Q (lift change) := by
  refine Keeps.of_endState fun s hs => ?_
  rw [endState_lift]
  exact h.endState hs

theorem dispatch_nodes (target : NodeId) (event : DomEvent) :
    KeepsNodes (κ := κ) (σ := σ) (ς := ς) Q (dispatch call target event) :=
  dispatch_keeps (fun _ _ hsame hs => hsame.nodes ▸ hs) target event

theorem focus_nodes (node : NodeId) : KeepsNodes (κ := κ) (σ := σ) (ς := ς) Q (focus call node) := by
  have hblur (previous : Option NodeId) :
      KeepsNodes (κ := κ) (σ := σ) (ς := ς) Q (blur call previous) := by
    cases previous with
    | none => exact Keeps.pure _
    | some previous =>
      exact Keeps.bind (dispatch_nodes _ _) fun _ => Keeps.bind (dispatch_nodes _ _) fun _ => Keeps.pure _
  refine Keeps.bind (lift_nodes (requireNode_keeps node)) fun _ => Keeps.bind Keeps.get fun s => ?_
  refine Keeps.ite (lift_nodes (Keeps.throw _)) (Keeps.ite (Keeps.pure _) ?_)
  refine Keeps.bind (hblur _) fun _ => Keeps.bind (Keeps.modify fun _ hs => hs) fun _ => ?_
  exact Keeps.bind (dispatch_nodes _ _) fun _ => Keeps.bind (dispatch_nodes _ _) fun _ => Keeps.pure _

theorem activate_nodes {action : Activation α}
    (h : Keeps (fun document : FocusedDocument => Q document.toLiveDocument) action) :
    KeepsNodes (κ := κ) (σ := σ) (ς := ς) Q (activate action) := by
  intro s hs
  have hmeets := h s.toFocusedDocument hs
  unfold activate
  revert hmeets
  cases action s.toFocusedDocument with
  | ok value document => exact id
  | error failure document => exact id

theorem edit_nodes {change : Edit α} (h : Keeps Q change) :
    Keeps (fun document : FocusedDocument => Q document.toLiveDocument) (edit change) := by
  intro document hdocument
  have hmeets := h document.toLiveDocument hdocument
  unfold edit
  revert hmeets
  cases change document.toLiveDocument with
  | ok value after => exact id
  | error failure after => exact id

section Attributes

variable (hset : ∀ node name value, Keeps Q (setAttribute node name value))
  (hremove : ∀ node name, Keeps Q (removeAttribute node name))

include hset hremove

theorem applyClickDefault_nodes (target : NodeId) :
    KeepsNodes (κ := κ) (σ := σ) (ς := ς) Q (applyClickDefault call target) := by
  have hset (node : NodeId) (name value : String) := edit_nodes (hset node name value)
  have hremove (node : NodeId) (name : String) := edit_nodes (hremove node name)
  have hmark : KeepsNodes (κ := κ) (σ := σ) (ς := ς) Q (activate (markSubmitted target)) :=
    activate_nodes (markSubmitted_keeps hset target)
  have hfocus : KeepsNodes (κ := κ) (σ := σ) (ς := ς) Q (takeFocus call target) :=
    Keeps.bind (focus_nodes target) fun _ => Keeps.pure _
  refine Keeps.bind Keeps.get fun s => ?_
  dsimp only
  split
  · split
    · exact activate_nodes (toggleCheckbox_keeps hset hremove target)
    · exact Keeps.bind (activate_nodes (activateRadio_keeps hset hremove target)) fun _ => Keeps.pure _
    · exact hmark
    · exact hfocus
  · exact Keeps.ite hmark hfocus
  · exact activate_nodes (advanceSelection_keeps hset hremove target)
  · split
    · exact Keeps.pure _
    · exact Keeps.pure _
  · exact Keeps.pure _

theorem click_nodes (target : NodeId) :
    KeepsNodes (κ := κ) (σ := σ) (ς := ς) Q (click call target) := by
  refine Keeps.bind (dispatch_nodes target _) fun result => Keeps.ite (Keeps.pure _) ?_
  exact Keeps.bind (applyClickDefault_nodes hset hremove target) fun _ => Keeps.pure _

end Attributes

theorem addEventListener_nodes (node : NodeId) (eventType : String) (options : ListenerOptions)
    (callback : κ) :
    KeepsNodes (σ := σ) (ς := ς) Q (addEventListener node eventType options callback) := by
  refine Keeps.bind (lift_nodes (requireNode_keeps node)) fun _ => Keeps.bind Keeps.get fun s => ?_
  refine Keeps.ite (lift_nodes (Keeps.throw _)) ?_
  refine Keeps.bind (lift_nodes (Keeps.ite (Keeps.pure _) (Keeps.throw _))) fun eventType => ?_
  refine Keeps.ite (lift_nodes (Keeps.throw _)) ?_
  exact Keeps.bind (Keeps.modify fun _ hs => hs) fun _ => Keeps.pure _

theorem removeEventListener_nodes (node : NodeId) (listener : Nat) :
    KeepsNodes (κ := κ) (σ := σ) (ς := ς) Q (removeEventListener node listener) :=
  Keeps.bind Keeps.get fun _ => Keeps.bind (Keeps.modify fun _ hs => hs) fun _ => Keeps.pure _

theorem addCanvasShape_nodes (canvas : NodeId) (shape : ς) :
    KeepsNodes (κ := κ) (σ := σ) Q (addCanvasShape canvas shape) := by
  refine Keeps.bind (lift_nodes (requireNode_keeps canvas)) fun _ => Keeps.bind Keeps.get fun s => ?_
  exact Keeps.ite (lift_nodes (Keeps.throw _)) (Keeps.modify fun _ hs => hs)

theorem clearCanvasShapes_nodes (canvas : NodeId) :
    KeepsNodes (κ := κ) (σ := σ) (ς := ς) Q (clearCanvasShapes canvas) :=
  Keeps.bind (lift_nodes (requireNode_keeps canvas)) fun _ => Keeps.modify fun _ hs => hs

end Nodes

/-! ## Operations -/

section Operations

variable [HtmlParser]

/-- What an edit has to meet: it appends nothing above itself and nothing visible that the
export stops at, it frees no shadow root of a visible host, and a visible slot gets no shadow
root. -/
def EditComposes (document : LiveDocument) : Dom.Operation → Prop
  | .appendChild parent child => Appends document parent child → MayAppend document parent child
  | .setTextContent node _ => ClearsWell document node
  | .setInnerHtml node html => html.utf8ByteSize ≤ maxShadowHtmlBytes →
    ClearsWell document node ∧ (Visible document node → Plain (HtmlParser.parseHtml html))
  | .setShadowHtml root html => html.utf8ByteSize ≤ maxShadowHtmlBytes →
    (document.shadows.toList.any fun entry => entry.2.root == root) →
      ClearsWell document root ∧ (Visible document root → Plain (HtmlParser.parseHtml html))
  | .attachShadow host _ =>
    Attaches document host → Visible document host → elementTag document host ≠ some "slot"
  | _ => True

variable {document : LiveDocument}

theorem composable_rules : EditRules Composable EditComposes where
  steady := steady_composable
  update h stored relabels := (trimmed_modify h.linked stored relabels).composable h
  append h may checks := appendChild_composable h checks (may checks)
  remove h _ hlists := (trimmed_unlinked h.linked hlists).composable h
  text h may stored := fillText_grown h.linked stored (F := fun kind => kind.isShadowRoot = false)
    (fun _ => rfl) (refilled_composable h may stored fun _ _ hkind => hkind) _
  innerHtml h may hsize stored := fillMarkup_composable h (may hsize).1 stored (may hsize).2
  shadowHtml h may hsize hroot stored :=
    fillMarkup_composable h (may hsize hroot).1 stored (may hsize hroot).2
  attach h may attachment _ := by
    obtain ⟨entry, hentry, hplain⟩ := attachment.plain
    exact (hosted_withShadow h.linked hentry hplain attachment.attaches.2 _ attachment.made).composable
      h.linked h (may attachment.attaches)

/-- The condition on an operation. The others clear at most a text area. -/
def Operation.Composes (call : Callbacks κ σ) (operation : Operation κ ς)
    (s : EventDocument κ σ ς) : Prop :=
  match operation with
  | .edit operation => EditComposes s.toLiveDocument operation
  | operation => ∀ node, operation.clears call s = some node → ClearsWell s.toLiveDocument node

section Runs

variable (call : Callbacks κ σ)

variable {s : EventDocument κ σ ς}

theorem typeInto_composable (h : Composable s.toLiveDocument) {target : NodeId}
    (key : String)
    (hclear : elementTag s.toLiveDocument target = some "textarea" → ClearsWell s.toLiveDocument target) :
    Composable (endState (lift (typeInto target key)) s).toLiveDocument := by
  rw [endState_lift]
  exact typeInto_end (fun htag _ => composable_rules.setTextContent h (hclear htag))
    fun value => (composable_rules.setAttribute target "value" value).endState h

theorem applyKeyDefault_composable (h : Composable s.toLiveDocument)
    {target : NodeId} {key : String}
    (hclear : ∀ node, typedInto s.toLiveDocument target key = some node →
      ClearsWell s.toLiveDocument node) :
    Composable (endState (applyKeyDefault call target key) s).toLiveDocument :=
  applyKeyDefault_end (P := fun s => Composable s.toLiveDocument) dispatch_nodes focus_nodes
    (click_nodes composable_rules.setAttribute composable_rules.removeAttribute) h fun htyped =>
      typeInto_composable h key fun htag => hclear target (htyped htag)

/-- The step: an operation that meets its condition leaves a composable document. -/
theorem Operation.after_composable (operation : Operation κ ς)
    (h : Composable s.toLiveDocument) (hop : operation.Composes call s) :
    Composable (operation.after call s).toLiveDocument := by
  have hdiscard {β : Type} {program : Interaction κ σ ς β} (hkeeps : KeepsNodes Composable program) :
      Composable (endState (discard program) s).toLiveDocument := (discard_keeps hkeeps).endState h
  cases operation with
  | edit operation =>
    show Composable (endState (lift operation.edit) s).toLiveDocument
    rw [endState_lift]
    exact composable_rules.edit h hop
  | addEventListener node eventType options callback =>
    exact hdiscard (addEventListener_nodes node eventType options callback)
  | removeEventListener node listener => exact hdiscard (removeEventListener_nodes node listener)
  | addCanvasShape canvas shape => exact (addCanvasShape_nodes canvas shape).endState h
  | clearCanvasShapes canvas => exact (clearCanvasShapes_nodes canvas).endState h
  | dispatchEvent target event => exact hdiscard (dispatch_nodes target event)
  | focus node => exact (focus_nodes node).endState h
  | click target => exact hdiscard (click_nodes composable_rules.setAttribute composable_rules.removeAttribute target)
  | applyClickDefault target =>
    exact hdiscard (applyClickDefault_nodes composable_rules.setAttribute composable_rules.removeAttribute target)
  | applyKeyDefault target key =>
    have hpure : endState (discard (Live.applyKeyDefault call target key)) s =
        endState (Live.applyKeyDefault call target key) s := endState_bind_pure
    show Composable (endState (discard (Live.applyKeyDefault call target key)) s).toLiveDocument
    rw [hpure]
    exact applyKeyDefault_composable call h hop
  | dispatchKeyboard eventType key =>
    have hpure : endState (discard (Live.dispatchKeyboard call eventType key)) s =
        endState (Live.dispatchKeyboard call eventType key) s := endState_bind_pure
    show Composable (endState (discard (Live.dispatchKeyboard call eventType key)) s).toLiveDocument
    rw [hpure]
    refine dispatchKeyboard_end (P := fun s => Composable s.toLiveDocument) dispatch_nodes h
      fun t hsame hclears => ?_
    refine applyKeyDefault_composable call (hsame.nodes ▸ h) fun node hnode => ?_
    rw [hsame.nodes] at hnode ⊢
    exact hop node (hclears.trans hnode)
  | dispatchPointer eventType hit x y =>
    refine hdiscard ?_
    cases hit with
    | none => exact Keeps.pure _
    | some target => exact Keeps.bind (dispatch_nodes target _) fun _ => Keeps.pure _

/-- Every operation of a run meets its condition in the state in which it starts. -/
def EventDocument.ComposedBy (s : EventDocument κ σ ς) : List (Operation κ ς) → Prop
  | [] => True
  | operation :: operations =>
    operation.Composes call s ∧ (operation.after call s).ComposedBy operations

theorem EventDocument.run_composable (h : Composable s.toLiveDocument)
    {operations : List (Operation κ ς)} (hrun : s.ComposedBy call operations) :
    Composable (s.run call operations).toLiveDocument := by
  induction operations generalizing s with
  | nil => exact h
  | cons operation operations ih => exact ih (operation.after_composable call h hrun.1) hrun.2

end Runs

/-! ## Loading -/

/-- The element at `id` stays while a page is imported. -/
structure Loading (id : NodeId) (document : LiveDocument) : Prop where
  below : ∀ node : NodeId, (document.nodes[node]?).isSome → node < document.nextNodeId
  element : (elementTag document id).isSome

omit [HtmlParser] in
theorem updateNode_loading {id node : NodeId} {message : String} {f : LiveNode → LiveNode}
    (hf : ∀ entry, (f entry).kind = entry.kind) : Keeps (Loading id) (updateNode node message f) := by
  refine Meets.bind Meets.get fun document => Meets.ite (fun _ => ?_) fun _ => ?_
  · rintro s ⟨h, rfl⟩
    refine ⟨fun other hother => ?_, ?_⟩
    · rw [LiveDocument.isSome_modify] at hother
      exact h.below other hother
    · rw [@elementTag_congr document { document with nodes := document.nodes.modify node f } id
        (kinds_modify _ _ _ hf)]
      exact h.element
  · rintro s ⟨h, rfl⟩
    exact h

omit [HtmlParser] in
theorem allocatePreferred_loading (id : NodeId) (kind : LiveNodeKind) (preferred : Option NodeId) :
    Keeps (Loading id) (allocatePreferred kind preferred) := by
  refine Meets.bind Meets.get fun document => Meets.ite (fun _ => ?_) fun _ => Meets.ite (fun _ => ?_) fun _ => ?_
  · rintro s ⟨h, rfl⟩
    exact h
  · rintro s ⟨h, rfl⟩
    exact h
  · rintro s ⟨h, rfl⟩
    have hfree := LiveDocument.chooseId_free h.below preferred
    refine ⟨fun node hnode => ?_, ?_⟩
    · simp only [IdMap.getElem?_insert] at hnode
      split at hnode
      · next heq =>
        subst heq
        exact Nat.lt_succ_of_le (Nat.le_max_right _ _)
      · exact Nat.lt_succ_of_lt (Nat.lt_of_lt_of_le (h.below node hnode) (Nat.le_max_left _ _))
    · have helement := h.element
      rw [elementTag_bind] at helement ⊢
      simp only [IdMap.getElem?_insert]
      rw [if_neg]
      · exact helement
      · rintro rfl
        rw [hfree] at helement
        cases helement

omit [HtmlParser] in
theorem loading_rules (id : NodeId) : ImportRules (Loading id) (fun _ => True) (fun _ => True)
    fun _ _ => True where
  element _ _ _ _ _ := (allocatePreferred_loading id _ _).weaken (fun _ _ h => ⟨h, trivial⟩) fun _ h => h
  text _ := (allocatePreferred_loading id _ _).weaken (fun _ _ h => ⟨h, trivial⟩)
    fun _ h => h
  append parent child _ _ :=
    Keeps.bind (requireElement_keeps parent) fun _ => Keeps.bind (requireNode_keeps child) fun _ =>
      Keeps.bind (depthBudgetOk_keeps parent) fun _ =>
        Keeps.bind (updateNode_loading fun _ => rfl) fun _ => updateNode_loading fun _ => rfl
  fill _ _ := trivial

/-- The page gives its root no id of its own, as pages of the parser do, or it is imported
whole. -/
def Loads (root : Element) : Prop :=
  (∃ tag attrs children text isVoid, root = .mk none tag attrs children text isVoid) ∨
    ∃ id document, importElement root none .empty = .ok id document

omit [HtmlParser] in
theorem allocatePreferred_empty (tag : String) (attrs : Attributes) (isVoid : Bool)
    (preferred : Option NodeId) :
    Meets (· = .empty) (allocatePreferred (.element tag attrs isVoid) preferred)
      (fun id document => id = LiveDocument.empty.chooseId preferred ∧ Loading id document)
      fun _ => False := by
  have hchosen : LiveDocument.empty.chooseId preferred ≤ maxPreferredIdJump + 1 := by
    rw [LiveDocument.chooseId]
    cases h : preferred.filter _ with
    | none => decide
    | some id =>
      obtain ⟨-, hid⟩ := Option.filter_eq_some_iff.mp h
      simp only [Bool.and_eq_true, decide_eq_true_eq] at hid
      exact Nat.le_trans hid.2 ((Nat.min_le_left _ _).trans (by decide))
  refine Meets.get_bind (Meets.ite (fun hfull => ?_) fun _ => Meets.ite (fun hlarge => ?_) fun _ => ?_)
  · exact absurd hfull (by decide)
  · have hmax : max LiveDocument.empty.nextNodeId (LiveDocument.empty.chooseId preferred) ≤
        maxPreferredIdJump + 1 := Nat.max_le.mpr ⟨by decide, hchosen⟩
    exact absurd (Nat.le_trans (Nat.succ_le_succ hmax) (by decide)) (Nat.not_le.mpr hlarge)
  · rintro s rfl
    refine ⟨rfl, fun node hnode => ?_, ?_⟩
    · simp only [IdMap.getElem?_insert] at hnode
      split at hnode
      · next heq =>
        subst heq
        exact Nat.lt_succ_of_le (Nat.le_max_right _ _)
      · simp [LiveDocument.empty] at hnode
    · rw [elementTag_bind]
      simp only [IdMap.getElem?_insert, if_true]
      rfl

omit [HtmlParser] in
theorem importElement_loading (nodeId : Option NodeId) (tag : String) (attrs : List (String × String))
    (children : List Element) (text : String) (isVoid : Bool) :
    Meets (· = .empty) (importElement (.mk nodeId tag attrs children text isVoid) none)
      (fun id document => Loading id document) (Loading (LiveDocument.empty.chooseId nodeId)) := by
  rw [importElement]
  refine Meets.bind ((allocatePreferred_empty tag _ isVoid nodeId).onError fun _ => False.elim) fun id => ?_
  rintro s ⟨rfl, hs⟩
  have rules := loading_rules (LiveDocument.empty.chooseId nodeId)
  have hrest : Meets (Loading (LiveDocument.empty.chooseId nodeId)) (do
      importChildren (LiveDocument.empty.chooseId nodeId) children
      return LiveDocument.empty.chooseId nodeId) Loading (Loading (LiveDocument.empty.chooseId nodeId)) :=
    Meets.bind (rules.importChildren children (Element.everyChild_of_forall (fun _ _ => trivial) children)
      _ trivial) fun _ _ h => h
  have hbody : Meets (Loading (LiveDocument.empty.chooseId nodeId)) (do
      if !text.isEmpty then
        let child ← allocate (.text (boundedText text))
        appendChildWithoutInvalidation (LiveDocument.empty.chooseId nodeId) child
      importChildren (LiveDocument.empty.chooseId nodeId) children
      return LiveDocument.empty.chooseId nodeId) Loading
      (Loading (LiveDocument.empty.chooseId nodeId)) := by
    split
    · exact ImportRules.gives (rules.text _) fun child _ =>
        Meets.bind (rules.append _ child trivial trivial) fun _ => hrest
    · exact hrest
  exact hbody s hs

omit [HtmlParser] in
theorem importElement_empty {fits : LiveNodeKind → Prop} (htext : ∀ text, fits (.text text))
    {root : Element} (hroot : Allowed fits root) :
    Grown .empty (fun _ => False) fits (endState (importElement root none) .empty) := by
  have hids := Element.every_mono (Q := fun nodeId tag => (nodeId = none ∨ LiveDocument.empty.nextNodeId ≤ 1) ∧
    ∀ attrs isVoid, fits (.element tag attrs isVoid)) (fun _ _ h => ⟨.inr (Nat.le_refl 1), h⟩) root hroot
  have rules : ImportRules (Grown .empty (fun _ => False) fits) _ _ _ := grown_rules htext
  have hmeets := rules.importElement root hids none fun _ h => nomatch h
  exact ((hmeets.weaken (fun _ _ h => h.1) fun _ h => h).endState
    (.refl LiveDocument.empty_linked _ _)).elim id id

omit [HtmlParser] in
theorem fromElement_end (root : Element) : ∃ id, LiveDocument.fromElement root =
    { endState (importElement root none) .empty with root := id } := by
  rw [LiveDocument.fromElement, endState]
  cases importElement root none .empty with
  | ok id document => exact ⟨id, rfl⟩
  | error failure document => exact ⟨document.root, rfl⟩

omit [HtmlParser] in
theorem fromElement_element {root : Element} (hloads : Loads root) :
    IsElement (LiveDocument.fromElement root) (LiveDocument.fromElement root).root := by
  have hallowed : Allowed (fun _ => True) root := Element.every_of_forall (fun _ _ _ _ => trivial) root
  have hgrown := importElement_empty (fun _ => trivial) hallowed
  obtain ⟨nodeId, tag, attrs, children, text, isVoid⟩ := root
  have hloading := importElement_loading nodeId tag attrs children text isVoid _ rfl
  rw [LiveDocument.fromElement]
  rw [endState] at hgrown
  cases himport : importElement (.mk nodeId tag attrs children text isVoid) none .empty with
  | ok id document =>
    rw [himport] at hloading
    exact hloading.element
  | error failure document =>
    rw [himport] at hloading hgrown
    rcases hloads with ⟨_, _, _, _, _, heq⟩ | ⟨id, after, hok⟩
    · cases heq
      show IsElement document document.root
      rw [hgrown.root]
      exact hloading.element
    · rw [himport] at hok
      cases hok

omit [HtmlParser] in
theorem fromElement_composable {root : Element} (hloads : Loads root) (hplain : Plain root) :
    Composable (LiveDocument.fromElement root) := by
  have helement := fromElement_element hloads
  have hlinked := LiveDocument.fromElement_linked root
  have hallowed : Allowed (fun kind => kind.isShadowRoot = false) root :=
    Element.every_mono (fun _ tag htag _ _ => beq_eq_false_iff_ne.mpr htag) root hplain
  have hgrown := importElement_empty (fun _ => rfl) hallowed
  obtain ⟨id, hend⟩ := fromElement_end root
  rw [hend] at helement hlinked ⊢
  generalize endState (importElement root none) .empty = document at *
  have hnone (node : NodeId) : document.shadows[node]? = none := by
    rw [hgrown.shadows]
    exact Std.ExtTreeMap.getElem?_empty
  have hshadow (node : NodeId) {record : ShadowRootRecord} :
      document.shadows[node]? ≠ some record := by
    rw [hnone]
    rintro ⟨⟩
  have hkind (node : NodeId) : isShadowRoot { document with root := id } node = false := by
    cases hentry : document.nodes[node]? with
    | none => exact isShadowRoot_missing hentry
    | some entry =>
      rw [@isShadowRoot_entry { document with root := id } _ _ hentry]
      rcases Nat.lt_or_ge node LiveDocument.empty.nextNodeId with hold | hnew
      · have hframe := hgrown.frames node hold
        rw [hentry] at hframe
        simp [LiveDocument.empty] at hframe
      · exact hgrown.kinds node entry hnew hentry
  have hstored {node : NodeId} (h : IsElement { document with root := id } node) :
      (document.nodes[node]?).isSome := by
    rw [IsElement, elementTag_bind] at h
    cases hentry : document.nodes[node]? with
    | none =>
      simp only [hentry] at h
      cases h
    | some entry => rfl
  refine ⟨hlinked, ⟨?_, ?_, ?_, ?_⟩, ?_, helement, hkind _, fun node hvisible => ⟨?_, ?_, ?_⟩⟩
  · exact fun host _ hrecord => absurd hrecord (hshadow host)
  · exact fun host _ hrecord => absurd hrecord (hshadow host)
  · exact fun host _ hrecord => absurd hrecord (hshadow host)
  · exact fun host _ hrecord => absurd hrecord (hshadow host)
  · refine (grounded_lists hlinked).mono fun node child hstep => ?_
    cases hstep with
    | child hlists _ => exact hlists
    | shadow hrecord => exact absurd hrecord (hshadow node)
  · rcases Relation.ReflTransGen.cases_tail hvisible with heq | ⟨parent, -, hstep⟩
    · exact heq ▸ hstored helement
    · cases hstep with
      | child hlists _ => exact (stored_of_lists hlinked hlists).2
      | shadow hrecord => exact absurd hrecord (hshadow parent)
  · intro hhost
    rw [show ({ document with root := id } : LiveDocument).shadows[node]? = none from hnone node] at hhost
    cases hhost
  · exact fun _ child _ => hkind child

/-! ## The export of a run -/

omit [HtmlParser] in
theorem innerHtml_of_exports {node : NodeId} {answer : Export Element}
    (h : Exports document (node, none) answer) :
    ∃ html turns, ∀ more, turns ≤ more → innerHtml document more node = .ok html := by
  obtain ⟨hended, turns, hturns⟩ := h
  cases answer with
  | ok element =>
    refine ⟨.ok (compactChildrenHtml element), turns, fun more hmore => ?_⟩
    have hexport : exportElement document more node = .ok element := hturns more hmore
    rw [innerHtml, hexport]
    rfl
  | error stop =>
    cases stop with
    | missing =>
      refine ⟨.error nodeGone, turns, fun more hmore => ?_⟩
      have hexport : exportElement document more node = .error .missing := hturns more hmore
      rw [innerHtml, hexport]
      rfl
    | unfinished => exact absurd rfl hended

omit [HtmlParser] in
theorem toElement_of_exports {element : Element}
    (h : Exports document (document.root, none) (.ok element)) :
    ∃ turns, ∀ more, turns ≤ more → exportElement document more document.root = .ok element ∧
      toElement document more = .ok element := by
  obtain ⟨-, turns, hturns⟩ := h
  refine ⟨turns, fun more hmore => ?_⟩
  have hexport : exportElement document more document.root = .ok element := hturns more hmore
  refine ⟨hexport, ?_⟩
  rw [toElement, hexport]
  rfl

/-- While the operations of a run meet their conditions, the markup of every node ends, and
the root is exported. -/
theorem run_exports (call : Callbacks κ σ) {root : Element} (world : σ) (hloads : Loads root)
    (hplain : Plain root) (operations : List (Operation κ ς))
    (hrun : (fromElement root world).ComposedBy call operations) :
    let document := ((fromElement root world).run call operations).toLiveDocument
    (∀ node, ∃ html turns, ∀ more, turns ≤ more → innerHtml document more node = .ok html) ∧
      ∃ element turns, ∀ more, turns ≤ more →
        exportElement document more document.root = .ok element ∧
          toElement document more = .ok element := by
  have h := EventDocument.run_composable call (fromElement_composable hloads hplain) hrun
  refine ⟨fun node => ?_, ?_⟩
  · obtain ⟨answer, hanswer⟩ := exports_of_grounded h.recorded h.grounded node
    exact innerHtml_of_exports hanswer
  · obtain ⟨element, helement⟩ := h.exports_root
    exact ⟨element, toElement_of_exports helement⟩

end Operations

variable {document : LiveDocument}

theorem mayAppend_leaf {p c : NodeId} {entry : LiveNode}
    (hentry : document.nodes[c]? = some entry) (hleaf : entry.children = [])
    (hhost : document.shadows[c]? = none) (hplain : isShadowRoot document c = false) (hne : c ≠ p) :
    MayAppend document p c := by
  have hnone (child : NodeId) : ¬ document.links.Lists c child := by
    rw [← mem_childrenOf, childrenOf_eq hentry, hleaf]
    exact List.not_mem_nil
  have hstep (node : NodeId) : ¬ Composed document c node := by
    intro h
    cases h with
    | child hlists _ => exact hnone node hlists
    | shadow hrecord => exact nomatch hhost.symm.trans hrecord
  have hreach {node : NodeId} (h : Relation.ReflTransGen (Composed document) c node) : c = node := by
    rcases Relation.ReflTransGen.cases_head h with heq | ⟨next, hnext, -⟩
    · exact heq
    · exact absurd hnext (hstep next)
  refine fun _ => ⟨fun h => hne (hreach h), fun _ => ⟨hplain, fun node h => ?_⟩⟩
  obtain rfl := hreach h
  refine ⟨by rw [hentry]; rfl, fun hsome => ?_, fun _ child hlists => absurd hlists (hnone child)⟩
  rw [hhost] at hsome
  cases hsome

/-- The page after its box got a shadow root. -/
def shadowedBox : EventDocument (List EventCall) Unit Unit :=
  @Operation.after _ _ _ blankParser performs (.edit (.attachShadow 2 .opened)) (fromElement boxAndButton ())

/-- The box gets a shadow root, and its input is moved into the shadow tree. -/
theorem run_exports_sample :
    let document := (@EventDocument.run _ _ Unit blankParser performs (fromElement boxAndButton ())
      [.edit (.attachShadow 2 .opened), .edit (.appendChild 5 3)]).toLiveDocument
    (∀ node, ∃ html turns, ∀ more, turns ≤ more → innerHtml document more node = .ok html) ∧
      ∃ element turns, ∀ more, turns ≤ more →
        exportElement document more document.root = .ok element ∧
          toElement document more = .ok element := by
  have hattach (s : EventDocument (List EventCall) Unit Unit)
      (h : elementTag s.toLiveDocument 2 ≠ some "slot") :
      @Operation.Composes _ _ _ blankParser performs (.edit (.attachShadow 2 .opened)) s := fun _ _ => h
  have happend (s : EventDocument (List EventCall) Unit Unit) (h : MayAppend s.toLiveDocument 5 3) :
      @Operation.Composes _ _ _ blankParser performs (.edit (.appendChild 5 3)) s := fun _ => h
  have htag : elementTag (fromElement boxAndButton () : EventDocument (List EventCall) Unit Unit).toLiveDocument 2 ≠
      some "slot" := by decide +kernel
  have hleaf : (shadowedBox.nodes[3]?).map LiveNode.children = some [] := by decide +kernel
  have hhost : (shadowedBox.shadows[3]?).isNone = true := by decide +kernel
  have hplain : isShadowRoot shadowedBox.toLiveDocument 3 = false := by decide +kernel
  obtain ⟨entry, hentry, hchildren⟩ := Option.map_eq_some_iff.mp hleaf
  have hmay : MayAppend shadowedBox.toLiveDocument 5 3 :=
    mayAppend_leaf hentry hchildren (Option.isNone_iff_eq_none.mp hhost) hplain (by decide)
  have hrun : @ComposedBy _ _ Unit blankParser performs (fromElement boxAndButton ())
      [.edit (.attachShadow 2 .opened), .edit (.appendChild 5 3)] :=
    And.intro (hattach _ htag) (And.intro (happend shadowedBox hmay) trivial)
  have hpage : Plain boxAndButton := by
    simp only [Plain, boxAndButton, Element.Every, Element.EveryChild]
    decide
  exact @run_exports _ _ _ blankParser performs boxAndButton () (.inl ⟨_, _, _, _, _, rfl⟩) hpage _ hrun

/-! ## Where the export fails -/

theorem exportStep_cycle {host : NodeId} {live root : LiveNode}
    {record : ShadowRootRecord} {tag : String} {attrs : Attributes} {isVoid : Bool}
    (hhost : document.nodes[host]? = some live) (hkind : live.kind = .element tag attrs isVoid)
    (htag : tag ≠ "slot") (hrecord : document.shadows[host]? = some record)
    (hroot : document.nodes[record.root]? = some root) (hchildren : root.children = [host])
    (turns : Nat) : exportElement document turns host = .error .unfinished := by
  refine unroll_diverges (C := fun request => request.1 = host) (fun self hself => ?_) turns rfl
  rintro ⟨node, shadowHost⟩ rfl
  have hlookup : lookup document node = .ok live := by rw [lookup, hhost]; rfl
  have hlookupRoot : lookup document record.root = .ok root := by rw [lookup, hroot]; rfl
  have hslot : (shadowHost.filter fun _ => tag == "slot") = none := by
    rw [beq_eq_false_iff_ne.mpr htag]
    cases shadowHost <;> rfl
  have hchild (element : Element) :
      exportShadowChild document self node element node = .error .unfinished := by
    rw [exportShadowChild, hlookup]
    dsimp only [bind, Except.bind]
    rw [hkind]
    show (if tag = "slot" then _ else _ : Export Element) = _
    rw [if_neg htag, hself (node, some node) rfl]
  rw [exportStep, hlookup]
  dsimp only [bind, Except.bind]
  rw [hkind]
  dsimp only
  rw [hslot]
  dsimp only
  rw [hrecord]
  show exportShadowChildren document self record.root node _ = _
  rw [exportShadowChildren, hlookupRoot]
  show root.children.foldlM _ _ = _
  rw [hchildren, List.foldlM_cons, hchild]
  rfl

/-- A page with an element that is named as a shadow root. -/
def shadowMarkup : Element :=
  .mk none "main" [] [.mk none "shadow-root" [] [] "" false] "" false

/-- The box is moved into the shadow tree it is the host of. -/
def hostInside : LiveDocument :=
  (interacted [.edit (.attachShadow 2 .opened), .edit (.removeChild 2 5), .edit (.appendChild 5 2)]).toLiveDocument

/-- The markup of a host below its own shadow root never ends, and a page with an element
named as a shadow root is exported as an empty root. -/
theorem run_export_fails :
    (∀ turns, innerHtml hostInside turns 2 = .error .unfinished) ∧
      ∀ turns, 3 ≤ turns →
        exportElement (LiveDocument.fromElement shadowMarkup) turns 1 = .error .missing ∧
          toElement (LiveDocument.fromElement shadowMarkup) turns = .ok (.new "root") := by
  refine ⟨fun turns => ?_, fun turns hturns => ?_⟩
  · have hhost : (hostInside.nodes[2]?).map (fun live => live.kind.isElement) = some true := by
      decide +kernel
    have htag : elementTag hostInside 2 = some "div" := by decide +kernel
    have hrecord : (hostInside.shadows[2]?).map ShadowRootRecord.root = some 5 := by decide +kernel
    have hroot : (hostInside.nodes[5]?).map LiveNode.children = some [2] := by decide +kernel
    obtain ⟨live, hlive, helement⟩ := Option.map_eq_some_iff.mp hhost
    obtain ⟨record, hrecord, hid⟩ := Option.map_eq_some_iff.mp hrecord
    obtain ⟨root, hroot, hchildren⟩ := Option.map_eq_some_iff.mp hroot
    rw [← hid] at hroot
    cases hkind : live.kind with
    | text text =>
      rw [hkind] at helement
      cases helement
    | element tag attrs isVoid =>
      have hnotSlot : tag ≠ "slot" := by
        rintro rfl
        rw [elementTag_eq hlive hkind] at htag
        exact absurd (Option.some.inj htag) (by decide)
      rw [innerHtml, exportStep_cycle hlive hkind hnotSlot hrecord hroot hchildren]
      rfl
  · have hthree : (match exportElement (LiveDocument.fromElement shadowMarkup) 3 1 with
      | .error .missing => true
      | _ => false) = true := by decide
    have hroot : (LiveDocument.fromElement shadowMarkup).root = 1 := by decide
    have hexport : exportElement (LiveDocument.fromElement shadowMarkup) 3 1 = .error .missing := by
      split at hthree
      · next h => exact h
      · cases hthree
    have hmore : exportElement (LiveDocument.fromElement shadowMarkup) turns 1 = .error .missing := by
      refine (unroll_eq exportStep_steady hturns ?_).trans hexport
      show exportElement (LiveDocument.fromElement shadowMarkup) 3 1 ≠ _
      rw [hexport]
      exact nofun
    refine ⟨hmore, ?_⟩
    rw [toElement, hroot, hmore]
    rfl

end GhitaBrowser.Live
