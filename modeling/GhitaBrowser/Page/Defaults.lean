import GhitaBrowser.Lib.Keeps
import GhitaBrowser.Page.Activation

/-!
# What default actions do

A default action edits attributes and the focus, so the tree stays as it is. The actions
it answers with tell which control the target is.
-/

namespace GhitaBrowser.Page

open Dom

def parents (document : LiveDocument) (node : NodeId) : Option (Option NodeId) :=
  document.nodes[node]?.map LiveNode.parent

variable {document : LiveDocument}

theorem eventPath_congr {document' : LiveDocument} (h : parents document = parents document')
    (room : Nat) (node : NodeId) : eventPath document room node = eventPath document' room node := by
  induction room generalizing node with
  | zero => rfl
  | succ room ih =>
    have hnode := congrFun h node
    unfold parents at hnode
    unfold eventPath
    cases hentry : document.nodes[node]? with
    | none =>
      cases hentry' : document'.nodes[node]? with
      | none => rfl
      | some entry' =>
        rw [hentry, hentry'] at hnode
        cases hnode
    | some entry =>
      cases hentry' : document'.nodes[node]? with
      | none =>
        rw [hentry, hentry'] at hnode
        cases hnode
      | some entry' =>
        rw [hentry, hentry'] at hnode
        have hparent : entry.parent = entry'.parent := Option.some.inj hnode
        simp only [hparent]
        split
        · rfl
        · rw [ih]

variable {f : LiveNode → LiveNode}

theorem parents_modify (document : LiveDocument) (node : NodeId)
    (hf : ∀ entry, (f entry).parent = entry.parent) :
    parents { document with nodes := document.nodes.modify node f } = parents document := by
  funext other
  unfold parents
  rw [IdMap.getElem?_modify]
  split
  · next heq =>
    subst heq
    cases document.nodes[other]? with
    | none => rfl
    | some entry => exact congrArg some (hf entry)
  · rfl

/-! ## Actions that only edit attributes -/

section

variable {P : FocusedDocument → Prop}
  (hset : ∀ node name value, Keeps P (edit (setAttribute node name value)))
  (hremove : ∀ node name, Keeps P (edit (removeAttribute node name)))

variable (target : NodeId)

include hremove in
theorem uncheckGroup_keeps (name : String) (form : Option NodeId)
    (list : List NodeId) : Keeps P (uncheckGroup target name form list) := by
  induction list with
  | nil => exact Keeps.pure _
  | cons node rest ih =>
    refine Keeps.bind Keeps.get fun _ => Keeps.ite ?_ ih
    exact Keeps.bind (hremove node _) fun _ => ih

include hremove in
theorem deselect_keeps (list : List NodeId) : Keeps P (deselect list) := by
  induction list with
  | nil => exact Keeps.pure _
  | cons option rest ih => exact Keeps.bind (hremove option _) fun _ => ih

include hset in
theorem markSubmitted_keeps : Keeps P (markSubmitted target) := by
  refine Keeps.bind Keeps.get fun s => ?_
  split
  · exact Keeps.pure _
  · exact Keeps.bind (hset _ _ _) fun _ => Keeps.pure _

include hset hremove

theorem toggleCheckbox_keeps : Keeps P (toggleCheckbox target) := by
  refine Keeps.bind Keeps.get fun s => Keeps.ite ?_ ?_
  · exact Keeps.bind (hset _ _ _) fun _ => Keeps.pure _
  · exact Keeps.bind (hremove _ _) fun _ => Keeps.pure _

theorem activateRadio_keeps : Keeps P (activateRadio target) :=
  Keeps.bind Keeps.get fun _ => Keeps.bind (uncheckGroup_keeps hremove _ _ _ _) fun _ => hset _ _ _

theorem advanceSelection_keeps : Keeps P (advanceSelection target) := by
  refine Keeps.bind Keeps.get fun s => ?_
  dsimp only
  split
  · exact Keeps.pure _
  · exact Keeps.bind (deselect_keeps hremove _) fun _ => Keeps.bind (hset _ _ _) fun _ => Keeps.pure _

end

/-! ## The tree stays -/

section

variable {P : LiveDocument → Prop}

theorem requireNode_keeps (node : NodeId) : Keeps P (requireNode node) := by
  refine Keeps.bind Keeps.get fun document => ?_
  split
  · exact Keeps.pure _
  · exact Keeps.throw _

theorem requireElementMut_keeps (node : NodeId) : Keeps P (requireElementMut node) :=
  Keeps.bind (requireNode_keeps node) fun _ => Keeps.ite (Keeps.pure _) (Keeps.throw _)

theorem normalizeAttributeName_keeps (name : String) : Keeps P (normalizeAttributeName name) :=
  Keeps.ite (Keeps.pure _) (Keeps.throw _)

theorem edit_keeps {α : Type} {change : Edit α} (h : Keeps P change) :
    Keeps (fun s : FocusedDocument => P s.toLiveDocument) (edit change) := by
  intro s hs
  have hmeets := h s.toLiveDocument hs
  unfold edit
  cases hchange : change s.toLiveDocument with
  | ok value document =>
    rw [hchange] at hmeets
    exact hmeets
  | error failure document =>
    rw [hchange] at hmeets
    exact hmeets

end

section

variable {tree : NodeId → Option (Option NodeId)}

variable (node : NodeId)

theorem updateNode_parents (message : String) (hf : ∀ entry, (f entry).parent = entry.parent) :
    Keeps (fun document => parents document = tree) (updateNode node message f) := by
  refine Meets.bind Meets.get fun document => Meets.ite (fun _ => ?_) fun _ => ?_
  · rintro s ⟨h, rfl⟩
    exact (parents_modify document node hf).trans h
  · rintro s ⟨h, rfl⟩
    exact h

theorem setAttribute_parents (name value : String) :
    Keeps (fun document => parents document = tree) (setAttribute node name value) := by
  refine Keeps.bind (normalizeAttributeName_keeps name) fun name =>
    Keeps.bind (requireElementMut_keeps node) fun _ => updateNode_parents node _ fun entry => ?_
  split <;> rfl

theorem removeAttribute_parents (name : String) :
    Keeps (fun document => parents document = tree) (removeAttribute node name) := by
  refine Keeps.bind (normalizeAttributeName_keeps name) fun name =>
    Keeps.bind (requireElementMut_keeps node) fun _ => updateNode_parents node _ fun entry => ?_
  split <;> rfl

/-- The tree of the document is `tree`. -/
def HasTree (tree : NodeId → Option (Option NodeId)) (s : FocusedDocument) : Prop :=
  parents s.toLiveDocument = tree

theorem edit_tree {α : Type} {change : Edit α}
    (h : Keeps (fun document => parents document = tree) change) :
    Keeps (HasTree tree) (edit change) := edit_keeps h

theorem dispatchEvent_tree (target : NodeId) : Keeps (HasTree tree) (dispatchEvent target) := by
  refine Keeps.bind (edit_tree (requireNode_keeps target)) fun _ => Keeps.bind Keeps.get fun _ => ?_
  split
  · exact Keeps.pure _
  · exact edit_tree (Keeps.throw _)

theorem focus_tree : Keeps (HasTree tree) (focus node) := by
  refine Keeps.bind (edit_tree (requireNode_keeps node)) fun _ => Keeps.bind Keeps.get fun s => ?_
  refine Keeps.ite (edit_tree (Keeps.throw _)) (Keeps.ite (Keeps.pure _) ?_)
  refine Keeps.bind ?_ fun _ => Keeps.bind (Keeps.modify fun _ h => h) fun _ => dispatchEvent_tree node
  unfold blur
  split
  · exact dispatchEvent_tree _
  · exact Keeps.pure _

theorem takeFocus_tree (target : NodeId) : Keeps (HasTree tree) (takeFocus target) :=
  Keeps.bind (focus_tree target) fun _ => Keeps.pure _

theorem setAttribute_tree (name value : String) :
    Keeps (HasTree tree) (edit (setAttribute node name value)) :=
  edit_tree (setAttribute_parents node name value)

theorem removeAttribute_tree (name : String) :
    Keeps (HasTree tree) (edit (removeAttribute node name)) :=
  edit_tree (removeAttribute_parents node name)

theorem applyClickDefault_tree (target : NodeId) :
    Keeps (HasTree tree) (applyClickDefault target) := by
  refine Keeps.bind Keeps.get fun s => ?_
  dsimp only
  split
  · split
    · exact toggleCheckbox_keeps setAttribute_tree removeAttribute_tree target
    · exact Keeps.bind (activateRadio_keeps setAttribute_tree removeAttribute_tree target)
        fun _ => Keeps.pure _
    · exact markSubmitted_keeps setAttribute_tree target
    · exact takeFocus_tree target
  · exact Keeps.ite (markSubmitted_keeps setAttribute_tree target) (takeFocus_tree target)
  · exact advanceSelection_keeps setAttribute_tree removeAttribute_tree target
  · split
    · exact Keeps.pure _
    · exact Keeps.pure _
  · exact Keeps.pure _

end

theorem eventPath_applyClickDefault {target : NodeId} {dom after : FocusedDocument}
    {actions : List DefaultAction} (h : applyClickDefault target dom = .ok actions after)
    (room : Nat) (node : NodeId) :
    eventPath after.toLiveDocument room node = eventPath dom.toLiveDocument room node := by
  have htree : Keeps (HasTree (parents dom.toLiveDocument)) (applyClickDefault target) :=
    applyClickDefault_tree target
  have hmeets := htree dom rfl
  rw [h] at hmeets
  exact eventPath_congr hmeets room node

/-! ## The actions of each control -/

/-- The target is a submit control of a form. -/
def Submits (document : LiveDocument) (target : NodeId) : Prop :=
  (elementTag document target = some "input" ∧
      (getAttribute document target "type").getD "text" = "submit" ∨
    elementTag document target = some "button" ∧
      (getAttribute document target "type").getD "submit" = "submit") ∧
  (closestTag document target "form").isSome

instance (document : LiveDocument) (target : NodeId) : Decidable (Submits document target) :=
  inferInstanceAs (Decidable ((_ ∧ _ ∨ _ ∧ _) ∧ _))

/-- The target is a select control with options. -/
def Selects (document : LiveDocument) (target : NodeId) : Prop :=
  elementTag document target = some "select" ∧ optionsOf document target ≠ []

instance (document : LiveDocument) (target : NodeId) : Decidable (Selects document target) :=
  inferInstanceAs (Decidable (_ ∧ _ ≠ []))

section

variable {target : NodeId} {dom : FocusedDocument}

theorem toggleCheckbox_actions :
    Meets (fun s => s = dom) (toggleCheckbox target)
      (fun actions _ => ∃ checked, actions = [.toggleChecked target checked]) fun _ => True := by
  refine Meets.get_bind (Meets.ite (fun _ => ?_) fun _ => ?_)
  · exact Meets.bind (Meets.fact fun _ _ => trivial) fun _ _ _ => ⟨_, rfl⟩
  · exact Meets.bind (Meets.fact fun _ _ => trivial) fun _ _ _ => ⟨_, rfl⟩

theorem takeFocus_actions :
    Meets (fun s => s = dom) (takeFocus target) (fun actions _ => actions = [.focus target])
      fun _ => True :=
  Meets.bind (Meets.fact fun _ _ => trivial) fun _ _ _ => rfl

theorem markSubmitted_actions :
    Meets (fun s => s = dom) (markSubmitted target)
      (fun actions s => s = dom ∧ actions = [] ∨
        ∃ form, closestTag dom.toLiveDocument target "form" = some form ∧
          actions = [.submitForm form]) fun _ => True := by
  refine Meets.get_bind ?_
  split
  · exact fun _ h => .inl ⟨h, rfl⟩
  · next form hform =>
    exact Meets.bind (Meets.fact fun _ _ => trivial) fun _ _ _ => .inr ⟨form, hform, rfl⟩

theorem advanceSelection_actions :
    Meets (fun s => s = dom) (advanceSelection target)
      (fun actions s => s = dom ∧ actions = [] ∨
        optionsOf dom.toLiveDocument target ≠ [] ∧ ∃ option, actions = [.selectOption option])
      fun _ => True := by
  refine Meets.get_bind ?_
  dsimp only
  split
  · exact fun _ h => .inl ⟨h, rfl⟩
  · next first rest hoptions =>
    refine Meets.bind (Meets.fact fun _ _ => trivial) fun _ =>
      Meets.bind (Meets.fact fun _ _ => trivial) fun _ _ _ => .inr ⟨?_, _, rfl⟩
    rw [hoptions]
    exact List.cons_ne_nil _ _

/-- What the actions of a default action tell of the document before it. -/
def ActionsOf (target : NodeId) (dom : FocusedDocument) (actions : List DefaultAction)
    (after : FocusedDocument) : Prop :=
  (after = dom ∧ (actions = [] ∨ ∃ href, actions = [.navigate href])) ∨
    (∃ checked, actions = [.toggleChecked target checked]) ∨
    actions = [.focus target] ∨
    (Submits dom.toLiveDocument target ∧
      ∃ form, closestTag dom.toLiveDocument target "form" = some form ∧
        actions = [.submitForm form]) ∨
    (Selects dom.toLiveDocument target ∧ ∃ option, actions = [.selectOption option])

theorem markSubmitted_actionsOf
    (hcontrol : elementTag dom.toLiveDocument target = some "input" ∧
        (getAttribute dom.toLiveDocument target "type").getD "text" = "submit" ∨
      elementTag dom.toLiveDocument target = some "button" ∧
        (getAttribute dom.toLiveDocument target "type").getD "submit" = "submit") :
    Meets (fun s => s = dom) (markSubmitted target) (ActionsOf target dom) fun _ => True := by
  refine markSubmitted_actions.weaken (fun actions after h => ?_) fun _ h => h
  rcases h with ⟨hafter, hactions⟩ | ⟨form, hform, hactions⟩
  · exact .inl ⟨hafter, .inl hactions⟩
  · refine .inr (.inr (.inr (.inl ⟨⟨hcontrol, ?_⟩, form, hform, hactions⟩)))
    rw [hform]
    rfl

theorem applyClickDefault_actions :
    Meets (fun s => s = dom) (applyClickDefault target) (ActionsOf target dom) fun _ => True := by
  refine Meets.get_bind ?_
  dsimp only
  split
  · next htag =>
    split
    · exact toggleCheckbox_actions.weaken (fun _ _ h => .inr (.inl h)) fun _ h => h
    · exact Meets.bind (Meets.fact fun _ _ => trivial) fun _ _ _ => .inr (.inl ⟨true, rfl⟩)
    · next htype => exact markSubmitted_actionsOf (.inl ⟨htag, htype⟩)
    · exact takeFocus_actions.weaken (fun _ _ h => .inr (.inr (.inl h))) fun _ h => h
  · next htag =>
    refine Meets.ite (fun htype => markSubmitted_actionsOf (.inr ⟨htag, htype⟩)) fun _ => ?_
    exact takeFocus_actions.weaken (fun _ _ h => .inr (.inr (.inl h))) fun _ h => h
  · next htag =>
    refine advanceSelection_actions.weaken (fun actions after h => ?_) fun _ h => h
    rcases h with ⟨hafter, hactions⟩ | ⟨hoptions, hactions⟩
    · exact .inl ⟨hafter, .inl hactions⟩
    · exact .inr (.inr (.inr (.inr ⟨⟨htag, hoptions⟩, hactions⟩)))
  · split
    · next href _ => exact fun _ h => .inl ⟨h, .inr ⟨href, rfl⟩⟩
    · exact fun _ h => .inl ⟨h, .inl rfl⟩
  · exact fun _ h => .inl ⟨h, .inl rfl⟩

theorem applyClickDefault_ok {actions : List DefaultAction} {after : FocusedDocument}
    (h : applyClickDefault target dom = .ok actions after) : ActionsOf target dom actions after := by
  have hactions : Meets (fun s => s = dom) (applyClickDefault target) (ActionsOf target dom)
      fun _ => True := applyClickDefault_actions
  have hmeets := hactions dom rfl
  rw [h] at hmeets
  exact hmeets

end

/-! ## Attributes of elements can be set -/

/-- An update of attributes. -/
def KeepsTag (f : LiveNode → LiveNode) : Prop :=
  ∀ entry : LiveNode,
    match entry.kind with
    | .element tag _ _ => ∃ attrs isVoid, (f entry).kind = .element tag attrs isVoid
    | .text text => (f entry).kind = .text text

theorem elementTag_modify (document : LiveDocument) (node : NodeId) (hf : KeepsTag f) :
    elementTag { document with nodes := document.nodes.modify node f } = elementTag document := by
  funext other
  unfold elementTag
  rw [IdMap.getElem?_modify]
  by_cases heq : other = node
  · rw [if_pos heq, heq]
    cases document.nodes[node]? with
    | none => rfl
    | some entry =>
      have hentry := hf entry
      cases hkind : entry.kind with
      | element tag attrs isVoid =>
        rw [hkind] at hentry
        obtain ⟨attrs', isVoid', hf'⟩ := hentry
        simp only [Option.map_some, hf', hkind]
      | text text =>
        rw [hkind] at hentry
        simp only [Option.map_some, hentry, hkind]
  · rw [if_neg heq]

theorem isElement_of_elementTag {node : NodeId} (h : (elementTag document node).isSome) :
    ∃ entry, document.nodes[node]? = some entry ∧ entry.kind.isElement = true := by
  unfold elementTag at h
  cases hentry : document.nodes[node]? with
  | none =>
    rw [hentry] at h
    cases h
  | some entry =>
    refine ⟨entry, rfl, ?_⟩
    rw [hentry] at h
    cases hkind : entry.kind with
    | element tag attrs isVoid => rfl
    | text text => simp only [Option.map_some, hkind, Option.isSome_none, Bool.false_eq_true] at h

section

variable {tags : NodeId → Option String} {node : NodeId}

/-- The tags of the elements are `tags`. -/
def HasTags (tags : NodeId → Option String) (document : LiveDocument) : Prop :=
  elementTag document = tags

theorem requireNode_succeeds (hnode : (tags node).isSome) :
    Meets (HasTags tags) (requireNode node)
      (fun entry document => entry.kind.isElement = true ∧ HasTags tags document)
      fun _ => False := by
  intro document htags
  obtain ⟨entry, hentry, helement⟩ := isElement_of_elementTag (htags ▸ hnode)
  have hrequire : requireNode node document = .ok entry document := by
    rw [requireNode, bind_get, hentry]
    rfl
  rw [hrequire]
  exact ⟨helement, htags⟩

theorem requireElementMut_succeeds (hnode : (tags node).isSome) :
    Meets (HasTags tags) (requireElementMut node) (fun _ => HasTags tags) fun _ => False := by
  refine Meets.bind (requireNode_succeeds hnode) fun entry => Meets.ite (fun _ _ h => h.2) ?_
  exact fun helement _ h => helement h.1

theorem updateNode_succeeds (hnode : (tags node).isSome) (message : String) (hf : KeepsTag f) :
    Meets (HasTags tags) (updateNode node message f) (fun _ => HasTags tags) fun _ => False := by
  refine Meets.bind Meets.get fun document => Meets.ite (fun _ => ?_) fun hgone => ?_
  · rintro s ⟨htags, rfl⟩
    exact (elementTag_modify document node hf).trans htags
  · rintro s ⟨htags, rfl⟩
    obtain ⟨entry, hentry, -⟩ := isElement_of_elementTag (htags ▸ hnode)
    refine hgone ?_
    rw [IdMap.contains_iff, hentry]
    rfl

theorem normalizeAttributeName_succeeds {name : String}
    (hname : isAttributeName (toAsciiLowercase (trim name)) = true) {P : LiveDocument → Prop} :
    Meets P (normalizeAttributeName name) (fun _ => P) fun _ => False :=
  Meets.ite (fun _ _ h => h) fun hfail => absurd hname hfail

theorem setAttribute_succeeds {name : String} (value : String)
    (hname : isAttributeName (toAsciiLowercase (trim name)) = true) (hnode : (tags node).isSome) :
    Meets (HasTags tags) (setAttribute node name value) (fun _ => HasTags tags) fun _ => False := by
  refine Meets.bind (normalizeAttributeName_succeeds hname) fun name =>
    Meets.bind (requireElementMut_succeeds hnode) fun _ => updateNode_succeeds hnode _ fun entry => ?_
  cases hkind : entry.kind with
  | element tag attrs isVoid => exact ⟨_, _, rfl⟩
  | text text => exact hkind

theorem removeAttribute_succeeds {name : String}
    (hname : isAttributeName (toAsciiLowercase (trim name)) = true) (hnode : (tags node).isSome) :
    Meets (HasTags tags) (removeAttribute node name) (fun _ => HasTags tags) fun _ => False := by
  refine Meets.bind (normalizeAttributeName_succeeds hname) fun name =>
    Meets.bind (requireElementMut_succeeds hnode) fun _ => updateNode_succeeds hnode _ fun entry => ?_
  cases hkind : entry.kind with
  | element tag attrs isVoid => exact ⟨_, _, rfl⟩
  | text text => exact hkind

end

/-! ## Submit and select controls -/

theorem elementTag_closestWalk {tag : String} {turns : Nat}
    {start : Option NodeId} {form : NodeId} (h : closestWalk document tag turns start = some form) :
    elementTag document form = some tag := by
  induction turns generalizing start with
  | zero => cases h
  | succ turns ih =>
    cases start with
    | none => cases h
    | some node =>
      unfold closestWalk at h
      split at h
      · next htag =>
        cases h
        exact htag
      · exact ih h

theorem eventPath_succ {room : Nat} {node : NodeId} {path : List NodeId}
    (h : eventPath document room node = some path) :
    eventPath document (room + 1) node = some path := by
  induction room generalizing node path with
  | zero => cases h
  | succ room ih =>
    unfold eventPath at h ⊢
    split at h
    · cases h
    · next entry hentry =>
      split at h
      · next hparent =>
        exact h
      · next parent hparent =>
        obtain ⟨rest, hrest, hpath⟩ := Option.map_eq_some_iff.mp h
        rw [ih hrest]
        exact congrArg some hpath

theorem eventPath_closestWalk {tag : String} {turns room : Nat}
    {node form : NodeId} {path : List NodeId} (h : eventPath document room node = some path)
    (hform : closestWalk document tag turns (some node) = some form) :
    ∃ rest, eventPath document room form = some rest := by
  induction turns generalizing room node path with
  | zero => cases hform
  | succ turns ih =>
    unfold closestWalk at hform
    split at hform
    · cases hform
      exact ⟨path, h⟩
    · cases room with
      | zero => cases h
      | succ room =>
        unfold eventPath at h
        split at h
        · cases h
        · next entry hentry =>
          split at h
          · next hparent =>
            have hnone : document.parentOf node = none := by
              unfold LiveDocument.parentOf
              rw [hentry]
              exact hparent
            rw [hnone] at hform
            cases turns <;> cases hform
          · next parent hparent =>
            have hsome : document.parentOf node = some parent := by
              unfold LiveDocument.parentOf
              rw [hentry]
              exact hparent
            rw [hsome] at hform
            obtain ⟨rest, hrest, -⟩ := Option.map_eq_some_iff.mp h
            obtain ⟨path', hpath'⟩ := ih hrest hform
            exact ⟨path', eventPath_succ hpath'⟩

section

variable {target : NodeId} {dom : FocusedDocument}

theorem result_of_meets {α : Type} {program : Activation α} {Q : α → FocusedDocument → Prop}
    (h : Meets (fun s => s = dom) program Q fun _ => False) :
    ∃ value after, program dom = .ok value after ∧ Q value after := by
  have hmeets := h dom rfl
  cases hprogram : program dom with
  | ok value after =>
    rw [hprogram] at hmeets
    exact ⟨value, after, rfl, hmeets⟩
  | error failure after =>
    rw [hprogram] at hmeets
    exact hmeets.elim

theorem edit_succeeds {tags : NodeId → Option String} {change : Edit Unit}
    (h : Meets (HasTags tags) change (fun _ => HasTags tags) fun _ => False) :
    Meets (fun s : FocusedDocument => HasTags tags s.toLiveDocument) (edit change)
      (fun _ s => HasTags tags s.toLiveDocument) fun _ => False := by
  intro s hs
  have hmeets := h s.toLiveDocument hs
  unfold edit
  cases hchange : change s.toLiveDocument with
  | ok value document =>
    rw [hchange] at hmeets
    exact hmeets
  | error failure document =>
    rw [hchange] at hmeets
    exact hmeets

theorem isAttributeName_submitted :
    isAttributeName (toAsciiLowercase (trim "data-ghita-submitted")) = true := by decide +kernel

theorem isAttributeName_selected :
    isAttributeName (toAsciiLowercase (trim "selected")) = true := by decide +kernel

theorem markSubmitted_succeeds {form : NodeId}
    (hform : closestTag dom.toLiveDocument target "form" = some form) :
    Meets (fun s => s = dom) (markSubmitted target) (fun actions _ => actions = [.submitForm form])
      fun _ => False := by
  refine Meets.get_bind ?_
  rw [hform]
  have htag : (elementTag dom.toLiveDocument form).isSome := by
    rw [elementTag_closestWalk hform]
    rfl
  refine Meets.bind ((edit_succeeds (setAttribute_succeeds "true" isAttributeName_submitted
    htag)).mono ?_ (fun _ _ h => h) fun _ h => h) fun _ _ _ => rfl
  rintro s rfl
  rfl

theorem Submits.ok (h : Submits dom.toLiveDocument target) :
    ∃ form after, closestTag dom.toLiveDocument target "form" = some form ∧
      applyClickDefault target dom = .ok [.submitForm form] after := by
  obtain ⟨hcontrol, hsome⟩ := h
  obtain ⟨form, hform⟩ := Option.isSome_iff_exists.mp hsome
  have hmark : Meets (fun s => s = dom) (applyClickDefault target)
      (fun actions _ => actions = [.submitForm form]) fun _ => False := by
    refine Meets.get_bind ?_
    dsimp only
    rcases hcontrol with ⟨htag, htype⟩ | ⟨htag, htype⟩
    · rw [htag]
      rw [htype]
      exact markSubmitted_succeeds hform
    · rw [htag]
      rw [if_pos htype]
      exact markSubmitted_succeeds hform
  obtain ⟨actions, after, happly, rfl⟩ := result_of_meets hmark
  exact ⟨form, after, hform, happly⟩

theorem deselect_succeeds {tags : NodeId → Option String} {list : List NodeId}
    (h : ∀ option ∈ list, (tags option).isSome) :
    Meets (fun s : FocusedDocument => HasTags tags s.toLiveDocument) (deselect list)
      (fun _ s => HasTags tags s.toLiveDocument) fun _ => False := by
  induction list with
  | nil => exact fun _ hs => hs
  | cons option rest ih =>
    refine Meets.bind (edit_succeeds (removeAttribute_succeeds isAttributeName_selected
      (h option List.mem_cons_self))) fun _ => ?_
    exact ih fun other hother => h other (List.mem_cons_of_mem _ hother)

theorem Selects.ok (h : Selects dom.toLiveDocument target) :
    ∃ option after, applyClickDefault target dom = .ok [.selectOption option] after := by
  obtain ⟨htag, hoptions⟩ := h
  obtain ⟨first, rest, hlist⟩ := List.exists_cons_of_ne_nil hoptions
  have htags : ∀ option ∈ first :: rest, (elementTag dom.toLiveDocument option).isSome := by
    intro option hoption
    rw [← hlist] at hoption
    have hfilter := (List.mem_filter.mp hoption).2
    rw [Bool.and_eq_true] at hfilter
    rw [eq_of_beq hfilter.2]
    rfl
  have hselect : Meets (fun s => s = dom) (applyClickDefault target)
      (fun actions _ => ∃ option, actions = [.selectOption option]) fun _ => False := by
    refine Meets.get_bind ?_
    dsimp only
    rw [htag]
    refine Meets.get_bind ?_
    dsimp only
    rw [hlist]
    dsimp only
    refine Meets.bind ((deselect_succeeds htags).mono ?_ (fun _ _ h => h) fun _ h => h) fun _ => ?_
    · rintro s rfl
      rfl
    refine Meets.bind (edit_succeeds (setAttribute_succeeds "" isAttributeName_selected ?_))
      fun _ _ _ => ⟨_, rfl⟩
    cases hnext : (first :: rest)[(_ + 1) % (first :: rest).length]? with
    | none => exact htags first List.mem_cons_self
    | some next => exact htags next (List.mem_of_getElem? hnext)
  obtain ⟨actions, after, happly, option, rfl⟩ := result_of_meets hselect
  exact ⟨option, after, happly⟩

end

end GhitaBrowser.Page
