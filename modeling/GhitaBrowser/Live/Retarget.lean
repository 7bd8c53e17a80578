import GhitaBrowser.Live.Depth

/-!
# The target that a listener sees

`effective_target` climbs from the target of an event to the node of the listener and
replaces a shadow root by its host. Moving a shadow root away from its host breaks what the
climb rests on.

Results:
1. `encapsulated_of_anchored`: where every shadow root hangs below its host, no listener
   sees into a shadow tree that it is not in.
2. `run_encapsulated`: so it is along every run that leaves the shadow roots in place.
3. `moved_root_leaks`: one append of a shadow root to another node is enough.
-/

namespace GhitaBrowser.Live

open Dom Page Relation

/-! ## The climb -/

/-- `shadows.values().find(|record| record.root == node)`. -/
def rootRecord? (document : LiveDocument) (node : NodeId) : Option ShadowRootRecord :=
  (document.shadows.toList.map Prod.snd).find? fun record => record.root == node

/-- The loop of `effective_target`, with `turns` left. -/
def retarget (document : LiveDocument) (current : NodeId) :
    Nat → NodeId → Option NodeId → Option NodeId
  | 0, _, _ => none
  | _ + 1, observed, none => some observed
  | turns + 1, observed, some node =>
    if node = current then some observed
    else
      let observed := match rootRecord? document node with
        | some record => record.host
        | none => observed
      retarget document current turns observed (document.parentOf node)

def effectiveTarget (document : LiveDocument) (target current : NodeId) (turns : Nat) :
    Option NodeId :=
  retarget document current turns target (some target)

/-- `node` lies in the shadow tree below `root`, the root included. -/
def Shadowed (document : LiveDocument) (root node : NodeId) : Prop :=
  (document.nodes[root]?).isSome ∧ ReflTransGen document.links.IsParent node root

/-- Every shadow tree with `observed` in it has `current` in it too. -/
def Encapsulated (document : LiveDocument) (observed current : NodeId) : Prop :=
  ∀ (host : NodeId) (record : ShadowRootRecord), document.shadows[host]? = some record →
    Shadowed document record.root observed → Shadowed document record.root current

/-- What `effective_target` answers, and that it does answer. -/
def Observes (document : LiveDocument) (target current observed : NodeId) : Prop :=
  ∃ enough, ∀ turns, enough ≤ turns → effectiveTarget document target current turns = some observed

/-! ## Anchored roots -/

/-- A stored shadow root hangs below its host. A host that has lost its shadow root lies in
no shadow tree. -/
structure Anchored (document : LiveDocument) : Prop where
  linked : document.Linked
  host_eq : ∀ (host : NodeId) (record : ShadowRootRecord),
    document.shadows[host]? = some record → record.host = host
  host_below : ∀ (host : NodeId) (record : ShadowRootRecord),
    document.shadows[host]? = some record → host < document.nextNodeId
  root_below : ∀ (host : NodeId) (record : ShadowRootRecord),
    document.shadows[host]? = some record → record.root < document.nextNodeId
  placed : ∀ (host : NodeId) (record : ShadowRootRecord), document.shadows[host]? = some record →
    (document.nodes[record.root]?).isSome → document.parentOf record.root = some host
  lost : ∀ (host : NodeId) (record : ShadowRootRecord), document.shadows[host]? = some record →
    document.nodes[record.root]? = none → ∀ (other : NodeId) (around : ShadowRootRecord),
      document.shadows[other]? = some around → ¬ Shadowed document around.root host

variable {document : LiveDocument} {current node observed : NodeId}

variable {record : ShadowRootRecord}

theorem rootRecord?_some (h : rootRecord? document node = some record) :
    record.root = node ∧ ∃ host : NodeId, document.shadows[host]? = some record := by
  have root := List.find?_some h
  obtain ⟨⟨host, found⟩, member, rfl⟩ := List.mem_map.mp (List.mem_of_find?_eq_some h)
  exact ⟨eq_of_beq root, host, Std.ExtTreeMap.mem_toList_iff_getElem?_eq_some.mp member⟩

theorem rootRecord?_none (h : rootRecord? document node = none) {host : NodeId}
    (found : document.shadows[host]? = some record) :
    record.root ≠ node := by
  intro root
  have member := Std.ExtTreeMap.mem_toList_iff_getElem?_eq_some.mpr found
  have none := List.find?_eq_none.mp h record (List.mem_map_of_mem (f := Prod.snd) member)
  exact none (beq_iff_eq.mpr root)

variable {root : NodeId}

theorem stored_of_shadowed (h : Shadowed document root node) :
    (document.nodes[node]?).isSome := by
  obtain ⟨stored, reaches⟩ := h
  rcases ReflTransGen.cases_head reaches with rfl | ⟨parent, ⟨links, found, -⟩, -⟩
  · exact stored
  · rw [← document.isSome_links, found]
    rfl

/-- Where the climb stands, every shadow tree around what is observed is still to be left. -/
def Ahead (document : LiveDocument) (observed : NodeId) (cursor : Option NodeId) : Prop :=
  ∀ (host : NodeId) (record : ShadowRootRecord), document.shadows[host]? = some record →
    Shadowed document record.root observed → ∃ node, cursor = some node ∧
      ReflTransGen document.links.IsParent node record.root

theorem Ahead.climb (ahead : Ahead document observed (some node))
    (plain : rootRecord? document node = none) :
    Ahead document observed (document.parentOf node) := by
  intro host record found inside
  obtain ⟨_, ⟨⟩, reaches⟩ := ahead host record found inside
  rcases ReflTransGen.cases_head reaches with rfl | ⟨parent, up, rest⟩
  · exact absurd rfl (rootRecord?_none plain found)
  · exact ⟨parent, (LiveDocument.isParent_iff _ _ _).mp up, rest⟩

theorem Ahead.cross (anchored : Anchored document)
    (boundary : rootRecord? document node = some record) :
    Ahead document record.host (document.parentOf node) := by
  obtain ⟨rfl, host, found⟩ := rootRecord?_some boundary
  rw [anchored.host_eq host record found]
  intro other around present inside
  cases stored : document.nodes[record.root]? with
  | none => exact absurd inside (anchored.lost host record found stored other around present)
  | some entry =>
    have placed := anchored.placed host record found (by rw [stored]; rfl)
    exact ⟨host, placed, inside.2⟩

/-- The invariant of the loop gives its result. -/
theorem retarget_encapsulated (anchored : Anchored document) (turns : Nat) {result : NodeId}
    {cursor : Option NodeId} (ahead : Ahead document observed cursor)
    (h : retarget document current turns observed cursor = some result) :
    Encapsulated document result current := by
  induction turns generalizing observed cursor with
  | zero => cases h
  | succ turns ih =>
    cases cursor with
    | none =>
      obtain rfl := Option.some.inj h
      intro host record found inside
      obtain ⟨_, absent, -⟩ := ahead host record found inside
      cases absent
    | some node =>
      rw [retarget] at h
      split at h
      · next here =>
        obtain rfl := Option.some.inj h
        subst here
        intro host record found inside
        obtain ⟨_, ⟨⟩, reaches⟩ := ahead host record found inside
        exact ⟨inside.1, reaches⟩
      · cases boundary : rootRecord? document node with
        | none =>
          rw [boundary] at h
          exact ih (ahead.climb boundary) h
        | some record =>
          rw [boundary] at h
          exact ih (.cross anchored boundary) h

theorem grounded_parents (linked : document.Linked) : Grounded document.links.IsParent := by
  refine grounded_of_acyclic ((Set.finite_lt_nat document.nextNodeId).subset ?_) linked.forest.acyclic
  rintro parent ⟨child, up⟩
  refine linked.below parent ?_
  rw [← document.isSome_links]
  exact linked.forest.parent_exists up

theorem retarget_ends (current : NodeId) (linked : document.Linked) (node observed : NodeId) : ∃ result enough,
    ∀ turns, enough ≤ turns → retarget document current turns observed (some node) = some result := by
  induction node using (grounded_parents linked).induction generalizing observed with
  | _ node ih =>
    by_cases here : node = current
    · refine ⟨observed, 1, fun turns h => ?_⟩
      obtain ⟨turns, rfl⟩ := Nat.exists_eq_add_of_le' h
      rw [retarget, if_pos here]
    · have climb (seen : NodeId) : ∃ result enough, ∀ turns, enough ≤ turns →
          retarget document current turns seen (document.parentOf node) = some result := by
        cases up : document.parentOf node with
        | none =>
          refine ⟨seen, 1, fun turns h => ?_⟩
          obtain ⟨turns, rfl⟩ := Nat.exists_eq_add_of_le' h
          rfl
        | some parent => exact ih parent ((LiveDocument.isParent_iff _ _ _).mpr up) seen
      obtain ⟨result, enough, ends⟩ := climb (match rootRecord? document node with
        | some record => record.host
        | none => observed)
      refine ⟨result, enough + 1, fun turns h => ?_⟩
      obtain ⟨turns, rfl⟩ := Nat.exists_eq_add_of_le' (Nat.le_of_add_left_le h)
      rw [retarget, if_neg here]
      exact ends turns (Nat.le_of_succ_le_succ h)

/-- The answer of `effective_target` in an anchored document. -/
theorem encapsulated_of_anchored (anchored : Anchored document) (target current : NodeId) :
    ∃ observed, Observes document target current observed ∧ Encapsulated document observed current := by
  obtain ⟨observed, enough, ends⟩ := retarget_ends current anchored.linked target target
  refine ⟨observed, ⟨enough, ends⟩, ?_⟩
  refine retarget_encapsulated anchored enough (fun host record found inside => ?_)
    (ends enough (Nat.le_refl _))
  exact ⟨target, rfl, inside.2⟩

/-! ## What an edit leaves in place -/

section Edits

variable {base after : LiveDocument}

/-- An old node lies below nothing that it did not lie below before. -/
structure Narrowed (base after : LiveDocument) : Prop where
  linked : after.Linked
  shadows : after.shadows = base.shadows
  next : base.nextNodeId ≤ after.nextNodeId
  stored : ∀ node : NodeId, node < base.nextNodeId →
    (after.nodes[node]?).isSome → (base.nodes[node]?).isSome
  parents : ∀ child parent : NodeId, child < base.nextNodeId →
    after.links.IsParent child parent → base.links.IsParent child parent

theorem Narrowed.shadowed (linked : base.Linked) (narrowed : Narrowed base after) {node : NodeId}
    (rootOld : root < base.nextNodeId) (old : node < base.nextNodeId)
    (h : Shadowed after root node) : Shadowed base root node := by
  obtain ⟨stored, reaches⟩ := h
  refine ⟨narrowed.stored root rootOld stored, ?_⟩
  clear stored
  induction reaches using ReflTransGen.head_induction_on with
  | refl => exact .refl
  | head up _ ih =>
    have before := narrowed.parents _ _ old up
    have parent := linked.forest.parent_exists before
    rw [base.isSome_links] at parent
    exact .head before (ih (linked.below _ parent))

theorem Anchored.narrow (anchored : Anchored base) (narrowed : Narrowed base after)
    (held : ∀ (host : NodeId) (record : ShadowRootRecord), base.shadows[host]? = some record →
      (after.nodes[record.root]?).isSome → base.parentOf record.root = some host →
        after.parentOf record.root = some host)
    (freed : ∀ (host : NodeId) (record : ShadowRootRecord), base.shadows[host]? = some record →
      (base.nodes[record.root]?).isSome → after.nodes[record.root]? = none →
        (after.nodes[host]?).isSome → ∀ (other : NodeId) (around : ShadowRootRecord),
          base.shadows[other]? = some around → ¬ Shadowed base around.root host) :
    Anchored after where
  linked := narrowed.linked
  host_eq host record found := anchored.host_eq host record (narrowed.shadows ▸ found)
  host_below host record found :=
    Nat.lt_of_lt_of_le (anchored.host_below host record (narrowed.shadows ▸ found)) narrowed.next
  root_below host record found :=
    Nat.lt_of_lt_of_le (anchored.root_below host record (narrowed.shadows ▸ found)) narrowed.next
  placed host record found stored := by
    rw [narrowed.shadows] at found
    have before := narrowed.stored _ (anchored.root_below host record found) stored
    exact held host record found stored (anchored.placed host record found before)
  lost host record found missing other around present inside := by
    rw [narrowed.shadows] at found present
    have outer := narrowed.shadowed anchored.linked (anchored.root_below other around present)
      (anchored.host_below host record found) inside
    cases before : base.nodes[record.root]? with
    | none => exact anchored.lost host record found before other around present outer
    | some entry =>
      exact freed host record found (by rw [before]; rfl) missing (stored_of_shadowed inside) other
        around present outer

theorem Anchored.grown {touched : NodeId → Prop} {fits : LiveNodeKind → Prop} (anchored : Anchored base)
    (linked : after.Linked) (grown : Grown base touched fits after) : Anchored after := by
  refine anchored.narrow ⟨linked, grown.shadows, grown.next, fun node old stored => ?_,
    fun child parent old => (grown.isParent_old old).mp⟩ (fun host record found _ placed => ?_)
    fun host record found stored missing => ?_
  · rwa [grown.isSome_old old] at stored
  · rw [← LiveDocument.isParent_iff] at placed ⊢
    exact (grown.isParent_old (anchored.root_below host record found)).mpr placed
  · rw [← grown.isSome_old (anchored.root_below host record found), missing] at stored
    cases stored

theorem steady_anchored : Steady Anchored where
  linked _ anchored := anchored.linked
  grows _ _ anchored linked grown := anchored.grown linked grown

/-! ## Parents -/

theorem parentOf_modify (document : LiveDocument) (node other : NodeId) (f : LiveNode → LiveNode)
    (h : node ≠ other ∨ ∀ entry, (f entry).parent = entry.parent) :
    LiveDocument.parentOf { document with nodes := document.nodes.modify node f } other =
      document.parentOf other := by
  simp only [LiveDocument.parentOf, IdMap.getElem?_modify]
  split
  · next same =>
    subst same
    have keeps := h.resolve_left (not_not_intro rfl)
    cases document.nodes[other]? with
    | none => rfl
    | some entry => exact keeps entry
  · rfl

theorem parentOf_relinked (document : LiveDocument) (p : NodeId) {c node : NodeId} {f g : LiveNode → LiveNode}
    (hf : ∀ entry, (f entry).parent = entry.parent) (moved : node ≠ c) :
    LiveDocument.parentOf { document with nodes := (document.nodes.modify p f).modify c g } node =
      document.parentOf node :=
  (parentOf_modify { document with nodes := document.nodes.modify p f } c node g (.inl moved.symm)).trans
    (parentOf_modify document p node f (.inr hf))

/-- All parents but that of `child` are as in `base`. -/
def OneMoved (base : LiveDocument) (child : NodeId) (document : LiveDocument) : Prop :=
  ∀ node, node ≠ child → document.parentOf node = base.parentOf node

theorem Anchored.trimmed (anchored : Anchored base) (trimmed : Trimmed base after)
    (held : ∀ (host : NodeId) (record : ShadowRootRecord), base.shadows[host]? = some record →
      after.parentOf record.root = base.parentOf record.root) : Anchored after := by
  have pruned := trimmed.pruned
  refine anchored.narrow ⟨pruned.linked, pruned.shadows, Nat.le_of_eq pruned.next.symm,
    fun node _ => pruned.stored node, fun child parent _ up => ?_⟩
    (fun host record found _ placed => (held host record found).trans placed)
    fun host record found stored missing => ?_
  · refine (anchored.linked.forest.agree parent child).mp (pruned.lists parent child ?_)
    exact (pruned.linked.forest.agree parent child).mpr up
  · rw [← trimmed.stored, missing] at stored
    cases stored

/-! ## Moving -/

/-- A shadow root may only be appended to its host, and a host that has lost its shadow root
not to a shadow tree. -/
structure AppendsWell (document : LiveDocument) (p c : NodeId) : Prop where
  root : ∀ (host : NodeId) (record : ShadowRootRecord),
    document.shadows[host]? = some record → record.root = c → host = p
  lost : ∀ (host : NodeId) (record : ShadowRootRecord), document.shadows[host]? = some record →
    document.nodes[record.root]? = none → ReflTransGen document.links.IsParent host c →
      ∀ (other : NodeId) (around : ShadowRootRecord),
        document.shadows[other]? = some around → ¬ Shadowed document around.root p

theorem reaches_link {s : LinkStore NodeId} {p c x y : NodeId} (hc : (s c).isSome) (hne : c ≠ p)
    (h : ReflTransGen (s.link p c).IsParent x y) :
    ReflTransGen s.IsParent x y ∨
      ReflTransGen s.IsParent x c ∧ ReflTransGen s.IsParent p y := by
  rcases reflTransGen_iff_eq_or_transGen.mp h with rfl | below
  · exact .inl .refl
  · exact (LinkStore.below_link hc hne below).imp_left TransGen.to_reflTransGen

theorem Anchored.joined {middle : LiveDocument} {p c : NodeId} (anchored : Anchored base)
    (well : AppendsWell base p c) (hc : (middle.nodes[c]?).isSome) (hne : c ≠ p)
    (parents : ∀ x y, middle.links.IsParent x y → base.links.IsParent x y)
    (joined : Appended middle p c after) (shadows : after.shadows = base.shadows)
    (next : after.nextNodeId = base.nextNodeId)
    (stored : ∀ node : NodeId, (after.nodes[node]?).isSome = (base.nodes[node]?).isSome)
    (moved : OneMoved base c after) : Anchored after where
  linked := joined.linked
  host_eq host record found := anchored.host_eq host record (shadows ▸ found)
  host_below host record found := next ▸ anchored.host_below host record (shadows ▸ found)
  root_below host record found := next ▸ anchored.root_below host record (shadows ▸ found)
  placed host record found isSome := by
    rw [shadows] at found
    rw [stored] at isSome
    by_cases same : record.root = c
    · obtain rfl := well.root host record found same
      rw [same, ← LiveDocument.isParent_iff, joined.links,
        LinkStore.isParent_link (by rwa [middle.isSome_links]) hne, if_pos rfl]
    · rw [moved _ same]
      exact anchored.placed host record found isSome
  lost host record found missing other around present := by
    rw [shadows] at found present
    have before : base.nodes[record.root]? = none := by
      rw [← Option.not_isSome_iff_eq_none, ← stored, missing]
      exact Bool.false_ne_true
    rintro ⟨rootStored, reaches⟩
    rw [stored] at rootStored
    rw [joined.links] at reaches
    have climb {x y : NodeId} (h : ReflTransGen middle.links.IsParent x y) :
        ReflTransGen base.links.IsParent x y := ReflTransGen.mono parents x y h
    rcases reaches_link (by rwa [middle.isSome_links]) hne reaches with kept | ⟨below, above⟩
    · exact anchored.lost host record found before other around present ⟨rootStored, climb kept⟩
    · exact well.lost host record found before (climb below) other around present
        ⟨rootStored, climb above⟩

theorem appendChild_anchored (anchored : Anchored base) {p c : NodeId} (checks : Appends base p c)
    (well : AppendsWell base p c) : Anchored (appended (detached base c) p c) := by
  have moving := checks.moving anchored.linked
  refine anchored.joined well ((detached_stored base c c).trans checks.2.1) moving.ne
    moving.detached.isParent moving.appended moving.pruned.shadows moving.pruned.next (fun node => ?_)
    fun node moved => ?_
  · rw [appended, modify_stored, detached_stored]
  · refine (parentOf_relinked (detached base c) p (f := LiveNode.pushChild c) (fun _ => rfl) moved).trans ?_
    rw [detached]
    split
    · rfl
    · exact parentOf_relinked base _ (fun _ => rfl) moved

/-- A shadow root may not be removed from its host. -/
def RemovesWell (document : LiveDocument) (c : NodeId) : Prop :=
  ∀ (host : NodeId) (record : ShadowRootRecord), document.shadows[host]? = some record → record.root ≠ c

theorem removeChild_anchored (anchored : Anchored base) {p c : NodeId} (lists : base.links.Lists p c)
    (well : RemovesWell base c) : Anchored (unlinked base p c) := by
  exact anchored.trimmed (trimmed_unlinked anchored.linked lists) fun host record found =>
    parentOf_relinked base p (fun _ => rfl) (well host record found)

/-! ## Clearing a node -/

/-- A host in a shadow tree keeps its own shadow root. -/
def KeepsRoot (document : LiveDocument) (node : NodeId) : Prop :=
  ∀ record : ShadowRootRecord, document.shadows[node]? = some record →
    (document.nodes[record.root]?).isSome → ∀ (other : NodeId) (around : ShadowRootRecord),
      document.shadows[other]? = some around → ¬ Shadowed document around.root node

theorem parentOf_cleared {node other : NodeId} (stored : ((cleared base node).nodes[other]?).isSome) :
    (cleared base node).parentOf other = base.parentOf other := by
  have emptied := parentOf_modify
    { base with nodes := freeSubtrees (childrenOf base node) base.nodes } node other
    (fun entry => { entry with children := [] }) (.inr fun _ => rfl)
  rw [cleared, LiveDocument.isSome_modify { base with nodes := _ }] at stored
  obtain ⟨entry, found⟩ := Option.isSome_iff_exists.mp stored
  refine emptied.trans ?_
  rw [LiveDocument.parentOf, LiveDocument.parentOf, freeSubtrees_entry _ _ found]
  exact congrArg (fun value => value.bind LiveNode.parent) found

theorem cleared_anchored (anchored : Anchored base) {node : NodeId}
    (stored : (base.nodes[node]?).isSome) (keeps : KeepsRoot base node) :
    Anchored (cleared base node) := by
  have linked := anchored.linked
  have pruned := pruned_cleared linked stored
  refine anchored.narrow ⟨pruned.linked, rfl, Nat.le_refl _, fun other _ => pruned.stored other,
    fun child parent _ up => ?_⟩ (fun host record _ left placed => (parentOf_cleared left).trans placed)
    fun host record found before missing left => ?_
  · refine (linked.forest.agree parent child).mp (pruned.lists parent child ?_)
    exact (pruned.linked.forest.agree parent child).mpr up
  · have below : base.links.Below record.root node := by
      by_contra outside
      have left := (cleared_stored linked stored).mpr ⟨before, outside⟩
      rw [missing] at left
      cases left
    have placed := (LiveDocument.isParent_iff _ _ _).mpr (anchored.placed host record found before)
    -- a root is freed with its host, or the host is the node that is cleared
    obtain ⟨parent, up, rest⟩ := TransGen.head'_iff.mp below
    obtain rfl := LinkStore.isParent_unique placed up
    rcases reflTransGen_iff_eq_or_transGen.mp rest with rfl | freed
    · exact keeps record found before
    · exact absurd freed ((cleared_stored linked stored).mp left).2

theorem refilled_anchored (anchored : Anchored base) {node : NodeId}
    (stored : (base.nodes[node]?).isSome) (keeps : KeepsRoot base node) (after : LiveDocument)
    (linked : after.Linked) (grown : Grown (cleared base node) (· = node) (fun _ => True) after) :
    Anchored after := (cleared_anchored anchored stored keeps).grown linked grown

theorem fillMarkup_anchored (anchored : Anchored base) {node : NodeId}
    (stored : (base.nodes[node]?).isSome) (keeps : KeepsRoot base node) {parsed : Element} :
    Meets (· = cleared base node) (appendParsedFragment parsed node) (fun _ => Anchored) Anchored :=
  fillMarkup_grown anchored.linked stored (fun _ => trivial) (refilled_anchored anchored stored keeps)
    (Element.every_of_forall (fun _ _ _ _ => trivial) _)

/-! ## A new shadow root -/

theorem Anchored.planted (host : NodeId) {middle : LiveDocument} (linked : base.Linked)
    (anchored : Anchored middle) (made : Allocated base root middle) (shadows : middle.shadows = base.shadows)
    (old : ∀ (other : NodeId) (record : ShadowRootRecord), base.shadows[other]? = some record →
      other ≠ root ∧ record.root ≠ root) (stored : (base.nodes[host]?).isSome) :
    Anchored (appended middle host root) ∧ (appended middle host root).parentOf root = some host ∧
      ∀ child, ¬ (appended middle host root).links.IsParent child root := by
  have bare (child : NodeId) : ¬ middle.links.IsParent child root := by
    intro up
    have absent : base.links root = none := by rw [LiveDocument.links, made.fresh]; rfl
    rw [made.links, LinkStore.isParent_create absent] at up
    have parent := linked.forest.parent_exists up
    rw [absent] at parent
    cases parent
  have hcycle : ¬ ReflTransGen middle.links.IsParent host root := by
    intro reaches
    have before := made.extends.old_of_reaches linked stored reaches
    rw [made.fresh] at before
    cases before
  have hne : root ≠ host := by
    rintro rfl
    exact hcycle .refl
  have rootStored := (made.isSome root).mpr (.inl rfl)
  have joined := appended_spec made.linked ((made.isSome host).mpr (.inr stored)) rootStored made.parentOf
    hcycle
  refine ⟨?_, ?_, fun child up => ?_⟩
  · refine anchored.joined ⟨fun other record found same => ?_, fun other record found _ reaches => ?_⟩
      rootStored hne (fun _ _ up => up) joined rfl rfl (fun node => modify_stored middle host root node _ _)
      fun node moved => ?_
    · exact absurd same (old other record (shadows ▸ found)).2
    · rcases ReflTransGen.cases_tail reaches with same | ⟨child, -, up⟩
      · exact absurd same.symm (old other record (shadows ▸ found)).1
      · exact absurd up (bare child)
    · exact parentOf_relinked middle host (f := LiveNode.pushChild root) (fun _ => rfl) moved
  · rw [← LiveDocument.isParent_iff, joined.links,
      LinkStore.isParent_link (by rwa [middle.isSome_links]) hne, if_pos rfl]
  · rw [joined.links, LinkStore.isParent_link (by rwa [middle.isSome_links]) hne] at up
    split at up
    · exact hne up
    · exact bare child up

theorem Anchored.recorded {host : NodeId} {mode : ShadowMode} (anchored : Anchored base)
    (free : base.shadows[host]? = none) (stored : (base.nodes[host]?).isSome)
    (rootStored : (base.nodes[root]?).isSome) (placed : base.parentOf root = some host)
    (bare : ∀ child, ¬ base.links.IsParent child root)
    (new : ∀ (other : NodeId) (record : ShadowRootRecord),
      base.shadows[other]? = some record → other ≠ root) :
    Anchored { base with shadows := base.shadows.insert host ⟨host, root, mode⟩ } := by
  have split {other : NodeId} {record : ShadowRootRecord}
      (found : (base.shadows.insert host ⟨host, root, mode⟩)[other]? = some record) :
      other = host ∧ record = ⟨host, root, mode⟩ ∨ base.shadows[other]? = some record := by
    rw [IdMap.getElem?_insert] at found
    split at found
    · next same => exact .inl ⟨same, (Option.some.inj found).symm⟩
    · exact .inr found
  refine ⟨⟨anchored.linked.forest, anchored.linked.below⟩, fun other record found => ?_,
    fun other record found => ?_, fun other record found => ?_, fun other record found isSome => ?_,
    fun other record found missing third around present => ?_⟩
  · rcases split found with ⟨rfl, rfl⟩ | old
    · rfl
    · exact anchored.host_eq other record old
  · rcases split found with ⟨rfl, rfl⟩ | old
    · exact anchored.linked.below other stored
    · exact anchored.host_below other record old
  · rcases split found with ⟨rfl, rfl⟩ | old
    · exact anchored.linked.below root rootStored
    · exact anchored.root_below other record old
  · rcases split found with ⟨rfl, rfl⟩ | old
    · exact placed
    · exact anchored.placed other record old isSome
  · rcases split found with ⟨rfl, rfl⟩ | old
    · rw [show base.nodes[root]? = none from missing] at rootStored
      cases rootStored
    · rintro ⟨aroundStored, reaches⟩
      rcases split present with ⟨rfl, rfl⟩ | before
      · rcases ReflTransGen.cases_tail reaches with same | ⟨child, -, up⟩
        · exact new other record old same.symm
        · exact bare child up
      · exact anchored.lost other record old missing third around before ⟨aroundStored, reaches⟩

theorem withShadow_anchored (anchored : Anchored base) {host : NodeId} (attachment : Attachment base host)
    (middle : Anchored (allocated base shadowKind)) (mode : ShadowMode) :
    Anchored (withShadow base host mode) := by
  have made := attachment.made
  obtain ⟨entry, hentry, -⟩ := attachment.plain
  have hostStored : (base.nodes[host]?).isSome := by rw [hentry]; rfl
  have below : ∀ (other : NodeId) (record : ShadowRootRecord), base.shadows[other]? = some record →
      other ≠ base.nextNodeId ∧ record.root ≠ base.nextNodeId := fun other record found =>
    ⟨Nat.ne_of_lt (anchored.host_below other record found), Nat.ne_of_lt (anchored.root_below other record found)⟩
  obtain ⟨joined, placed, bare⟩ := middle.planted host anchored.linked made rfl below hostStored
  have still (node : NodeId) (h : ((allocated base shadowKind).nodes[node]?).isSome) :
      ((appended (allocated base shadowKind) host base.nextNodeId).nodes[node]?).isSome := by
    rwa [appended, modify_stored]
  exact joined.recorded attachment.attaches.2 (still host ((made.isSome host).mpr (.inr hostStored)))
    (still _ ((made.isSome _).mpr (.inl rfl))) placed bare fun other record found => (below other record found).1

end Edits

/-! ## Runs -/

section Runs

variable [HtmlParser]

/-- What an operation has to meet: the shadow roots stay below their hosts. -/
def LeavesRoots (document : LiveDocument) : Dom.Operation → Prop
  | .appendChild p c => Appends document p c → AppendsWell document p c
  | .removeChild p c => document.links.Lists p c → RemovesWell document c
  | .setTextContent node _ => KeepsRoot document node
  | .setInnerHtml node html => html.utf8ByteSize ≤ maxShadowHtmlBytes → KeepsRoot document node
  | .setShadowHtml root html => html.utf8ByteSize ≤ maxShadowHtmlBytes →
      (document.shadows.toList.any fun entry => entry.2.root == root) → KeepsRoot document root
  | _ => True

theorem anchored_rules : EditRules Anchored LeavesRoots where
  steady := steady_anchored
  update {document node f} anchored stored relabels := by
    refine anchored.trimmed (trimmed_modify anchored.linked stored relabels) fun host record _ => ?_
    exact parentOf_modify document node _ f (.inr fun entry => congrArg Links.parent (relabels.links entry))
  append anchored leaves checks := appendChild_anchored anchored checks (leaves checks)
  remove anchored leaves lists := removeChild_anchored anchored lists (leaves lists)
  text anchored keeps stored := fillText_grown anchored.linked stored (F := fun _ => True)
    (fun _ => trivial) (refilled_anchored anchored stored keeps) _
  innerHtml anchored keeps size stored := fillMarkup_anchored anchored stored (keeps size)
  shadowHtml anchored keeps size isRoot stored := fillMarkup_anchored anchored stored (keeps size isRoot)
  attach anchored _ attachment middle := withShadow_anchored anchored attachment middle _

omit [HtmlParser] in
theorem fromElement_anchored (root : Element) : Anchored (LiveDocument.fromElement root) := by
  have empty : Holds (fun _ => False) ∅ LiveDocument.empty := ⟨fun _ h => h.elim, rfl⟩
  have bare := importElement_holds root none .empty empty
  have shadows : (LiveDocument.fromElement root).shadows = ∅ := by
    rw [LiveDocument.fromElement]
    revert bare
    cases importElement root none .empty with
    | ok id document => exact Holds.shadows
    | error failure document => exact Holds.shadows
  have none {host : NodeId} {record : ShadowRootRecord}
      (found : (LiveDocument.fromElement root).shadows[host]? = some record) : False := by
    rw [shadows] at found
    cases found
  exact ⟨LiveDocument.fromElement_linked root, fun _ _ h => (none h).elim, fun _ _ h => (none h).elim,
    fun _ _ h => (none h).elim, fun _ _ h => (none h).elim, fun _ _ h => (none h).elim⟩

theorem run_anchored {document : LiveDocument} (anchored : Anchored document)
    {operations : List Dom.Operation}
    (leaves : ∀ moment ∈ History.history editStep document operations, LeavesRoots moment.1 moment.2) :
    Anchored (History.run editStep document operations) := by
  induction operations generalizing document with
  | nil => exact anchored
  | cons operation operations ih =>
    obtain ⟨first, rest⟩ := List.forall_mem_cons.mp leaves
    refine ih ?_ rest
    rw [editStep, after_eq]
    exact anchored_rules.edit anchored first

/-- While the shadow roots stay in place, a listener sees into no shadow tree around it, for every
target and every node of a listener. -/
theorem run_encapsulated (root : Element) (operations : List Dom.Operation)
    (leaves : ∀ moment ∈ History.history editStep (.fromElement root) operations,
      LeavesRoots moment.1 moment.2) (target current : NodeId) :
    ∃ observed, Observes (LiveDocument.run root operations) target current observed ∧
      Encapsulated (LiveDocument.run root operations) observed current :=
  encapsulated_of_anchored (run_anchored (fromElement_anchored root) leaves) target current

end Runs

/-! ## A page with shadow trees -/

/-- A shadow root on the body, with a paragraph in it. -/
def hostedParagraph : List Dom.Operation :=
  [.attachShadow 1 .opened, .createElement "p", .appendChild 2 3]

/-- From the paragraph the body is seen at the body. -/
theorem run_encapsulated_paragraph : ∃ observed,
    Observes (@LiveDocument.run paragraphParser (.mk none "body" [] [] "" false) hostedParagraph)
        3 1 observed ∧
      Encapsulated (@LiveDocument.run paragraphParser (.mk none "body" [] [] "" false) hostedParagraph)
        observed 1 := by
  refine @run_encapsulated paragraphParser _ _ (fun moment member => ?_) 3 1
  have before : (@LiveDocument.run paragraphParser (.mk none "body" [] [] "" false)
      [.attachShadow 1 .opened, .createElement "p"]).shadows.toList.all fun entry =>
        entry.2.root == 2 := by
    decide +kernel
  have stored : ((@LiveDocument.run paragraphParser (.mk none "body" [] [] "" false)
      [.attachShadow 1 .opened, .createElement "p"]).nodes[2]?).isSome := by
    decide +kernel
  have roots {host : NodeId} {record : ShadowRootRecord}
      (found : (@LiveDocument.run paragraphParser (.mk none "body" [] [] "" false)
        [.attachShadow 1 .opened, .createElement "p"]).shadows[host]? = some record) :
      record.root = 2 :=
    eq_of_beq (List.all_eq_true.mp before _ (Std.ExtTreeMap.mem_toList_iff_getElem?_eq_some.mpr found))
  simp only [hostedParagraph, History.history, List.mem_cons, List.not_mem_nil, or_false] at member
  rcases member with rfl | rfl | rfl
  · trivial
  · trivial
  · refine fun _ => ⟨fun host record found same => ?_, fun host record found missing => ?_⟩
    · rw [roots found] at same
      cases same
    · rw [roots found] at missing
      exact absurd stored (Option.not_isSome_iff_eq_none.mpr missing)

/-- A paragraph in the shadow tree of a box is a host itself. Its shadow root is appended to
the body. -/
def movedRoot : List Dom.Operation :=
  [.createElement "div", .appendChild 1 2, .attachShadow 2 .opened,
    .createElement "p", .appendChild 3 4, .attachShadow 4 .opened,
    .createElement "button", .appendChild 5 6, .appendChild 1 5]

theorem retarget_more {document : LiveDocument} {current : NodeId} {turns : Nat} {observed : NodeId}
    {cursor : Option NodeId} {result : NodeId}
    (h : retarget document current turns observed cursor = some result) {more : Nat}
    (le : turns ≤ more) : retarget document current more observed cursor = some result := by
  induction turns generalizing observed cursor more with
  | zero => cases h
  | succ turns ih =>
    obtain ⟨more, rfl⟩ := Nat.exists_eq_add_of_le' (Nat.le_of_add_left_le le)
    cases cursor with
    | none => exact h
    | some node =>
      rw [retarget] at h ⊢
      split
      · next here => rwa [if_pos here] at h
      · next here =>
        rw [if_neg here] at h
        exact ih h (Nat.le_of_succ_le_succ le)

/-- The body, outside the shadow tree of the box, sees the paragraph in it as the target. -/
theorem moved_root_leaks : ¬ ∀ target current, ∃ observed,
    Observes (@LiveDocument.run paragraphParser (.mk none "body" [] [] "" false) movedRoot)
        target current observed ∧
      Encapsulated (@LiveDocument.run paragraphParser (.mk none "body" [] [] "" false) movedRoot)
        observed current := by
  intro encapsulated
  obtain ⟨observed, ⟨enough, ends⟩, hidden⟩ := encapsulated 6 1
  generalize same : @LiveDocument.run paragraphParser (.mk none "body" [] [] "" false) movedRoot =
    document at ends hidden
  have facts : (match @LiveDocument.run paragraphParser (.mk none "body" [] [] "" false) movedRoot with
      | document => effectiveTarget document 6 1 3 == some 4 && document.parentOf 4 == some 3 &&
        document.parentOf 1 == none && (document.nodes[3]?).isSome &&
        (document.shadows[2]?).map (fun record => record.root) == some 3) = true := by
    decide +kernel
  rw [same] at facts
  simp only [Bool.and_eq_true, beq_iff_eq] at facts
  obtain ⟨⟨⟨⟨sees, inside⟩, top⟩, stored⟩, recorded⟩ := facts
  have answer := (ends (enough + 3) (Nat.le_add_right _ _)).symm.trans
    (retarget_more sees (Nat.le_add_left 3 enough))
  obtain rfl := Option.some.inj answer
  obtain ⟨record, found, root⟩ := Option.map_eq_some_iff.mp recorded
  have around : Shadowed document record.root 4 := by
    rw [root]
    exact ⟨stored, .single ((LiveDocument.isParent_iff _ _ _).mpr inside)⟩
  obtain ⟨-, reaches⟩ := hidden 2 record found around
  rw [root] at reaches
  rcases ReflTransGen.cases_head reaches with absurd | ⟨parent, up, -⟩
  · cases absurd
  · rw [LiveDocument.isParent_iff, top] at up
    cases up

end GhitaBrowser.Live
