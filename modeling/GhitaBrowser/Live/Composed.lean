import GhitaBrowser.Lib.Unroll
import GhitaBrowser.Page.Activation
import GhitaBrowser.Dom.NodeStore
import GhitaBrowser.Lib.Descent

/-!
# The composed tree and its export

`export_element` calls itself along child links, from a host to its shadow tree, and from
a slot back to the light children of the host. Nothing bounds these calls, so the export
is a step that is unrolled.
-/

namespace GhitaBrowser.Dom

/-! ## Elements -/

namespace Element

def tag : Element → String
  | mk _ tag .. => tag

def new (tag : String) : Element := .mk none tag [] [] "" false

/-- `element.text.push_str`. -/
def pushText (more : String) : Element → Element
  | mk nodeId tag attrs children text isVoid => .mk nodeId tag attrs children (text ++ more) isVoid

/-- `element.children.push`. -/
def pushChild : Element → Element → Element
  | mk nodeId tag attrs children text isVoid, child =>
    .mk nodeId tag attrs (children ++ [child]) text isVoid

end Element

end GhitaBrowser.Dom

namespace GhitaBrowser.Live

open Dom Page

/-- An export stops at a node that is missing or not for export, or it has not ended. -/
inductive Stop where
  | missing | unfinished
deriving DecidableEq

abbrev Export := Except Stop

/-- A node to export, and the host in whose shadow tree it stands. -/
abbrev Request := NodeId × Option NodeId

def isShadowRoot (document : LiveDocument) (node : NodeId) : Bool :=
  elementTag document node == some "shadow-root"

/-- `nodes.get(&node)?`. -/
def lookup (document : LiveDocument) (node : NodeId) : Export LiveNode :=
  match document.nodes[node]? with
  | some live => return live
  | none => throw .missing

/-! ## The step -/

section Step

variable (document : LiveDocument) (self : Request → Export Element)

/-- Export a node that stands in the shadow tree of `host` into an element. -/
def exportChild (host : Option NodeId) (element : Element) (node : NodeId) : Export Element := do
  match (← lookup document node).kind with
  | .text text => return element.pushText text
  | .element .. => return element.pushChild (← self (node, host))

def exportInto (element : Element) (node : NodeId) : Export Element :=
  exportChild document self none element node

/-- The light children of a host that the slot of this name takes. -/
def assigned (host : NodeId) (name : String) : Export (List NodeId) := do
  let live ← lookup document host
  -- Shadow roots are no light children.
  return live.children.filter fun light =>
    !isShadowRoot document light && (getAttribute document light "slot").getD "" == name

/-- A slot shows what is assigned to it, or else its fallback. -/
def exportSlot (host slot : NodeId) (fallback : List NodeId) (element : Element) :
    Export Element := do
  let assigned ← assigned document host ((getAttribute document slot "name").getD "")
  (if assigned.isEmpty then fallback else assigned).foldlM (exportInto document self) element

def exportShadowChild (host : NodeId) (element : Element) (child : NodeId) : Export Element := do
  match (← lookup document child).kind with
  | .text text => return element.pushText text
  | .element tag .. =>
    if tag = "slot" then exportSlot document self host child [child] element
    else return element.pushChild (← self (child, some host))

def exportShadowChildren (root host : NodeId) (element : Element) : Export Element := do
  let live ← lookup document root
  live.children.foldlM (exportShadowChild document self host) element

/-- The body of `export_element_inner`. -/
def exportStep : Request → Export Element
  | (node, shadowHost) => do
    let live ← lookup document node
    match live.kind with
    | .text _ => throw .missing
    | .element tag attrs isVoid =>
      let element := Element.mk (some node) tag attrs.toList [] "" isVoid
      match shadowHost.filter fun _ => tag == "slot" with
      | some host => exportSlot document self host node live.children element
      | none =>
        match document.shadows[node]? with
        | some shadow => exportShadowChildren document self shadow.root node element
        | none =>
          -- A bare shadow root exports nothing.
          if tag = "shadow-root" then throw .missing
          else live.children.foldlM (exportChild document self shadowHost) element

end Step

/-! ## The export -/

/-- `export_element_inner`, when its calls nest at most `turns` deep. -/
def exportElementInner (document : LiveDocument) : Nat → Request → Export Element :=
  unroll (.error .unfinished) (exportStep document)

def exportElement (document : LiveDocument) (turns : Nat) (node : NodeId) : Export Element :=
  exportElementInner document turns (node, none)

def toElement (document : LiveDocument) (turns : Nat) : Export Element :=
  match exportElement document turns document.root with
  | .ok element => return element
  | .error .missing => return .new "root"
  | .error .unfinished => throw .unfinished

/-! ## Markup -/

def escapeHtmlText (value : String) : String :=
  ((value.replace "&" "&amp;").replace "<" "&lt;").replace ">" "&gt;"

def escapeHtmlAttrValue (value : String) : String := (escapeHtmlText value).replace "\"" "&quot;"

def attributeHtml (entry : String × String) : String :=
  " " ++ escapeHtmlText entry.1 ++ "=\"" ++ escapeHtmlAttrValue entry.2 ++ "\""

mutual

def compactElementHtml : Element → String
  | .mk _ tag attrs children text isVoid =>
    let opening := "<" ++ tag ++ String.join (attrs.map attributeHtml) ++ ">"
    if isVoid then opening
    else opening ++ escapeHtmlText text ++ compactElementsHtml children ++ "</" ++ tag ++ ">"

def compactElementsHtml : List Element → String
  | [] => ""
  | child :: children => compactElementHtml child ++ compactElementsHtml children

end

def compactChildrenHtml : Element → String
  | .mk _ _ _ children text _ => escapeHtmlText text ++ compactElementsHtml children

/-- `inner_html`: what it answers, or that it has not ended. -/
def innerHtml (document : LiveDocument) (turns : Nat) (node : NodeId) :
    Export (Except String String) :=
  match exportElement document turns node with
  | .ok element => return .ok (compactChildrenHtml element)
  | .error .missing => return .error nodeGone
  | .error .unfinished => throw .unfinished

end GhitaBrowser.Live

/-!
## The composed tree

A step of the export goes along a child link or from a host to its shadow root. The
export ends when these steps are grounded. It succeeds when no node that the root shows
lists a shadow root that the export does not skip.
-/

namespace GhitaBrowser.Live

open Dom Page List

/-! ## Programs that avoid a stop -/

section Avoids

variable {α β : Type} {stop : Stop}

theorem bind_avoids {program : Export α} {next : α → Export β} (h : program ≠ .error stop)
    (hnext : ∀ value, program = .ok value → next value ≠ .error stop) :
    program >>= next ≠ .error stop := by
  cases hprogram : program with
  | ok value => exact hnext value hprogram
  | error other =>
    intro heq
    obtain rfl := Except.error.inj heq
    exact h hprogram

theorem foldlM_avoids {f : α → β → Export α} {values : List β}
    (h : ∀ start, ∀ value ∈ values, f start value ≠ .error stop) (start : α) :
    values.foldlM f start ≠ .error stop := by
  induction values generalizing start with
  | nil => exact nofun
  | cons value values ih =>
    rw [foldlM_cons]
    refine bind_avoids (h start value mem_cons_self) fun next _ => ?_
    exact ih (fun start other hother => h start other (mem_cons_of_mem value hother)) next

abbrev Refines (program program' : Export α) : Prop :=
  Approximates (.error .unfinished) program program'

theorem Refines.refl (program : Export α) : Refines program program := .inr rfl

theorem Refines.bind {program program' : Export α} {next next' : α → Export β}
    (h : Refines program program') (hnext : ∀ value, Refines (next value) (next' value)) :
    Refines (program >>= next) (program' >>= next') := by
  rcases h with rfl | rfl
  · exact .inl rfl
  · cases program with
    | ok value => exact hnext value
    | error other => exact .inr rfl

theorem Refines.foldlM {f f' : α → β → Export α} (h : ∀ start value, Refines (f start value) (f' start value))
    (values : List β) (start : α) : Refines (values.foldlM f start) (values.foldlM f' start) := by
  induction values generalizing start with
  | nil => exact .refl _
  | cons value values ih =>
    rw [foldlM_cons, foldlM_cons]
    exact (h start value).bind fun next => ih next

end Avoids

/-! ## Calls -/

variable {document : LiveDocument}

variable {node : NodeId}

theorem lookup_avoids {stop : Stop}
    (h : stop = .missing → (document.nodes[node]?).isSome) : lookup document node ≠ .error stop := by
  rw [lookup]
  cases hnode : document.nodes[node]? with
  | some live => exact nofun
  | none =>
    intro heq
    obtain rfl := Except.error.inj heq
    rw [hnode] at h
    exact nomatch h rfl

theorem lookup_eq {live : LiveNode} (h : lookup document node = .ok live) :
    document.nodes[node]? = some live := by
  rw [lookup] at h
  cases hnode : document.nodes[node]? with
  | some other =>
    rw [hnode] at h
    exact congrArg some (Except.ok.inj h)
  | none =>
    rw [hnode] at h
    cases h

def childrenOf (document : LiveDocument) (node : NodeId) : List NodeId :=
  (document.nodes[node]?).elim [] LiveNode.children

def lightChildren (document : LiveDocument) (host : NodeId) : List NodeId :=
  (childrenOf document host).filter fun light => !isShadowRoot document light

/-- The requests that a step may ask for, whatever the slots are named. -/
def calls (document : LiveDocument) : Request → List Request
  | (node, shadowHost) =>
    match shadowHost.filter fun _ => elementTag document node == some "slot" with
    | some host =>
      (childrenOf document node ++ lightChildren document host).map fun child => (child, none)
    | none =>
      match document.shadows[node]? with
      | some shadow =>
        (childrenOf document shadow.root).map (fun child => (child, some node)) ++
          (childrenOf document shadow.root ++ lightChildren document node).map fun child => (child, none)
      | none =>
        if isShadowRoot document node then []
        else (childrenOf document node).map fun child => (child, shadowHost)

theorem mem_childrenOf {child : NodeId} :
    child ∈ childrenOf document node ↔ document.links.Lists node child := by
  simp only [childrenOf, LinkStore.Lists, LiveDocument.links]
  cases document.nodes[node]? <;> simp [LiveNode.links]

theorem mem_lightChildren {host light : NodeId} : light ∈ lightChildren document host ↔
    document.links.Lists host light ∧ isShadowRoot document light = false := by
  rw [lightChildren, mem_filter, mem_childrenOf, Bool.not_eq_true']

theorem childrenOf_eq {live : LiveNode} (h : document.nodes[node]? = some live) :
    childrenOf document node = live.children := by
  rw [childrenOf, h]
  rfl

def IsElement (document : LiveDocument) (node : NodeId) : Prop :=
  (elementTag document node).isSome

theorem elementTag_eq {live : LiveNode} {tag : String} {attrs : Attributes}
    {isVoid : Bool} (h : document.nodes[node]? = some live) (hkind : live.kind = .element tag attrs isVoid) :
    elementTag document node = some tag := by
  rw [elementTag, h, Option.map_some, hkind]

section Step

variable {self : Request → Export Element} {stop : Stop}

theorem exportChild_avoids {host : Option NodeId} {element : Element}
    (hstored : stop = .missing → (document.nodes[node]?).isSome)
    (hself : IsElement document node → self (node, host) ≠ .error stop) :
    exportChild document self host element node ≠ .error stop := by
  refine bind_avoids (lookup_avoids hstored) fun live hlive => ?_
  split
  · exact nofun
  · next tag attrs isVoid hkind =>
    refine bind_avoids (hself ?_) fun _ _ => nofun
    rw [IsElement, elementTag_eq (lookup_eq hlive) hkind]
    rfl

theorem exportSlot_avoids {host slot : NodeId} {fallback : List NodeId} {element : Element}
    (hhost : stop = .missing → (document.nodes[host]?).isSome)
    (hstored : stop = .missing →
      ∀ node ∈ fallback ++ lightChildren document host, (document.nodes[node]?).isSome)
    (hself : ∀ node ∈ fallback ++ lightChildren document host, IsElement document node →
      self (node, none) ≠ .error stop) :
    exportSlot document self host slot fallback element ≠ .error stop := by
  have hassigned {name : String} : assigned document host name ≠ .error stop :=
    bind_avoids (lookup_avoids hhost) fun _ _ => nofun
  refine bind_avoids hassigned fun nodes hnodes => ?_
  have hsub : ∀ node ∈ nodes, node ∈ lightChildren document host := by
    intro node hnode
    rw [assigned] at hnodes
    cases hlive : lookup document host with
    | error other =>
      rw [hlive] at hnodes
      cases hnodes
    | ok live =>
      rw [hlive] at hnodes
      obtain rfl := Except.ok.inj hnodes
      rw [lightChildren, childrenOf_eq (lookup_eq hlive)]
      simp only [mem_filter, Bool.and_eq_true] at hnode ⊢
      exact ⟨hnode.1, hnode.2.1⟩
  refine foldlM_avoids (fun start node hnode => ?_) element
  have hmem : node ∈ fallback ++ lightChildren document host := by
    split at hnode
    · exact mem_append_left _ hnode
    · exact mem_append_right _ (hsub node hnode)
  exact exportChild_avoids (fun h => hstored h node hmem) (hself node hmem)

theorem exportShadowChild_avoids {host : NodeId} {element : Element} {child : NodeId}
    (hhost : stop = .missing → (document.nodes[host]?).isSome)
    (hstored : stop = .missing →
      ∀ node ∈ child :: lightChildren document host, (document.nodes[node]?).isSome)
    (hself : IsElement document child → self (child, some host) ≠ .error stop)
    (hlight : ∀ node ∈ child :: lightChildren document host, IsElement document node →
      self (node, none) ≠ .error stop) :
    exportShadowChild document self host element child ≠ .error stop := by
  have hchild (h : stop = .missing) := hstored h child mem_cons_self
  refine bind_avoids (lookup_avoids hchild) fun live hlive => ?_
  split
  · exact nofun
  · next tag attrs isVoid hkind =>
    split
    · exact exportSlot_avoids hhost hstored hlight
    · refine bind_avoids (hself ?_) fun _ _ => nofun
      rw [IsElement, elementTag_eq (lookup_eq hlive) hkind]
      rfl

/-- What the step of a request looks up is there. -/
structure Ready (document : LiveDocument) (node : NodeId) (shadowHost : Option NodeId) : Prop where
  element : IsElement document node
  host : ∀ host, shadowHost = some host → (document.nodes[host]?).isSome
  root : ∀ record, document.shadows[node]? = some record → (document.nodes[record.root]?).isSome
  plain : document.shadows[node]? = none → isShadowRoot document node = false
  calls : ∀ call ∈ calls document (node, shadowHost), (document.nodes[call.1]?).isSome

variable {shadowHost : Option NodeId}

/-- A step stops only where one of its calls does, or where a node is missing. -/
theorem exportStep_avoids
    (hready : stop = .missing → Ready document node shadowHost)
    (hself : ∀ call ∈ calls document (node, shadowHost), IsElement document call.1 →
      self call ≠ .error stop) :
    exportStep document self (node, shadowHost) ≠ .error stop := by
  have hnode (h : stop = .missing) : (document.nodes[node]?).isSome := by
    have helement := (hready h).element
    simp only [IsElement, elementTag] at helement
    cases hstored : document.nodes[node]? with
    | some live => rfl
    | none =>
      rw [hstored] at helement
      cases helement
  refine bind_avoids (lookup_avoids hnode) fun live hlive => ?_
  have hlive := lookup_eq hlive
  split
  · next text hkind =>
    intro hstop
    have helement := (hready (Except.error.inj hstop).symm).element
    simp only [IsElement, elementTag, hlive, Option.map_some, hkind] at helement
    cases helement
  · next tag attrs isVoid hkind =>
    have htag := elementTag_eq hlive hkind
    have hslot : (shadowHost.filter fun _ => elementTag document node == some "slot") =
        shadowHost.filter fun _ => tag == "slot" := by
      rw [htag]
      rfl
    have hstored (h : stop = .missing) := (hready h).calls
    simp only [calls, hslot] at hself hstored
    dsimp only
    split
    · next host hhost =>
      simp only [hhost, childrenOf_eq hlive] at hself hstored
      refine exportSlot_avoids (fun h => (hready h).host host ?_) (fun h child hchild => ?_)
        fun child hchild => ?_
      · exact (Option.filter_eq_some_iff.mp hhost).1
      · exact hstored h (child, none) (mem_map_of_mem hchild)
      · exact hself (child, none) (mem_map_of_mem hchild)
    · next hhost =>
      simp only [hhost] at hself hstored
      split
      · next shadow hshadow =>
        simp only [hshadow] at hself hstored
        refine bind_avoids (lookup_avoids fun h => (hready h).root shadow hshadow) fun root hroot => ?_
        have hmem {child : NodeId} (hchild : child ∈ root.children) :
            child ∈ childrenOf document shadow.root := by
          rwa [childrenOf_eq (lookup_eq hroot)]
        have hinto {child other : NodeId} (hchild : child ∈ root.children)
            (hother : other ∈ child :: lightChildren document node) :
            (other, none) ∈ (childrenOf document shadow.root).map (fun child => (child, some node)) ++
              (childrenOf document shadow.root ++ lightChildren document node).map
                fun child => (child, none) := by
          refine mem_append_right _ (mem_map_of_mem (f := fun child => (child, none)) ?_)
          rcases mem_cons.mp hother with rfl | hlight
          · exact mem_append_left _ (hmem hchild)
          · exact mem_append_right _ hlight
        refine foldlM_avoids (fun start child hchild => ?_) _
        refine exportShadowChild_avoids hnode (fun h other hother => hstored h _ (hinto hchild hother)) ?_
          fun other hother => hself _ (hinto hchild hother)
        exact hself (child, some node) (mem_append_left _ (mem_map_of_mem (hmem hchild)))
      · next hshadow =>
        simp only [hshadow, isShadowRoot, htag, childrenOf_eq hlive, beq_iff_eq, Option.some.injEq]
          at hself hstored
        split
        · next hroot =>
          intro hstop
          have hplain := (hready (Except.error.inj hstop).symm).plain hshadow
          rw [isShadowRoot, htag, hroot] at hplain
          cases hplain
        · next hroot =>
          rw [if_neg hroot] at hself hstored
          refine foldlM_avoids (fun start child hchild => ?_) _
          exact exportChild_avoids (fun h => hstored h (child, shadowHost) (mem_map_of_mem hchild))
            (hself (child, shadowHost) (mem_map_of_mem hchild))

theorem exportStep_steady : Steady (.error .unfinished) (exportStep document) := by
  intro self self' h
  have hchild (host : Option NodeId) (element : Element) (node : NodeId) :
      Refines (exportChild document self host element node)
        (exportChild document self' host element node) := by
    refine (Refines.refl _).bind fun live => ?_
    split
    · exact .refl _
    · exact Refines.bind (h (node, host)) fun _ => .refl _
  have hslot (host slot : NodeId) (fallback : List NodeId) (element : Element) :
      Refines (exportSlot document self host slot fallback element)
        (exportSlot document self' host slot fallback element) :=
    (Refines.refl _).bind fun _ => .foldlM (hchild none) _ _
  have hshadow (host : NodeId) (element : Element) (child : NodeId) :
      Refines (exportShadowChild document self host element child)
        (exportShadowChild document self' host element child) := by
    refine (Refines.refl _).bind fun live => ?_
    split
    · exact .refl _
    · split
      · exact hslot host child [child] element
      · exact Refines.bind (h (child, some host)) fun _ => .refl _
  rintro ⟨node, shadowHost⟩
  refine (Refines.refl _).bind fun live => ?_
  split
  · exact .refl _
  · dsimp only
    split
    · exact hslot _ _ _ _
    · split
      · exact (Refines.refl _).bind fun _ => .foldlM (hshadow _) _ _
      · split
        · exact .refl _
        · exact .foldlM (hchild _) _ _

end Step

/-! ## Steps of the composed tree -/

/-- From a node to what its export shows. A host does not show a shadow root as a child. -/
inductive Composed (document : LiveDocument) : NodeId → NodeId → Prop
  | child {node child : NodeId} : document.links.Lists node child →
      (isShadowRoot document child = true → document.shadows[node]? = none) →
      Composed document node child
  | shadow {host : NodeId} {record : ShadowRootRecord} : document.shadows[host]? = some record →
      Composed document host record.root

/-- Nodes that were named by records keep their place in it. -/
structure Recorded (document : LiveDocument) : Prop where
  host_below : ∀ (host : NodeId) (record : ShadowRootRecord),
    document.shadows[host]? = some record → host < document.nextNodeId
  root_below : ∀ (host : NodeId) (record : ShadowRootRecord),
    document.shadows[host]? = some record → record.root < document.nextNodeId
  host_plain : ∀ (host : NodeId) (record : ShadowRootRecord),
    document.shadows[host]? = some record → isShadowRoot document host = false
  root_named : ∀ (host : NodeId) (record : ShadowRootRecord),
    document.shadows[host]? = some record → (document.nodes[record.root]?).isSome →
      isShadowRoot document record.root = true

abbrev Ends (document : LiveDocument) (request : Request) : Prop :=
  Acc (fun call request => call ∈ calls document request) request

theorem ends_of_isShadowRoot (recorded : Recorded document)
    (h : isShadowRoot document node = true) (shadowHost : Option NodeId) :
    Ends document (node, shadowHost) := by
  have htag : elementTag document node = some "shadow-root" := by
    rwa [isShadowRoot, beq_iff_eq] at h
  have hslot : (shadowHost.filter fun _ => elementTag document node == some "slot") = none := by
    rw [htag]
    cases shadowHost <;> rfl
  have hnone : document.shadows[node]? = none := by
    cases hshadow : document.shadows[node]? with
    | none => rfl
    | some record =>
      rw [recorded.host_plain node record hshadow] at h
      cases h
  refine .intro _ fun call hcall => ?_
  simp only [calls, hslot, hnone, h, if_true] at hcall
  cases hcall

theorem composed_or_isShadowRoot {child : NodeId} (h : document.links.Lists node child) :
    Composed document node child ∨ isShadowRoot document child = true := by
  cases hroot : isShadowRoot document child with
  | true => exact .inr rfl
  | false => exact .inl (.child h fun htrue => nomatch hroot.symm.trans htrue)

theorem composed_light {host light : NodeId} (h : light ∈ lightChildren document host) :
    Composed document host light := by
  obtain ⟨hlists, hplain⟩ := mem_lightChildren.mp h
  exact .child hlists fun htrue => nomatch hplain.symm.trans htrue

section Grounded

variable {shadowHost : Option NodeId}

variable (recorded : Recorded document) (grounded : Grounded (Composed document))

include recorded in
theorem ends_child {P : NodeId → Prop} {child : NodeId}
    (h : document.links.Lists node child) (hP : Composed document node child → P child)
    (hends : P child → Ends document (child, shadowHost)) : Ends document (child, shadowHost) := by
  rcases composed_or_isShadowRoot h with hstep | hroot
  · exact hends (hP hstep)
  · exact ends_of_isShadowRoot recorded hroot shadowHost

include recorded grounded in
theorem ends_inside (node host : NodeId) (hbelow : Relation.TransGen (Composed document) host node)
    (hlight : ∀ other, Relation.TransGen (Composed document) host other → Ends document (other, none)) :
    Ends document (node, some host) := by
  induction node using (WellFounded.transGen grounded).induction generalizing host with
  | _ node ih =>
    have ih (other host' : NodeId) (hstep : Relation.TransGen (Composed document) node other)
        (hbelow' : Relation.TransGen (Composed document) host' other)
        (hlight' : ∀ third, Relation.TransGen (Composed document) host' third →
          Ends document (third, none)) : Ends document (other, some host') :=
      ih other (Relation.transGen_swap.mp hstep) host' hbelow' hlight'
    have hunder {other : NodeId} (hstep : Composed document node other) :
        Relation.TransGen (Composed document) host other := hbelow.tail hstep
    refine .intro _ fun call hcall => ?_
    simp only [calls] at hcall
    split at hcall
    · next other hother =>
      obtain rfl := Option.some.inj (Option.filter_eq_some_iff.mp hother).1
      obtain ⟨child, hchild, rfl⟩ := mem_map.mp hcall
      rcases mem_append.mp hchild with hchild | hchild
      · exact ends_child recorded (mem_childrenOf.mp hchild) hunder (hlight child)
      · exact hlight child (.single (composed_light hchild))
    · split at hcall
      · next shadow hshadow =>
        have hroot : Composed document node shadow.root := .shadow hshadow
        rcases mem_append.mp hcall with hcall | hcall
        · obtain ⟨child, hchild, rfl⟩ := mem_map.mp hcall
          have hstep (h : Composed document shadow.root child) :
              Relation.TransGen (Composed document) node child := .tail (.single hroot) h
          refine ends_child recorded (mem_childrenOf.mp hchild) hstep fun hdown => ?_
          exact ih child node hdown hdown fun third hthird => hlight third (hbelow.trans hthird)
        · obtain ⟨child, hchild, rfl⟩ := mem_map.mp hcall
          rcases mem_append.mp hchild with hchild | hchild
          · refine ends_child recorded (mem_childrenOf.mp hchild) (fun h => ?_) (hlight child)
            exact (hbelow.tail hroot).tail h
          · exact hlight child (hunder (composed_light hchild))
      · split at hcall
        · cases hcall
        · obtain ⟨child, hchild, rfl⟩ := mem_map.mp hcall
          refine ends_child recorded (mem_childrenOf.mp hchild) id fun hstep => ?_
          exact ih child host (.single hstep) (hunder hstep) hlight

include recorded grounded in
theorem ends_outside (node : NodeId) : Ends document (node, none) := by
  induction node using (WellFounded.transGen grounded).induction with
  | _ node ih =>
    have ih (other : NodeId) (hstep : Relation.TransGen (Composed document) node other) :
        Ends document (other, none) := ih other (Relation.transGen_swap.mp hstep)
    refine .intro _ fun call hcall => ?_
    simp only [calls, Option.filter_none] at hcall
    split at hcall
    · next shadow hshadow =>
      have hroot : Composed document node shadow.root := .shadow hshadow
      have hdown {child : NodeId} (h : Composed document shadow.root child) :
          Relation.TransGen (Composed document) node child := .tail (.single hroot) h
      rcases mem_append.mp hcall with hcall | hcall
      · obtain ⟨child, hchild, rfl⟩ := mem_map.mp hcall
        refine ends_child recorded (mem_childrenOf.mp hchild) hdown fun hbelow => ?_
        exact ends_inside recorded grounded child node hbelow ih
      · obtain ⟨child, hchild, rfl⟩ := mem_map.mp hcall
        rcases mem_append.mp hchild with hchild | hchild
        · exact ends_child recorded (mem_childrenOf.mp hchild) hdown (ih child)
        · exact ih child (.single (composed_light hchild))
    · split at hcall
      · cases hcall
      · obtain ⟨child, hchild, rfl⟩ := mem_map.mp hcall
        exact ends_child recorded (mem_childrenOf.mp hchild) .single (ih child)

/-- The export answers for a request. -/
abbrev Exports (document : LiveDocument) (request : Request) (answer : Export Element) : Prop :=
  Answers (.error .unfinished) (exportStep document) request answer

include recorded grounded in
theorem exports_of_grounded (node : NodeId) : ∃ answer, Exports document (node, none) answer := by
  refine answers_of_acc exportStep_steady (fun self request hcalls => ?_)
    (ends_outside recorded grounded node)
  exact exportStep_avoids nofun fun call hcall _ => hcalls call hcall

end Grounded

/-! ## What the root shows -/

def Visible (document : LiveDocument) (node : NodeId) : Prop :=
  Relation.ReflTransGen (Composed document) document.root node

/-- Nothing at the node stops the export. -/
structure Intact (document : LiveDocument) (node : NodeId) : Prop where
  stored : (document.nodes[node]?).isSome
  slot : (document.shadows[node]?).isSome → elementTag document node ≠ some "slot"
  plain : document.shadows[node]? = none →
    ∀ child, document.links.Lists node child → isShadowRoot document child = false

structure Composable (document : LiveDocument) : Prop where
  linked : document.Linked
  recorded : Recorded document
  grounded : Grounded (Composed document)
  root_element : IsElement document document.root
  root_plain : isShadowRoot document document.root = false
  intact : ∀ node, Visible document node → Intact document node

namespace Composable

variable {shadowHost : Option NodeId}

/-- A request at a node that the root shows. -/
structure Shown (document : LiveDocument) (request : Request) : Prop where
  visible : Visible document request.1
  plain : isShadowRoot document request.1 = false
  host : ∀ host, request.2 = some host → Visible document host

theorem shown_child (h : Composable document) {child : NodeId} {host : Option NodeId}
    (hvisible : Visible document node) (hnone : document.shadows[node]? = none)
    (hhost : ∀ other, host = some other → Visible document other)
    (hchild : child ∈ childrenOf document node) : Shown document (child, host) := by
  have hlists := mem_childrenOf.mp hchild
  have hplain := (h.intact node hvisible).plain hnone child hlists
  exact ⟨hvisible.tail (.child hlists fun _ => hnone), hplain, hhost⟩

theorem shown_light {host light : NodeId} (hvisible : Visible document host)
    (hlight : light ∈ lightChildren document host) : Shown document (light, none) :=
  ⟨hvisible.tail (composed_light hlight), (mem_lightChildren.mp hlight).2, nofun⟩

theorem root_not_host (h : Composable document) {host : NodeId} {record : ShadowRootRecord}
    (hrecord : document.shadows[host]? = some record) (hvisible : Visible document record.root) :
    document.shadows[record.root]? = none := by
  have hroot := h.recorded.root_named host record hrecord (h.intact _ hvisible).stored
  cases hother : document.shadows[record.root]? with
  | none => rfl
  | some other =>
    rw [h.recorded.host_plain _ _ hother] at hroot
    cases hroot

theorem shown_calls (h : Composable document) {request : Request} (hshown : Shown document request) :
    ∀ call ∈ calls document request, Shown document call := by
  obtain ⟨node, shadowHost⟩ := request
  obtain ⟨hvisible, hplain, hhost⟩ := hshown
  intro call hcall
  simp only [calls] at hcall
  split at hcall
  · next host hfilter =>
    obtain ⟨rfl, hslot⟩ := Option.filter_eq_some_iff.mp hfilter
    have hnone : document.shadows[node]? = none := by
      refine Option.not_isSome_iff_eq_none.mp fun hsome => ?_
      exact (h.intact node hvisible).slot hsome (beq_iff_eq.mp hslot)
    obtain ⟨child, hchild, rfl⟩ := mem_map.mp hcall
    rcases mem_append.mp hchild with hchild | hchild
    · exact h.shown_child hvisible hnone (fun _ hother => by cases hother) hchild
    · exact shown_light (hhost host rfl) hchild
  · split at hcall
    · next shadow hshadow =>
      have hroot : Visible document shadow.root := hvisible.tail (.shadow hshadow)
      have hnone := h.root_not_host hshadow hroot
      rcases mem_append.mp hcall with hcall | hcall
      · obtain ⟨child, hchild, rfl⟩ := mem_map.mp hcall
        refine h.shown_child hroot hnone (fun other hother => ?_) hchild
        obtain rfl := Option.some.inj hother
        exact hvisible
      · obtain ⟨child, hchild, rfl⟩ := mem_map.mp hcall
        rcases mem_append.mp hchild with hchild | hchild
        · exact h.shown_child hroot hnone (fun _ hother => by cases hother) hchild
        · exact shown_light hvisible hchild
    · next hnone =>
      rw [if_neg (by rw [hplain]; exact Bool.false_ne_true)] at hcall
      obtain ⟨child, hchild, rfl⟩ := mem_map.mp hcall
      exact h.shown_child hvisible hnone hhost hchild

theorem ready (h : Composable document)
    (hshown : Shown document (node, shadowHost)) (helement : IsElement document node) :
    Ready document node shadowHost where
  element := helement
  host host hhost := (h.intact host (hshown.host host hhost)).stored
  root _ hrecord := (h.intact _ (hshown.visible.tail (.shadow hrecord))).stored
  plain _ := hshown.plain
  calls call hcall := (h.intact _ (h.shown_calls hshown call hcall).visible).stored

theorem not_missing (h : Composable document) {request : Request} {answer : Export Element}
    (hanswer : Exports document request answer) (hshown : Shown document request)
    (helement : IsElement document request.1) : answer ≠ .error .missing := by
  have hbottom : (.error .unfinished : Export Element) ≠ .error .missing := nofun
  have hkeeps : Shown document request → IsElement document request.1 →
      answer ≠ .error .missing := by
    refine hanswer.keeps (P := fun request answer => Shown document request →
      IsElement document request.1 → answer ≠ .error .missing) (fun _ _ _ => hbottom)
      fun self hself => ?_
    rintro ⟨node, shadowHost⟩ hshown helement
    refine exportStep_avoids (fun _ => h.ready hshown helement) fun call hcall hcallElement => ?_
    exact hself call (h.shown_calls hshown call hcall) hcallElement
  exact hkeeps hshown helement

theorem exports_root (h : Composable document) :
    ∃ element, Exports document (document.root, none) (.ok element) := by
  obtain ⟨answer, hanswer⟩ := exports_of_grounded h.recorded h.grounded document.root
  have hfound := h.not_missing hanswer ⟨.refl, h.root_plain, nofun⟩ h.root_element
  cases answer with
  | ok element => exact ⟨element, hanswer⟩
  | error stop =>
    cases stop with
    | missing => exact absurd rfl hfound
    | unfinished => exact absurd rfl hanswer.ended

end Composable

end GhitaBrowser.Live
