import GhitaBrowser.Lib.OrdMap
import GhitaBrowser.Lib.Str

/-!
# The live document

The node store of `LiveDocument` and the operations that edit it. An operation that
fails keeps the edits it has made, so operations are `EStateM` programs.
-/

namespace GhitaBrowser.Dom

abbrev NodeId := Nat

def maxLiveNodes : Nat := 50000
def maxLiveDepth : Nat := 256
def maxEventPath : Nat := 256
def maxTextBytes : Nat := 1024 * 1024
def maxAttributeBytes : Nat := 64 * 1024
def maxShadowRoots : Nat := 128
def maxShadowHtmlBytes : Nat := 2 * 1024 * 1024
def maxAttrsPerElement : Nat := 64
def maxPreferredIdJump : Nat := 100000
def maxNodeId : Nat := 2 ^ 64 - 1

inductive ShadowMode where
  | opened | closed
deriving DecidableEq

structure ShadowRootRecord where
  host : NodeId
  root : NodeId
  mode : ShadowMode

abbrev Attributes := Std.ExtTreeMap String String compare

inductive LiveNodeKind where
  | element (tag : String) (attrs : Attributes) (isVoid : Bool)
  | text (text : String)

def LiveNodeKind.isElement : LiveNodeKind → Bool
  | element .. => true
  | text _ => false

def LiveNodeKind.isShadowRoot : LiveNodeKind → Bool
  | element tag .. => tag == "shadow-root"
  | text _ => false

structure LiveNode where
  id : NodeId
  parent : Option NodeId
  children : List NodeId
  kind : LiveNodeKind

/-- An element of the document parser. -/
inductive Element where
  | mk (nodeId : Option NodeId) (tag : String) (attrs : List (String × String))
      (children : List Element) (text : String) (isVoid : Bool)

structure LiveDocument where
  root : NodeId
  nodes : IdMap LiveNode
  nextNodeId : NodeId
  shadows : IdMap ShadowRootRecord

/-- An operation ends with an error of its own or stops at a missing key. -/
inductive Failure where
  | error (message : String)
  | panicked

abbrev Edit := EStateM Failure LiveDocument

/-- `parse_html`. -/
class HtmlParser where
  parseHtml : String → Element

def fail {α : Type} (message : String) : Edit α := throw (.error message)

/-! ## Reading -/

namespace LiveDocument

def parentOf (document : LiveDocument) (node : NodeId) : Option NodeId :=
  document.nodes[node]?.bind LiveNode.parent

/-- The walk of `depth_budget_ok`, with `steps` turns of its loop left. -/
def depthWalk (document : LiveDocument) : Nat → Option NodeId → Bool
  | 0, _ => false
  | _ + 1, none => true
  | steps + 1, some node => document.depthWalk steps (document.parentOf node)

/-- The walk of `is_ancestor`, with `steps` turns of its loop left. -/
def ancestorWalk (document : LiveDocument) (candidate : NodeId) : Nat → Option NodeId → Bool
  | 0, _ => false
  | _ + 1, none => false
  | steps + 1, some node =>
    if node = candidate then true
    else document.ancestorWalk candidate steps (document.parentOf node)

def isAncestor (document : LiveDocument) (candidate node : NodeId) : Bool :=
  document.ancestorWalk candidate maxEventPath (some node)

end LiveDocument

def requireNode (node : NodeId) : Edit LiveNode := do
  match (← get).nodes[node]? with
  | some entry => return entry
  | none => fail "NotFoundError: node does not belong to this document"

def requireElement (node : NodeId) : Edit LiveNode := do
  let entry ← requireNode node
  if entry.kind.isElement then return entry
  else fail "HierarchyRequestError: parent must be an element"

def requireElementMut (node : NodeId) : Edit LiveNode := do
  let entry ← requireNode node
  if entry.kind.isElement then return entry
  else fail "HierarchyRequestError: node must be an element"

/-- `nodes[&node]`. -/
def indexNode (node : NodeId) : Edit LiveNode := do
  match (← get).nodes[node]? with
  | some entry => return entry
  | none => throw .panicked

def depthBudgetOk (node : NodeId) : Edit Unit := do
  let document ← get
  if document.depthWalk (maxLiveDepth - 1) (document.parentOf node) then return ()
  else fail "HierarchyRequestError: DOM nesting depth budget exceeded"

/-! ## Editing -/

/-- `nodes.get_mut(&node)`, which answers with an error when the node is gone. -/
def updateNode (node : NodeId) (message : String) (f : LiveNode → LiveNode) : Edit Unit := do
  let document ← get
  if document.nodes.contains node then
    set { document with nodes := document.nodes.modify node f }
  else fail message

def parentGone : String := "InvalidStateError: parent is no longer in the document"
def childGone : String := "InvalidStateError: child is no longer in the document"
def nodeGone : String := "InvalidStateError: node is no longer in the document"
def shadowGone : String := "InvalidStateError: shadow root is no longer in the document"

def LiveNode.pushChild (child : NodeId) (node : LiveNode) : LiveNode :=
  { node with children := node.children ++ [child] }

def LiveNode.setParent (parent : Option NodeId) (node : LiveNode) : LiveNode :=
  { node with parent := parent }

/-- A preferred id is taken when it is free, not zero and not far ahead. -/
def LiveDocument.chooseId (document : LiveDocument) (preferred : Option NodeId) : NodeId :=
  let accepted := preferred.filter fun candidate =>
    candidate != 0 && !document.nodes.contains candidate &&
      candidate ≤ min (document.nextNodeId + maxPreferredIdJump) maxNodeId
  accepted.getD document.nextNodeId

def allocatePreferred (kind : LiveNodeKind) (preferred : Option NodeId) : Edit NodeId := do
  let document ← get
  if document.nodes.size ≥ maxLiveNodes then
    fail "QuotaExceededError: live DOM node budget exceeded"
  else
    let id := document.chooseId preferred
    let next := max document.nextNodeId id + 1
    if next > maxNodeId then fail "DOM node identifier space exhausted"
    else
      set { document with
        nextNodeId := next
        nodes := document.nodes.insert id ⟨id, none, [], kind⟩ }
      return id

def allocate (kind : LiveNodeKind) : Edit NodeId := allocatePreferred kind none

def boundedText (value : String) : String := takeChars maxTextBytes value

def boundedAttribute (value : String) : String := takeChars maxAttributeBytes value

@[irreducible] def isElementTag (tag : String) : Bool :=
  !tag.isEmpty && tag.utf8ByteSize ≤ 64 && tag.toList.all fun c => c.isAlphanum || c == '-'

def normalizeTag (tag : String) : Edit String :=
  if isElementTag (toAsciiLowercase (trim tag)) then return toAsciiLowercase (trim tag)
  else fail "InvalidCharacterError: invalid element tag"

@[irreducible] def isAttributeName (name : String) : Bool :=
  !name.isEmpty && name.utf8ByteSize ≤ 128 && !name.startsWith "on" &&
    name.toList.all fun c => c.isAlphanum || "-_:.".toList.contains c

def normalizeAttributeName (name : String) : Edit String :=
  if isAttributeName (toAsciiLowercase (trim name)) then return toAsciiLowercase (trim name)
  else fail "InvalidCharacterError: invalid attribute name"

def createElement (tag : String) : Edit NodeId := do
  let tag ← normalizeTag tag
  allocate (.element tag ∅ false)

def createTextNode (text : String) : Edit NodeId := allocate (.text (boundedText text))

/-- `append_child_without_invalidation`: no look at the parent `child` has. -/
def appendChildWithoutInvalidation (parent child : NodeId) : Edit Unit := do
  let _ ← requireElement parent
  let _ ← requireNode child
  depthBudgetOk parent
  updateNode parent parentGone (LiveNode.pushChild child)
  updateNode child childGone (LiveNode.setParent (some parent))

def detach (child : NodeId) : Edit Unit := do
  let entry ← requireNode child
  match entry.parent with
  | none => return ()
  | some parent => do
    updateNode parent parentGone fun node =>
      { node with children := node.children.filter (· ≠ child) }
    updateNode child childGone (LiveNode.setParent none)

def appendChild (parent child : NodeId) : Edit Unit := do
  let _ ← requireElement parent
  let _ ← requireNode child
  depthBudgetOk parent
  if parent = child || (← get).isAncestor child parent then
    fail "HierarchyRequestError: append would create a cycle"
  else do
    detach child
    updateNode parent parentGone (LiveNode.pushChild child)
    updateNode child childGone (LiveNode.setParent (some parent))

def removeChild (parent child : NodeId) : Edit Unit := do
  let entry ← requireNode parent
  if !entry.children.contains child then
    fail "NotFoundError: node is not a child of parent"
  else do
    updateNode parent parentGone fun node => { node with children := node.children.erase child }
    updateNode child childGone (LiveNode.setParent none)

/-- The subtrees `free_subtree` has still to remove, the next one first. -/
def freeSubtrees (work : List NodeId) (nodes : IdMap LiveNode) : IdMap LiveNode :=
  match work with
  | [] => nodes
  | root :: rest =>
    match _h : nodes[root]? with
    | none => freeSubtrees rest nodes
    | some entry => freeSubtrees (entry.children ++ rest) (nodes.erase root)
termination_by (nodes.size, work.length)
decreasing_by
  · exact Prod.Lex.right _ (Nat.lt_succ_self _)
  · have hsome : nodes.contains root = true := by
      rw [IdMap.contains_iff, _h]
      rfl
    have hmem : root ∈ nodes := Std.ExtTreeMap.mem_iff_contains.mpr hsome
    have hpos : nodes.size ≠ 0 := by
      intro hzero
      have hempty := Std.ExtTreeMap.eq_empty_iff_size_eq_zero.mpr hzero
      rw [hempty] at hmem
      exact Std.ExtTreeMap.not_mem_empty hmem
    refine Prod.Lex.left _ _ ?_
    rw [Std.ExtTreeMap.size_erase, if_pos hsome]
    exact Nat.sub_lt (Nat.pos_of_ne_zero hpos) Nat.one_pos

/-- Free the subtrees below `node` and empty its list of children. -/
def clearChildren (node : NodeId) (gone : String) : Edit Unit := do
  let entry ← indexNode node
  modify fun document =>
    { document with nodes := freeSubtrees entry.children document.nodes }
  updateNode node gone fun node => { node with children := [] }

def setTextContent (node : NodeId) (value : String) : Edit Unit := do
  let entry ← requireNode node
  let text := boundedText value
  match entry.kind with
  | .text _ => updateNode node nodeGone fun node => { node with kind := .text text }
  | .element .. => do
    clearChildren node nodeGone
    if text.isEmpty then return ()
    else do
      let child ← createTextNode text
      appendChildWithoutInvalidation node child

def setAttribute (node : NodeId) (name value : String) : Edit Unit := do
  let name ← normalizeAttributeName name
  let _ ← requireElementMut node
  updateNode node nodeGone fun entry =>
    match entry.kind with
    | .element tag attrs isVoid =>
      { entry with kind := .element tag (attrs.insert name (boundedAttribute value)) isVoid }
    | .text _ => entry

def removeAttribute (node : NodeId) (name : String) : Edit Unit := do
  let name ← normalizeAttributeName name
  let _ ← requireElementMut node
  updateNode node nodeGone fun entry =>
    match entry.kind with
    | .element tag attrs isVoid => { entry with kind := .element tag (attrs.erase name) isVoid }
    | .text _ => entry

/-! ## Parsed elements -/

mutual

def clearNodeIds : Element → Element
  | .mk _ tag attrs children text isVoid =>
    .mk none tag attrs (clearAllNodeIds children) text isVoid

def clearAllNodeIds : List Element → List Element
  | [] => []
  | child :: children => clearNodeIds child :: clearAllNodeIds children

end

/-- The attributes that are kept of a parsed element. -/
def retainedAttributes (attrs : List (String × String)) : Attributes :=
  .ofList ((attrs.take maxAttrsPerElement).map fun (name, value) => (name, boundedAttribute value))
    compare

mutual

def importElement : Element → Option NodeId → Edit NodeId
  | .mk nodeId tag attrs children text isVoid, parent => do
    let id ← allocatePreferred (.element tag (retainedAttributes attrs) isVoid) nodeId
    match parent with
    | some parent => appendChildWithoutInvalidation parent id
    | none => pure ()
    if !text.isEmpty then
      let child ← allocate (.text (boundedText text))
      appendChildWithoutInvalidation id child
    importChildren id children
    return id

/-- Import the elements of a list below `parent`. -/
def importChildren (parent : NodeId) : List Element → Edit Unit
  | [] => return ()
  | child :: children => do
    let _ ← importElement child (some parent)
    importChildren parent children

end

def importSubtree (element : Element) : Edit NodeId := importElement (clearNodeIds element) none

/-- Import the elements of a list as children of `parent`, each as a subtree of its own. -/
def appendSubtrees (parent : NodeId) : List Element → Edit Unit
  | [] => return ()
  | child :: children => do
    let node ← importSubtree child
    appendChildWithoutInvalidation parent node
    appendSubtrees parent children

def appendParsedFragment (parsed : Element) (parent : NodeId) : Edit Unit :=
  match parsed with
  | .mk _ tag _ children text _ => do
    if ["root", "html", "body"].contains tag then appendSubtrees parent children
    else appendSubtrees parent [parsed]
    if text.isEmpty then return ()
    else do
      let child ← createTextNode text
      appendChildWithoutInvalidation parent child

def setInnerHtml [HtmlParser] (node : NodeId) (html : String) : Edit Unit := do
  if html.utf8ByteSize > maxShadowHtmlBytes then
    fail "QuotaExceededError: innerHTML markup exceeds 2 MB"
  else do
    let _ ← requireNode node
    clearChildren node nodeGone
    appendParsedFragment (HtmlParser.parseHtml html) node

/-! ## Shadow roots -/

def attachShadow (host : NodeId) (mode : ShadowMode) : Edit NodeId := do
  let document ← get
  if document.shadows.size ≥ maxShadowRoots then
    fail "QuotaExceededError: shadow-root budget exceeded"
  else do
    let entry ← requireElement host
    if entry.kind.isShadowRoot then fail "NotSupportedError: shadow root is not a valid host"
    else if document.shadows.contains host then
      fail "NotSupportedError: host already has a shadow root"
    else do
      let root ← allocate (.element "shadow-root" ∅ false)
      appendChildWithoutInvalidation host root
      modify fun document =>
        { document with shadows := document.shadows.insert host ⟨host, root, mode⟩ }
      return root

/-- A record of a shadow root outlives its node; then the lookup stops the program. -/
def setShadowHtml [HtmlParser] (root : NodeId) (html : String) : Edit Unit := do
  if html.utf8ByteSize > maxShadowHtmlBytes then
    fail "QuotaExceededError: shadow markup exceeds 2 MB"
  else do
    let document ← get
    if !document.shadows.toList.any fun entry => entry.2.root == root then
      fail "NotFoundError: node is not a shadow root"
    else do
      clearChildren root shadowGone
      appendParsedFragment (HtmlParser.parseHtml html) root

/-! ## Cloning -/

mutual

/-- `clone_node`, for a store with at most `room` nodes below its budget: every call
allocates one. -/
def cloneNode (room : Nat) (node : NodeId) (deep : Bool) : Edit NodeId := do
  let entry ← requireNode node
  let clone ← allocate entry.kind
  match room with
  | 0 => fail "QuotaExceededError: live DOM node budget exceeded"
  | room + 1 => do
    if deep then cloneChildren room clone entry.children
    return clone
termination_by (room, 0)

/-- The clones of a list of children, appended one after the other. -/
def cloneChildren (room : Nat) (clone : NodeId) (children : List NodeId) : Edit Unit := do
  match children with
  | [] => return ()
  | child :: children => do
    let childClone ← cloneNode room child true
    appendChild clone childClone
    cloneChildren room clone children
termination_by (room, children.length + 1)

end

/-! ## Documents -/

def LiveDocument.empty : LiveDocument where
  root := 1
  nodes := ∅
  nextNodeId := 1
  shadows := ∅

def LiveDocument.fromElement (root : Element) : LiveDocument :=
  match importElement root none .empty with
  | .ok id document => { document with root := id }
  | .error _ document => document

inductive Operation where
  | createElement (tag : String)
  | createTextNode (text : String)
  | importSubtree (element : Element)
  | cloneNode (node : NodeId) (deep : Bool)
  | appendChild (parent child : NodeId)
  | removeChild (parent child : NodeId)
  | setTextContent (node : NodeId) (value : String)
  | setAttribute (node : NodeId) (name value : String)
  | removeAttribute (node : NodeId) (name : String)
  | attachShadow (host : NodeId) (mode : ShadowMode)
  | setShadowHtml (root : NodeId) (html : String)
  | setInnerHtml (node : NodeId) (html : String)

/-- The edits of an operation, whatever it answers. -/
def Operation.edit [HtmlParser] : Operation → Edit Unit
  | createElement tag => discard (Dom.createElement tag)
  | createTextNode text => discard (Dom.createTextNode text)
  | importSubtree element => discard (Dom.importSubtree element)
  | cloneNode node deep => discard (Dom.cloneNode maxLiveNodes node deep)
  | appendChild parent child => Dom.appendChild parent child
  | removeChild parent child => Dom.removeChild parent child
  | setTextContent node value => Dom.setTextContent node value
  | setAttribute node name value => Dom.setAttribute node name value
  | removeAttribute node name => Dom.removeAttribute node name
  | attachShadow host mode => discard (Dom.attachShadow host mode)
  | setShadowHtml root html => Dom.setShadowHtml root html
  | setInnerHtml node html => Dom.setInnerHtml node html

/-- The document after an edit, also when it fails. -/
def LiveDocument.after {α : Type} (document : LiveDocument) (edit : Edit α) : LiveDocument :=
  match edit document with
  | .ok _ document => document
  | .error _ document => document

/-- The document after a sequence of operations on a freshly loaded page. -/
def LiveDocument.run [HtmlParser] (root : Element) (operations : List Operation) : LiveDocument :=
  operations.foldl (fun document operation => document.after operation.edit) (.fromElement root)

end GhitaBrowser.Dom
