import GhitaBrowser.Html.Element

/-!
# A tab

A tab shows a page: its address, title, document and layout, and perhaps the runtime
that its scripts live in. The history keeps a compressed snapshot of each page, and a
tab that sleeps keeps one of the document it showed.
-/

namespace GhitaBrowser.Tabs

open Html (Element)

abbrev Bytes := List UInt8

/-! ## Snapshots -/

/-- serde and gzip. -/
class SnapshotFormat where
  toJson : Element → Option Bytes
  gzip : Bytes → Option Bytes
  /-- The text of a gzip stream. -/
  gunzip : Bytes → Option Text
  fromUtf8 : Bytes → Option Text
  fromJson : Text → Option Element

def maxSnapshotJsonBytes : Nat := 8 * 1024 * 1024
def snapshotMaxJsonDepth : Nat := 1024
def maxDomDepth : Nat := 64
def gzipMagic : Bytes := [0x1F, 0x8B]

/-- The document that is not worth a snapshot. -/
def isTrivial (dom : Element) : Bool := dom.children.isEmpty && dom.tag == "root".toList

/-- The smaller of the two forms. -/
def smallerOf (json compressed : Bytes) : Bytes :=
  if compressed.length < json.length then compressed else json

/-- `json_nesting_depth`, with the state of its scan: the depth, the largest depth so far, and
whether it is inside a string and behind a backslash. -/
def jsonNestingFrom (depth maxDepth : Nat) (inString escaped : Bool) : Text → Nat
  | [] => maxDepth
  | c :: rest =>
    if escaped then jsonNestingFrom depth maxDepth inString false rest
    else if inString then
      if c = '\\' then jsonNestingFrom depth maxDepth true true rest
      else jsonNestingFrom depth maxDepth (c ≠ '"') false rest
    else if c = '"' then jsonNestingFrom depth maxDepth true false rest
    else if c = '\x7b' ∨ c = '[' then
      jsonNestingFrom (depth + 1) (max maxDepth (depth + 1)) false false rest
    else if c = '\x7d' ∨ c = ']' then jsonNestingFrom (depth - 1) maxDepth false false rest
    else jsonNestingFrom depth maxDepth false false rest

def jsonNestingDepth (json : Text) : Nat := jsonNestingFrom 0 0 false false json

mutual

/-- The elements of a tree in document order, without their children and each with its depth. -/
def flatten (depth : Nat) : Element → List (Element × Nat)
  | ⟨nodeId, tag, attrs, children, text, isVoid⟩ =>
    (⟨nodeId, tag, attrs, [], text, isVoid⟩, depth) :: flattenAll (depth + 1) children

def flattenAll (depth : Nat) : List Element → List (Element × Nat)
  | [] => []
  | child :: children => flatten depth child ++ flattenAll depth children

end

/-- Attach what is complete on the stack before an element of `depth` goes on it. The top of the
stack comes first. -/
def closeTo (depth : Nat) : List (Element × Nat) → List (Element × Nat)
  | [] => []
  | [(child, top)] => if top < depth then [(child, top)] else []
  | (child, top) :: (parent, below) :: rest =>
    if top < depth then (child, top) :: (parent, below) :: rest
    else closeTo depth ((parent.addChild child, below) :: rest)
termination_by stack => stack.length

/-- An element below the cap goes where an element at the cap would. -/
def rebuild (maxDepth : Nat) (stack : List (Element × Nat)) (entry : Element × Nat) :
    List (Element × Nat) :=
  let depth := min entry.2 maxDepth
  (entry.1, depth) :: closeTo depth stack

def closeAll : List (Element × Nat) → Element
  | [] => .new "html".toList
  | [(root, _)] => root
  | (child, _) :: (parent, depth) :: rest => closeAll ((parent.addChild child, depth) :: rest)
termination_by stack => stack.length

def flattenDeep (root : Element) (maxDepth : Nat) : Element :=
  closeAll ((flatten 0 root).foldl (rebuild maxDepth) [])

section Format

variable [SnapshotFormat]

def decompressDomBytes (data : Bytes) : Option Element := do
  let json ← if gzipMagic.isPrefixOf data then SnapshotFormat.gunzip data
    else SnapshotFormat.fromUtf8 data
  if jsonNestingDepth json > snapshotMaxJsonDepth then none
  else
    let dom ← SnapshotFormat.fromJson json
    return flattenDeep dom maxDomDepth

/-! ## History -/

structure HistoryEntry where
  url : String
  title : String
  compressedDom : Option Bytes
  hasDom : Bool

namespace HistoryEntry

def compressDom (dom : Element) : Option Bytes :=
  if isTrivial dom then none
  else do
    let json ← SnapshotFormat.toJson dom
    if json.length > maxSnapshotJsonBytes then none
    else
      let compressed ← SnapshotFormat.gzip json
      return smallerOf json compressed

def new (url title : String) (dom : Element) : HistoryEntry :=
  let compressedDom := compressDom dom
  { url, title, compressedDom, hasDom := compressedDom.isSome }

def getDom (entry : HistoryEntry) : Option Element := entry.compressedDom.bind decompressDomBytes

end HistoryEntry

end Format

/-! ## Pages -/

/-- Layout and page runtimes. The methods of a runtime change it also when they fail. -/
class PagePlatform (Layout Runtime : Type) where
  Rule : Type
  Value : Type
  Report : Type
  countLayoutNodes : Layout → Nat
  fromElement : Element → List Rule → Nat → String → Except String Runtime
  /-- `run_document`, whose result nobody reads. -/
  runDocument : Runtime → Runtime
  /-- `dom_element` refreshes the live document. -/
  domElement : Runtime → Element × Runtime
  pumpEvents : Runtime → Nat → Except String Nat × Runtime
  evaluate : Runtime → String → Except String Value × Runtime
  dispatchEventByType : Runtime → Nat → String → Option String → Except String Report × Runtime

inductive WakeResult where
  | notSleeping
  | restoredFromCache
  | needsReload (url : String)
deriving DecidableEq

structure Tab (Layout Runtime : Type) where
  id : Nat
  url : String
  title : String
  dom : Element
  layout : Option Layout := none
  incognito : Bool := false
  isError : Bool := false
  history : List HistoryEntry
  historyPos : Nat := 0
  isPinned : Bool := false
  isSleeping : Bool := false
  lastActiveTimestamp : Int
  sleptAt : Option Int := none
  isMuted : Bool := false
  groupId : Option Nat := none
  compressedDom : Option Bytes := none
  runtime : Option Runtime := none

def maxHistoryEntries : Nat := 60

def rootDom : Element := .new "root".toList

namespace Tab

variable {Layout Runtime : Type}

def markActive (now : Int) (tab : Tab Layout Runtime) : Tab Layout Runtime :=
  { tab with lastActiveTimestamp := now }

section Format

variable [SnapshotFormat]

def new (id : Nat) (url : String) (dom : Element) (title : String) (now : Int) :
    Tab Layout Runtime :=
  { id, url, title, dom, history := [.new url title dom], lastActiveTimestamp := now }

def attachRuntime (tab : Tab Layout Runtime) (runtime : Runtime) : Tab Layout Runtime :=
  { tab with runtime := some runtime }

/-- `push_history`: a page with the address of the last entry replaces it. -/
def pushHistory (tab : Tab Layout Runtime) (entry : HistoryEntry) : Tab Layout Runtime :=
  let history := if tab.historyPos + 1 < tab.history.length then
    tab.history.take (tab.historyPos + 1) else tab.history
  if (history.getLast?.map (·.url)) = some entry.url then
    let history := history.dropLast ++ [entry]
    { tab with history, historyPos := history.length - 1, layout := none }
  else
    let history := history ++ [entry]
    let history := if history.length > maxHistoryEntries then history.tail else history
    { tab with history, historyPos := history.length - 1, layout := none }

/-- Show the page of an entry as it was when it was recorded. -/
def showEntry (tab : Tab Layout Runtime) (entry : HistoryEntry) : Tab Layout Runtime :=
  { tab with
    url := entry.url, title := entry.title, dom := entry.getDom.getD rootDom, layout := none
    isError := false }

/-- An error page is not in the history: leaving it does not move the cursor. -/
def goBack (tab : Tab Layout Runtime) : Tab Layout Runtime × Bool :=
  if tab.isError then
    match tab.history[tab.historyPos]? with
    | some entry => (tab.showEntry entry, true)
    | none => (tab, false)
  else if tab.historyPos > 0 then
    match tab.history[tab.historyPos - 1]? with
    | some entry => ({ tab with historyPos := tab.historyPos - 1 }.showEntry entry, true)
    | none => (tab, false)
  else (tab, false)

def goForward (tab : Tab Layout Runtime) : Tab Layout Runtime × Bool :=
  match tab.history[tab.historyPos + 1]? with
  | some entry => ({ tab with historyPos := tab.historyPos + 1 }.showEntry entry, true)
  | none => (tab, false)

/-- `Tab::compress_dom`: where gzip fails, the JSON is kept. -/
def compressDom (tab : Tab Layout Runtime) : Option Bytes :=
  if isTrivial tab.dom then none
  else do
    let json ← SnapshotFormat.toJson tab.dom
    if json.length > maxSnapshotJsonBytes then none
    else return match SnapshotFormat.gzip json with
      | some compressed => smallerOf json compressed
      | none => json

variable [PagePlatform Layout Runtime]

/-- `sleep`, with the estimate of the bytes that it frees. -/
def sleep (tab : Tab Layout Runtime) (now : Int) : Tab Layout Runtime × Nat :=
  if tab.isSleeping then (tab, 0)
  else
    let layoutNodes := (tab.layout.map (PagePlatform.countLayoutNodes Runtime)).getD 0
    let originalSize := tab.dom.preorder.length * 210 + layoutNodes * 320
    let compressedDom := tab.compressDom
    ({ tab with
        compressedDom, dom := rootDom, layout := none, runtime := none, isSleeping := true
        sleptAt := some now },
      originalSize - (compressedDom.map List.length).getD 0)

omit [PagePlatform Layout Runtime] in
def wake (tab : Tab Layout Runtime) (now : Int) : Tab Layout Runtime × WakeResult :=
  if !tab.isSleeping then (tab, .notSleeping)
  else
    let awake := { tab with
      isSleeping := false, sleptAt := none, lastActiveTimestamp := now, layout := none
      compressedDom := none }
    match tab.compressedDom.bind decompressDomBytes with
    | some dom => ({ awake with dom }, .restoredFromCache)
    | none => ({ awake with dom := rootDom }, .needsReload tab.url)

end Format

/-! ## The runtime of a tab -/

section Runtime

variable [PagePlatform Layout Runtime]

/-- Show what the runtime has made of the document. -/
def showRuntime (tab : Tab Layout Runtime) (runtime : Runtime) : Tab Layout Runtime :=
  let (dom, runtime) := PagePlatform.domElement Layout runtime
  { tab with dom, runtime := some runtime }

def initRuntime (tab : Tab Layout Runtime) (cssRules : List (PagePlatform.Rule Layout Runtime))
    (viewportWidth : Nat) (baseUrl : String) : Tab Layout Runtime × Except String Unit :=
  match PagePlatform.fromElement tab.dom cssRules viewportWidth baseUrl with
  | .error message => (tab, .error message)
  | .ok runtime => (tab.showRuntime (PagePlatform.runDocument Layout runtime), .ok ())

/-- The document of the tab is that of its runtime after a call that succeeds. -/
def afterCall {α : Type} (tab : Tab Layout Runtime) : Except String α × Runtime →
    Tab Layout Runtime × Except String α
  | (.ok value, runtime) => (tab.showRuntime runtime, .ok value)
  | (.error message, runtime) => ({ tab with runtime := some runtime }, .error message)

def pumpRuntime (tab : Tab Layout Runtime) (elapsedMs : Nat) :
    Tab Layout Runtime × Except String Nat :=
  match tab.runtime with
  | none => (tab, .ok 0)
  | some runtime => tab.afterCall (PagePlatform.pumpEvents Layout runtime elapsedMs)

def evaluateJs (tab : Tab Layout Runtime) (script : String) :
    Tab Layout Runtime × Except String (PagePlatform.Value Layout Runtime) :=
  match tab.runtime with
  | none => (tab, .error "No active runtime on tab")
  | some runtime => tab.afterCall (PagePlatform.evaluate runtime script)

def dispatchEvent (tab : Tab Layout Runtime) (target : Nat) (eventType : String) :
    Tab Layout Runtime × Except String (PagePlatform.Report Layout Runtime) :=
  match tab.runtime with
  | none => (tab, .error "No active runtime on tab")
  | some runtime =>
    tab.afterCall (PagePlatform.dispatchEventByType runtime target eventType none)

end Runtime

/-! ## Loading a page -/

section Load

variable [SnapshotFormat]

/-- How `Browser::load_html` shows a page in the active tab. -/
def loadHtml (tab : Tab Layout Runtime) (url title : String) (dom : Element)
    (layout : Option Layout) : Tab Layout Runtime :=
  { tab.pushHistory (.new url title dom) with url, title, dom, layout }

/-- How `Browser::load_url` does: the layout is dropped again with the page before. -/
def loadUrl (tab : Tab Layout Runtime) (url title : String) (dom : Element)
    (layout : Option Layout) : Tab Layout Runtime :=
  let tab := match layout with
    | some root => { tab with layout := some root }
    | none => tab
  { tab.pushHistory (.new url title dom) with url, title, dom }

end Load

end Tab

end GhitaBrowser.Tabs
