import GhitaBrowser.Page.HostObjects
import GhitaBrowser.Page.PageEvents

/-!
# Mutation observers

The host calls that write to the document, the records they queue for observers and the
delivery of the records at a checkpoint. Callbacks are values of an arbitrary type, and an
`ObserverScript` says which calls each of them makes, so a run with an arbitrary script is
an arbitrary run.
-/

namespace GhitaBrowser.Page

open Dom

def maxMutationRecords : Nat := 512
def maxObserverTargets : Nat := 1024
def maxObserverOldValueBytes : Nat := 4 * 1024

/-! ## Writing to the document -/

/-- The value that a property is set to: its display string and its truth value. -/
structure PropertyValue where
  display : String
  truthy : Bool

/-- What a class list is asked to do with its names. -/
inductive ClassChange where
  | add | remove | toggle

/-- A camel case name with hyphens. -/
def hyphenated (property : String) : String :=
  String.ofList (property.toList.flatMap fun c => if c.isUpper then ['-', c.toLower] else [c])

def splitWhitespace (text : String) : List String :=
  ((text.toList.splitOnP isWhitespace).filter (· ≠ [])).map String.ofList

/-- A style attribute with a new value for one of its properties. -/
def restyle (style key value : String) : String :=
  let kept := ((style.toList.splitOn ';').map fun part => trim (String.ofList part)).filter
    fun part => !part.isEmpty && !part.startsWith (key ++ ":")
  "; ".intercalate (if value.isEmpty then kept else kept ++ [key ++ ": " ++ value])

def reclass (change : ClassChange) (classes names : List String) : List String :=
  match change with
  | .add => names.foldl (fun list name => if list.contains name then list else list ++ [name]) classes
  | .remove => names.foldl (fun list name => list.filter (· ≠ name)) classes
  | .toggle =>
    let name := names.head?.getD ""
    if classes.contains name then classes.filter (· ≠ name) else classes ++ [name]

namespace Host

def setDataset (element : Nat) (property : String) (value : PropertyValue) : HostM Unit := do
  let node ← locator element
  onDom (edit (Dom.setAttribute node ("data-" ++ hyphenated property) value.display))

def setStyle (element : Nat) (property : String) (value : PropertyValue) : HostM Unit := do
  let node ← locator element
  let style := (getAttribute (← get).dom.toLiveDocument node "style").getD ""
  onDom (edit (Dom.setAttribute node "style" (restyle style (hyphenated property) value.display)))

/-- `query_selector` for a selector that is a tag. -/
def queryTag (document : LiveDocument) (tag : String) : Option NodeId :=
  (documentOrder document).find? fun node => elementTag document node == some tag

def setTitle (text : String) : HostM Unit := do
  let document := (← get).dom.toLiveDocument
  match queryTag document "title" with
  | some title => onDom (edit (Dom.setTextContent title text))
  | none =>
    match queryTag document "head" with
    | some head => do
      let title ← onDom (edit (Dom.createElement "title"))
      onDom (edit (Dom.setTextContent title text))
      onDom (edit (Dom.appendChild head title))
    | none => return ()

/-- The loop of `select_value` over the document, with whether an option has matched. -/
def markOptions (select : NodeId) (value : String) : List NodeId → Bool → Activation Bool
  | [], found => return found
  | child :: rest, found => do
    let document := (← get).toLiveDocument
    if elementTag document child == some "option" && isDescendantOf document child select then
      let optionValue := (getAttribute document child "value" <|> textContent document child).getD ""
      if optionValue = value then do
        edit (Dom.setAttribute child "selected" "")
        markOptions select value rest true
      else do
        edit (Dom.removeAttribute child "selected")
        markOptions select value rest found
    else markOptions select value rest found

def selectValue (select : NodeId) (value : String) : Activation Unit := do
  let order := documentOrder (← get).toLiveDocument
  if ← markOptions select value order false then return ()
  else do
    let option ← edit (Dom.createElement "option")
    edit (Dom.setAttribute option "value" value)
    edit (Dom.appendChild select option)
    edit (Dom.setAttribute option "selected" "")

def argumentString (value : PropertyValue) (label : String) : HostM String :=
  if value.display.utf8ByteSize > 1024 * 1024 then fail (label ++ " exceeds 1 MB")
  else return value.display

def setFlag (node : NodeId) (name : String) (present : Bool) : HostM Unit :=
  if present then onDom (edit (Dom.setAttribute node name ""))
  else onDom (edit (Dom.removeAttribute node name))

/-- The properties of an element that can be written. -/
def setElementProperty [HtmlParser] (node : NodeId) (property : String) (value : PropertyValue) :
    HostM Unit := do
  match property with
  | "textContent" | "innerText" => do
    let text ← argumentString value "Element text"
    onDom (edit (Dom.setTextContent node text))
  | "id" => do
    let text ← argumentString value "Element id"
    onDom (edit (Dom.setAttribute node "id" text))
  | "className" => do
    let text ← argumentString value "Element class"
    onDom (edit (Dom.setAttribute node "class" text))
  | "value" => do
    let text ← argumentString value "Element value"
    match elementTag (← get).dom.toLiveDocument node with
    | some "textarea" => onDom (edit (Dom.setTextContent node text))
    | some "select" => onDom (selectValue node text)
    | _ => onDom (edit (Dom.setAttribute node "value" text))
  | "checked" | "disabled" | "hidden" => setFlag node property value.truthy
  | "innerHTML" => do
    let html ← argumentString value "innerHTML"
    onDom (edit (Dom.setInnerHtml node html))
  | _ => fail ("TypeError: element." ++ property ++ " is not writable")

/-- `set_property` of the document and of elements, their data sets and their styles. -/
def setProperty [HtmlParser] (object : Nat) (property : String) (value : PropertyValue) :
    HostM Unit := do
  if HostObjects.hasBit hostDatasetBit object then
    setDataset (HostObjects.clearBit hostDatasetBit object) property value
  else if HostObjects.hasBit hostStyleBit object then
    setStyle (HostObjects.clearBit hostStyleBit object) property value
  else if object = hostDocument then
    if property = "title" then setTitle value.display
    else fail ("SecurityError: " ++ property ++ " is read-only")
  else do
    let node ← locator object
    setElementProperty node property value

/-- The calls of a class list that write. -/
def classList (element : Nat) (change : ClassChange) (names : List String) : HostM Unit := do
  let node ← locator element
  let classes := splitWhitespace ((getAttribute (← get).dom.toLiveDocument node "class").getD "")
  onDom (edit (Dom.setAttribute node "class" (" ".intercalate (reclass change classes names))))

def attachShadow (element : Nat) (mode : ShadowMode) : HostM Unit := do
  let node ← locator element
  let root ← onDom (edit (Dom.attachShadow node mode))
  elementFor root

end Host

/-! ## Records -/

inductive RecordType where
  | attributes | childList | characterData
  | resize | intersection
deriving DecidableEq

/-- A record, whose nodes are host handles. -/
structure MutationRecord where
  recordType : RecordType
  target : Nat
  attributeName : Option String
  oldValue : Option String
  addedNodes : List Nat
  removedNodes : List Nat
deriving DecidableEq

structure ObserverOptions where
  attributes : Bool
  childList : Bool
  characterData : Bool
  subtree : Bool
  attributeOldValue : Bool
  characterDataOldValue : Bool
  attributeFilter : Option (List String)

inductive ObserverKind where
  | mutation | resize | intersection
deriving DecidableEq

/-- `MutationObserverEntry`. -/
structure ObserverEntry (κ : Type) where
  id : Nat
  kind : ObserverKind
  callback : κ
  targets : IdMap ObserverOptions
  records : List MutationRecord

/-- The longest prefix of characters within a number of bytes. -/
def takeBytes : Nat → List Char → List Char
  | _, [] => []
  | room, c :: rest => if c.utf8Size ≤ room then c :: takeBytes (room - c.utf8Size) rest else []

/-- `bounded_text` of an old value. -/
def boundedOldValue (value : String) : String :=
  String.ofList (takeBytes maxObserverOldValueBytes value.toList)

namespace ObserverOptions

/-- Whether the options ask for a record, by its type and attribute name. -/
def observesKind (options : ObserverOptions) (record : MutationRecord) : Bool :=
  match record.recordType with
  | .attributes =>
    options.attributes &&
      match options.attributeFilter with
      | none => true
      | some filter =>
        match record.attributeName with
        | some name => filter.contains name
        | none => false
  | .childList => options.childList
  | .characterData => options.characterData
  | .resize | .intersection => false

/-- The record as an observer with these options gets it. -/
def recordFor (options : ObserverOptions) (record : MutationRecord) : MutationRecord :=
  { record with
    oldValue :=
      match record.recordType with
      | .attributes => if options.attributeOldValue then record.oldValue.map boundedOldValue else none
      | .characterData =>
        if options.characterDataOldValue then record.oldValue.map boundedOldValue else none
      | _ => none }

end ObserverOptions

/-- The handles of a node and of its ancestors. -/
def observedAncestors (host : Host) (target : Nat) : List Nat :=
  match host.elements[target]? with
  | none => []
  | some node =>
    host.elements.toList.filterMap fun (handle, candidate) =>
      if candidate = node || isDescendantOf host.dom.toLiveDocument node candidate then some handle
      else none

/-- Add a record to a queue. A full queue loses its oldest record. -/
def pushRecord (records : List MutationRecord) (record : MutationRecord) : List MutationRecord :=
  (if records.length ≥ maxMutationRecords then records.tail else records) ++ [record]

namespace ObserverEntry

variable {κ : Type}

/-- The options of the first target that asks for the record. -/
def matchingOptions (host : Host) (record : MutationRecord) (entry : ObserverEntry κ) :
    Option ObserverOptions :=
  if entry.kind ≠ .mutation then none
  else
    entry.targets.toList.findSome? fun (observed, options) =>
      if (observed = record.target ||
          options.subtree && (observedAncestors host record.target).contains observed) &&
        options.observesKind record then some options
      else none

def notify (host : Host) (record : MutationRecord) (entry : ObserverEntry κ) : ObserverEntry κ :=
  match entry.matchingOptions host record with
  | some options => { entry with records := pushRecord entry.records (options.recordFor record) }
  | none => entry

end ObserverEntry

/-! ## The page -/

structure ObserverPage (κ : Type) where
  host : Host
  observers : IdMap (ObserverEntry κ)
  nextObserverId : Nat
  pendingObserverCallbacks : List Nat

/-- The host calls of a page with observers. `host` gives those that no definition above
covers. -/
inductive DomCall where
  | host (call : HostCall)
  | setProperty (object : Nat) (property : String) (value : PropertyValue)
  | classList (element : Nat) (change : ClassChange) (names : List String)
  | attachShadow (element : Nat) (mode : ShadowMode)
  | setAttribute (element : Nat) (name value : String)
  | removeAttribute (element : Nat) (name : String)

inductive ObserverCall (κ : Type) where
  | dom (call : DomCall)
  | construct (kind : ObserverKind) (callback : κ)
  | observe (observer target : Nat) (options : ObserverOptions)
  | unobserve (observer target : Nat)
  | disconnect (observer : Nat)
  | takeRecords (observer : Nat)

abbrev ObserverM (κ : Type) := EStateM Failure (ObserverPage κ)

namespace ObserverPage

variable {κ : Type}

def onHost {α : Type} (program : HostM α) : ObserverM κ α := fun page =>
  match program page.host with
  | .ok value host => .ok value { page with host := host }
  | .error failure host => .error failure { page with host := host }

def fail {α : Type} (message : String) : ObserverM κ α := throw (.error message)

/-- The observers whose queue gets its first record. -/
def toNotify (record : MutationRecord) (page : ObserverPage κ) : List Nat :=
  page.observers.toList.filterMap fun (_, entry) =>
    if (entry.matchingOptions page.host record).isSome && entry.records.isEmpty then some entry.id
    else none

/-- Add callbacks to the pending ones until these are as many as there may be. -/
def pushPending : List Nat → List Nat → List Nat
  | pending, [] => pending
  | pending, observer :: rest =>
    if pending.length ≥ maxPendingTasks then pending else pushPending (pending ++ [observer]) rest

/-- The page when a record has been queued to all observers that watch its target. -/
def notified (record : MutationRecord) (page : ObserverPage κ) : ObserverPage κ :=
  { page with
    observers := page.observers.map fun _ entry => entry.notify page.host record
    pendingObserverCallbacks :=
      pushPending page.pendingObserverCallbacks (page.toNotify record) }

def queueMutationRecord (record : MutationRecord) : ObserverM κ Unit := modify (notified record)

/-! ### Calls that write to the document -/

/-- `setAttribute` and `removeAttribute`. The record has the name as the call gives it. -/
def changeAttribute (change : NodeId → Edit Unit) (element : Nat) (name : String) :
    ObserverM κ Unit := do
  let node ← onHost (Host.locator element)
  let oldValue := getAttribute (← get).host.dom.toLiveDocument node name
  onHost (Host.onDom (edit (change node)))
  queueMutationRecord ⟨.attributes, element, some name, oldValue, [], []⟩

def setAttribute (element : Nat) (name value : String) : ObserverM κ Unit :=
  changeAttribute (fun node => Dom.setAttribute node name value) element name

def removeAttribute (element : Nat) (name : String) : ObserverM κ Unit :=
  changeAttribute (fun node => Dom.removeAttribute node name) element name

/-- The queued event and the record do not meet, so their order does not matter. -/
def appendChild (element child : Nat) : ObserverM κ Unit := do
  onHost (Host.appendChild element child)
  queueMutationRecord ⟨.childList, element, none, none, [child], []⟩

def removeChild (element child : Nat) : ObserverM κ Unit := do
  onHost (Host.removeChild element child)
  queueMutationRecord ⟨.childList, element, none, none, [], [child]⟩

def domCall [HtmlParser] : DomCall → ObserverM κ Unit
  | .host (.appendChild element child) => appendChild element child
  | .host (.removeChild element child) => removeChild element child
  | .host c => onHost (Host.call c)
  | .setProperty object property value => onHost (Host.setProperty object property value)
  | .classList element change names => onHost (Host.classList element change names)
  | .attachShadow element mode => onHost (Host.attachShadow element mode)
  | .setAttribute element name value => setAttribute element name value
  | .removeAttribute element name => removeAttribute element name

/-! ### Calls of observers -/

def construct (kind : ObserverKind) (callback : κ) : ObserverM κ Unit := do
  let page ← get
  if page.observers.size ≥ maxMutationObservers then
    fail "QuotaExceededError: MutationObserver budget exceeded"
  else if page.nextObserverId + 1 > maxU64 then fail "MutationObserver identifier space exhausted"
  else
    set { page with
      nextObserverId := page.nextObserverId + 1
      observers :=
        page.observers.insert page.nextObserverId ⟨page.nextObserverId, kind, callback, ∅, []⟩ }

def withObserver {α : Type} (observer : Nat) (next : ObserverEntry κ → ObserverM κ α) :
    ObserverM κ α := do
  match (← get).observers[observer]? with
  | some entry => next entry
  | none => fail "InvalidStateError: observer is detached"

def setEntry (observer : Nat) (entry : ObserverEntry κ) : ObserverM κ Unit :=
  modify fun page => { page with observers := page.observers.insert observer entry }

def observe (observer target : Nat) (options : ObserverOptions) : ObserverM κ Unit :=
  withObserver observer fun entry => do
    if !(← get).host.elements.contains target then
      fail "TypeError: observer.observe requires a DOM node"
    else if entry.kind = .mutation ∧
        !(options.attributes || options.childList || options.characterData) then
      fail "TypeError: MutationObserver requires attributes, childList, or characterData"
    else if entry.targets.size ≥ maxObserverTargets ∧ !entry.targets.contains target then
      fail "QuotaExceededError: observer target budget exceeded"
    else setEntry observer { entry with targets := entry.targets.insert target options }

def unobserve (observer target : Nat) : ObserverM κ Unit :=
  withObserver observer fun entry =>
    setEntry observer { entry with targets := entry.targets.erase target }

def disconnect (observer : Nat) : ObserverM κ Unit :=
  withObserver observer fun entry => setEntry observer { entry with targets := ∅, records := [] }

/-- `takeRecords`, with the records it answers. -/
def takeRecords (observer : Nat) : ObserverM κ (List MutationRecord) :=
  withObserver observer fun entry => do
    setEntry observer { entry with records := [] }
    return entry.records

/-- The object that a call is made on. `call` looks for an observer with its id first, and
an observer has no method of that name. -/
def receiver : ObserverCall κ → Option Nat
  | .dom (.host (.appendChild object _)) | .dom (.host (.removeChild object _))
  | .dom (.host (.focus object)) | .dom (.host (.click object))
  | .dom (.host (.submit object)) | .dom (.host (.dispatchEvent (.element object) _))
  | .dom (.attachShadow object _) | .dom (.setAttribute object ..)
  | .dom (.removeAttribute object _) => some object
  | .dom (.host (.dispatchEvent .window _)) | .construct .. => some hostWindow
  | .dom (.host (.dispatchEvent .document _)) => some hostDocument
  | _ => none

def dispatch [HtmlParser] : ObserverCall κ → ObserverM κ Unit
  | .dom c => domCall c
  | .construct kind callback => construct kind callback
  | .observe observer target options => observe observer target options
  | .unobserve observer target => unobserve observer target
  | .disconnect observer => disconnect observer
  | .takeRecords observer => do
    let _ ← takeRecords observer

def call [HtmlParser] (c : ObserverCall κ) : ObserverM κ Unit := do
  let page ← get
  if (receiver c).any fun object => page.observers.contains object then
    fail "TypeError: Observer method is not implemented"
  else dispatch c

/-- The page after a list of calls, those that fail included. -/
def calls [HtmlParser] (list : List (ObserverCall κ)) (page : ObserverPage κ) : ObserverPage κ :=
  list.foldl (fun page c => endState (call c) page) page

/-! ### Layout observers -/

def layoutType : ObserverKind → Option RecordType
  | .mutation => none
  | .resize => some .resize
  | .intersection => some .intersection

/-- A layout observer gets a record for each target, as far as its queue has room. -/
def fillLayout (entry : ObserverEntry κ) : ObserverEntry κ :=
  match layoutType entry.kind with
  | none => entry
  | some recordType =>
    let records := (entry.targets.keys.take maxMutationRecords).map fun target =>
      ⟨recordType, target, none, none, [], []⟩
    { entry with
      records := entry.records ++ records.take (maxMutationRecords - entry.records.length) }

def queueLayoutObserverRecords (page : ObserverPage κ) : ObserverPage κ :=
  { page with
    observers := page.observers.map fun _ entry => fillLayout entry
    pendingObserverCallbacks :=
      pushPending page.pendingObserverCallbacks
        (page.observers.toList.filterMap fun (observer, entry) =>
          if (layoutType entry.kind).isSome && entry.records.isEmpty &&
            !(fillLayout entry).records.isEmpty then some observer else none) }

/-! ### Checkpoints -/

/-- Take the records of an observer out of its queue. -/
def takeQueue (observer : Nat) (page : ObserverPage κ) :
    Option (ObserverEntry κ × ObserverPage κ) :=
  match page.observers[observer]? with
  | none => none
  | some entry =>
    some (entry, { page with observers := page.observers.insert observer { entry with records := [] } })

end ObserverPage

/-- The calls that each callback makes, with the records it gets. -/
abbrev ObserverScript (κ : Type) := κ → List MutationRecord → ObserverPage κ → List (ObserverCall κ)

namespace ObserverPage

variable {κ : Type} [HtmlParser]

/-- One turn of the loop of `flush_observer_callbacks`, with the callbacks invoked so far. -/
def deliver (script : ObserverScript κ) (state : ObserverPage κ × Nat) (observer : Nat) :
    ObserverPage κ × Nat :=
  match state.1.takeQueue observer with
  | none => state
  | some (entry, page) =>
    if entry.records.isEmpty then (page, state.2)
    else (page.calls (script entry.callback entry.records page), state.2 + 1)

def flushObserverCallbacks (script : ObserverScript κ) (page : ObserverPage κ) :
    ObserverPage κ × Nat :=
  (page.pendingObserverCallbacks.take maxPendingTasks).foldl (deliver script)
    ({ page with pendingObserverCallbacks := [] }, 0)

/-- A page of a document before its first script. -/
def start (document : LiveDocument) : ObserverPage κ where
  host := (PageRuntime.start document () : PageRuntime Unit κ).host
  observers := ∅
  nextObserverId := 0
  pendingObserverCallbacks := []

end ObserverPage

/-! ## Runs -/

/-- What happens to a page with observers: a call of a script or of a callback, a refresh of
the layout, the start of a checkpoint or the delivery to the next observer of one. -/
inductive ObserverEvent (κ : Type) where
  | call (c : ObserverCall κ)
  | refresh
  | checkpoint
  | deliver

/-- A page, the observers that its checkpoint has still to call and the records delivered so
far, latest first. -/
structure ObserverRun (κ : Type) where
  page : ObserverPage κ
  batch : List Nat
  delivered : List (Nat × List MutationRecord)

namespace ObserverRun

variable {κ : Type}

/-- A checkpoint starts when the one before has called its observers. -/
def checkpoint (s : ObserverRun κ) : ObserverRun κ :=
  if s.batch.isEmpty then
    { s with
      page := { s.page with pendingObserverCallbacks := [] }
      batch := s.page.pendingObserverCallbacks.take maxPendingTasks }
  else s

def deliver (s : ObserverRun κ) : ObserverRun κ :=
  match s.batch with
  | [] => s
  | observer :: rest =>
    match s.page.takeQueue observer with
    | none => { s with batch := rest }
    | some (entry, page) =>
      ⟨page, rest, if entry.records.isEmpty then s.delivered
        else (observer, entry.records) :: s.delivered⟩

def step [HtmlParser] (s : ObserverRun κ) : ObserverEvent κ → ObserverRun κ
  | .call c => { s with page := endState (ObserverPage.call c) s.page }
  | .refresh => { s with page := s.page.queueLayoutObserverRecords }
  | .checkpoint => s.checkpoint
  | .deliver => s.deliver

def run [HtmlParser] (s : ObserverRun κ) (events : List (ObserverEvent κ)) : ObserverRun κ :=
  events.foldl step s

def start (document : LiveDocument) : ObserverRun κ := ⟨.start document, [], []⟩

end ObserverRun

/-! ## What observers are promised -/

/-- A change of a node that observers can watch. -/
inductive NodeChange where
  | attr (node : NodeId) (name : String)
  | childList (node : NodeId)
  | characterData (node : NodeId)
deriving DecidableEq

def NodeChange.node : NodeChange → NodeId
  | attr node _ | childList node | characterData node => node

def attributesOf (entry : LiveNode) : Option Attributes :=
  match entry.kind with
  | .element _ attrs _ => some attrs
  | .text _ => none

def textOf (entry : LiveNode) : Option String :=
  match entry.kind with
  | .element .. => none
  | .text text => some text

/-- What a change is about. -/
inductive NodeView where
  | attr (value : Option String)
  | children (list : List NodeId)
  | text (text : Option String)
deriving DecidableEq

def NodeChange.view : NodeChange → LiveNode → NodeView
  | attr _ name, entry => .attr ((attributesOf entry).bind (·[name]?))
  | childList _, entry => .children entry.children
  | characterData _, entry => .text (textOf entry)

def NodeChange.Happened (before after : LiveDocument) (change : NodeChange) : Prop :=
  ∃ old new, before.nodes[change.node]? = some old ∧ after.nodes[change.node]? = some new ∧
    change.view old ≠ change.view new

/-- The options ask for the change. -/
def ObserverOptions.Observes (options : ObserverOptions) : NodeChange → Prop
  | .attr _ name =>
    options.attributes = true ∧ ∀ filter, options.attributeFilter = some filter → name ∈ filter
  | .childList _ => options.childList = true
  | .characterData _ => options.characterData = true

/-- The observer watches the node of the change, or an ancestor with its subtree, with
options that ask for it. -/
def ObserverEntry.Watches {κ : Type} (entry : ObserverEntry κ) (host : Host) (change : NodeChange) :
    Prop :=
  ∃ (observed : Nat) (options : ObserverOptions) (node : NodeId),
    entry.targets[observed]? = some options ∧
    host.elements[observed]? = some node ∧
    (node = change.node ∨
      options.subtree = true ∧ isDescendantOf host.dom.toLiveDocument change.node node = true) ∧
    options.Observes change

def MutationRecord.Describes (record : MutationRecord) (host : Host) (change : NodeChange) : Prop :=
  host.elements[record.target]? = some change.node ∧
    match change with
    | .attr _ name => record.recordType = .attributes ∧ record.attributeName = some name
    | .childList _ => record.recordType = .childList
    | .characterData _ => record.recordType = .characterData

namespace ObserverRun

variable {κ : Type} [HtmlParser]

def document (s : ObserverRun κ) : LiveDocument := s.page.host.dom.toLiveDocument

/-- The records an observer has queued. -/
def queue (s : ObserverRun κ) (observer : Nat) : Option (List MutationRecord) :=
  s.page.observers[observer]?.map ObserverEntry.records

def pending (s : ObserverRun κ) : List Nat := s.page.pendingObserverCallbacks

def HasObserver (s : ObserverRun κ) (observer : Nat) (entry : ObserverEntry κ) : Prop :=
  s.page.observers[observer]? = some entry ∧ entry.kind = .mutation

/-- The event delivers to the observer, takes its records or disconnects it. -/
def Empties (s : ObserverRun κ) (observer : Nat) (event : ObserverEvent κ) : Prop :=
  event = .deliver ∧ s.batch.head? = some observer ∨
    event = .call (.takeRecords observer) ∨ event = .call (.disconnect observer)

/-- What observers get of an event: one record of every change that they watch, in a queue
that loses records to its reader or at its cap only; and a callback for as long as they have
records. A delivery hands over the whole queue. -/
structure Notifies (s : ObserverRun κ) (event : ObserverEvent κ) : Prop where
  recorded : ∀ observer entry, s.HasObserver observer entry →
    ∀ change : NodeChange, change.Happened s.document (s.step event).document →
      entry.Watches (s.step event).page.host change →
      ∃ record : MutationRecord, record.Describes (s.step event).page.host change ∧
        (s.step event).queue observer = some (pushRecord entry.records record)
  ordered : ∀ observer entry, s.HasObserver observer entry →
    (s.step event).queue observer = some entry.records ∨
      (∃ record, (s.step event).queue observer = some (pushRecord entry.records record)) ∨
      s.Empties observer event ∧ (s.step event).queue observer = some []
  called : ∀ observer entry, (s.step event).HasObserver observer entry → entry.records ≠ [] →
    observer ∈ (s.step event).batch ∨ observer ∈ (s.step event).pending
  handed : ∀ observer entry, s.HasObserver observer entry → entry.records ≠ [] →
    event = .deliver → s.batch.head? = some observer →
    (s.step event).delivered = (observer, entry.records) :: s.delivered

/-- No observer of mutations watches the change. -/
def Unwatched (s : ObserverRun κ) (host : Host) (change : NodeChange) : Prop :=
  ∀ observer entry, s.HasObserver observer entry → ¬ entry.Watches host change

/-- The call queues a record of what it changes: the name of the attribute is given as it is
stored, the child comes from no other parent whose children are watched, or the removed
child is there. -/
def Reports (s : ObserverRun κ) (c : ObserverCall κ) : Prop :=
  match c with
  | .dom (.setAttribute _ name _) | .dom (.removeAttribute _ name) =>
    toAsciiLowercase (trim name) = name
  | .dom (.host (.appendChild element child)) =>
    ∀ parent node old, s.page.host.elements[element]? = some parent →
      s.page.host.elements[child]? = some node → s.document.parentOf node = some old →
      old = parent ∨ s.Unwatched (s.step (.call c)).page.host (.childList old)
  | .dom (.host (.removeChild _ child)) =>
    ∀ node, s.page.host.elements[child]? = some node → s.document.nodes.contains node = true
  | _ => False

/-- The record that a call queues, without the old value. -/
def reported : ObserverCall κ → Option MutationRecord
  | .dom (.setAttribute element name _) | .dom (.removeAttribute element name) =>
    some ⟨.attributes, element, some name, none, [], []⟩
  | .dom (.host (.appendChild element child)) =>
    some ⟨.childList, element, none, none, [child], []⟩
  | .dom (.host (.removeChild element child)) =>
    some ⟨.childList, element, none, none, [], [child]⟩
  | _ => none

/-- There is room for the callbacks of the observers that get their first record. -/
def Room (s : ObserverRun κ) (c : ObserverCall κ) : Prop :=
  ∀ record, reported c = some record →
    s.pending.length +
      (ObserverPage.toNotify record { s.page with host := (s.step (.call c)).page.host }).length ≤
      maxPendingTasks

/-- A call reports what it changes or changes nothing that is watched, and the callbacks fit
in. -/
def Kept (s : ObserverRun κ) : ObserverEvent κ → Prop
  | .call c =>
    ((∀ change : NodeChange, change.Happened s.document (s.step (.call c)).document →
        s.Unwatched (s.step (.call c)).page.host change) ∨ s.Reports c) ∧
      s.Room c
  | _ => True

def AllKept (s : ObserverRun κ) : List (ObserverEvent κ) → Prop
  | [] => True
  | event :: events => s.Kept event ∧ (s.step event).AllKept events

/-- Every event of a run notifies the observers. -/
def AllNotify (s : ObserverRun κ) : List (ObserverEvent κ) → Prop
  | [] => True
  | event :: events => s.Notifies event ∧ (s.step event).AllNotify events

/-- Every checkpoint that has called its observers has delivered to each observer of
mutations that had records at its start, unless these have been taken before. -/
def AllDelivered (s : ObserverRun κ) (events : List (ObserverEvent κ)) : Prop :=
  ∀ before during after, events = before ++ .checkpoint :: (during ++ after) →
    (s.run before).batch = [] → .checkpoint ∉ during →
    (s.run (before ++ .checkpoint :: during)).batch = [] →
    ∀ observer entry, (s.run before).HasObserver observer entry → entry.records ≠ [] →
      ∃ earlier event later, during = earlier ++ event :: later ∧
        event = .deliver ∧
        (s.run (before ++ .checkpoint :: earlier)).batch.head? = some observer

end ObserverRun

end GhitaBrowser.Page
