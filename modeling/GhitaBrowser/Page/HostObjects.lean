import GhitaBrowser.Page.Timers
import Mathlib.Algebra.Order.Ring.Int

/-!
# Host objects

The objects a page gets from its host are opaque ids. One table for each kind of object
says what an id stands for, and `get_property`, `set_property` and `call` search the
tables in an order of their own, between tests for reserved ids and flag bits.

`HostObjects` holds the tables and the counters the ids come from. `issued` and `closed` are
ghost state: the ids handed out, in order, and those whose entries were taken out of a table.
An entry keeps the position of its own id in `issued`, so two entries are of one object when
their `serial` is the same.
-/

namespace GhitaBrowser.Page

def hostDocument : Nat := 1
def hostWindow : Nat := 2
def hostLocalStorage : Nat := 3
def hostHistory : Nat := 4
def hostLocation : Nat := 5
def hostEvent : Nat := 6
def hostFormData : Nat := 7
def hostIndexedDb : Nat := 8
def hostCacheStorage : Nat := 9
def hostNavigator : Nat := 10
def hostServiceWorker : Nat := 11
def hostCustomElements : Nat := 12
def hostCrypto : Nat := 13
def hostPerformance : Nat := 14
def hostCss : Nat := 15

def hostClasslistBit : Nat := 0x1000000000000000
def hostDatasetBit : Nat := 0x2000000000000000
def hostStyleBit : Nat := 0x4000000000000000

def maxEventRecords : Nat := 256
def maxMutationObservers : Nat := 256
def maxStreamsPerPage : Nat := 128

/-- The tables of `PageRuntimeState` with host object ids as keys. -/
inductive HostTable where
  | readableStreams
  | streamReaders
  | mutationObservers
  | mediaElements
  | mediaSources
  | sourceBuffers
  | idbDatabases
  | idbStores
  | idbIndexes
  | idbCursors
  | cacheHandles
  | serviceWorkerRegistrations
  | webSockets
  | eventSources
  | broadcastChannels
  | canvasContexts
  | elements
  | events
  | formData
deriving DecidableEq

/-- What the tables say of an object: the names it was opened with (database, store and
index, cache or scope) and the node, stream or media source it belongs to. -/
structure HostEntry where
  serial : Nat
  names : List String
  belongsTo : Nat

structure HostObjects where
  table : HostTable → IdMap HostEntry
  handles : IdMap Nat
  nextElementId : Nat
  nextEventId : Nat
  nextFormId : Nat
  nextContextId : Nat
  nextObserverId : Nat
  issued : List Nat
  closed : List Nat

/-- What an id is taken for: an object of a table, a reserved object, or a class list, data
set or style of an element. -/
inductive HostTarget where
  | object (table : HostTable) (entry : HostEntry)
  | reserved (id : Nat)
  | view (bit : Nat) (entry : HostEntry)
  | unknown

namespace HostObjects

/-- `PageRuntime::from_element`: element handles start above the reserved ids. -/
def new : HostObjects where
  table := fun _ => ∅
  handles := ∅
  nextElementId := 32
  nextEventId := 0
  nextFormId := 0
  nextContextId := 0
  nextObserverId := 0
  issued := []
  closed := []

/-! ## Lookup -/

/-- The first of the tables that has the id. -/
def search (s : HostObjects) (object : Nat) (tables : List HostTable) : Option HostTarget :=
  tables.findSome? fun t => (s.table t)[object]?.map (HostTarget.object t)

def locator (s : HostObjects) (object : Nat) : HostTarget :=
  match (s.table .elements)[object]? with
  | some entry => .object .elements entry
  | none => .unknown

def hasBit (bit object : Nat) : Bool := object &&& bit != 0

def clearBit (bit object : Nat) : Nat := object &&& (maxU64 ^^^ bit)

/-- The view of an element that an id with a flag bit stands for. -/
def viewOf (s : HostObjects) (bit object : Nat) : HostTarget :=
  match (s.table .elements)[clearBit bit object]? with
  | some entry => .view bit entry
  | none => .unknown

def getTables : List HostTable :=
  [.readableStreams, .streamReaders, .mutationObservers, .mediaElements, .mediaSources,
    .sourceBuffers, .idbDatabases, .idbStores, .idbIndexes, .idbCursors, .cacheHandles,
    .serviceWorkerRegistrations, .webSockets, .eventSources, .broadcastChannels, .canvasContexts]

def getReserved : List Nat :=
  [hostDocument, hostWindow, hostCrypto, hostPerformance, hostCss, hostLocalStorage,
    hostIndexedDb, hostCacheStorage, hostNavigator, hostServiceWorker, hostCustomElements,
    hostHistory, hostLocation, hostEvent]

/-- The object that `get_property` takes an id for. -/
def getPropertyTarget (s : HostObjects) (object : Nat) : HostTarget :=
  (s.search object getTables).getD <|
    if hasBit hostClasslistBit object then s.viewOf hostClasslistBit object
    else if hasBit hostDatasetBit object then s.viewOf hostDatasetBit object
    else if hasBit hostStyleBit object then s.viewOf hostStyleBit object
    else if object ∈ getReserved then .reserved object
    else s.locator object

def setReserved : List Nat :=
  [hostDocument, hostWindow, hostLocalStorage, hostHistory, hostEvent, hostIndexedDb,
    hostCacheStorage, hostNavigator, hostServiceWorker, hostCustomElements]

/-- Tables whose objects have writable properties. -/
def setTables : List HostTable := [.mediaElements, .sourceBuffers, .mediaSources, .canvasContexts]

/-- Tables whose objects are read-only. -/
def readOnlyTables : List HostTable :=
  [.idbDatabases, .idbStores, .idbIndexes, .idbCursors, .cacheHandles,
    .serviceWorkerRegistrations, .webSockets, .eventSources, .broadcastChannels, .formData]

/-- The object that `set_property` takes an id for. -/
def setPropertyTarget (s : HostObjects) (object : Nat) (property : String) : HostTarget :=
  if hasBit hostDatasetBit object then s.viewOf hostDatasetBit object
  else if hasBit hostStyleBit object then s.viewOf hostStyleBit object
  else if object = hostDocument ∧ property ∈ ["title", "cookie"] then .reserved object
  else
    (s.search object setTables).getD <|
      if object = hostLocation then .reserved object
      else if object ∈ setReserved then .reserved object
      else (s.search object readOnlyTables).getD (s.locator object)

/-- Methods of the reserved objects that `call` tests for after the tables. -/
def reservedMethods (object : Nat) : List String :=
  if object = hostDocument then
    ["getElementById", "querySelector", "querySelectorAll", "createDocumentFragment",
      "createElement", "createTextNode", "addEventListener", "removeEventListener",
      "dispatchEvent"]
  else if object = hostLocalStorage then ["getItem", "setItem", "removeItem", "key", "clear"]
  else if object = hostWindow then
    ["setTimeout", "setInterval", "clearTimeout", "clearInterval", "requestAnimationFrame",
      "cancelAnimationFrame", "matchMedia", "getComputedStyle", "scroll", "scrollTo", "scrollBy",
      "alert", "confirm", "prompt", "atob", "btoa", "Event", "CustomEvent", "FormData", "fetch",
      "addEventListener", "removeEventListener", "dispatchEvent"]
  else if object = hostCrypto then ["getRandomValues", "randomUUID"]
  else if object = hostPerformance then ["now"]
  else if object = hostCss then ["supports", "escape"]
  else if object = hostFormData then ["get", "has", "append", "delete"]
  else if object = hostHistory then ["pushState", "replaceState", "back", "forward", "go"]
  else if object = hostLocation then ["assign", "replace", "reload"]
  else if object = hostEvent then
    ["preventDefault", "stopPropagation", "composedPath", "stopImmediatePropagation"]
  else []

/-- Methods that `call` tests for before the tables of platform objects. -/
def earlyMethods (object : Nat) : List String :=
  if object = hostWindow then ["structuredClone", "BroadcastChannel", "WebSocket", "EventSource"]
  else []

/-- Methods that `call` tests for after the canvas contexts. -/
def lateMethods (object : Nat) : List String :=
  if object = hostCustomElements then ["define", "get", "whenDefined"]
  else if object = hostWindow then
    ["MutationObserver", "ResizeObserver", "IntersectionObserver", "ReadableStream"]
  else []

def elementMethods : List String :=
  ["setAttribute", "getAttribute", "removeAttribute", "appendChild", "removeChild",
    "querySelector", "querySelectorAll", "getBoundingClientRect", "cloneNode", "closest",
    "contains", "matches", "focus", "click", "addEventListener", "removeEventListener",
    "dispatchEvent", "getContext"]

def lateElementMethods : List String := ["attachShadow", "submit"]

/-- The object that `call` takes an id for. -/
def callTarget (s : HostObjects) (object : Nat) (method : String) : HostTarget :=
  (s.search object [.mutationObservers, .readableStreams, .streamReaders]).getD <|
  if method ∈ earlyMethods object then .reserved object else
  (s.search object [.broadcastChannels, .webSockets, .eventSources]).getD <|
  if object = hostIndexedDb then .reserved object else
  (s.search object [.idbDatabases, .idbStores, .idbIndexes, .idbCursors]).getD <|
  if object = hostCacheStorage then .reserved object else
  (s.search object [.cacheHandles]).getD <|
  if object = hostServiceWorker then .reserved object else
  (s.search object [.serviceWorkerRegistrations]).getD <|
  if object = hostWindow ∧ method ∈ ["MediaSource.isTypeSupported", "MediaSource"] then
    .reserved object
  else
  (s.search object [.mediaElements, .mediaSources, .sourceBuffers]).getD <|
  if hasBit hostClasslistBit object then s.viewOf hostClasslistBit object
  else if method ∈ reservedMethods object then .reserved object
  else if method ∈ elementMethods then s.locator object
  else
  (s.search object [.canvasContexts]).getD <|
  if method ∈ lateElementMethods then s.locator object
  else if method ∈ lateMethods object then .reserved object
  else .unknown

/-! ## Allocation -/

def insert (t : HostTable) (id : Nat) (entry : HostEntry) (s : HostObjects) : HostObjects :=
  { s with table := fun other => if other = t then (s.table t).insert id entry else s.table other }

def remove (t : HostTable) (id : Nat) (s : HostObjects) : HostObjects :=
  { s with
    table := fun other => if other = t then (s.table t).erase id else s.table other
    closed := id :: s.closed }

/-- `retain` on the names of the entries. -/
def retain (t : HostTable) (keep : List String → Bool) (s : HostObjects) : HostObjects :=
  { s with
    table := fun other =>
      if other = t then (s.table t).filter fun _ entry => keep entry.names else s.table other
    closed := ((s.table t).filter fun _ entry => !keep entry.names).keys ++ s.closed }

/-- Hand out an id for a new object of a table. -/
def create (t : HostTable) (id : Nat) (names : List String) (belongsTo : Nat) (s : HostObjects) :
    HostObjects :=
  { s.insert t id ⟨s.issued.length, names, belongsTo⟩ with issued := s.issued ++ [id] }

/-- `next_host_id`, `allocate_platform_handle`. -/
def nextHostId (s : HostObjects) : Option (Nat × HostObjects) :=
  if s.nextElementId + 1 > maxU64 then none
  else some (s.nextElementId, { s with nextElementId := s.nextElementId + 1 })

/-- A handle from `allocate_platform_handle` and its entry. -/
def openHandle (t : HostTable) (names : List String) (belongsTo : Nat) (s : HostObjects) :
    HostObjects :=
  match s.nextHostId with
  | none => s
  | some (id, s) => s.create t id names belongsTo

/-- `element_for`, `allocate_media_source` and `allocate_source_buffer` take their id before
they allocate a heap object, which can fail. -/
def openHeapHandle (t : HostTable) (belongsTo : Nat) (heap : Bool) (s : HostObjects) :
    HostObjects :=
  match s.nextHostId with
  | none => s
  | some (id, s) => if heap then s.create t id [] belongsTo else s

/-- `element_for` of a node of the document. An `audio` or `video` element is in a second
table under the same id. -/
def elementFor (node : Nat) (media heap : Bool) (s : HostObjects) : HostObjects :=
  if s.handles.contains node then s
  else
    match s.nextHostId with
    | none => s
    | some (id, s) =>
      if heap then
        let element := s.create .elements id [] node
        let s := { element with handles := s.handles.insert node id }
        if media then s.insert .mediaElements id ⟨s.issued.length - 1, [], node⟩ else s
      else s

/-- The oldest entry makes room for a new one. -/
def evictOldest (t : HostTable) (s : HostObjects) : HostObjects :=
  if (s.table t).size ≥ maxEventRecords then
    match (s.table t).minKey? with
    | some oldest => s.remove t oldest
    | none => s
  else s

def allocateEvent (s : HostObjects) : HostObjects :=
  let s := s.evictOldest .events
  if s.nextEventId + 1 > maxU64 then s
  else { s with nextEventId := s.nextEventId + 1 }.create .events s.nextEventId [] 0

/-- `allocate_form_data`. The entries can exceed their byte budget after the eviction. -/
def allocateFormData (form : Nat) (fits : Bool) (s : HostObjects) : HostObjects :=
  let s := s.evictOldest .formData
  if !fits then s
  else if s.nextFormId + 1 > maxU64 then s
  else { s with nextFormId := s.nextFormId + 1 }.create .formData s.nextFormId [] form

/-- `new MutationObserver`, `new ResizeObserver` and `new IntersectionObserver`. -/
def allocateObserver (s : HostObjects) : HostObjects :=
  if (s.table .mutationObservers).size ≥ maxMutationObservers then s
  else if s.nextObserverId + 1 > maxU64 then s
  else
    { s with nextObserverId := s.nextObserverId + 1 }.create .mutationObservers
      s.nextObserverId [] 0

/-- `getContext` of a canvas: one context for each node. -/
def getContext (canvas : Nat) (s : HostObjects) : HostObjects :=
  if (s.table .canvasContexts).toList.any fun entry => entry.2.belongsTo == canvas then s
  else if (s.table .canvasContexts).size ≥ maxEventRecords then s
  else if s.nextContextId + 1 > maxU64 then s
  else
    { s with nextContextId := s.nextContextId + 1 }.create .canvasContexts s.nextContextId [] canvas

/-- `tee` takes both ids before it inserts the two streams. -/
def tee (s : HostObjects) : HostObjects :=
  if (s.table .readableStreams).size + 2 > maxStreamsPerPage then s
  else
    match s.nextHostId with
    | none => s
    | some (first, s) =>
      match s.nextHostId with
      | none => s
      | some (second, s) =>
        (s.create .readableStreams first [] 0).create .readableStreams second [] 0

/-! ## Host calls -/

end HostObjects

/-- The methods that open, close or hand out host objects, with the arguments they use. The
Booleans are what code outside the tables decides: `heap` that a heap object could be
allocated, `fits` that a byte budget holds, `posted` that the message was accepted. -/
inductive HostMethod where
  | event
  | customEvent
  | formData (form : Nat) (fits : Bool)
  | mutationObserver
  | resizeObserver
  | intersectionObserver
  | readableStream
  | broadcastChannel (name : String)
  | webSocket
  | eventSource
  | mediaSource (heap : Bool)
  | getContext
  | getReader
  | tee
  | releaseLock
  | addSourceBuffer (heap : Bool)
  | openNamed (name : String)
  | deleteDatabase (name : String)
  | createObjectStore (name : String)
  | objectStore (name : String)
  | deleteObjectStore (name : String)
  | postMessage (posted : Bool)
  | close
  | createIndex (name : String)
  | index (name : String)
  | deleteIndex (name : String)
  | openCursor
  | delete (name : String)
  | register (scope : String)
  | getRegistration (scope : String)
  | unregister
  | other (name : String)

def HostMethod.name : HostMethod → String
  | event => "Event"
  | customEvent => "CustomEvent"
  | formData _ _ => "FormData"
  | mutationObserver => "MutationObserver"
  | resizeObserver => "ResizeObserver"
  | intersectionObserver => "IntersectionObserver"
  | readableStream => "ReadableStream"
  | broadcastChannel _ => "BroadcastChannel"
  | webSocket => "WebSocket"
  | eventSource => "EventSource"
  | mediaSource _ => "MediaSource"
  | getContext => "getContext"
  | getReader => "getReader"
  | tee => "tee"
  | releaseLock => "releaseLock"
  | addSourceBuffer _ => "addSourceBuffer"
  | openNamed _ => "open"
  | deleteDatabase _ => "deleteDatabase"
  | createObjectStore _ => "createObjectStore"
  | objectStore _ => "objectStore"
  | deleteObjectStore _ => "deleteObjectStore"
  | postMessage _ => "postMessage"
  | close => "close"
  | createIndex _ => "createIndex"
  | index _ => "index"
  | deleteIndex _ => "deleteIndex"
  | openCursor => "openCursor"
  | delete _ => "delete"
  | register _ => "register"
  | getRegistration _ => "getRegistration"
  | unregister => "unregister"
  | other name => name

namespace HostObjects

/-- Methods of the reserved objects that open or close host objects. -/
def callReserved (object : Nat) (method : HostMethod) (s : HostObjects) : HostObjects :=
  if object = hostWindow then
    match method with
    | .event | .customEvent => s.allocateEvent
    | .formData form fits => s.allocateFormData form fits
    | .mutationObserver | .resizeObserver | .intersectionObserver => s.allocateObserver
    | .readableStream =>
      if (s.table .readableStreams).size ≥ maxStreamsPerPage then s
      else s.openHandle .readableStreams [] 0
    | .broadcastChannel name => s.openHandle .broadcastChannels [name] 0
    | .webSocket => s.openHandle .webSockets [] 0
    | .eventSource => s.openHandle .eventSources [] 0
    | .mediaSource heap => s.openHeapHandle .mediaSources 0 heap
    | _ => s
  else if object = hostIndexedDb then
    match method with
    | .openNamed name => s.openHandle .idbDatabases [name] 0
    | .deleteDatabase name =>
      (s.retain .idbDatabases (· != [name])).retain .idbStores (·.head? != some name)
    | _ => s
  else if object = hostCacheStorage then
    match method with
    | .openNamed name => s.openHandle .cacheHandles [name] 0
    | .delete name => s.retain .cacheHandles (· != [name])
    | _ => s
  else if object = hostServiceWorker then
    match method with
    | .register scope | .getRegistration scope =>
      s.openHandle .serviceWorkerRegistrations [scope] 0
    | _ => s
  else s

/-- Methods of the objects in the tables that open or close host objects. -/
def callObject (t : HostTable) (object : Nat) (entry : HostEntry) (method : HostMethod)
    (s : HostObjects) : HostObjects :=
  match t, method with
  | .readableStreams, .getReader => s.openHandle .streamReaders [] object
  | .readableStreams, .tee => s.tee
  | .streamReaders, .releaseLock => s.remove .streamReaders object
  -- The channel is taken out of its table for the call and an error leaves before it is put back.
  | .broadcastChannels, .postMessage posted =>
    if posted then s else s.remove .broadcastChannels object
  | .broadcastChannels, .close => s.remove .broadcastChannels object
  | .idbDatabases, .createObjectStore name | .idbDatabases, .objectStore name =>
    s.openHandle .idbStores (entry.names ++ [name]) 0
  | .idbDatabases, .deleteObjectStore name =>
    (s.retain .idbStores (· != entry.names ++ [name])).retain .idbIndexes
      (·.take 2 != entry.names ++ [name])
  | .idbDatabases, .close =>
    ((s.remove .idbDatabases object).retain .idbStores (·.take 1 != entry.names)).retain
      .idbIndexes (·.take 1 != entry.names)
  | .idbStores, .createIndex name | .idbStores, .index name =>
    s.openHandle .idbIndexes (entry.names ++ [name]) 0
  | .idbStores, .deleteIndex name => s.retain .idbIndexes (· != entry.names ++ [name])
  | .idbStores, .openCursor | .idbIndexes, .openCursor => s.openHandle .idbCursors [] 0
  | .serviceWorkerRegistrations, .unregister => s.remove .serviceWorkerRegistrations object
  | .mediaSources, .addSourceBuffer heap => s.openHeapHandle .sourceBuffers object heap
  | .elements, .getContext => s.getContext entry.belongsTo
  | _, _ => s

/-- A host call. Its arguments and engine calls pass their checks, apart from those of
`postMessage`. -/
def call (object : Nat) (method : HostMethod) (s : HostObjects) : HostObjects :=
  match s.callTarget object method.name with
  | .object t entry => s.callObject t object entry method
  | .reserved id => s.callReserved id method
  | .view _ _ | .unknown => s

end HostObjects

/-- What a page does to its host objects: a property read or a call returns an element, or
script makes a host call. Script turns, event dispatches and pumps are sequences of
these. -/
inductive HostStep where
  | elementFor (node : Nat) (media heap : Bool)
  | call (object : Nat) (method : HostMethod)

namespace HostObjects

def step (s : HostObjects) : HostStep → HostObjects
  | .elementFor node media heap => s.elementFor node media heap
  | .call object method => s.call object method

def run (steps : List HostStep) : HostObjects := steps.foldl step new

end HostObjects

end GhitaBrowser.Page
