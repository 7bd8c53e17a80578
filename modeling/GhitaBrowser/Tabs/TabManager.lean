import GhitaBrowser.Lib.OrdMap
import GhitaBrowser.Lib.History
import GhitaBrowser.Tabs.Tab
import Mathlib.Data.List.Sort

/-!
# The tab manager

The tabs of a window, their order in the tab strip, the active one and the tab groups.
Identifiers of tabs come from a counter that wraps around, those of groups from one that
saturates, and a restored session brings group identifiers of its own.
-/

namespace GhitaBrowser.Tabs

open Html (Element)

def maxU64 : Nat := 2 ^ 64 - 1
def maxClosedTabs : Nat := 25
def maxRestoredTabs : Nat := 100

structure TabGroup where
  id : Nat
  name : String
  color : String
  collapsed : Bool

/-! ## Sessions -/

structure SessionTab where
  url : String
  title : String
  pinned : Bool
  muted : Bool
  groupId : Option UInt64

structure SessionTabGroup where
  id : UInt64
  name : String
  color : String
  collapsed : Bool

structure BrowserSession where
  activeIndex : Nat
  tabs : List SessionTab
  groups : List SessionTabGroup

/-! ## The manager -/

structure TabManager (Layout Runtime : Type) where
  tabs : IdMap (Tab Layout Runtime)
  activeTabId : Option Nat
  nextId : Nat
  tabOrder : List Nat
  closedTabs : List (String × String)
  groups : IdMap TabGroup
  nextGroupId : Nat

namespace TabManager

variable {Layout Runtime : Type}

def new : TabManager Layout Runtime where
  tabs := ∅
  activeTabId := none
  nextId := 1
  tabOrder := []
  closedTabs := []
  groups := ∅
  nextGroupId := 1

/-- `tabs.get(id).is_some_and(|tab| tab.is_pinned)`. -/
def isPinned (manager : TabManager Layout Runtime) (id : Nat) : Bool :=
  manager.tabs[id]?.any (·.isPinned)

def updateTab (manager : TabManager Layout Runtime) (id : Nat)
    (f : Tab Layout Runtime → Tab Layout Runtime) : TabManager Layout Runtime :=
  { manager with tabs := manager.tabs.modify id f }

/-- Make a tab of the order the active one. -/
def activate (manager : TabManager Layout Runtime) (id : Nat) (now : Int) :
    TabManager Layout Runtime :=
  { manager with activeTabId := some id }.updateTab id (Tab.markActive now)

def setActiveTab (manager : TabManager Layout Runtime) (id : Nat) (now : Int) :
    TabManager Layout Runtime :=
  if manager.tabs.contains id then manager.activate id now else manager

def addTab [SnapshotFormat] (manager : TabManager Layout Runtime) (url : String) (dom : Element)
    (title : String) (now : Int) : TabManager Layout Runtime × Nat :=
  let id := manager.nextId
  ({ manager with
      nextId := (id + 1) % 2 ^ 64
      tabs := manager.tabs.insert id (.new id url dom title now)
      tabOrder := manager.tabOrder ++ [id] }.setActiveTab id now, id)

def setActiveByIndex (manager : TabManager Layout Runtime) (index : Nat) (now : Int) :
    TabManager Layout Runtime :=
  match manager.tabOrder[index]? with
  | some id => manager.activate id now
  | none => manager

/-- The position of the active tab in the order, zero where it has none. -/
def activeIndex (manager : TabManager Layout Runtime) : Nat :=
  (manager.activeTabId.bind fun id => manager.tabOrder.findIdx? (· == id)).getD 0

/-- `activate_next` and `activate_prev` walk around the order by `offset` places. -/
def cycle (manager : TabManager Layout Runtime) (offset : Nat) (now : Int) :
    TabManager Layout Runtime :=
  manager.setActiveByIndex ((manager.activeIndex + offset) % manager.tabOrder.length) now

def activateNext (manager : TabManager Layout Runtime) (now : Int) : TabManager Layout Runtime :=
  manager.cycle 1 now

def activatePrev (manager : TabManager Layout Runtime) (now : Int) : TabManager Layout Runtime :=
  manager.cycle (manager.tabOrder.length - 1) now

/-- The tab that is active after `id` has left the order: its right neighbour, else the last. -/
def activeAfter (manager : TabManager Layout Runtime) (id : Nat) (order : List Nat) : Option Nat :=
  if manager.activeTabId = some id then
    order[min ((manager.tabOrder.findIdx? (· == id)).getD 0) (order.length - 1)]?
  else manager.activeTabId

def isRemembered (tab : Tab Layout Runtime) : Bool :=
  !tab.incognito && (tab.url.startsWith "http://" || tab.url.startsWith "https://")

/-- The tabs that can be reopened, with one more. -/
def remember (closed : List (String × String)) (tab : Tab Layout Runtime) :
    List (String × String) :=
  if isRemembered tab then
    let closed := closed ++ [(tab.url, tab.title)]
    if closed.length > maxClosedTabs then closed.tail else closed
  else closed

def removeTab (manager : TabManager Layout Runtime) (id : Nat) :
    TabManager Layout Runtime × Option (Tab Layout Runtime) :=
  let order := manager.tabOrder.filter (· ≠ id)
  let removed := manager.tabs[id]?
  ({ manager with
      tabOrder := order
      activeTabId := manager.activeAfter id order
      tabs := manager.tabs.erase id
      closedTabs := removed.elim manager.closedTabs (remember manager.closedTabs) }, removed)

def closeAllTabs (manager : TabManager Layout Runtime) : TabManager Layout Runtime :=
  { manager with
    tabs := ∅, tabOrder := [], activeTabId := none, nextId := 1, groups := ∅, nextGroupId := 1 }

def pinTabByIndex (manager : TabManager Layout Runtime) (index : Nat) (pinned : Bool) :
    TabManager Layout Runtime × Bool :=
  match manager.tabOrder[index]? with
  | none => (manager, false)
  | some id =>
    match manager.tabs[id]? with
    | none => (manager, false)
    | some tab =>
      if tab.isPinned = pinned then (manager, true)
      else
        let manager := manager.updateTab id fun tab => { tab with isPinned := pinned }
        let order := manager.tabOrder.eraseIdx index
        ({ manager with tabOrder := order.insertIdx (order.countP manager.isPinned) id }, true)

/-- Why a group is refused; the name is trimmed. -/
def groupProblem (name color : String) : Option String :=
  if name.isEmpty ∨ name.utf8ByteSize > 64 then some "Tab group name must contain 1-64 bytes"
  else if color.utf8ByteSize > 32 then some "Tab group color exceeds 32 bytes"
  else none

def createGroup (manager : TabManager Layout Runtime) (name color : String) :
    TabManager Layout Runtime × Except String Nat :=
  let name := trim name
  match groupProblem name color with
  | some message => (manager, .error message)
  | none =>
    let id := manager.nextGroupId
    ({ manager with
        nextGroupId := min (id + 1) maxU64
        groups := manager.groups.insert id ⟨id, name, color, false⟩ }, .ok id)

def assignTabToGroupByIndex (manager : TabManager Layout Runtime) (index : Nat)
    (groupId : Option Nat) : TabManager Layout Runtime × Bool :=
  if groupId.any fun id => !manager.groups.contains id then (manager, false)
  else
    match manager.tabOrder[index]? with
    | none => (manager, false)
    | some id =>
      if manager.tabs.contains id then
        (manager.updateTab id fun tab => { tab with groupId }, true)
      else (manager, false)

def reorderTab (manager : TabManager Layout Runtime) (fromIndex toIndex : Nat) :
    TabManager Layout Runtime × Bool :=
  match manager.tabOrder[fromIndex]?, manager.tabOrder[toIndex]? with
  | some moving, some target =>
    if manager.isPinned moving ≠ manager.isPinned target then (manager, false)
    else
      ({ manager with
          tabOrder := (manager.tabOrder.eraseIdx fromIndex).insertIdx toIndex moving }, true)
  | _, _ => (manager, false)

/-! ## Restoring a session -/

/-- A saved group keeps its identifier, and the counter goes past it. -/
def restoreGroup (manager : TabManager Layout Runtime) (group : SessionTabGroup) :
    TabManager Layout Runtime :=
  let id := group.id.toNat
  { manager with
    nextGroupId := max manager.nextGroupId (min (id + 1) maxU64)
    groups := manager.groups.insert id ⟨id, group.name, group.color, group.collapsed⟩ }

def restoreTab [SnapshotFormat] (now : Int) (manager : TabManager Layout Runtime)
    (saved : SessionTab) : TabManager Layout Runtime :=
  let title := if (trim saved.title).isEmpty then saved.url else saved.title
  let (manager, id) := manager.addTab saved.url rootDom title now
  manager.updateTab id fun tab =>
    { tab with
      isPinned := saved.pinned, isMuted := saved.muted
      groupId := (saved.groupId.map UInt64.toNat).filter fun id => manager.groups.contains id }

/-- `sort_by_key` with the negated pin flag as the key. -/
def sortPinned (manager : TabManager Layout Runtime) : TabManager Layout Runtime :=
  { manager with
    tabOrder := manager.tabOrder.insertionSort fun a b =>
      (!manager.isPinned a) ≤ (!manager.isPinned b) }

def restoreSession [SnapshotFormat] (manager : TabManager Layout Runtime)
    (session : BrowserSession) (now : Int) : TabManager Layout Runtime × Nat :=
  let manager := session.groups.foldl restoreGroup manager.closeAllTabs
  let manager := ((session.tabs.take maxRestoredTabs).foldl (restoreTab now) manager).sortPinned
  let index := min session.activeIndex (manager.tabOrder.length - 1)
  (manager.setActiveByIndex index now, manager.tabOrder.length)

end TabManager

/-! ## Runs -/

inductive Operation where
  | addTab (url : String) (dom : Element) (title : String)
  | removeTab (id : Nat)
  | setActiveTab (id : Nat)
  | setActiveByIndex (index : Nat)
  | activateNext
  | activatePrev
  | pinTabByIndex (index : Nat) (pinned : Bool)
  | reorderTab (fromIndex toIndex : Nat)
  | createGroup (name color : String)
  | assignTabToGroupByIndex (index : Nat) (groupId : Option Nat)
  | closeAllTabs
  | restoreSession (session : BrowserSession)

/-- The manager after an operation at time `now`. -/
def TabManager.step {Layout Runtime : Type} [SnapshotFormat] (manager : TabManager Layout Runtime)
    (operation : Operation × Int) : TabManager Layout Runtime :=
  let now := operation.2
  match operation.1 with
  | .addTab url dom title => (manager.addTab url dom title now).1
  | .removeTab id => (manager.removeTab id).1
  | .setActiveTab id => manager.setActiveTab id now
  | .setActiveByIndex index => manager.setActiveByIndex index now
  | .activateNext => manager.activateNext now
  | .activatePrev => manager.activatePrev now
  | .pinTabByIndex index pinned => (manager.pinTabByIndex index pinned).1
  | .reorderTab fromIndex toIndex => (manager.reorderTab fromIndex toIndex).1
  | .createGroup name color => (manager.createGroup name color).1
  | .assignTabToGroupByIndex index groupId => (manager.assignTabToGroupByIndex index groupId).1
  | .closeAllTabs => manager.closeAllTabs
  | .restoreSession session => (manager.restoreSession session now).1

end GhitaBrowser.Tabs
