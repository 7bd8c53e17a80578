import GhitaBrowser.Net.Url
import GhitaBrowser.Tabs.TabStrip

/-!
# A session that is restored

`session_snapshot` leaves out the tabs that are not to be saved, and records the position of
the active tab among all of them. `restore_session` reads the position among those that were
saved.

* The saved tabs come back in their order, each as it was (`restoresTabs_snapshot`).
* The active tab comes back as the active one exactly when no tab before it was left out, or it
  is the last that was saved (`session_restored_iff`).
-/

namespace GhitaBrowser.Tabs

open List

open Html (Element)
open Net (UrlLibrary PlainUrl)

namespace TabManager

variable {Layout Runtime : Type}

/-! ## The snapshot -/

/-- `iter`: the tabs in the order of the strip. -/
def iterTabs (manager : TabManager Layout Runtime) : List (Tab Layout Runtime) :=
  manager.tabOrder.filterMap (manager.tabs[·]?)

section Url

variable (U : Type) [UrlLibrary U]

def isSaved (tab : Tab Layout Runtime) : Bool :=
  !tab.incognito &&
    match UrlLibrary.parse (U := U) tab.url.toList with
    | .ok url => ["http", "https", "file"].any (·.toList == UrlLibrary.scheme url)
    | .error _ => false

def sessionTab (tab : Tab Layout Runtime) : SessionTab :=
  { url := tab.url, title := tab.title, pinned := tab.isPinned, muted := tab.isMuted
    groupId := tab.groupId.map UInt64.ofNat }

def sessionTabGroup (group : TabGroup) : SessionTabGroup :=
  ⟨UInt64.ofNat group.id, group.name, group.color, group.collapsed⟩

/-- The groups of a manager in the order in which the hash map hands them out. -/
structure GroupOrder (manager : TabManager Layout Runtime) where
  groups : List TabGroup
  perm : groups.Perm (manager.groups.toList.map (·.2))

def sessionSnapshot (manager : TabManager Layout Runtime) (order : GroupOrder manager) :
    BrowserSession where
  activeIndex := manager.activeIndex
  tabs := (manager.iterTabs.filter (isSaved U)).map sessionTab
  groups := order.groups.map sessionTabGroup

end Url

def GroupOrder.sorted (manager : TabManager Layout Runtime) : GroupOrder manager :=
  ⟨manager.groups.toList.map (·.2), .refl _⟩

/-! ## What is shown of the tabs -/

/-- What a session keeps of a tab. -/
def look (tab : Tab Layout Runtime) : String × String × Bool × Bool × Option Nat :=
  (tab.url, tab.title, tab.isPinned, tab.isMuted, tab.groupId)

/-- A blank title gives way to the URL. -/
def titleOf (url title : String) : String := if (trim title).isEmpty then url else title

/-- The look of a tab that has been restored. -/
def restoredLook (manager : TabManager Layout Runtime) (saved : SessionTab) :
    String × String × Bool × Bool × Option Nat :=
  (saved.url, titleOf saved.url saved.title, saved.pinned, saved.muted,
    (saved.groupId.map UInt64.toNat).filter fun id => manager.groups.contains id)

variable {manager : TabManager Layout Runtime}

/-- The looks in an order, tab by tab. -/
def looks (manager : TabManager Layout Runtime) (order : List Nat) :
    List (String × String × Bool × Bool × Option Nat) :=
  order.filterMap fun id => manager.tabs[id]?.map look

theorem map_look_iterTabs : manager.iterTabs.map look = manager.looks manager.tabOrder :=
  map_filterMap ..

theorem looks_congr {other : TabManager Layout Runtime} {order : List Nat}
    (h : ∀ id ∈ order, (manager.tabs[id]?).map look = (other.tabs[id]?).map look) :
    manager.looks order = other.looks order := filterMap_congr h

variable {id : Nat}

theorem look_updateTab {f : Tab Layout Runtime → Tab Layout Runtime}
    (same : ∀ tab, look (f tab) = look tab) (other : Nat) :
    ((manager.updateTab id f).tabs[other]?).map look = (manager.tabs[other]?).map look := by
  show ((Std.ExtTreeMap.modify manager.tabs id f)[other]?).map look = _
  rw [IdMap.getElem?_modify]
  split
  · next here =>
    rw [here]
    cases manager.tabs[id]? with
    | none => rfl
    | some tab => exact congrArg some (same tab)
  · rfl

theorem look_activate (id : Nat) (now : Int) (other : Nat) :
    ((manager.activate id now).tabs[other]?).map look = (manager.tabs[other]?).map look :=
  look_updateTab (fun tab => show look (tab.markActive now) = look tab from rfl) other

/-! ## Restoring the tabs -/

section Restore

variable [SnapshotFormat]

theorem restoreTab_tabOrder (now : Int) (saved : SessionTab) :
    (manager.restoreTab now saved).tabOrder = manager.tabOrder ++ [manager.nextId] := by
  show (manager.addTab _ _ _ now).1.tabOrder = _
  rw [addTab_fst]
  rfl

theorem restoreTab_groups (now : Int) (saved : SessionTab) :
    (manager.restoreTab now saved).groups = manager.groups := by
  show (manager.addTab _ _ _ now).1.groups = _
  rw [addTab_fst]
  rfl

theorem restoreTab_nextGroupId (now : Int) (saved : SessionTab) :
    (manager.restoreTab now saved).nextGroupId = manager.nextGroupId := by
  show (manager.addTab _ _ _ now).1.nextGroupId = _
  rw [addTab_fst]
  rfl

theorem look_restoreTab (now : Int) (saved : SessionTab) (id : Nat) :
    ((manager.restoreTab now saved).tabs[id]?).map look =
      if id = manager.nextId then some (manager.restoredLook saved)
      else (manager.tabs[id]?).map look := by
  have hnew : (manager.addTab saved.url rootDom (titleOf saved.url saved.title) now).1 =
      (manager.withTab saved.url rootDom (titleOf saved.url saved.title) now).activate
        manager.nextId now := addTab_fst ..
  show ((Std.ExtTreeMap.modify
    (manager.addTab saved.url rootDom (titleOf saved.url saved.title) now).1.tabs manager.nextId
      fun tab => { tab with
        isPinned := saved.pinned, isMuted := saved.muted
        groupId := (saved.groupId.map UInt64.toNat).filter fun id =>
          (manager.addTab saved.url rootDom (titleOf saved.url saved.title) now).1.groups.contains
            id })[id]?).map look = _
  rw [IdMap.getElem?_modify, hnew]
  show (if id = manager.nextId then _ else (Std.ExtTreeMap.modify (Std.ExtTreeMap.insert
    manager.tabs manager.nextId _) manager.nextId _)[id]?).map look = _
  split
  · show ((Std.ExtTreeMap.modify (Std.ExtTreeMap.insert
      manager.tabs manager.nextId _) manager.nextId _)[manager.nextId]?.map _).map look = _
    rw [IdMap.getElem?_modify, if_pos rfl, IdMap.getElem?_insert, if_pos rfl, restoredLook]
    generalize titleOf saved.url saved.title = title
    rfl
  · next other => rw [IdMap.getElem?_modify, if_neg other, IdMap.getElem?_insert, if_neg other]

theorem restoreTabs_spec (now : Int) (tabs : List SessionTab) (sound : Sound manager)
    (room : manager.nextId + tabs.length < 2 ^ 64) :
    (tabs.foldl (restoreTab now) manager).tabOrder =
      manager.tabOrder ++ List.range' manager.nextId tabs.length ∧
    (tabs.foldl (restoreTab now) manager).looks (tabs.foldl (restoreTab now) manager).tabOrder =
      manager.looks manager.tabOrder ++ tabs.map manager.restoredLook := by
  induction tabs generalizing manager with
  | nil => simp
  | cons saved tabs ih =>
    rw [length_cons] at room
    obtain ⟨next, counted⟩ := sound.restoreTab (by omega) now saved
    obtain ⟨horder, hlooks⟩ := ih next (by rw [counted]; omega)
    have hlook : (manager.restoreTab now saved).restoredLook = manager.restoredLook := by
      funext saved'
      rw [restoredLook, restoredLook, restoreTab_groups]
    have hold : (manager.restoreTab now saved).looks manager.tabOrder =
        manager.looks manager.tabOrder := by
      refine looks_congr fun id inOrder => ?_
      rw [look_restoreTab, if_neg]
      rintro rfl
      exact sound.fresh ((sound.listed _).mp inOrder)
    have hone : (manager.restoreTab now saved).looks [manager.nextId] =
        [manager.restoredLook saved] := by
      simp [looks, look_restoreTab]
    rw [foldl_cons]
    constructor
    · rw [horder, restoreTab_tabOrder, counted, append_assoc, length_cons,
        range'_succ]
      rfl
    · rw [hlooks, restoreTab_tabOrder, hlook, looks, filterMap_append, ← looks, ← looks, hold,
        hone, append_assoc]
      rfl

end Restore

/-! ## The order of what is restored -/

theorem isPinned_eq (manager : TabManager Layout Runtime) (id : Nat) :
    manager.isPinned id = ((manager.tabs[id]?).map look).any (·.2.2.1) := by
  unfold isPinned
  cases manager.tabs[id]? <;> rfl

theorem pins_looks {order : List Nat} (stored : ∀ id ∈ order, manager.HasTab id) :
    (manager.looks order).map (·.2.2.1) = order.map manager.isPinned := by
  induction order with
  | nil => rfl
  | cons id order ih =>
    obtain ⟨tab, found⟩ := Option.isSome_iff_exists.mp (stored id mem_cons_self)
    have rest := ih fun other inOrder => stored other (mem_cons_of_mem _ inOrder)
    rw [map_cons, ← rest, isPinned_eq, looks, filterMap_cons, found]
    rfl

theorem leading_iff {α : Type} {p : α → Bool} {l : List α} :
    Leading p l ↔ (l.map p).Pairwise fun (a b : Bool) => b → a := by
  rw [pairwise_map]
  rfl

theorem sortPinned_of_leading (pinnedFirst : Leading manager.isPinned manager.tabOrder) :
    manager.sortPinned = manager := by
  have sorted : manager.tabOrder.Pairwise fun a b =>
      (!manager.isPinned a) ≤ (!manager.isPinned b) := by
    refine pinnedFirst.imp ?_
    intro a b first
    cases hb : manager.isPinned b with
    | false => exact Bool.le_true _
    | true =>
      rw [first hb]
  rw [sortPinned, List.Pairwise.insertionSort_eq sorted]

theorem tabOrder_restoreGroups (groups : List SessionTabGroup)
    (manager : TabManager Layout Runtime) :
    (groups.foldl restoreGroup manager).tabOrder = manager.tabOrder := by
  induction groups generalizing manager with
  | nil => rfl
  | cons group groups ih => exact ih (manager.restoreGroup group)

section Session

variable [SnapshotFormat]

/-- The groups of a session, before its tabs. -/
def regrouped (manager : TabManager Layout Runtime) (session : BrowserSession) :
    TabManager Layout Runtime :=
  session.groups.foldl restoreGroup manager.closeAllTabs

theorem restoreSession_spec (manager : TabManager Layout Runtime) (session : BrowserSession)
    (now : Int) (few : session.tabs.length ≤ maxRestoredTabs)
    (pinnedFirst : Leading (·.pinned) session.tabs) :
    (manager.restoreSession session now).1.tabOrder = List.range' 1 session.tabs.length ∧
    (manager.restoreSession session now).1.iterTabs.map look =
      session.tabs.map (manager.regrouped session).restoredLook ∧
    (session.tabs ≠ [] → (manager.restoreSession session now).1.activeTabId =
      some (1 + min session.activeIndex (session.tabs.length - 1))) := by
  have sound : Sound (manager.regrouped session) :=
    (ordered_restoreGroups session.groups (ordered_closeAllTabs manager)).toSound
  have room := room_restoreSession session.groups few manager
  have hnext : (manager.regrouped session).nextId = 1 := nextId_restoreGroups _ _
  have hempty : (manager.regrouped session).tabOrder = [] := tabOrder_restoreGroups _ _
  obtain ⟨horder, hlooks⟩ := restoreTabs_spec now session.tabs sound room
  have restored := sound_restoreTabs now session.tabs sound room
  rw [hempty, hnext, nil_append] at horder
  rw [hempty] at hlooks
  -- the tabs are in their order already
  have leading : Leading (session.tabs.foldl (restoreTab now) (manager.regrouped session)).isPinned
      (session.tabs.foldl (restoreTab now) (manager.regrouped session)).tabOrder := by
    rw [leading_iff, ← pins_looks fun id inOrder => (restored.listed id).mp inOrder, hlooks,
      looks, filterMap_nil, nil_append, map_map]
    exact leading_iff.mp pinnedFirst
  have hsession : (manager.restoreSession session now).1 =
      (session.tabs.foldl (restoreTab now) (manager.regrouped session)).setActiveByIndex
        (min session.activeIndex
          ((session.tabs.foldl (restoreTab now) (manager.regrouped session)).tabOrder.length - 1))
        now := by
    have hsorted : ((session.tabs.take maxRestoredTabs).foldl (restoreTab now)
        (manager.regrouped session)).sortPinned =
          session.tabs.foldl (restoreTab now) (manager.regrouped session) := by
      rw [take_of_length_le few, sortPinned_of_leading leading]
    show (((session.tabs.take maxRestoredTabs).foldl (restoreTab now)
      (manager.regrouped session)).sortPinned.setActiveByIndex _ now) = _
    rw [hsorted]
    show TabManager.setActiveByIndex _ (min session.activeIndex
      (((session.tabs.take maxRestoredTabs).foldl (restoreTab now)
        (manager.regrouped session)).sortPinned.tabOrder.length - 1)) now = _
    rw [hsorted]
  rw [hsession]
  generalize session.tabs.foldl (restoreTab now) (manager.regrouped session) = tabs at *
  have hlength : tabs.tabOrder.length = session.tabs.length := by rw [horder, length_range']
  have hkept (index : Nat) : (tabs.setActiveByIndex index now).tabOrder = tabs.tabOrder := by
    unfold setActiveByIndex
    split <;> rfl
  refine ⟨(hkept _).trans horder, ?_, fun some => ?_⟩
  · rw [map_look_iterTabs, hkept, ← nil_append (session.tabs.map _)]
    refine Eq.trans (looks_congr fun id _ => ?_) hlooks
    unfold setActiveByIndex
    split
    · exact look_activate _ now id
    · rfl
  · have hpos : 0 < session.tabs.length := length_pos_iff.mpr some
    have hindex : min session.activeIndex (tabs.tabOrder.length - 1) < session.tabs.length := by
      omega
    have hfound : tabs.tabOrder[min session.activeIndex (tabs.tabOrder.length - 1)]? =
        Option.some (1 + min session.activeIndex (session.tabs.length - 1)) := by
      rw [horder, List.getElem?_range' (by rwa [← horder]), Nat.one_mul, ← horder, hlength]
    unfold setActiveByIndex
    rw [hfound]
    rfl

end Session

/-! ## The groups -/

/-- Every group is kept under its own number. -/
def Numbered (manager : TabManager Layout Runtime) : Prop :=
  ∀ (id : Nat) (group : TabGroup), manager.groups[id]? = some group → group.id = id ∧ id < 2 ^ 64

/-- The counter of the groups holds a number that a group can have. -/
structure Numbering (manager : TabManager Layout Runtime) : Prop where
  numbered : Numbered manager
  counter : manager.nextGroupId ≤ maxU64

section Keeps

theorem Numbering.of_groups {other : TabManager Layout Runtime} (h : Numbering manager)
    (same : (other.groups, other.nextGroupId) = (manager.groups, manager.nextGroupId)) :
    Numbering other := by
  obtain ⟨groups, counter⟩ := Prod.mk.inj same
  exact ⟨fun id group stored => h.numbered id group (groups ▸ stored), counter ▸ h.counter⟩

theorem Numbering.insert {nextGroupId : Nat} {group : TabGroup} (h : Numbering manager)
    (small : group.id ≤ maxU64) (counter : nextGroupId ≤ maxU64) :
    Numbering { manager with
      groups := manager.groups.insert group.id group, nextGroupId := nextGroupId } := by
  refine ⟨fun id found stored => ?_, counter⟩
  dsimp only at stored
  rw [IdMap.getElem?_insert] at stored
  split at stored
  · next same =>
    cases stored
    exact ⟨same.symm, same ▸ Nat.lt_of_le_of_lt small (by decide)⟩
  · exact h.numbered id found stored

theorem numbering_closeAllTabs (manager : TabManager Layout Runtime) :
    Numbering manager.closeAllTabs :=
  ⟨fun id group stored => by simp [closeAllTabs] at stored, show 1 ≤ maxU64 by decide⟩

theorem Numbering.restoreGroup (h : Numbering manager) (group : SessionTabGroup) :
    Numbering (manager.restoreGroup group) := by
  have small : group.id.toNat ≤ maxU64 := Nat.le_pred_of_lt group.id.toNat_lt
  exact @Numbering.insert _ _ _ _ ⟨group.id.toNat, group.name, group.color, group.collapsed⟩ h small
    (Nat.max_le.mpr ⟨h.counter, Nat.min_le_right _ _⟩)

theorem Numbering.createGroup (h : Numbering manager) (name color : String) :
    Numbering (manager.createGroup name color).1 := by
  unfold TabManager.createGroup
  dsimp only
  split
  · exact h
  · exact @Numbering.insert _ _ _ _ ⟨manager.nextGroupId, trim name, color, false⟩ h h.counter
      (Nat.min_le_right _ _)

theorem Numbering.setActiveByIndex (h : Numbering manager) (index : Nat) (now : Int) :
    Numbering (manager.setActiveByIndex index now) := by
  refine h.of_groups ?_
  unfold TabManager.setActiveByIndex
  split <;> rfl

variable [SnapshotFormat]

theorem Numbering.restoreSession (manager : TabManager Layout Runtime) (session : BrowserSession)
    (now : Int) : Numbering (manager.restoreSession session now).1 := by
  have groups : Numbering (session.groups.foldl TabManager.restoreGroup manager.closeAllTabs) :=
    List.foldlRecOn session.groups _ (numbering_closeAllTabs manager)
      fun _ held group _ => held.restoreGroup group
  have tabs : Numbering ((session.tabs.take maxRestoredTabs).foldl (restoreTab now)
      (session.groups.foldl TabManager.restoreGroup manager.closeAllTabs)) :=
    List.foldlRecOn (session.tabs.take maxRestoredTabs) _ groups fun _ held saved _ =>
      held.of_groups (congrArg₂ Prod.mk (restoreTab_groups now saved)
        (restoreTab_nextGroupId now saved))
  have sorted : Numbering ((session.tabs.take maxRestoredTabs).foldl (restoreTab now)
      (session.groups.foldl TabManager.restoreGroup manager.closeAllTabs)).sortPinned :=
    tabs.of_groups rfl
  exact sorted.setActiveByIndex _ now

theorem Numbering.step (h : Numbering manager) (operation : Operation × Int) :
    Numbering (manager.step operation) := by
  obtain ⟨operation, now⟩ := operation
  unfold TabManager.step
  dsimp only
  cases operation with
  | addTab url dom title =>
    refine h.of_groups ?_
    dsimp only
    rw [addTab_fst]
    rfl
  | removeTab id => exact h.of_groups rfl
  | setActiveTab id =>
    refine h.of_groups ?_
    dsimp only
    unfold TabManager.setActiveTab
    split <;> rfl
  | setActiveByIndex index => exact h.setActiveByIndex index now
  | activateNext => exact h.setActiveByIndex _ now
  | activatePrev => exact h.setActiveByIndex _ now
  | pinTabByIndex index pinned =>
    refine h.of_groups ?_
    dsimp only
    unfold TabManager.pinTabByIndex
    repeat' split
    all_goals rfl
  | reorderTab fromIndex toIndex =>
    refine h.of_groups ?_
    dsimp only
    unfold TabManager.reorderTab
    repeat' split
    all_goals rfl
  | createGroup name color => exact h.createGroup name color
  | assignTabToGroupByIndex index groupId =>
    refine h.of_groups ?_
    dsimp only
    unfold TabManager.assignTabToGroupByIndex
    repeat' split
    all_goals rfl
  | closeAllTabs => exact numbering_closeAllTabs manager
  | restoreSession session => exact .restoreSession manager session now

end Keeps

/-- In every run each group has the number it is kept under. -/
theorem numbered_run [SnapshotFormat] (operations : List (Operation × Int)) :
    (History.run TabManager.step (TabManager.new : TabManager Layout Runtime)
      operations).Numbered := by
  have kept : Numbering (History.run TabManager.step (TabManager.new : TabManager Layout Runtime)
      operations) :=
    History.run_keeps _ (numbering_closeAllTabs new) fun moment _ held => held.step moment.2
  exact kept.numbered

/-! ## What was saved -/

section Saved

variable (U : Type) [UrlLibrary U]

def savesTab (manager : TabManager Layout Runtime) (id : Nat) : Bool :=
  manager.tabs[id]?.any (isSaved U)

def savedOrder (manager : TabManager Layout Runtime) : List Nat :=
  manager.tabOrder.filter (manager.savesTab U)

/-- The look with which a saved tab is to come back. -/
def shown (tab : Tab Layout Runtime) : String × String × Bool × Bool × Option Nat :=
  (tab.url, titleOf tab.url tab.title, tab.isPinned, tab.isMuted, tab.groupId)

/-- The saved tabs are there as they were, and if the active tab was one of them it is active. -/
structure Restores (manager restored : TabManager Layout Runtime) : Prop where
  tabs : restored.iterTabs.map look = (manager.iterTabs.filter (isSaved U)).map shown
  active : ∀ id ∈ manager.activeTabId, id ∈ manager.savedOrder U →
    restored.activeTabId = restored.tabOrder[(manager.savedOrder U).idxOf id]?

/-- No tab before the active one is left out of the session, or no tab after it is in it. -/
def ActiveInPlace (manager : TabManager Layout Runtime) : Prop :=
  ∀ before id after, manager.tabOrder = before ++ id :: after → manager.activeTabId = some id →
    manager.savesTab U id →
      (∀ other ∈ before, manager.savesTab U other) ∨ ∀ other ∈ after, ¬manager.savesTab U other

variable {U}

theorem filter_iterTabs :
    manager.iterTabs.filter (isSaved U) = (manager.savedOrder U).filterMap (manager.tabs[·]?) := by
  rw [iterTabs, savedOrder, filter_filterMap, filterMap_filter]
  refine filterMap_congr fun id _ => ?_
  unfold savesTab
  cases manager.tabs[id]? with
  | none => rfl
  | some tab => cases h : isSaved U tab <;> simp [h]

theorem length_filter_iterTabs (consistent : Consistent manager) :
    (manager.iterTabs.filter (isSaved U)).length = (manager.savedOrder U).length := by
  have hall : ∀ id ∈ manager.savedOrder U, (manager.tabs[id]?).isSome := fun id kept =>
    (consistent.listed id).mp (mem_filter.mp kept).1
  rw [filter_iterTabs]
  generalize manager.savedOrder U = order at hall
  induction order with
  | nil => rfl
  | cons id order ih =>
    obtain ⟨tab, found⟩ := Option.isSome_iff_exists.mp (hall id mem_cons_self)
    rw [filterMap_cons, found, length_cons, length_cons,
      ih fun other kept => hall other (mem_cons_of_mem _ kept)]

theorem leading_sessionSnapshot (consistent : Consistent manager) (order : GroupOrder manager) :
    Leading (·.pinned) (manager.sessionSnapshot U order).tabs := by
  have hiter : manager.iterTabs.Pairwise fun a b => b.isPinned → a.isPinned := by
    rw [iterTabs, pairwise_filterMap]
    refine consistent.pinnedFirst.imp ?_
    intro first second hpinned tab hfirst other hsecond pinned
    rw [isPinned, isPinned, hfirst, hsecond] at hpinned
    exact hpinned pinned
  show ((manager.iterTabs.filter (isSaved U)).map sessionTab).Pairwise _
  rw [pairwise_map]
  exact hiter.sublist filter_sublist

section Restored

variable {receiver : TabManager Layout Runtime}

theorem hasGroup_regrouped (numbered : Numbered manager) (order : GroupOrder manager)
    (known : manager.HasGroup id) :
    (receiver.regrouped (manager.sessionSnapshot U order)).HasGroup id := by
  obtain ⟨group, stored⟩ := Option.isSome_iff_exists.mp known
  obtain ⟨rfl, small⟩ := numbered id group stored
  have listed : group ∈ order.groups :=
    order.perm.mem_iff.mpr (mem_map_of_mem ((IdMap.mem_toList _ _ _).mpr stored))
  refine (hasGroup_restoreGroups _ _ _).mpr (.inl ⟨_, mem_map_of_mem listed, ?_⟩)
  exact UInt64.toNat_ofNat_of_lt small

theorem restoredLook_sessionTab (consistent : Consistent manager) (numbered : Numbered manager)
    (order : GroupOrder manager) {tab : Tab Layout Runtime} (inStrip : tab ∈ manager.iterTabs) :
    (receiver.regrouped (manager.sessionSnapshot U order)).restoredLook (sessionTab tab) =
      shown tab := by
  obtain ⟨id, _, stored⟩ := mem_filterMap.mp inStrip
  have hgroup : ((tab.groupId.map UInt64.ofNat).map UInt64.toNat).filter
      (fun id => (receiver.regrouped (manager.sessionSnapshot U order)).groups.contains id) =
        tab.groupId := by
    cases h : tab.groupId with
    | none => rfl
    | some group =>
      have known := consistent.grouped id tab stored group h
      obtain ⟨found, here⟩ := Option.isSome_iff_exists.mp known
      have back : (UInt64.ofNat group).toNat = group :=
        UInt64.toNat_ofNat_of_lt (numbered group found here).2
      have kept : (receiver.regrouped (manager.sessionSnapshot U order)).groups.contains group :=
        (IdMap.contains_iff _ _).mpr (hasGroup_regrouped numbered order known)
      rw [Option.map_some, Option.map_some, back, Option.filter_some, if_pos kept]
  exact congrArg (fun group =>
    (tab.url, titleOf tab.url tab.title, tab.isPinned, tab.isMuted, group)) hgroup

theorem Consistent.not_mem_before {before after : List Nat} (consistent : Consistent manager)
    (order : manager.tabOrder = before ++ id :: after) : id ∉ before := by
  intro twice
  have once := order ▸ consistent.once
  exact (nodup_append.mp once).2.2 id twice id mem_cons_self rfl

theorem activeIndex_split {before after : List Nat} (consistent : Consistent manager)
    (order : manager.tabOrder = before ++ id :: after) (active : manager.activeTabId = some id) :
    manager.activeIndex = before.length := by
  have notBefore := consistent.not_mem_before order
  rw [activeIndex, active, order]
  show ((before ++ id :: after).findIdx? (· == id)).getD 0 = before.length
  have none : before.findIdx? (· == id) = none := by
    rw [findIdx?_eq_none_iff]
    intro other inBefore
    exact beq_false_of_ne fun same => notBefore (same ▸ inBefore)
  rw [findIdx?_append, none, findIdx?_cons, beq_self_eq_true, if_pos rfl]
  show 0 + before.length = before.length
  exact Nat.zero_add _

theorem savedOrder_split {before after : List Nat}
    (order : manager.tabOrder = before ++ id :: after) (saved : manager.savesTab U id) :
    manager.savedOrder U =
      before.filter (manager.savesTab U) ++ id :: after.filter (manager.savesTab U) := by
  rw [savedOrder, order, filter_append, filter_cons_of_pos saved]

variable [SnapshotFormat]

theorem restoresTabs_snapshot (consistent : Consistent manager) (numbered : Numbered manager)
    (order : GroupOrder manager) (now : Int) (few : manager.tabOrder.length ≤ maxRestoredTabs) :
    (receiver.restoreSession (manager.sessionSnapshot U order) now).1.iterTabs.map look =
      (manager.iterTabs.filter (isSaved U)).map shown := by
  have hlength : (manager.sessionSnapshot U order).tabs.length ≤ maxRestoredTabs := by
    show ((manager.iterTabs.filter (isSaved U)).map sessionTab).length ≤ _
    rw [length_map, length_filter_iterTabs consistent]
    exact (length_filter_le _ _).trans few
  rw [(restoreSession_spec receiver _ now hlength (leading_sessionSnapshot consistent order)).2.1]
  show ((manager.iterTabs.filter (isSaved U)).map sessionTab).map _ = _
  rw [map_map]
  refine map_congr_left fun tab kept => ?_
  exact restoredLook_sessionTab consistent numbered order (mem_filter.mp kept).1

theorem restoresActive_iff (consistent : Consistent manager) (order : GroupOrder manager)
    (now : Int) (few : manager.tabOrder.length ≤ maxRestoredTabs) {before after : List Nat}
    (split : manager.tabOrder = before ++ id :: after)
    (active : manager.activeTabId = some id) (saved : manager.savesTab U id) :
    let restored := (receiver.restoreSession (manager.sessionSnapshot U order) now).1
    restored.activeTabId = restored.tabOrder[(manager.savedOrder U).idxOf id]? ↔
      (∀ other ∈ before, manager.savesTab U other) ∨ ∀ other ∈ after, ¬manager.savesTab U other := by
  have hlength : (manager.sessionSnapshot U order).tabs.length =
      (before.filter (manager.savesTab U)).length +
        ((after.filter (manager.savesTab U)).length + 1) := by
    show ((manager.iterTabs.filter (isSaved U)).map sessionTab).length = _
    rw [length_map, length_filter_iterTabs consistent, savedOrder_split split saved,
      length_append, length_cons]
  have hfew : (manager.sessionSnapshot U order).tabs.length ≤ maxRestoredTabs := by
    rw [hlength, ← length_cons (a := id), ← length_append, ← savedOrder_split split saved]
    exact (length_filter_le _ _).trans few
  obtain ⟨horder, -, hactive⟩ :=
    restoreSession_spec receiver _ now hfew (leading_sessionSnapshot consistent order)
  have some : (manager.sessionSnapshot U order).tabs ≠ [] := by
    refine ne_nil_of_length_pos ?_
    rw [hlength]
    exact Nat.succ_pos _
  have hindex : (manager.sessionSnapshot U order).activeIndex = before.length :=
    activeIndex_split consistent split active
  have notBefore := consistent.not_mem_before split
  have hplace : (manager.savedOrder U).idxOf id = (before.filter (manager.savesTab U)).length := by
    rw [savedOrder_split split saved,
      idxOf_append_of_notMem fun kept => notBefore (mem_filter.mp kept).1,
      idxOf_cons_self, Nat.add_zero]
  have hbefore : (before.filter (manager.savesTab U)).length = before.length ↔
      ∀ other ∈ before, manager.savesTab U other := length_filter_eq_length_iff
  have hafter : (after.filter (manager.savesTab U)).length = 0 ↔
      ∀ other ∈ after, ¬manager.savesTab U other := by
    rw [length_eq_zero_iff, filter_eq_nil_iff]
  intro restored
  have hle := length_filter_le (manager.savesTab U) before
  rw [hactive some, horder, hplace, hindex, hlength, ← hbefore, ← hafter,
    List.getElem?_range' (by omega), Option.some_inj]
  omega

end Restored

end Saved

end TabManager

open TabManager

/-- A session of at most a hundred tabs comes back as it was, with the tab that was active,
exactly when the place of that tab is not moved by the tabs that are left out. -/
theorem session_restored_iff {U Layout Runtime : Type} [UrlLibrary U] [SnapshotFormat]
    (manager receiver : TabManager Layout Runtime) (order : GroupOrder manager) (now : Int)
    (consistent : manager.Consistent) (numbered : manager.Numbered)
    (few : manager.tabOrder.length ≤ maxRestoredTabs) :
    manager.Restores U (receiver.restoreSession (manager.sessionSnapshot U order) now).1 ↔
      manager.ActiveInPlace U := by
  constructor
  · intro restores before id after split active saved
    have kept : id ∈ manager.savedOrder U := by
      rw [savedOrder_split split saved]
      exact mem_append_right _ mem_cons_self
    exact (restoresActive_iff consistent order now few split active saved).mp
      (restores.active id active kept)
  · intro inPlace
    refine ⟨restoresTabs_snapshot consistent numbered order now few, fun id active kept => ?_⟩
    obtain ⟨inOrder, saved⟩ := mem_filter.mp kept
    obtain ⟨before, after, split⟩ := append_of_mem inOrder
    exact (restoresActive_iff consistent order now few split active saved).mpr
      (inPlace before id after split active saved)

/-! ## A private tab before the active one -/

/-- A private tab and two pages; the first page is active. -/
def privateFirst : TabManager Unit Unit :=
  let := noSnapshots
  let manager := History.run TabManager.step TabManager.new
    [(.addTab "ghita://incognito" rootDom "", 0), (.addTab "https://a.example/" rootDom "A", 0),
     (.addTab "https://b.example/" rootDom "B", 0), (.setActiveTab 2, 0)]
  manager.updateTab 1 fun tab => { tab with incognito := true }

theorem ordered_privateFirst : privateFirst.Ordered := by
  let := noSnapshots
  have empty : (new : TabManager Unit Unit).Ordered := ordered_new
  have first := empty.addTab (by decide) "ghita://incognito" rootDom "" 0
  have second := first.addTab (by decide) "https://a.example/" rootDom "A" 0
  have third := second.addTab (by decide) "https://b.example/" rootDom "B" 0
  unfold privateFirst
  simp only [History.run, foldl_cons, foldl_nil, TabManager.step]
  exact (third.setActiveTab 2 0).updateTab (fun _ => rfl) fun _ => rfl

theorem numbered_privateFirst : privateFirst.Numbered := by
  intro id group stored
  have noGroups : privateFirst.groups = ∅ := rfl
  rw [noGroups] at stored
  simp at stored

/-- The private tab stays behind, and the second page is active in place of the first. -/
theorem private_tab_moves :
    let := noSnapshots
    ¬privateFirst.Restores PlainUrl (privateFirst.restoreSession
      (privateFirst.sessionSnapshot PlainUrl (.sorted privateFirst)) 1).1 := by
  intro format restores
  have active := restores.active 2 (by decide) (by decide)
  exact absurd active (by decide)

/-- Without the private tab both pages come back, and the first one is active. -/
theorem session_restored_pages :
    let := noSnapshots
    let manager := (privateFirst.removeTab 1).1
    manager.Restores PlainUrl (TabManager.new.restoreSession
      (manager.sessionSnapshot PlainUrl (.sorted manager)) 1).1 := by
  intro format manager
  have ordered : manager.Ordered := ordered_privateFirst.removeTab 1
  refine (session_restored_iff manager TabManager.new (.sorted manager) 1 ordered.consistent
    numbered_privateFirst (by decide)).mpr ?_
  intro before id after split active saved
  refine .inl fun other inBefore => ?_
  have order : manager.tabOrder = [2, 3] := by decide
  have all : manager.tabOrder.all (manager.savesTab PlainUrl) := by decide
  refine all_eq_true.mp all other ?_
  rw [split]
  exact mem_append_left _ inBefore

end GhitaBrowser.Tabs
