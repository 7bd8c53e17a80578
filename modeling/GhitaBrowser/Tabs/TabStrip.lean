import GhitaBrowser.Lib.Partition
import GhitaBrowser.Tabs.TabManager

/-!
# What the tab strip keeps

The order lists each tab once, the active tab is one of them, the pinned tabs come first
and a tab is only in a group that exists. Every operation keeps that (`Consistent`).

Fresh identifiers come from the two counters. The one for groups stops at the largest
number, and a saved session can put a group there: then each new group replaces it
(`group_replaced`).
-/

namespace GhitaBrowser.Tabs

open List

open Html (Element)

namespace TabManager

variable {Layout Runtime : Type} {manager : TabManager Layout Runtime}

def HasTab (manager : TabManager Layout Runtime) (id : Nat) : Prop := (manager.tabs[id]?).isSome

def HasGroup (manager : TabManager Layout Runtime) (id : Nat) : Prop := (manager.groups[id]?).isSome

instance (id : Nat) : Decidable (manager.HasGroup id) := inferInstanceAs (Decidable (_ = true))

/-- The facts about the tabs, their order, the active tab and the groups. -/
structure Consistent (manager : TabManager Layout Runtime) : Prop where
  once : manager.tabOrder.Nodup
  listed : ∀ id, id ∈ manager.tabOrder ↔ manager.HasTab id
  activeExists : ∀ id ∈ manager.activeTabId, manager.HasTab id
  someActive : (∃ id, manager.HasTab id) → manager.activeTabId.isSome
  pinnedFirst : Leading manager.isPinned manager.tabOrder
  grouped : ∀ (id : Nat) (tab : Tab Layout Runtime), manager.tabs[id]? = some tab →
    ∀ group ∈ tab.groupId, manager.HasGroup group

/-- Each identifier that the operation gives out belongs to no tab or group at that time. -/
def GivesFreshIds [SnapshotFormat] (manager : TabManager Layout Runtime) (now : Int) :
    Operation → Prop
  | .addTab .. => ¬manager.HasTab manager.nextId
  | .createGroup name color =>
    ∀ id, (manager.createGroup name color).2 = .ok id → ¬manager.HasGroup id
  | .restoreSession session =>
    let grouped := session.groups.foldl restoreGroup manager.closeAllTabs
    (∀ before group after, session.groups = before ++ group :: after →
      ¬(before.foldl restoreGroup manager.closeAllTabs).HasGroup group.id.toNat) ∧
    ∀ before saved after, session.tabs.take maxRestoredTabs = before ++ saved :: after →
      ¬(before.foldl (restoreTab now) grouped).HasTab (before.foldl (restoreTab now) grouped).nextId
  | _ => True

/-- The counter of the tabs does not wrap around, no group is created while one has the number
at which the counter of the groups has stopped, and the groups of a session are distinct. -/
def Allowed (manager : TabManager Layout Runtime) : Operation → Prop
  | .addTab .. => manager.nextId + 1 < 2 ^ 64
  | .createGroup name color =>
    groupProblem (trim name) color = none → manager.nextGroupId = maxU64 →
      ¬manager.HasGroup maxU64
  | .restoreSession session => (session.groups.map (·.id)).Nodup
  | _ => True

/-! ## The counters -/

/-- What holds of a manager also while a session is being restored. -/
structure Sound (manager : TabManager Layout Runtime) : Prop where
  once : manager.tabOrder.Nodup
  listed : ∀ id, id ∈ manager.tabOrder ↔ manager.HasTab id
  activeListed : ∀ id ∈ manager.activeTabId, id ∈ manager.tabOrder
  someActive : manager.tabOrder ≠ [] → manager.activeTabId.isSome
  grouped : ∀ (id : Nat) (tab : Tab Layout Runtime), manager.tabs[id]? = some tab →
    ∀ group ∈ tab.groupId, manager.HasGroup group
  tabsBelow : ∀ id, manager.HasTab id → id < manager.nextId
  counter : manager.nextGroupId ≤ maxU64
  groupsBelow : ∀ id, manager.HasGroup id →
    id < manager.nextGroupId ∨ id = maxU64 ∧ manager.nextGroupId = maxU64

structure Ordered (manager : TabManager Layout Runtime) : Prop extends Sound manager where
  pinnedFirst : Leading manager.isPinned manager.tabOrder

theorem Ordered.consistent (ordered : Ordered manager) : Consistent manager where
  once := ordered.once
  listed := ordered.listed
  activeExists id active := (ordered.listed id).mp (ordered.activeListed id active)
  someActive := by
    rintro ⟨id, exists'⟩
    exact ordered.someActive (ne_nil_of_mem ((ordered.listed id).mpr exists'))
  pinnedFirst := ordered.pinnedFirst
  grouped := ordered.grouped

theorem ordered_closeAllTabs (manager : TabManager Layout Runtime) : Ordered manager.closeAllTabs where
  once := nodup_nil
  listed id := by simp [closeAllTabs, HasTab]
  activeListed id active := by cases active
  someActive notEmpty := absurd rfl notEmpty
  grouped id tab stored := by simp [closeAllTabs] at stored
  tabsBelow id stored := by simp [closeAllTabs, HasTab] at stored
  counter := show 1 ≤ maxU64 by decide
  groupsBelow id stored := by simp [closeAllTabs, HasGroup] at stored
  pinnedFirst := Leading.nil

theorem ordered_new : Ordered (new : TabManager Layout Runtime) := ordered_closeAllTabs new

/-! ## One tab -/

theorem hasTab_updateTab (id other : Nat) (f : Tab Layout Runtime → Tab Layout Runtime) :
    (manager.updateTab id f).HasTab other ↔ manager.HasTab other := by
  unfold HasTab updateTab
  rw [IdMap.getElem?_modify]
  split
  · next same => rw [Option.isSome_map, same]
  · rfl

variable {id : Nat} {f : Tab Layout Runtime → Tab Layout Runtime}

theorem isPinned_updateTab (same : ∀ tab, (f tab).isPinned = tab.isPinned) :
    (manager.updateTab id f).isPinned = manager.isPinned := by
  funext other
  unfold isPinned updateTab
  rw [IdMap.getElem?_modify]
  split
  · next eq =>
    rw [eq]
    cases manager.tabs[id]? with
    | none => rfl
    | some tab => exact same tab
  · rfl

theorem Sound.updateTab (sound : Sound manager)
    (grouped : ∀ tab, manager.tabs[id]? = some tab → ∀ group ∈ (f tab).groupId,
      manager.HasGroup group) : Sound (manager.updateTab id f) where
  once := sound.once
  listed other := (sound.listed other).trans (hasTab_updateTab id other f).symm
  activeListed := sound.activeListed
  someActive := sound.someActive
  grouped other tab stored := by
    unfold TabManager.updateTab at stored
    rw [IdMap.getElem?_modify] at stored
    split at stored
    · obtain ⟨before, found, rfl⟩ := Option.map_eq_some_iff.mp stored
      exact grouped before found
    · exact sound.grouped other tab stored
  tabsBelow other stored := sound.tabsBelow other ((hasTab_updateTab id other f).mp stored)
  counter := sound.counter
  groupsBelow := sound.groupsBelow

theorem Ordered.updateTab (ordered : Ordered manager) (pins : ∀ tab, (f tab).isPinned = tab.isPinned)
    (groups : ∀ tab, (f tab).groupId = tab.groupId) : Ordered (manager.updateTab id f) where
  toSound := ordered.toSound.updateTab fun tab found group inGroup =>
    ordered.grouped id tab found group (groups tab ▸ inGroup)
  pinnedFirst := by
    rw [isPinned_updateTab pins]
    exact ordered.pinnedFirst

theorem Sound.withActive (sound : Sound manager) (inOrder : id ∈ manager.tabOrder) :
    Sound { manager with activeTabId := some id } where
  once := sound.once
  listed := sound.listed
  activeListed other active := by
    cases active
    exact inOrder
  someActive _ := rfl
  grouped := sound.grouped
  tabsBelow := sound.tabsBelow
  counter := sound.counter
  groupsBelow := sound.groupsBelow

theorem Sound.activate (sound : Sound manager) (inOrder : id ∈ manager.tabOrder)
    (now : Int) : Sound (manager.activate id now) :=
  (sound.withActive inOrder).updateTab fun tab found => sound.grouped id tab found

theorem isPinned_activate (id : Nat) (now : Int) :
    (manager.activate id now).isPinned = manager.isPinned := by
  have same : ∀ tab : Tab Layout Runtime, (tab.markActive now).isPinned = tab.isPinned :=
    fun _ => rfl
  unfold activate
  rw [isPinned_updateTab same]
  rfl

theorem Ordered.activate (ordered : Ordered manager) (inOrder : id ∈ manager.tabOrder)
    (now : Int) : Ordered (manager.activate id now) where
  toSound := ordered.toSound.activate inOrder now
  pinnedFirst := by
    rw [isPinned_activate]
    exact ordered.pinnedFirst

theorem Ordered.setActiveTab (ordered : Ordered manager) (id : Nat) (now : Int) :
    Ordered (manager.setActiveTab id now) := by
  unfold TabManager.setActiveTab
  split
  · next stored =>
    exact ordered.activate ((ordered.listed id).mpr ((IdMap.contains_iff _ _).mp stored)) now
  · exact ordered

theorem Ordered.setActiveByIndex (ordered : Ordered manager) (index : Nat) (now : Int) :
    Ordered (manager.setActiveByIndex index now) := by
  unfold TabManager.setActiveByIndex
  split
  · next id found => exact ordered.activate (mem_of_getElem? found) now
  · exact ordered

/-! ## A new tab -/

section AddTab

variable [SnapshotFormat]

/-- The manager with one more tab, before it is made the active one. -/
def withTab (manager : TabManager Layout Runtime) (url : String) (dom : Element) (title : String)
    (now : Int) : TabManager Layout Runtime :=
  { manager with
    nextId := (manager.nextId + 1) % 2 ^ 64
    tabs := manager.tabs.insert manager.nextId (.new manager.nextId url dom title now)
    tabOrder := manager.tabOrder ++ [manager.nextId] }

theorem hasTab_withTab (url : String) (dom : Element) (title : String) (now : Int) (id : Nat) :
    (manager.withTab url dom title now).HasTab id ↔ id = manager.nextId ∨ manager.HasTab id := by
  unfold HasTab withTab
  rw [IdMap.getElem?_insert]
  split
  · next same => simp [same]
  · next other => simp [other]

theorem addTab_fst (url : String) (dom : Element) (title : String) (now : Int) :
    (manager.addTab url dom title now).1 =
      (manager.withTab url dom title now).activate manager.nextId now := by
  have stored : (manager.withTab url dom title now).HasTab manager.nextId :=
    (hasTab_withTab ..).mpr (.inl rfl)
  exact if_pos ((IdMap.contains_iff _ _).mpr stored)

omit [SnapshotFormat] in
theorem Sound.fresh (sound : Sound manager) : ¬manager.HasTab manager.nextId := fun stored =>
  Nat.lt_irrefl _ (sound.tabsBelow _ stored)

theorem Sound.addTab (sound : Sound manager) (room : manager.nextId + 1 < 2 ^ 64) (url : String)
    (dom : Element) (title : String) (now : Int) :
    Sound (manager.addTab url dom title now).1 := by
  have counted : (manager.nextId + 1) % 2 ^ 64 = manager.nextId + 1 := Nat.mod_eq_of_lt room
  have notListed : manager.nextId ∉ manager.tabOrder := fun inOrder =>
    sound.fresh ((sound.listed _).mp inOrder)
  -- a tab of the order, or the new one in front of a list that need not have an active tab
  have listed : ∀ id, id ∈ manager.tabOrder ++ [manager.nextId] ↔
      (manager.withTab url dom title now).HasTab id := by
    intro id
    rw [hasTab_withTab, ← sound.listed, mem_append, mem_singleton, or_comm]
  have base : Sound { manager.withTab url dom title now with
      activeTabId := some manager.nextId } := by
    refine { once := ?_, listed, activeListed := ?_, someActive := fun _ => rfl, grouped := ?_,
             tabsBelow := ?_, counter := sound.counter, groupsBelow := sound.groupsBelow }
    · refine nodup_append.mpr ⟨sound.once, nodup_singleton _, ?_⟩
      rintro a inOrder b isNew rfl
      rw [mem_singleton.mp isNew] at inOrder
      exact notListed inOrder
    · intro id active
      cases active
      exact mem_append_right _ (mem_singleton_self _)
    · intro id tab stored group inGroup
      unfold withTab at stored
      dsimp only at stored
      rw [IdMap.getElem?_insert] at stored
      split at stored
      · cases stored
        cases inGroup
      · exact sound.grouped id tab stored group inGroup
    · intro id stored
      show id < (manager.nextId + 1) % 2 ^ 64
      rw [counted]
      rcases (hasTab_withTab url dom title now id).mp stored with rfl | old
      · exact Nat.lt_succ_self _
      · exact Nat.lt_succ_of_lt (sound.tabsBelow id old)
  rw [addTab_fst]
  exact base.updateTab fun tab stored => base.grouped manager.nextId tab stored

theorem isPinned_withTab (sound : Sound manager) (url : String) (dom : Element) (title : String)
    (now : Int) : (manager.withTab url dom title now).isPinned = manager.isPinned := by
  funext id
  unfold isPinned withTab
  rw [IdMap.getElem?_insert]
  split
  · next same =>
    rw [same, Option.not_isSome_iff_eq_none.mp sound.fresh]
    rfl
  · rfl

theorem Ordered.addTab (ordered : Ordered manager) (room : manager.nextId + 1 < 2 ^ 64)
    (url : String) (dom : Element) (title : String) (now : Int) :
    Ordered (manager.addTab url dom title now).1 where
  toSound := ordered.toSound.addTab room url dom title now
  pinnedFirst := by
    rw [addTab_fst, isPinned_activate, isPinned_withTab ordered.toSound]
    show Leading manager.isPinned (manager.tabOrder ++ [manager.nextId])
    refine pairwise_append.mpr ⟨ordered.pinnedFirst, pairwise_singleton _ _, ?_⟩
    rintro a - b isNew pinned
    rw [mem_singleton.mp isNew] at pinned
    unfold isPinned at pinned
    rw [Option.not_isSome_iff_eq_none.mp ordered.toSound.fresh] at pinned
    cases pinned

end AddTab

/-! ## Tabs that go or move -/

theorem hasTab_erase (id other : Nat) :
    ((manager.tabs.erase id)[other]?).isSome ↔ other ≠ id ∧ manager.HasTab other := by
  unfold HasTab
  rw [IdMap.getElem?_erase]
  split
  · next same => simp [same]
  · next differs => simp [differs]

theorem mem_filter_ne {order : List Nat} {other : Nat} :
    other ∈ order.filter (· ≠ id) ↔ other ≠ id ∧ other ∈ order := by
  rw [mem_filter, decide_eq_true_iff, and_comm]

theorem activeAfter_mem (sound : Sound manager) {other : Nat}
    (active : other ∈ manager.activeAfter id (manager.tabOrder.filter (· ≠ id))) :
    other ∈ manager.tabOrder.filter (· ≠ id) := by
  unfold activeAfter at active
  split at active
  · exact mem_of_getElem? active
  · next stays =>
    refine mem_filter_ne.mpr ⟨?_, sound.activeListed other active⟩
    rintro rfl
    exact stays active

theorem activeAfter_isSome (sound : Sound manager) (left : manager.tabOrder.filter (· ≠ id) ≠ []) :
    (manager.activeAfter id (manager.tabOrder.filter (· ≠ id))).isSome := by
  unfold activeAfter
  split
  · rw [List.getElem?_eq_getElem]
    · rfl
    · refine lt_of_le_of_lt (Nat.min_le_right _ _) (Nat.sub_one_lt ?_)
      exact fun empty => left (eq_nil_of_length_eq_zero empty)
  · refine sound.someActive ?_
    rintro empty
    exact left (by rw [empty, filter_nil])

theorem Ordered.removeTab (ordered : Ordered manager) (id : Nat) :
    Ordered (manager.removeTab id).1 where
  once := ordered.once.filter _
  listed other := by
    show other ∈ manager.tabOrder.filter (· ≠ id) ↔ ((manager.tabs.erase id)[other]?).isSome
    rw [hasTab_erase, mem_filter_ne, ordered.listed]
  activeListed other active := activeAfter_mem ordered.toSound active
  someActive left := activeAfter_isSome ordered.toSound left
  grouped other tab stored := by
    have found : (manager.tabs.erase id)[other]? = some tab := stored
    rw [IdMap.getElem?_erase] at found
    split at found
    · cases found
    · exact ordered.grouped other tab found
  tabsBelow other stored := ordered.tabsBelow other (hasTab_erase id other |>.mp stored).2
  counter := ordered.counter
  groupsBelow := ordered.groupsBelow
  pinnedFirst := by
    refine (ordered.pinnedFirst.sublist filter_sublist).congr ?_
    intro other kept
    show manager.isPinned other = ((manager.tabs.erase id)[other]?).any (·.isPinned)
    rw [IdMap.getElem?_erase, if_neg (mem_filter_ne.mp kept).1]
    rfl

theorem Sound.withOrder (sound : Sound manager) {order : List Nat}
    (perm : order.Perm manager.tabOrder) : Sound { manager with tabOrder := order } where
  once := perm.nodup_iff.mpr sound.once
  listed id := perm.mem_iff.trans (sound.listed id)
  activeListed id active := perm.mem_iff.mpr (sound.activeListed id active)
  someActive notEmpty := sound.someActive fun empty => notEmpty (empty ▸ perm).eq_nil
  grouped := sound.grouped
  tabsBelow := sound.tabsBelow
  counter := sound.counter
  groupsBelow := sound.groupsBelow

theorem move_perm {order : List Nat} {i j : Nat} (hi : i < order.length)
    (hj : j ≤ (order.eraseIdx i).length) : ((order.eraseIdx i).insertIdx j order[i]).Perm order :=
  (perm_insertIdx _ _ hj).trans (getElem_cons_eraseIdx_perm hi)

theorem Ordered.pinTabByIndex (ordered : Ordered manager) (index : Nat) (pinned : Bool) :
    Ordered (manager.pinTabByIndex index pinned).1 := by
  unfold TabManager.pinTabByIndex
  split
  · exact ordered
  · next id found =>
    split
    · exact ordered
    · next tab stored =>
      split
      · exact ordered
      · obtain ⟨inRange, rfl⟩ := List.getElem?_eq_some_iff.mp found
        set pins : Tab Layout Runtime → Tab Layout Runtime :=
          fun tab => { tab with isPinned := pinned } with pinsEq
        set order := manager.tabOrder.eraseIdx index with orderEq
        have changed : Sound (manager.updateTab manager.tabOrder[index] pins) :=
          ordered.toSound.updateTab fun tab found => ordered.grouped _ tab found
        refine ⟨changed.withOrder (move_perm inRange countP_le_length), ?_⟩
        -- the pins of the other tabs are as before
        have rest : Leading (manager.updateTab manager.tabOrder[index] pins).isPinned order := by
          refine (ordered.pinnedFirst.sublist (eraseIdx_sublist _ _)).congr ?_
          intro other inOrder
          have differs : other ≠ manager.tabOrder[index] := by
            rintro rfl
            have once := (getElem_cons_eraseIdx_perm inRange).nodup_iff.mpr ordered.once
            exact (nodup_cons.mp once).1 inOrder
          unfold isPinned TabManager.updateTab
          rw [IdMap.getElem?_modify, if_neg differs]
        exact rest.insertIdx (fun _ => Nat.le_refl _) fun _ => Nat.le_refl _

theorem Ordered.reorderTab (ordered : Ordered manager) (fromIndex toIndex : Nat) :
    Ordered (manager.reorderTab fromIndex toIndex).1 := by
  unfold TabManager.reorderTab
  split
  · next moving target foundMoving foundTarget =>
    split
    · exact ordered
    · next samePin =>
      obtain ⟨inRange, rfl⟩ := List.getElem?_eq_some_iff.mp foundMoving
      obtain ⟨toRange, rfl⟩ := List.getElem?_eq_some_iff.mp foundTarget
      have room : toIndex ≤ (manager.tabOrder.eraseIdx fromIndex).length := by
        rw [length_eraseIdx_of_lt inRange]
        exact Nat.le_sub_one_of_lt toRange
      refine ⟨ordered.toSound.withOrder (move_perm inRange room), ?_⟩
      exact ordered.pinnedFirst.move inRange toRange (not_not.mp samePin)
  · exact ordered

/-! ## Groups -/

theorem Ordered.withGroup (ordered : Ordered manager) {next : Nat} (group : TabGroup)
    (le : manager.nextGroupId ≤ next) (counter : next ≤ maxU64)
    (behind : id < next ∨ id = maxU64 ∧ next = maxU64) :
    Ordered { manager with nextGroupId := next, groups := manager.groups.insert id group } where
  once := ordered.once
  listed := ordered.listed
  activeListed := ordered.activeListed
  someActive := ordered.someActive
  grouped other tab stored inGroup member := by
    have old := ordered.grouped other tab stored inGroup member
    show ((manager.groups.insert id group)[inGroup]?).isSome
    rw [IdMap.getElem?_insert]
    split
    · rfl
    · exact old
  tabsBelow := ordered.tabsBelow
  counter := counter
  groupsBelow other stored := by
    have found : ((manager.groups.insert id group)[other]?).isSome := stored
    rw [IdMap.getElem?_insert] at found
    split at found
    · next same => exact same ▸ behind
    · rcases ordered.groupsBelow other found with below | ⟨last, stopped⟩
      · exact .inl (Nat.lt_of_lt_of_le below le)
      · exact .inr ⟨last, Nat.le_antisymm counter (stopped ▸ le)⟩
  pinnedFirst := ordered.pinnedFirst

/-- The counter after `id`, also where it saturates. -/
theorem saturating_behind (inRange : id ≤ maxU64) {next : Nat}
    (le : min (id + 1) maxU64 ≤ next) (counter : next ≤ maxU64) :
    id < next ∨ id = maxU64 ∧ next = maxU64 := by
  rcases Nat.lt_or_ge id maxU64 with small | large
  · rw [Nat.min_eq_left small] at le
    exact .inl le
  · rw [Nat.min_eq_right (Nat.le_succ_of_le large)] at le
    exact .inr ⟨Nat.le_antisymm inRange large, Nat.le_antisymm counter le⟩

theorem Ordered.createGroup (ordered : Ordered manager) (name color : String) :
    Ordered (manager.createGroup name color).1 := by
  unfold TabManager.createGroup
  dsimp only
  split
  · exact ordered
  · have counter : min (manager.nextGroupId + 1) maxU64 ≤ maxU64 := Nat.min_le_right _ _
    have le : manager.nextGroupId ≤ min (manager.nextGroupId + 1) maxU64 :=
      le_min (Nat.le_succ _) ordered.counter
    exact ordered.withGroup _ le counter
      (saturating_behind ordered.counter (Nat.le_refl _) counter)

theorem Ordered.assignTabToGroupByIndex (ordered : Ordered manager) (index : Nat)
    (groupId : Option Nat) : Ordered (manager.assignTabToGroupByIndex index groupId).1 := by
  unfold TabManager.assignTabToGroupByIndex
  split
  · exact ordered
  · next known =>
    split
    · exact ordered
    · next id found =>
      have pins : (manager.updateTab id fun tab => { tab with groupId }).isPinned =
          manager.isPinned := isPinned_updateTab fun _ => rfl
      split
      · refine ⟨ordered.toSound.updateTab fun tab found group inGroup => ?_, ?_⟩
        · have groupIs : groupId = some group := inGroup
          rw [groupIs] at known
          simpa [HasGroup, IdMap.contains_iff] using known
        · exact pins.symm ▸ ordered.pinnedFirst
      · exact ordered

theorem Ordered.restoreGroup (ordered : Ordered manager) (group : SessionTabGroup) :
    Ordered (manager.restoreGroup group) := by
  have counter : max manager.nextGroupId (min (group.id.toNat + 1) maxU64) ≤ maxU64 :=
    max_le ordered.counter (Nat.min_le_right _ _)
  have inRange : group.id.toNat ≤ maxU64 := Nat.le_sub_one_of_lt group.id.toNat_lt
  exact ordered.withGroup _ (Nat.le_max_left _ _) counter
    (saturating_behind inRange (Nat.le_max_right _ _) counter)

/-! ## Restoring a session -/

variable (groups : List SessionTabGroup)

theorem ordered_restoreGroups (ordered : Ordered manager) :
    Ordered (groups.foldl restoreGroup manager) := by
  induction groups generalizing manager with
  | nil => exact ordered
  | cons group groups ih => exact ih (ordered.restoreGroup group)

theorem nextId_restoreGroups (manager : TabManager Layout Runtime) :
    (groups.foldl restoreGroup manager).nextId = manager.nextId := by
  induction groups generalizing manager with
  | nil => rfl
  | cons group groups ih => exact ih (manager.restoreGroup group)

theorem hasGroup_restoreGroups (manager : TabManager Layout Runtime) (id : Nat) :
    (groups.foldl restoreGroup manager).HasGroup id ↔
      (∃ group ∈ groups, group.id.toNat = id) ∨ manager.HasGroup id := by
  induction groups generalizing manager with
  | nil => simp
  | cons group groups ih =>
    have one : (manager.restoreGroup group).HasGroup id ↔
        group.id.toNat = id ∨ manager.HasGroup id := by
      unfold HasGroup restoreGroup
      dsimp only
      rw [IdMap.getElem?_insert]
      split
      · next same => simp [same]
      · next differs => simp [Ne.symm differs]
    rw [foldl_cons, ih, one, exists_mem_cons_iff, or_assoc, or_left_comm]

section Restore

variable [SnapshotFormat]

theorem Sound.restoreTab (sound : Sound manager) (room : manager.nextId + 1 < 2 ^ 64) (now : Int)
    (saved : SessionTab) :
    Sound (manager.restoreTab now saved) ∧
      (manager.restoreTab now saved).nextId = manager.nextId + 1 := by
  refine ⟨(sound.addTab room _ _ _ now).updateTab ?_, ?_⟩
  · intro tab _ group inGroup
    exact (IdMap.contains_iff _ _).mp (Option.filter_eq_some_iff.mp inGroup).2
  · show (manager.addTab _ _ _ now).1.nextId = manager.nextId + 1
    rw [addTab_fst]
    exact Nat.mod_eq_of_lt room

theorem sound_restoreTabs (now : Int) (tabs : List SessionTab) (sound : Sound manager)
    (room : manager.nextId + tabs.length < 2 ^ 64) :
    Sound (tabs.foldl (restoreTab now) manager) := by
  induction tabs generalizing manager with
  | nil => exact sound
  | cons saved tabs ih =>
    rw [length_cons] at room
    have first : manager.nextId + 1 < 2 ^ 64 :=
      Nat.lt_of_le_of_lt (Nat.add_le_add_left (Nat.succ_le_succ (Nat.zero_le _)) _) room
    obtain ⟨next, counted⟩ := sound.restoreTab first now saved
    refine ih next ?_
    rw [counted, Nat.add_right_comm]
    exact room

omit [SnapshotFormat] in
theorem pinnedFirst_sortPinned (manager : TabManager Layout Runtime) :
    Leading manager.sortPinned.isPinned manager.sortPinned.tabOrder := by
  have sorted := pairwise_insertionSort
    (fun a b => (!manager.isPinned a) ≤ (!manager.isPinned b)) manager.tabOrder
  refine sorted.imp ?_
  intro a b le pinned
  have isPinned : manager.isPinned b = true := pinned
  show manager.isPinned a = true
  rw [isPinned] at le
  cases first : manager.isPinned a with
  | true => rfl
  | false =>
    rw [first] at le
    exact absurd le (by decide)

omit [SnapshotFormat] in
theorem room_restoreSession {tabs : List SessionTab}
    (few : tabs.length ≤ maxRestoredTabs) (manager : TabManager Layout Runtime) :
    (groups.foldl restoreGroup manager.closeAllTabs).nextId + tabs.length < 2 ^ 64 := by
  rw [nextId_restoreGroups]
  have room : 1 + maxRestoredTabs < 2 ^ 64 := by decide
  exact Nat.lt_of_le_of_lt (Nat.add_le_add_left few 1) room

theorem ordered_restoreSession (manager : TabManager Layout Runtime) (session : BrowserSession)
    (now : Int) : Ordered (manager.restoreSession session now).1 := by
  have grouped := ordered_restoreGroups session.groups (ordered_closeAllTabs manager)
  have restored := sound_restoreTabs now (session.tabs.take maxRestoredTabs) grouped.toSound
    (room_restoreSession session.groups (length_take_le _ _) manager)
  exact Ordered.setActiveByIndex
    ⟨restored.withOrder (perm_insertionSort _ _), pinnedFirst_sortPinned _⟩ _ now

/-! ## Runs -/

theorem Ordered.step (ordered : Ordered manager) {operation : Operation × Int}
    (allowed : Allowed manager operation.1) : Ordered (manager.step operation) := by
  obtain ⟨operation, now⟩ := operation
  cases operation with
  | addTab url dom title => exact ordered.addTab allowed url dom title now
  | removeTab id => exact ordered.removeTab id
  | setActiveTab id => exact ordered.setActiveTab id now
  | setActiveByIndex index => exact ordered.setActiveByIndex index now
  | activateNext => exact ordered.setActiveByIndex _ now
  | activatePrev => exact ordered.setActiveByIndex _ now
  | pinTabByIndex index pinned => exact ordered.pinTabByIndex index pinned
  | reorderTab fromIndex toIndex => exact ordered.reorderTab fromIndex toIndex
  | createGroup name color => exact ordered.createGroup name color
  | assignTabToGroupByIndex index groupId => exact ordered.assignTabToGroupByIndex index groupId
  | closeAllTabs => exact ordered_closeAllTabs manager
  | restoreSession session => exact ordered_restoreSession manager session now

omit [SnapshotFormat] in
theorem Sound.createGroup_fresh (sound : Sound manager) {name color : String}
    (allowed : Allowed manager (.createGroup name color))
    (created : (manager.createGroup name color).2 = .ok id) : ¬manager.HasGroup id := by
  unfold TabManager.createGroup at created
  dsimp only at created
  split at created
  · cases created
  · next fine =>
    cases created
    intro live
    rcases sound.groupsBelow _ live with below | ⟨last, stopped⟩
    · exact Nat.lt_irrefl _ below
    · exact allowed fine stopped (last ▸ live)

theorem Ordered.givesFreshIds (ordered : Ordered manager) {operation : Operation} (now : Int)
    (allowed : Allowed manager operation) : GivesFreshIds manager now operation := by
  cases operation with
  | addTab url dom title => exact ordered.toSound.fresh
  | createGroup name color => exact fun id created => ordered.toSound.createGroup_fresh allowed created
  | restoreSession session =>
    constructor
    · intro before group after split live
      have distinct : (session.groups.map (·.id)).Nodup := allowed
      rw [split, map_append, map_cons] at distinct
      rcases (hasGroup_restoreGroups before _ _).mp live with ⟨other, inBefore, same⟩ | old
      · -- the same identifier twice in the session
        have sameId : other.id = group.id := UInt64.toNat_inj.mp same
        exact (nodup_append.mp distinct).2.2 _ (mem_map_of_mem inBefore) _
          (mem_cons_self ..) sameId
      · simp [HasGroup, closeAllTabs] at old
    · intro before saved after split
      have few : before.length ≤ maxRestoredTabs := by
        have total := congrArg List.length split
        rw [length_append] at total
        exact (Nat.le_add_right _ _).trans (total ▸ length_take_le _ _)
      have grouped := ordered_restoreGroups session.groups (ordered_closeAllTabs manager)
      exact (sound_restoreTabs now before grouped.toSound
        (room_restoreSession session.groups few manager)).fresh
  | _ => trivial

end Restore

end TabManager

/-- A run that wraps no counter around and creates no group at its end keeps the facts about the
tabs, and gives every new tab and group an identifier of its own. -/
theorem tabs_consistent {Layout Runtime : Type} [SnapshotFormat]
    (operations : List (Operation × Int))
    (allowed : ∀ moment ∈ History.history TabManager.step
      (TabManager.new : TabManager Layout Runtime) operations,
      moment.1.Allowed moment.2.1) :
    (History.run TabManager.step (TabManager.new : TabManager Layout Runtime)
        operations).Consistent ∧
      ∀ moment ∈ History.history TabManager.step
        (TabManager.new : TabManager Layout Runtime) operations,
        moment.1.GivesFreshIds moment.2.2 moment.2.1 := by
  have keeps : ∀ moment ∈ History.history TabManager.step
      (TabManager.new : TabManager Layout Runtime) operations,
      moment.1.Ordered → (moment.1.step moment.2).Ordered :=
    fun moment visited ordered => ordered.step (allowed moment visited)
  refine ⟨(History.run_keeps _ TabManager.ordered_new keeps).consistent, ?_⟩
  intro moment visited
  have ordered := History.history_keeps _ TabManager.ordered_new keeps moment visited
  exact ordered.givesFreshIds moment.2.2 (allowed moment visited)

/-! ## A session, and a group at the end of the counter -/

/-- A format that has no form for any document. -/
@[reducible] def noSnapshots : SnapshotFormat where
  toJson _ := none
  gzip _ := none
  gunzip _ := none
  fromUtf8 _ := none
  fromJson _ := none

/-- A pinned tab in a group of its own and a tab without one, which was active. -/
def savedSession : BrowserSession where
  activeIndex := 1
  tabs := [⟨"https://c.example/", "C", true, false, some 7⟩,
    ⟨"https://d.example/", "D", false, true, none⟩]
  groups := [⟨7, "News", "green", true⟩]

/-- Two tabs, one in a group and the other pinned; then a session takes their place, and gets one
more tab and one more group. -/
def savedOperations : List (Operation × Int) :=
  [(.createGroup "Work" "red", 0), (.addTab "https://a.example/" rootDom "A", 1),
   (.addTab "https://b.example/" rootDom "B", 2), (.assignTabToGroupByIndex 0 (some 1), 3),
   (.pinTabByIndex 1 true, 4), (.restoreSession savedSession, 5),
   (.addTab "https://e.example/" rootDom "E", 6), (.createGroup " Play " "blue", 7),
   (.assignTabToGroupByIndex 2 (some 8), 8), (.pinTabByIndex 2 true, 9)]

theorem tabs_consistent_saved :
    let := noSnapshots
    let manager : TabManager Unit Unit := History.run TabManager.step TabManager.new savedOperations
    (manager.Consistent ∧ ∀ moment ∈ History.history TabManager.step
      (TabManager.new : TabManager Unit Unit) savedOperations,
        moment.1.GivesFreshIds moment.2.2 moment.2.1) ∧
    manager.tabOrder = [1, 3, 2] ∧ manager.tabOrder.map manager.isPinned = [true, true, false] ∧
      manager.tabOrder.map (manager.tabs[·]?.bind (·.groupId)) = [some 7, some 8, none] := by
  intro format manager
  refine ⟨tabs_consistent savedOperations ?_, by decide +kernel, by decide +kernel,
    by decide +kernel⟩
  unfold savedOperations
  simp only [History.history, forall_mem_cons]
  refine ⟨?_, ?_, ?_, ?_, ?_, ?_, ?_, ?_, ?_, ?_, forall_mem_nil _⟩
  · intro _ full
    exact absurd full (by decide +kernel)
  · show _ + 1 < 2 ^ 64
    decide +kernel
  · show _ + 1 < 2 ^ 64
    decide +kernel
  · trivial
  · trivial
  · show Nodup _
    decide +kernel
  · show _ + 1 < 2 ^ 64
    decide +kernel
  · intro _ full
    exact absurd full (by decide +kernel)
  · trivial
  · trivial

/-- A session whose group has the largest identifier. -/
def lastGroupSession : BrowserSession where
  activeIndex := 0
  tabs := []
  groups := [⟨18446744073709551615, "Work", "red", false⟩]

/-- The new group gets the identifier of the restored one, and takes its place. -/
theorem group_replaced :
    let := noSnapshots
    let manager : TabManager Unit Unit := TabManager.new.step (.restoreSession lastGroupSession, 0)
    (manager.groups[maxU64]?).map (·.name) = some "Work" ∧
      ¬manager.GivesFreshIds 1 (.createGroup "Play" "blue") ∧
      ((manager.step (.createGroup "Play" "blue", 1)).groups[maxU64]?).map (·.name) =
        some "Play" := by
  refine ⟨by decide, ?_, by decide⟩
  intro fresh
  exact fresh maxU64 (by decide) (by decide)

end GhitaBrowser.Tabs
