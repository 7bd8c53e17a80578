import GhitaBrowser.Storage.Profile
import Mathlib.Data.List.Nodup

/-!
# Bookmark trees that come back (`bookmarks.rs`)

A tree is built without limits and checked against limits when it is read again: when
its own export is imported, and by `from_root` when the profile is loaded. The check
walks the tree in preorder, so it is a loop over the list of its entries, and what it
demands is a property of that list. Every tree that the operations build has the right shape;
`comes_back_iff` shows that it is accepted exactly when it is also `WithinLimits`.
-/

namespace GhitaBrowser.Storage

open Html List

namespace BookmarksManager

/-! ## The remaining operations -/

def createFolder (bookmarks : BookmarksManager) (parentId : Nat) (title : Text) :
    Except Text Nat × BookmarksManager :=
  let id := bookmarks.nextId
  let bookmarks := { bookmarks with nextId := (id + 1) % 2 ^ 64 }
  let folder := { id, title, url := none, isFolder := true, children := [] }
  match insertIntoNode bookmarks.root parentId folder with
  | some root => (.ok id, { bookmarks with root })
  | none => (.error ("Parent folder ID ".toList ++ (toString parentId).toList ++ " not found".toList),
      bookmarks)

mutual

/-- The tree without the item, if the item is there. -/
def removeFromNode : BookmarkItem → Nat → Option BookmarkItem
  | ⟨itemId, title, url, isFolder, children⟩, id =>
    if children.any (·.id == id) then
      some ⟨itemId, title, url, isFolder, children.eraseP (·.id == id)⟩
    else (removeFromChildren children id).map fun children =>
      ⟨itemId, title, url, isFolder, children⟩

def removeFromChildren : List BookmarkItem → Nat → Option (List BookmarkItem)
  | [], _ => none
  | child :: children, id =>
    match if child.isFolder then removeFromNode child id else none with
    | some child => some (child :: children)
    | none => (removeFromChildren children id).map (child :: ·)

end

def remove (bookmarks : BookmarksManager) (id : Nat) : Bool × BookmarksManager :=
  if id == bookmarks.root.id then (false, bookmarks)
  else
    match removeFromNode bookmarks.root id with
    | some root => (true, { bookmarks with root })
    | none => (false, bookmarks)

mutual

/-- The tree without the bookmarks of a URL, and how many they were. -/
def removeUrlFromNode : BookmarkItem → Text → BookmarkItem × Nat
  | ⟨id, title, itemUrl, isFolder, children⟩, url =>
    let (children, removed) := removeUrlFromChildren children url
    (⟨id, title, itemUrl, isFolder, children⟩, removed)

/-- `retain` and the loop over the folders that stay, in one pass. -/
def removeUrlFromChildren : List BookmarkItem → Text → List BookmarkItem × Nat
  | [], _ => ([], 0)
  | child :: children, url =>
    let (rest, removed) := removeUrlFromChildren children url
    if child.isFolder then
      let (child, inside) := removeUrlFromNode child url
      (child :: rest, inside + removed)
    else if child.url == some url then (rest, removed + 1)
    else (child :: rest, removed)

end

def removeUrl (bookmarks : BookmarksManager) (url : Text) : Nat × BookmarksManager :=
  let (root, removed) := removeUrlFromNode bookmarks.root url
  (removed, { bookmarks with root })

end BookmarksManager

/-- `serde_json` on bookmark items. Writing one cannot fail. -/
structure BookmarkFormat where
  toStringPretty : BookmarkItem → Bytes
  fromStr : Bytes → Except Text BookmarkItem

namespace BookmarksManager

def exportJson (format : BookmarkFormat) (bookmarks : BookmarksManager) : Bytes :=
  format.toStringPretty bookmarks.root

def maxImportBytes : Nat := 8 * 1024 * 1024

def importJson (format : BookmarkFormat) (bookmarks : BookmarksManager) (json : Bytes) :
    Except Text Unit × BookmarksManager :=
  if json.length > maxImportBytes then (.error "Bookmark import exceeds 8 MB".toList, bookmarks)
  else
    match format.fromStr json with
    | .error error => (.error ("Bookmark import failed: ".toList ++ error), bookmarks)
    | .ok imported =>
      match fromRoot imported with
      | .ok manager => (.ok (), manager)
      | .error error => (.error error, bookmarks)

/-! ## The entries of a tree -/

mutual

/-- The items of a tree in preorder, each with its depth. -/
def entries : BookmarkItem → Nat → List (Nat × BookmarkItem)
  | ⟨id, title, url, isFolder, children⟩, depth =>
    (depth, ⟨id, title, url, isFolder, children⟩) :: childEntries children (depth + 1)

def childEntries : List BookmarkItem → Nat → List (Nat × BookmarkItem)
  | [], _ => []
  | child :: children, depth => entries child depth ++ childEntries children depth

end

def ids (entries : List (Nat × BookmarkItem)) : List Nat := entries.map (·.2.id)

/-- What `validate_tree` demands of one item besides its place and its id. -/
def Sized (item : BookmarkItem) : Prop :=
  byteLen item.title ≤ 4096 ∧ ∀ url ∈ item.url, byteLen url ≤ 64 * 1024

/-- A folder has no URL, and only a folder has children. -/
def Shaped (item : BookmarkItem) : Prop :=
  (item.isFolder ↔ item.url = none) ∧ (item.isFolder = false → item.children = [])

/-- What `validate_tree` does at one item, before it goes on to the children. -/
def validateEntry (found : Validation) (entry : Nat × BookmarkItem) : Except Text Validation :=
  if entry.1 > 32 || 10000 ≤ found.seen.length then
    .error "Bookmark tree exceeds its depth or item budget".toList
  else if found.seen.contains entry.2.id then .error "Bookmark tree contains duplicate IDs".toList
  else if byteLen entry.2.title > 4096 || entry.2.url.any (byteLen · > 64 * 1024) then
    .error "Bookmark title or URL exceeds its byte budget".toList
  else if entry.2.isFolder != entry.2.url.isNone ||
      (!entry.2.isFolder && !entry.2.children.isEmpty) then
    .error "Bookmark node shape is invalid".toList
  else .ok ⟨entry.2.id :: found.seen, max found.maxId entry.2.id⟩

mutual

/-- The walk over a tree is a loop over its entries. -/
theorem validateTree_eq (item : BookmarkItem) (depth : Nat) (found : Validation) :
    validateTree item depth found = (entries item depth).foldlM validateEntry found := by
  obtain ⟨id, title, url, isFolder, children⟩ := item
  rw [validateTree, entries, foldlM_cons, validateEntry]
  have rest := validateChildren_eq children (depth + 1) ⟨id :: found.seen, max found.maxId id⟩
  split
  · rfl
  split
  · rfl
  split
  · rfl
  split
  · rfl
  · exact rest

theorem validateChildren_eq (children : List BookmarkItem) (depth : Nat) (found : Validation) :
    validateChildren children depth found =
      (childEntries children depth).foldlM validateEntry found := by
  match children with
  | [] => rfl
  | child :: children =>
    rw [validateChildren, childEntries, foldlM_append, validateTree_eq child depth found]
    cases (entries child depth).foldlM validateEntry found with
    | error error => rfl
    | ok found => exact validateChildren_eq children depth found

end

/-! ## What the walk accepts -/

theorem validateEntry_ok {found next : Validation} {entry : Nat × BookmarkItem} :
    validateEntry found entry = .ok next ↔
      (entry.1 ≤ 32 ∧ found.seen.length < 10000 ∧ entry.2.id ∉ found.seen ∧ Sized entry.2 ∧
        Shaped entry.2) ∧
      next = ⟨entry.2.id :: found.seen, max found.maxId entry.2.id⟩ := by
  obtain ⟨depth, ⟨id, title, url, isFolder, children⟩⟩ := entry
  unfold validateEntry Sized Shaped
  dsimp only
  split_ifs with deep seen long shape
  · simp only [Bool.or_eq_true, decide_eq_true_eq] at deep
    constructor
    · nofun
    · rintro ⟨⟨shallow, room, -⟩, -⟩
      omega
  · simp only [contains_iff_mem] at seen
    constructor
    · nofun
    · exact fun ⟨⟨_, _, new, _⟩, _⟩ => absurd seen new
  · constructor
    · nofun
    · rintro ⟨⟨-, -, -, ⟨short, urls⟩, -⟩, -⟩
      simp only [Bool.or_eq_true, decide_eq_true_eq, Option.any_eq_true] at long
      rcases long with title | ⟨address, here, large⟩
      · omega
      · have := urls address here
        omega
  · constructor
    · nofun
    · rintro ⟨⟨-, -, -, -, folder, leaf⟩, -⟩
      cases isFolder <;> cases url <;> simp_all
  · simp only [Bool.or_eq_true, decide_eq_true_eq, not_or, contains_iff_mem] at deep seen
    simp only [Bool.or_eq_true, decide_eq_true_eq, Option.any_eq_true, not_or] at long
    have sized : byteLen title ≤ 4096 ∧ ∀ address ∈ url, byteLen address ≤ 64 * 1024 := by
      refine ⟨Nat.le_of_not_lt long.1, fun address here => Nat.le_of_not_lt fun large => ?_⟩
      exact long.2 ⟨address, here, large⟩
    have shaped : (isFolder = true ↔ url = none) ∧ (isFolder = false → children = []) := by
      cases isFolder <;> cases url <;> simp_all
    constructor
    · intro accepted
      cases accepted
      exact ⟨⟨by omega, by omega, seen, sized, shaped⟩, rfl⟩
    · rintro ⟨-, rfl⟩
      rfl

/-- The loop accepts the entries that are small, well shaped and have ids of their own. -/
theorem foldlM_validateEntry {entries : List (Nat × BookmarkItem)} {found : Validation}
    (room : found.seen.length ≤ 10000) :
    (∃ next, entries.foldlM validateEntry found = .ok next) ↔
      (∀ entry ∈ entries, entry.1 ≤ 32 ∧ Sized entry.2 ∧ Shaped entry.2) ∧
        found.seen.length + entries.length ≤ 10000 ∧ (ids entries).Nodup ∧
        ∀ id ∈ ids entries, id ∉ found.seen := by
  induction entries generalizing found with
  | nil => simpa [ids, pure, Except.pure] using room
  | cons entry entries ih =>
    rw [foldlM_cons]
    rcases checked : validateEntry found entry with error | next
    · constructor
      · rintro ⟨next, accepted⟩
        cases accepted
      · rintro ⟨each, count, distinct, fresh⟩
        obtain ⟨shallow, sized, shaped⟩ := each entry mem_cons_self
        have new := fresh entry.2.id (by simp [ids])
        have accepted := validateEntry_ok.mpr
          ⟨⟨shallow, by rw [length_cons] at count; omega, new, sized, shaped⟩, rfl⟩
        cases checked.symm.trans accepted
    · obtain ⟨⟨shallow, below, new, sized, shaped⟩, rfl⟩ := validateEntry_ok.mp checked
      refine (@ih ⟨entry.2.id :: found.seen, _⟩ (Nat.succ_le_of_lt below)).trans ?_
      have split : ids (entry :: entries) = entry.2.id :: ids entries := rfl
      rw [split, nodup_cons, forall_mem_cons, forall_mem_cons]
      simp only [length_cons, mem_cons, not_or]
      constructor
      · rintro ⟨each, count, distinct, fresh⟩
        refine ⟨⟨⟨shallow, sized, shaped⟩, each⟩, by omega, ⟨?_, distinct⟩, new, ?_⟩
        · exact fun again => (fresh _ again).1 rfl
        · exact fun id among => (fresh id among).2
      · rintro ⟨⟨-, each⟩, count, ⟨once, distinct⟩, -, fresh⟩
        refine ⟨each, by omega, distinct, fun id among => ⟨?_, fresh id among⟩⟩
        exact fun same => once (same ▸ among)

/-- The limits a tree is held to when it is read again: its depth, the number of its items, the
sizes of their texts, and an id of its own for each. -/
structure WithinLimits (root : BookmarkItem) : Prop where
  depth : ∀ entry ∈ entries root 0, entry.1 ≤ 32
  count : (entries root 0).length ≤ 10000
  sized : ∀ entry ∈ entries root 0, Sized entry.2
  distinct : (ids (entries root 0)).Nodup

/-- What every tree has that the operations build. -/
structure Formed (root : BookmarkItem) : Prop where
  folder : root.isFolder = true
  shaped : ∀ entry ∈ entries root 0, Shaped entry.2

theorem fromRoot_ok {root : BookmarkItem} {restored : BookmarksManager}
    (accepted : fromRoot root = .ok restored) :
    restored.root = root ∧ Formed root ∧ WithinLimits root := by
  unfold fromRoot at accepted
  rw [validateTree_eq] at accepted
  rcases walked : (entries root 0).foldlM validateEntry ⟨[], 0⟩ with error | found
  · rw [walked] at accepted
    cases accepted
  · obtain ⟨each, count, distinct, -⟩ :=
      (foldlM_validateEntry (Nat.zero_le _)).mp ⟨found, walked⟩
    rw [walked] at accepted
    dsimp only at accepted
    split at accepted
    · rename_i folder
      cases accepted
      exact ⟨rfl, ⟨folder, fun entry among => (each entry among).2.2⟩,
        fun entry among => (each entry among).1, by simpa using count,
        fun entry among => (each entry among).2.1, distinct⟩
    · cases accepted

theorem fromRoot_iff {root : BookmarkItem} (formed : Formed root) :
    (∃ restored, fromRoot root = .ok restored ∧ restored.root = root) ↔ WithinLimits root := by
  constructor
  · rintro ⟨restored, accepted, -⟩
    exact (fromRoot_ok accepted).2.2
  · intro limits
    obtain ⟨found, walked⟩ :=
      (@foldlM_validateEntry (entries root 0) ⟨[], 0⟩ (Nat.zero_le _)).mpr
        ⟨fun entry among => ⟨limits.depth entry among, limits.sized entry among,
          formed.shaped entry among⟩, by simpa using limits.count, limits.distinct, by simp⟩
    unfold fromRoot
    rw [validateTree_eq, walked]
    dsimp only
    rw [if_pos formed.folder]
    exact ⟨_, rfl, rfl⟩

/-! ## What the operations keep -/

def AllShaped (entries : List (Nat × BookmarkItem)) : Prop := ∀ entry ∈ entries, Shaped entry.2

theorem allShaped_append {first second : List (Nat × BookmarkItem)} :
    AllShaped (first ++ second) ↔ AllShaped first ∧ AllShaped second := forall_mem_append

theorem ids_append (first second : List (Nat × BookmarkItem)) :
    ids (first ++ second) = ids first ++ ids second := map_append

theorem childEntries_append (first second : List BookmarkItem) (depth : Nat) :
    childEntries (first ++ second) depth =
      childEntries first depth ++ childEntries second depth := by
  induction first with
  | nil => rfl
  | cons child first ih =>
    rw [cons_append, childEntries, childEntries, ih, append_assoc]

theorem childEntries_sublist {fewer children : List BookmarkItem} (h : fewer.Sublist children)
    (depth : Nat) : (childEntries fewer depth).Sublist (childEntries children depth) := by
  induction h with
  | slnil => exact .slnil
  | cons child _ ih =>
    rw [childEntries]
    exact ih.trans (sublist_append_right _ _)
  | cons_cons child _ ih =>
    rw [childEntries, childEntries]
    exact (List.Sublist.refl _).append ih

/-- A tree stays well shaped when its root gets other well shaped children, for a root with
children is a folder. -/
theorem allShaped_children {id : Nat} {title : Text} {url : Option Text} {isFolder : Bool}
    {children others : List BookmarkItem} {depth : Nat} (hasChildren : isFolder ∨ children ≠ [])
    (h : AllShaped (entries ⟨id, title, url, isFolder, children⟩ depth))
    (below : AllShaped (childEntries children (depth + 1)) →
      AllShaped (childEntries others (depth + 1))) :
    AllShaped (entries ⟨id, title, url, isFolder, others⟩ depth) := by
  rw [entries] at h ⊢
  obtain ⟨here, there⟩ := forall_mem_cons.mp h
  have folder : isFolder = true := by
    rcases hasChildren with folder | some
    · exact folder
    · cases isFolder with
      | true => rfl
      | false => exact absurd (here.2 rfl) some
  refine forall_mem_cons.mpr ⟨⟨here.1, fun notFolder => ?_⟩, below there⟩
  cases folder.symm.trans notFolder

/-- What an insertion does to the entries. -/
structure Inserted (item : BookmarkItem) (before after : List (Nat × BookmarkItem)) : Prop where
  shaped : AllShaped before → AllShaped after
  perm : (ids after).Perm (item.id :: ids before)

section

variable {item : BookmarkItem} {parentId : Nat}

mutual

theorem insertIntoNode_inserted (leaf : item.children = []) (shaped : Shaped item)
    (node : BookmarkItem) {next : BookmarkItem}
    (inserted : insertIntoNode node parentId item = some next) (depth : Nat) :
    next.isFolder = node.isFolder ∧ Inserted item (entries node depth) (entries next depth) := by
  obtain ⟨id, title, url, isFolder, children⟩ := node
  rw [insertIntoNode] at inserted
  split at inserted
  · rename_i here
    cases inserted
    simp only [Bool.and_eq_true] at here
    have single : entries item (depth + 1) = [(depth + 1, item)] := by
      obtain ⟨id, title, url, isFolder, children⟩ := item
      obtain rfl : children = [] := leaf
      rfl
    have added : childEntries (children ++ [item]) (depth + 1) =
        childEntries children (depth + 1) ++ [(depth + 1, item)] := by
      rw [childEntries_append, childEntries, single]
      rfl
    refine ⟨rfl, fun before => ?_, ?_⟩
    · refine allShaped_children (.inl here.2) before fun below => ?_
      rw [added]
      exact allShaped_append.mpr ⟨below, forall_mem_singleton.mpr shaped⟩
    · rw [entries, entries, added]
      simp only [ids, map_cons, map_append, map_nil]
      exact (perm_append_singleton _ _).cons _ |>.trans (.swap _ _ _)
  · obtain ⟨others, below, rfl⟩ := Option.map_eq_some_iff.mp inserted
    have changed := insertIntoChildren_inserted leaf shaped children below (depth + 1)
    have some : children ≠ [] := by
      rintro rfl
      cases below
    refine ⟨rfl, fun before => allShaped_children (.inr some) before changed.shaped, ?_⟩
    rw [entries, entries]
    exact (changed.perm.cons id).trans (.swap _ _ _)

theorem insertIntoChildren_inserted (leaf : item.children = []) (shaped : Shaped item)
    (children : List BookmarkItem) {next : List BookmarkItem}
    (inserted : insertIntoChildren children parentId item = some next) (depth : Nat) :
    Inserted item (childEntries children depth) (childEntries next depth) := by
  match children with
  | [] => cases inserted
  | child :: children =>
    rw [insertIntoChildren] at inserted
    split at inserted
    · rename_i changed found
      cases inserted
      split at found
      · obtain ⟨-, below⟩ := insertIntoNode_inserted leaf shaped child found depth
        rw [childEntries, childEntries]
        refine ⟨fun before => ?_, ?_⟩
        · obtain ⟨here, there⟩ := allShaped_append.mp before
          exact allShaped_append.mpr ⟨below.shaped here, there⟩
        · rw [ids_append, ids_append]
          exact below.perm.append_right _
      · cases found
    · obtain ⟨others, found, rfl⟩ := Option.map_eq_some_iff.mp inserted
      have below := insertIntoChildren_inserted leaf shaped children found depth
      rw [childEntries, childEntries]
      refine ⟨fun before => ?_, ?_⟩
      · obtain ⟨here, there⟩ := allShaped_append.mp before
        exact allShaped_append.mpr ⟨here, below.shaped there⟩
      · rw [ids_append, ids_append]
        exact (below.perm.append_left _).trans perm_middle

end

end

/-- What a removal does to the entries. -/
structure Thinned (before after : List (Nat × BookmarkItem)) : Prop where
  shaped : AllShaped before → AllShaped after
  sublist : (ids after).Sublist (ids before)

theorem Thinned.append {before after before' after' : List (Nat × BookmarkItem)}
    (h : Thinned before after) (h' : Thinned before' after') :
    Thinned (before ++ before') (after ++ after') := by
  refine ⟨fun shaped => ?_, ?_⟩
  · obtain ⟨here, there⟩ := allShaped_append.mp shaped
    exact allShaped_append.mpr ⟨h.shaped here, h'.shaped there⟩
  · rw [ids_append, ids_append]
    exact h.sublist.append h'.sublist

theorem Thinned.of_sublist {before after : List (Nat × BookmarkItem)}
    (h : after.Sublist before) : Thinned before after :=
  ⟨fun shaped entry among => shaped entry (h.subset among), h.map _⟩

theorem Thinned.trans {first second third : List (Nat × BookmarkItem)}
    (h : Thinned first second) (h' : Thinned second third) : Thinned first third :=
  ⟨fun shaped => h'.shaped (h.shaped shaped), h'.sublist.trans h.sublist⟩

theorem Thinned.after {before after : List (Nat × BookmarkItem)} (h : Thinned before after)
    (front : List (Nat × BookmarkItem)) : Thinned (front ++ before) (front ++ after) :=
  (Thinned.of_sublist (.refl front)).append h

theorem Thinned.node {id : Nat} {title : Text} {url : Option Text} {isFolder : Bool}
    {children others : List BookmarkItem} {depth : Nat} (some : children ≠ [])
    (h : Thinned (childEntries children (depth + 1)) (childEntries others (depth + 1))) :
    Thinned (entries ⟨id, title, url, isFolder, children⟩ depth)
      (entries ⟨id, title, url, isFolder, others⟩ depth) := by
  refine ⟨fun before => allShaped_children (.inr some) before h.shaped, ?_⟩
  rw [entries, entries]
  exact h.sublist.cons_cons id

mutual

theorem removeFromNode_thinned {id : Nat} (node : BookmarkItem) {next : BookmarkItem}
    (removed : removeFromNode node id = some next) (depth : Nat) :
    next.isFolder = node.isFolder ∧ Thinned (entries node depth) (entries next depth) := by
  obtain ⟨itemId, title, url, isFolder, children⟩ := node
  rw [removeFromNode] at removed
  split at removed
  · rename_i here
    cases removed
    have some : children ≠ [] := by
      rintro rfl
      cases here
    refine ⟨rfl, .node some (.of_sublist (childEntries_sublist ?_ _))⟩
    exact eraseP_sublist
  · obtain ⟨others, below, rfl⟩ := Option.map_eq_some_iff.mp removed
    have some : children ≠ [] := by
      rintro rfl
      cases below
    exact ⟨rfl, .node some (removeFromChildren_thinned children below (depth + 1))⟩

theorem removeFromChildren_thinned {id : Nat} (children : List BookmarkItem)
    {next : List BookmarkItem} (removed : removeFromChildren children id = some next)
    (depth : Nat) : Thinned (childEntries children depth) (childEntries next depth) := by
  match children with
  | [] => cases removed
  | child :: children =>
    rw [removeFromChildren] at removed
    split at removed
    · rename_i changed found
      cases removed
      split at found
      · obtain ⟨-, below⟩ := removeFromNode_thinned child found depth
        rw [childEntries, childEntries]
        exact below.append (.of_sublist (.refl _))
      · cases found
    · obtain ⟨others, found, rfl⟩ := Option.map_eq_some_iff.mp removed
      rw [childEntries, childEntries]
      exact (removeFromChildren_thinned children found depth).after _

end

mutual

theorem removeUrlFromNode_thinned (url : Text) (node : BookmarkItem) (depth : Nat) :
    (removeUrlFromNode node url).1.isFolder = node.isFolder ∧
      Thinned (entries node depth) (entries (removeUrlFromNode node url).1 depth) := by
  obtain ⟨id, title, itemUrl, isFolder, children⟩ := node
  rw [removeUrlFromNode]
  refine ⟨rfl, ?_⟩
  cases children with
  | nil => exact .of_sublist (.refl _)
  | cons child children =>
    exact .node (cons_ne_nil _ _) (removeUrlFromChildren_thinned url _ (depth + 1))

theorem removeUrlFromChildren_thinned (url : Text) (children : List BookmarkItem) (depth : Nat) :
    Thinned (childEntries children depth)
      (childEntries (removeUrlFromChildren children url).1 depth) := by
  match children with
  | [] => exact .of_sublist (.refl _)
  | child :: children =>
    have rest := removeUrlFromChildren_thinned url children depth
    rw [removeUrlFromChildren, childEntries]
    dsimp only
    split
    · rw [childEntries]
      exact (removeUrlFromNode_thinned url child depth).2.append rest
    split
    · exact (Thinned.of_sublist (sublist_append_right _ _)).trans rest
    · rw [childEntries]
      exact rest.after _

end

/-! ## Runs -/

/-- An operation that succeeded. An import that succeeds is a `from_root` of what was imported. -/
inductive Step : BookmarksManager → BookmarksManager → Prop
  | addBookmark {before after : BookmarksManager} {parentId id : Nat} {title url : Text} :
      before.addBookmark parentId title url = (.ok id, after) → Step before after
  | createFolder {before after : BookmarksManager} {parentId id : Nat} {title : Text} :
      before.createFolder parentId title = (.ok id, after) → Step before after
  | remove {before after : BookmarksManager} {id : Nat} :
      before.remove id = (true, after) → Step before after
  | removeUrl {before after : BookmarksManager} {url : Text} {removed : Nat} :
      before.removeUrl url = (removed, after) → Step before after
  | load {before after : BookmarksManager} {root : BookmarkItem} :
      fromRoot root = .ok after → Step before after

/-- What an operation does to the tree: it puts one item in, takes some out, or loads a tree
within the limits. -/
theorem step_cases {before after : BookmarksManager} (step : Step before after) :
    (∃ item, item.id = before.nextId ∧ after.nextId = (before.nextId + 1) % 2 ^ 64 ∧
      after.root.isFolder = before.root.isFolder ∧
      Inserted item (entries before.root 0) (entries after.root 0)) ∨
    (after.nextId = before.nextId ∧ after.root.isFolder = before.root.isFolder ∧
      Thinned (entries before.root 0) (entries after.root 0)) ∨
    ∃ root, fromRoot root = .ok after := by
  cases step with
  | addBookmark added =>
    unfold BookmarksManager.addBookmark at added
    dsimp only at added
    split at added
    · rename_i root inserted
      cases added
      exact .inl ⟨_, rfl, rfl, insertIntoNode_inserted rfl (by simp [Shaped]) _ inserted 0⟩
    · cases added
  | createFolder added =>
    unfold BookmarksManager.createFolder at added
    dsimp only at added
    split at added
    · rename_i root inserted
      cases added
      exact .inl ⟨_, rfl, rfl, insertIntoNode_inserted rfl (by simp [Shaped]) _ inserted 0⟩
    · cases added
  | remove removed =>
    unfold BookmarksManager.remove at removed
    split at removed
    · cases removed
    · split at removed
      · rename_i root thinned
        cases removed
        exact .inr (.inl ⟨rfl, removeFromNode_thinned _ thinned 0⟩)
      · cases removed
  | removeUrl removed =>
    cases removed
    exact .inr (.inl ⟨rfl, removeUrlFromNode_thinned _ _ 0⟩)
  | load accepted => exact .inr (.inr ⟨_, accepted⟩)

theorem Formed.step {before after : BookmarksManager} (h : Formed before.root)
    (step : Step before after) : Formed after.root := by
  rcases step_cases step with ⟨item, -, -, folder, change⟩ | ⟨-, folder, change⟩ | ⟨root, accepted⟩
  · exact ⟨folder.trans h.folder, change.shaped h.shaped⟩
  · exact ⟨folder.trans h.folder, change.shaped h.shaped⟩
  · obtain ⟨rfl, formed, -⟩ := fromRoot_ok accepted
    exact formed

theorem formed_new : Formed new.root :=
  ⟨rfl, forall_mem_singleton.mpr (by simp [Shaped])⟩

theorem formed_of_run {manager : BookmarksManager}
    (run : Relation.ReflTransGen Step new manager) : Formed manager.root := by
  induction run with
  | refl => exact formed_new
  | tail _ step ih => exact ih.step step

/-! ## Ids -/

/-- The ids are distinct, and the next one is above them as long as the counter has room. -/
structure Counted (manager : BookmarksManager) : Prop where
  distinct : (ids (entries manager.root 0)).Nodup
  below : manager.nextId < maxU64 → ∀ id ∈ ids (entries manager.root 0), id < manager.nextId

/-- The walk has met no id above its largest one. -/
theorem foldlM_maxId {entries : List (Nat × BookmarkItem)} {found next : Validation}
    (walked : entries.foldlM validateEntry found = .ok next) :
    found.maxId ≤ next.maxId ∧ ∀ id ∈ ids entries, id ≤ next.maxId := by
  induction entries generalizing found with
  | nil =>
    cases walked
    exact ⟨Nat.le_refl _, by simp [ids]⟩
  | cons entry entries ih =>
    rw [foldlM_cons] at walked
    rcases checked : validateEntry found entry with error | met
    · rw [checked] at walked
      cases walked
    · rw [checked] at walked
      obtain ⟨-, rfl⟩ := validateEntry_ok.mp checked
      obtain ⟨above, rest⟩ := ih walked
      have split : ids (entry :: entries) = entry.2.id :: ids entries := rfl
      rw [split, forall_mem_cons]
      exact ⟨(Nat.le_max_left _ _).trans above, (Nat.le_max_right _ _).trans above, rest⟩

theorem counted_fromRoot {root : BookmarkItem} {restored : BookmarksManager}
    (accepted : fromRoot root = .ok restored) : Counted restored := by
  obtain ⟨same, -, limits⟩ := fromRoot_ok accepted
  refine ⟨same ▸ limits.distinct, fun room => ?_⟩
  unfold fromRoot at accepted
  rw [validateTree_eq] at accepted
  rcases walked : (entries root 0).foldlM validateEntry ⟨[], 0⟩ with error | found
  · rw [walked] at accepted
    cases accepted
  · rw [walked] at accepted
    dsimp only at accepted
    split at accepted
    · cases accepted
      intro id among
      have := (foldlM_maxId walked).2 id among
      dsimp only at room ⊢
      omega
    · cases accepted

theorem Counted.step {before after : BookmarksManager} (h : Counted before)
    (room : before.nextId < maxU64) (step : Step before after) : Counted after := by
  rcases step_cases step with ⟨item, own, next, -, change⟩ | ⟨next, -, change⟩ | ⟨root, accepted⟩
  · have below := h.below room
    rw [Nat.mod_eq_of_lt (by unfold maxU64 at room; omega)] at next
    constructor
    · refine change.perm.nodup_iff.mpr (nodup_cons.mpr ⟨fun again => ?_, h.distinct⟩)
      exact Nat.lt_irrefl _ (own ▸ below _ again)
    · intro _ id among
      rcases mem_cons.mp (change.perm.subset among) with rfl | old
      · omega
      · exact next ▸ Nat.lt_succ_of_lt (below id old)
  · refine ⟨h.distinct.sublist change.sublist, fun _ id among => ?_⟩
    exact next ▸ h.below room id (change.sublist.subset among)
  · exact counted_fromRoot accepted

/-- Two items share an id only after the counter has reached its largest value. -/
theorem counted_of_run {manager : BookmarksManager}
    (run : Relation.ReflTransGen
      (fun before after => Step before after ∧ before.nextId < maxU64) new manager) :
    Counted manager := by
  induction run with
  | refl => exact ⟨nodup_singleton _, fun _ => forall_mem_singleton.mpr (by decide)⟩
  | tail _ step ih => exact ih.step step.2 step.1

/-! ## Coming back -/

/-- `from_str` reads what `to_string_pretty` wrote as it was. Only a tree that is nested deeper
than the recursion limit of the parser is not read, and such a tree is more than 32 deep. -/
def ReadsBack (format : BookmarkFormat) (root : BookmarkItem) : Prop :=
  format.fromStr (format.toStringPretty root) = .ok root ∨
    (∃ error, format.fromStr (format.toStringPretty root) = .error error) ∧
      ∃ entry ∈ entries root 0, 32 < entry.1

/-- A tree that any sequence of operations has built comes back from the profile exactly when it
is within the limits, and from its own export exactly when the export is also small enough. -/
theorem comes_back_iff {manager : BookmarksManager} (run : Relation.ReflTransGen Step new manager)
    (format : BookmarkFormat) (readsBack : ReadsBack format manager.root) :
    ((∃ restored, fromRoot manager.root = .ok restored ∧ restored.root = manager.root) ↔
      WithinLimits manager.root) ∧
    ((∃ restored, manager.importJson format (manager.exportJson format) = (.ok (), restored) ∧
        restored.root = manager.root) ↔
      WithinLimits manager.root ∧ (manager.exportJson format).length ≤ maxImportBytes) := by
  have formed := formed_of_run run
  refine ⟨fromRoot_iff formed, ?_⟩
  unfold importJson
  by_cases large : (manager.exportJson format).length > maxImportBytes
  · rw [if_pos large]
    refine ⟨?_, fun ⟨_, small⟩ => absurd small (Nat.not_le_of_lt large)⟩
    rintro ⟨restored, failed, -⟩
    cases failed
  rw [if_neg large]
  rcases readsBack with whole | ⟨⟨error, refused⟩, entry, among, deep⟩
  · have read : format.fromStr (manager.exportJson format) = .ok manager.root := whole
    rw [read, and_iff_left (Nat.le_of_not_lt large), ← fromRoot_iff formed]
    dsimp only
    cases fromRoot manager.root with
    | ok restored => simp
    | error error => simp
  · have read : format.fromStr (manager.exportJson format) = .error error := refused
    rw [read]
    constructor
    · rintro ⟨restored, failed, -⟩
      cases failed
    · exact fun ⟨limits, _⟩ => absurd (limits.depth entry among) (Nat.not_le_of_lt deep)

section Tests

mutual

/-- The lines of the pretty form of an item, whose texts have nothing to escape. -/
def jsonLines : BookmarkItem → List Text
  | ⟨id, title, url, isFolder, children⟩ =>
    ["\x7b".toList] ++
      ["\"id\": ".toList ++ Nat.toDigits 10 id ++ [','],
        "\"title\": \"".toList ++ title ++ "\",".toList,
        "\"url\": ".toList ++ (url.elim "null".toList fun url => ['"'] ++ url ++ ['"']) ++ [','],
        "\"is_folder\": ".toList ++ (if isFolder then "true,".toList else "false,".toList)].map
          ("  ".toList ++ ·) ++
      (match children with
        | [] => ["\"children\": []".toList]
        | _ => ["\"children\": [".toList] ++ childLines children ++ ["]".toList]).map
          ("  ".toList ++ ·) ++
      ["\x7d".toList]

def childLines : List BookmarkItem → List Text
  | [] => []
  | child :: children =>
    let lines := (jsonLines child).map ("  ".toList ++ ·)
    (if children.isEmpty then lines else lines.dropLast ++ ["  \x7d,".toList]) ++ childLines children

end

mutual

/-- The item that a list of lines without their indentation begins with, and what follows it. -/
def readItem : Nat → List Text → Option (BookmarkItem × List Text)
  | fuel + 1, _ :: id :: title :: url :: isFolder :: children :: lines => do
    let id := (id.filter Char.isDigit).foldl (fun id digit => id * 10 + (digit.toNat - 48)) 0
    let title := (title.drop 10).dropLast.dropLast
    let url := if url = "\"url\": null,".toList then none
      else some ((url.drop 8).dropLast.dropLast)
    let isFolder := isFolder == "\"is_folder\": true,".toList
    let (children, lines) ←
      if children == "\"children\": []".toList then pure ([], lines) else readItems fuel lines
    pure (⟨id, title, url, isFolder, children⟩, lines.drop 1)
  | _, _ => none

def readItems : Nat → List Text → Option (List BookmarkItem × List Text)
  | fuel + 1, lines =>
    if lines.head? == some "]".toList then some ([], lines.drop 1)
    else do
      let (child, lines) ← readItem fuel lines
      let (children, lines) ← readItems fuel lines
      pure (child :: children, lines)
  | 0, _ => none

end

/-- The pretty form of trees in ASCII. -/
def prettyFormat : BookmarkFormat where
  toStringPretty root :=
    ((jsonLines root).intersperse ['\n']).flatten.map fun char => char.toNat.toUInt8
  fromStr json :=
    let lines := (json.map fun byte => Char.ofNat byte.toNat).splitOn '\n'
    match readItem lines.length (lines.map (·.dropWhile (· = ' '))) with
    | some (root, []) => .ok root
    | _ => .error "expected value at line 1 column 1".toList

/-- A tree with a folder in a folder, after a bookmark was taken out again. -/
def filled : BookmarksManager :=
  let (_, tree) := new.addBookmark 1 "GitHub".toList "https://github.com".toList
  let (_, tree) := tree.createFolder 1 "Dev Tools".toList
  let (_, tree) := tree.createFolder 3 "Rust".toList
  let (_, tree) := tree.addBookmark 4 "Docs".toList "https://docs.rs".toList
  (tree.remove 2).2

theorem comes_back_iff_filled : ids (entries filled.root 0) = [1, 3, 4, 5] ∧
    WithinLimits filled.root ∧
    ∃ restored, filled.importJson prettyFormat (filled.exportJson prettyFormat) =
      (.ok (), restored) ∧ restored.root = filled.root := by
  have run := (((((@Relation.ReflTransGen.refl _ Step new).tail
    (@Step.addBookmark _ _ 1 2 "GitHub".toList "https://github.com".toList rfl)).tail
    (@Step.createFolder _ _ 1 3 "Dev Tools".toList rfl)).tail
    (@Step.createFolder _ _ 3 4 "Rust".toList rfl)).tail
    (@Step.addBookmark _ _ 4 5 "Docs".toList "https://docs.rs".toList rfl)).tail
    (@Step.remove _ filled 2 rfl)
  have readsBack : ReadsBack prettyFormat filled.root := .inl rfl
  obtain ⟨loads, imports⟩ := comes_back_iff run prettyFormat readsBack
  have limits := loads.mp ⟨_, rfl, rfl⟩
  exact ⟨rfl, limits, imports.mpr ⟨limits, by decide +kernel⟩⟩

/-- A bookmark with a title of 4097 bytes is added, saved, and then the whole tree is dropped. -/
theorem long_title_dropped :
    (new.addBookmark 1 (List.replicate 4097 'a') "https://a".toList).1.toOption = some 2 ∧
      (fromRoot (new.addBookmark 1 (List.replicate 4097 'a') "https://a".toList).2.root).toOption.isNone ∧
      (restoreBookmarkTree
        (new.addBookmark 1 (List.replicate 4097 'a') "https://a".toList).2.root []).root.children.isEmpty := by
  decide +kernel

end Tests

end BookmarksManager

end GhitaBrowser.Storage
