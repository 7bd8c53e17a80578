import GhitaBrowser.Lib.History
import GhitaBrowser.Lib.Str
import GhitaBrowser.Storage.Bookmarks
import GhitaBrowser.Storage.ProfileLaw

/-!
# Two lists of the same bookmarks

The bookmarks are kept twice: as a flat list, in the order of their insertion, and as a tree with
folders. Both are saved in one file, and an empty or refused tree is filled from the list
when the file is read.

* While the browser runs, whatever is added, removed, saved, cut off and loaded, the two have the
  same URLs (`BookmarkBrowser.InStep`), if the first file did not make them differ.
* A file can: nothing fills the list from the tree (`bookmarks_in_step_iff`).
-/

namespace GhitaBrowser.Storage

open Html List

/-! ## The URLs of a tree -/

namespace BookmarksManager

def urlsOf (entries : List (Nat × BookmarkItem)) : List Text := entries.filterMap (·.2.url)

section Urls

variable {url : Text}

theorem mem_urlsOf_append {first second : List (Nat × BookmarkItem)} :
    url ∈ urlsOf (first ++ second) ↔ url ∈ urlsOf first ∨ url ∈ urlsOf second := by
  rw [urlsOf, filterMap_append, mem_append]
  rfl

theorem mem_urlsOf_node {id : Nat} {title : Text} {itemUrl : Option Text} {isFolder : Bool}
    {children : List BookmarkItem} {depth : Nat} :
    url ∈ urlsOf (entries ⟨id, title, itemUrl, isFolder, children⟩ depth) ↔
      itemUrl = some url ∨ url ∈ urlsOf (childEntries children (depth + 1)) := by
  rw [entries, urlsOf, filterMap_cons]
  cases itemUrl with
  | none => exact ⟨.inr, fun h => h.resolve_left nofun⟩
  | some here =>
    rw [Option.some_inj, @eq_comm _ here]
    exact mem_cons

theorem mem_urlsOf_children {child : BookmarkItem} {children : List BookmarkItem} {depth : Nat} :
    url ∈ urlsOf (childEntries (child :: children) depth) ↔
      url ∈ urlsOf (entries child depth) ∨ url ∈ urlsOf (childEntries children depth) := by
  rw [childEntries, mem_urlsOf_append]

theorem mem_urlsOf_leaf {item : BookmarkItem} (leaf : item.children = []) (depth : Nat) :
    url ∈ urlsOf (entries item depth) ↔ item.url = some url := by
  obtain ⟨id, title, itemUrl, isFolder, children⟩ := item
  obtain rfl : children = [] := leaf
  exact mem_urlsOf_node.trans (or_iff_left not_mem_nil)

section Insert

variable {item : BookmarkItem} {parentId : Nat}

mutual

theorem insertIntoNode_urls (leaf : item.children = []) (node : BookmarkItem)
    {next : BookmarkItem} (inserted : insertIntoNode node parentId item = some next) (depth : Nat) :
    url ∈ urlsOf (entries next depth) ↔
      item.url = some url ∨ url ∈ urlsOf (entries node depth) := by
  obtain ⟨id, title, itemUrl, isFolder, children⟩ := node
  rw [insertIntoNode] at inserted
  split at inserted
  · cases inserted
    have added : url ∈ urlsOf (childEntries (children ++ [item]) (depth + 1)) ↔
        item.url = some url ∨ url ∈ urlsOf (childEntries children (depth + 1)) := by
      rw [childEntries_append, mem_urlsOf_append, mem_urlsOf_children, mem_urlsOf_leaf leaf,
        or_comm]
      exact or_congr_left (or_iff_left not_mem_nil)
    rw [mem_urlsOf_node, mem_urlsOf_node, added, or_left_comm]
  · obtain ⟨others, below, rfl⟩ := Option.map_eq_some_iff.mp inserted
    rw [mem_urlsOf_node, mem_urlsOf_node, insertIntoChildren_urls leaf children below (depth + 1),
      or_left_comm]

theorem insertIntoChildren_urls (leaf : item.children = []) (children : List BookmarkItem)
    {next : List BookmarkItem} (inserted : insertIntoChildren children parentId item = some next)
    (depth : Nat) :
    url ∈ urlsOf (childEntries next depth) ↔
      item.url = some url ∨ url ∈ urlsOf (childEntries children depth) := by
  match children with
  | [] => cases inserted
  | child :: children =>
    rw [insertIntoChildren] at inserted
    split at inserted
    · next changed found =>
      cases inserted
      split at found
      · rw [mem_urlsOf_children, mem_urlsOf_children, insertIntoNode_urls leaf child found depth,
          or_assoc]
      · cases found
    · obtain ⟨others, found, rfl⟩ := Option.map_eq_some_iff.mp inserted
      rw [mem_urlsOf_children, mem_urlsOf_children,
        insertIntoChildren_urls leaf children found depth, or_left_comm]

end

end Insert

section Remove

variable {gone : Text}

mutual

theorem removeUrlFromNode_urls (node : BookmarkItem) (folder : node.isFolder = true) (depth : Nat)
    (shaped : AllShaped (entries node depth)) :
    url ∈ urlsOf (entries (removeUrlFromNode node gone).1 depth) ↔
      url ≠ gone ∧ url ∈ urlsOf (entries node depth) := by
  obtain ⟨id, title, itemUrl, isFolder, children⟩ := node
  rw [entries] at shaped
  obtain ⟨here, below⟩ := forall_mem_cons.mp shaped
  obtain rfl : itemUrl = none := here.1.mp folder
  rw [removeUrlFromNode, mem_urlsOf_node, mem_urlsOf_node,
    removeUrlFromChildren_urls children (depth + 1) below]
  have folderHasNone {P : Prop} : (none : Option Text) = some url ∨ P ↔ P :=
    or_iff_right (Option.some_ne_none url).symm
  rw [folderHasNone, folderHasNone]

theorem removeUrlFromChildren_urls (children : List BookmarkItem) (depth : Nat)
    (shaped : AllShaped (childEntries children depth)) :
    url ∈ urlsOf (childEntries (removeUrlFromChildren children gone).1 depth) ↔
      url ≠ gone ∧ url ∈ urlsOf (childEntries children depth) := by
  match children with
  | [] => exact iff_of_false not_mem_nil fun h => not_mem_nil h.2
  | child :: children =>
    rw [childEntries] at shaped
    obtain ⟨here, there⟩ := allShaped_append.mp shaped
    have rest := removeUrlFromChildren_urls children depth there
    rw [removeUrlFromChildren, mem_urlsOf_children]
    dsimp only
    split
    · next folder =>
      rw [mem_urlsOf_children, rest, removeUrlFromNode_urls child folder depth here, and_or_left]
    · next bookmark =>
      -- a bookmark is one entry, with a URL
      have shape : Shaped child := by
        cases child
        exact here _ mem_cons_self
      have leaf : child.children = [] := shape.2 (Bool.not_eq_true _ ▸ bookmark)
      split
      · next same =>
        have hurl : child.url = some gone := eq_of_beq same
        rw [rest, mem_urlsOf_leaf leaf, hurl, Option.some_inj]
        refine and_congr_right fun other => (or_iff_right fun here => other here.symm).symm
      · next differs =>
        have other : child.url = some url → url ≠ gone := by
          rintro hurl rfl
          exact differs (beq_iff_eq.mpr hurl)
        rw [mem_urlsOf_children, rest, mem_urlsOf_leaf leaf, and_or_left,
          and_iff_right_of_imp other]

end

end Remove

end Urls

/-! ## Managers -/

/-- The URLs of the bookmarks in the tree. -/
def urls (bookmarks : BookmarksManager) : List Text := urlsOf (entries bookmarks.root 0)

theorem addBookmark_cases (bookmarks : BookmarksManager) (parentId : Nat) (title url : Text) :
    (∃ id after, bookmarks.addBookmark parentId title url = (.ok id, after) ∧
      ∀ other, other ∈ after.urls ↔ other = url ∨ other ∈ bookmarks.urls) ∨
    ∃ error after, bookmarks.addBookmark parentId title url = (.error error, after) ∧
      after.root = bookmarks.root := by
  unfold addBookmark
  dsimp only
  split
  · next root inserted =>
    refine .inl ⟨_, _, rfl, fun other => ?_⟩
    rw [urls, insertIntoNode_urls rfl _ inserted, Option.some_inj, @eq_comm _ url]
    rfl
  · exact .inr ⟨_, _, rfl, rfl⟩

theorem createFolder_cases (bookmarks : BookmarksManager) (parentId : Nat) (title : Text) :
    (∃ id after, bookmarks.createFolder parentId title = (.ok id, after) ∧
      ∀ other, other ∈ after.urls ↔ other ∈ bookmarks.urls) ∨
    ∃ error after, bookmarks.createFolder parentId title = (.error error, after) ∧
      after.root = bookmarks.root := by
  unfold createFolder
  dsimp only
  split
  · next root inserted =>
    refine .inl ⟨_, _, rfl, fun other => ?_⟩
    rw [urls, insertIntoNode_urls rfl _ inserted]
    exact or_iff_right (by rintro ⟨⟩)
  · exact .inr ⟨_, _, rfl, rfl⟩

theorem addBookmark_root {bookmarks : BookmarksManager} (formed : Formed bookmarks.root)
    (title url : Text) :
    Formed (bookmarks.addBookmark bookmarks.root.id title url).2.root ∧
      ∀ other, other ∈ (bookmarks.addBookmark bookmarks.root.id title url).2.urls ↔
        other = url ∨ other ∈ bookmarks.urls := by
  rcases addBookmark_cases bookmarks bookmarks.root.id title url with
    ⟨id, after, added, urls⟩ | ⟨error, after, refused, -⟩
  · have grown : Formed after.root := formed.step (.addBookmark added)
    rw [added]
    exact ⟨grown, urls⟩
  · obtain ⟨⟨id, rootTitle, rootUrl, isFolder, children⟩, nextId⟩ := bookmarks
    obtain rfl : isFolder = true := formed.folder
    unfold addBookmark at refused
    dsimp only at refused
    rw [insertIntoNode, beq_self_eq_true, Bool.and_true, if_pos rfl] at refused
    cases refused

theorem removeUrl_urls {bookmarks : BookmarksManager} (formed : Formed bookmarks.root)
    (gone : Text) :
    Formed (bookmarks.removeUrl gone).2.root ∧
      ∀ other, other ∈ (bookmarks.removeUrl gone).2.urls ↔ other ≠ gone ∧ other ∈ bookmarks.urls :=
  ⟨formed.step (.removeUrl rfl), fun _ => removeUrlFromNode_urls _ formed.folder 0 formed.shaped⟩

end BookmarksManager

/-! ## The operations of the storage manager -/

section

variable {R : Type}

namespace StorageManager

def isBookmarked (manager : StorageManager R) (url : Text) : Bool :=
  manager.bookmarks.any (·.url == url)

def createBookmarkFolder (manager : StorageManager R) (parentId : Nat) (title : Text) :
    Except Text Nat × StorageManager R :=
  let (result, bookmarkTree) := manager.bookmarkTree.createFolder parentId title
  (result, { manager with bookmarkTree })

/-- The list gets a bookmark only if the tree did. -/
def addBookmarkToFolder (manager : StorageManager R) (parentId : Nat) (title url : Text)
    (now : Int) : Except Text Nat × StorageManager R :=
  match manager.bookmarkTree.addBookmark parentId title url with
  | (.error error, bookmarkTree) => (.error error, { manager with bookmarkTree })
  | (.ok id, bookmarkTree) =>
    (.ok id, { manager with
      bookmarkTree
      bookmarks :=
        if manager.isBookmarked url then manager.bookmarks
        else manager.bookmarks ++ [⟨url, title, now⟩] })

def removeBookmark (manager : StorageManager R) (url : Text) : StorageManager R :=
  { manager with
    bookmarks := manager.bookmarks.filter (·.url != url)
    bookmarkTree := (manager.bookmarkTree.removeUrl url).2 }

def toggleBookmark (manager : StorageManager R) (url title : Text) (now : Int) :
    Bool × StorageManager R :=
  if manager.isBookmarked url then
    (false, { manager with
      bookmarks := manager.bookmarks.filter (·.url != url)
      bookmarkTree := (manager.bookmarkTree.removeUrl url).2 })
  else
    (true, { manager with
      bookmarks :=
        manager.bookmarks ++ [⟨url, if (Str.trim title).isEmpty then url else title, now⟩]
      bookmarkTree :=
        (manager.bookmarkTree.addBookmark manager.bookmarkTree.root.id title url).2 })

end StorageManager

/-! ## Runs -/

inductive BookmarkAction where
  | toggle (url title : Text)
  | remove (url : Text)
  | addToFolder (parentId : Nat) (title url : Text)
  | createFolder (parentId : Nat) (title : Text)
  | save
  | load
  | reopen

/-- What surrounds an action: what happens to the operations on files, the time, and the two times
at which the profile is opened again if the machine stops or the browser ends. -/
structure Surroundings where
  faults : List Fault
  now : Int
  appliedAt : Int
  openedAt : Int

variable (R) in
/-- A running browser with its storage directory. -/
structure BookmarkBrowser where
  manager : StorageManager R
  disk : ProfileDisk

namespace BookmarkBrowser

variable [StateFormat R] [Inhabited R]

def started (disk : ProfileDisk) (around : Surroundings) : BookmarkBrowser R :=
  ⟨fromStorageDir disk around.appliedAt around.openedAt, disk⟩

/-- A save. If the machine stops in it, the browser is started again on what is left. -/
def saved (browser : BookmarkBrowser R) (around : Surroundings) : BookmarkBrowser R :=
  match save browser.manager ⟨around.faults, browser.disk⟩ with
  | (.crashed, after) => started after.state around
  | (_, after) => { browser with disk := after.state }

/-- The manager after a change that is saved where it succeeds. -/
def changed (browser : BookmarkBrowser R) (change : Except Text Nat × StorageManager R)
    (around : Surroundings) : BookmarkBrowser R :=
  match change with
  | (.error _, manager) => { browser with manager }
  | (.ok _, manager) => { browser with manager }.saved around

def step (browser : BookmarkBrowser R) (action : BookmarkAction × Surroundings) :
    BookmarkBrowser R :=
  let around := action.2
  match action.1 with
  | .toggle url title =>
    { browser with manager := (browser.manager.toggleBookmark url title around.now).2 }
  | .remove url => { browser with manager := browser.manager.removeBookmark url }
  | .addToFolder parentId title url =>
    browser.changed (browser.manager.addBookmarkToFolder parentId title url around.now) around
  | .createFolder parentId title =>
    browser.changed (browser.manager.createBookmarkFolder parentId title) around
  | .save => browser.saved around
  | .load => { browser with manager := Storage.load browser.manager browser.disk around.now }
  -- the manager saves when it is dropped
  | .reopen => started ((save browser.manager).leaves ⟨around.faults, browser.disk⟩) around

end BookmarkBrowser

/-! ## The list and the tree -/

/-- The list and the tree have the same URLs. -/
def SameUrls (bookmarks : List Bookmark) (tree : BookmarksManager) : Prop :=
  ∀ url, url ∈ bookmarks.map (·.url) ↔ url ∈ tree.urls

/-- A file is in order where its tree is not taken, for it is refused or has nothing in it, or
has the URLs of the list. -/
def Agrees (state : StorageState R) : Prop :=
  ∀ tree, BookmarksManager.fromRoot state.bookmarkTree = .ok tree →
    tree.root.children ≠ [] → SameUrls state.bookmarks tree

theorem filled_urls (bookmarks : List Bookmark) {tree : BookmarksManager}
    (formed : BookmarksManager.Formed tree.root) :
    BookmarksManager.Formed (bookmarks.foldl (fun tree bookmark =>
        (tree.addBookmark tree.root.id bookmark.title bookmark.url).2) tree).root ∧
      ∀ url, url ∈ (bookmarks.foldl (fun tree bookmark =>
        (tree.addBookmark tree.root.id bookmark.title bookmark.url).2) tree).urls ↔
          url ∈ bookmarks.map (·.url) ∨ url ∈ tree.urls := by
  induction bookmarks generalizing tree with
  | nil => exact ⟨formed, fun url => (or_iff_right not_mem_nil).symm⟩
  | cons bookmark bookmarks ih =>
    obtain ⟨grown, urls⟩ := BookmarksManager.addBookmark_root formed bookmark.title bookmark.url
    obtain ⟨formed', urls'⟩ := ih grown
    refine ⟨formed', fun url => ?_⟩
    rw [foldl_cons, urls', urls, map_cons, mem_cons, or_assoc, or_left_comm]

theorem urls_empty {tree : BookmarksManager} (formed : BookmarksManager.Formed tree.root)
    (empty : tree.root.children = []) (url : Text) : url ∉ tree.urls := by
  intro among
  have here : tree.root.url = some url := (BookmarksManager.mem_urlsOf_leaf empty 0).mp among
  obtain ⟨⟨id, title, itemUrl, isFolder, children⟩, nextId⟩ := tree
  have noUrl : itemUrl = none := (formed.shaped _ mem_cons_self).1.mp formed.folder
  cases noUrl.symm.trans here

theorem restoreBookmarkTree_spec (root : BookmarkItem) (bookmarks : List Bookmark) :
    BookmarksManager.Formed (restoreBookmarkTree root bookmarks).root ∧
      (SameUrls bookmarks (restoreBookmarkTree root bookmarks) ↔
        ∀ tree, BookmarksManager.fromRoot root = .ok tree → tree.root.children ≠ [] →
          SameUrls bookmarks tree) := by
  -- a tree that has nothing in it is filled
  have filled {tree : BookmarksManager} (formed : BookmarksManager.Formed tree.root)
      (empty : tree.root.children = []) :
      BookmarksManager.Formed (bookmarks.foldl (fun tree bookmark =>
          (tree.addBookmark tree.root.id bookmark.title bookmark.url).2) tree).root ∧
        SameUrls bookmarks (bookmarks.foldl (fun tree bookmark =>
          (tree.addBookmark tree.root.id bookmark.title bookmark.url).2) tree) := by
    obtain ⟨formed', urls⟩ := filled_urls bookmarks formed
    exact ⟨formed', fun url => ((urls url).trans (or_iff_left (urls_empty formed empty url))).symm⟩
  unfold restoreBookmarkTree
  cases taken : BookmarksManager.fromRoot root with
  | error error =>
    obtain ⟨formed, same⟩ := filled BookmarksManager.formed_new rfl
    exact ⟨formed, iff_of_true same nofun⟩
  | ok tree =>
    obtain ⟨rfl, formed, -⟩ := BookmarksManager.fromRoot_ok taken
    dsimp only
    split
    · next empty =>
      obtain ⟨formed', same⟩ := filled formed (List.isEmpty_iff.mp empty)
      refine ⟨formed', iff_of_true same ?_⟩
      rintro other ⟨⟩ some
      exact absurd (List.isEmpty_iff.mp empty) some
    · next some =>
      refine ⟨formed, fun same other taken' _ => ?_, fun h => h tree rfl ?_⟩
      · cases taken'
        exact same
      · exact fun empty => some (List.isEmpty_iff.mpr empty)

/-- A manager whose list and tree have the same URLs. -/
structure Twinned (manager : StorageManager R) : Prop where
  formed : BookmarksManager.Formed manager.bookmarkTree.root
  same : SameUrls manager.bookmarks manager.bookmarkTree

theorem mem_removed {bookmarks : List Bookmark} {url gone : Text} :
    url ∈ (bookmarks.filter (·.url != gone)).map (·.url) ↔
      url ≠ gone ∧ url ∈ bookmarks.map (·.url) := by
  simp only [mem_map, mem_filter, bne_iff_ne]
  constructor
  · rintro ⟨bookmark, ⟨among, other⟩, rfl⟩
    exact ⟨other, bookmark, among, rfl⟩
  · rintro ⟨other, bookmark, among, rfl⟩
    exact ⟨bookmark, ⟨among, other⟩, rfl⟩

theorem mem_added {bookmarks : List Bookmark} {url : Text} {bookmark : Bookmark} :
    url ∈ (bookmarks ++ [bookmark]).map (·.url) ↔
      url = bookmark.url ∨ url ∈ bookmarks.map (·.url) := by
  rw [map_append, mem_append, or_comm]
  exact or_congr_left mem_singleton

namespace StorageManager

variable {manager : StorageManager R}

theorem isBookmarked_iff {url : Text} :
    manager.isBookmarked url = true ↔ url ∈ manager.bookmarks.map (·.url) := by
  rw [isBookmarked, any_eq_true, mem_map]
  exact exists_congr fun bookmark => and_congr_right fun _ => beq_iff_eq

theorem twinned_removeBookmark (twinned : Twinned manager) (url : Text) :
    Twinned (manager.removeBookmark url) := by
  obtain ⟨formed, urls⟩ := BookmarksManager.removeUrl_urls twinned.formed url
  refine ⟨formed, fun other => ?_⟩
  show other ∈ (manager.bookmarks.filter (·.url != url)).map (·.url) ↔ _
  rw [mem_removed, twinned.same]
  exact (urls other).symm

theorem twinned_toggleBookmark (twinned : Twinned manager) (url title : Text) (now : Int) :
    Twinned (manager.toggleBookmark url title now).2 := by
  unfold toggleBookmark
  split
  · exact twinned_removeBookmark twinned url
  · obtain ⟨formed, urls⟩ := BookmarksManager.addBookmark_root twinned.formed title url
    refine ⟨formed, fun other => ?_⟩
    rw [mem_added, twinned.same]
    exact (urls other).symm

theorem twinned_createBookmarkFolder (twinned : Twinned manager) (parentId : Nat) (title : Text) :
    Twinned (manager.createBookmarkFolder parentId title).2 := by
  unfold createBookmarkFolder
  rcases manager.bookmarkTree.createFolder_cases parentId title with
    ⟨id, after, created, urls⟩ | ⟨error, after, refused, kept⟩
  · rw [created]
    exact ⟨twinned.formed.step (.createFolder created), fun other =>
      (twinned.same other).trans (urls other).symm⟩
  · rw [refused]
    refine ⟨kept ▸ twinned.formed, fun other => ?_⟩
    show _ ↔ other ∈ BookmarksManager.urlsOf (BookmarksManager.entries after.root 0)
    rw [kept]
    exact twinned.same other

theorem twinned_addBookmarkToFolder (twinned : Twinned manager) (parentId : Nat)
    (title url : Text) (now : Int) :
    Twinned (manager.addBookmarkToFolder parentId title url now).2 := by
  unfold addBookmarkToFolder
  rcases manager.bookmarkTree.addBookmark_cases parentId title url with
    ⟨id, after, added, urls⟩ | ⟨error, after, refused, kept⟩
  · rw [added]
    refine ⟨twinned.formed.step (.addBookmark added), fun other => ?_⟩
    rw [urls, ← twinned.same]
    dsimp only
    split
    · next known =>
      refine (or_iff_right_of_imp ?_).symm
      rintro rfl
      exact isBookmarked_iff.mp known
    · exact mem_added
  · rw [refused]
    refine ⟨kept ▸ twinned.formed, fun other => ?_⟩
    show _ ↔ other ∈ BookmarksManager.urlsOf (BookmarksManager.entries after.root 0)
    rw [kept]
    exact twinned.same other

theorem twinned_applyState (state : StorageState R) (now : Int) :
    Twinned (manager.applyState state now) ↔ Agrees state := by
  obtain ⟨formed, same⟩ := restoreBookmarkTree_spec state.bookmarkTree state.bookmarks
  exact ⟨fun twinned => same.mp twinned.same, fun agrees => ⟨formed, same.mpr agrees⟩⟩

theorem agrees_state (twinned : Twinned manager) : Agrees manager.state := by
  intro tree taken _ url
  obtain ⟨same, -⟩ := BookmarksManager.fromRoot_ok taken
  show url ∈ manager.bookmarks.map (·.url) ↔
    url ∈ BookmarksManager.urlsOf (BookmarksManager.entries tree.root 0)
  rw [same]
  exact twinned.same url

theorem twinned_fresh [Inhabited R] : Twinned (fresh (R := R)) where
  formed := BookmarksManager.formed_new
  same url := iff_of_false not_mem_nil (urls_empty BookmarksManager.formed_new rfl url)

end StorageManager

/-! ## Browsers -/

namespace BookmarkBrowser

variable [StateFormat R]

/-- The list and the tree have the same URLs. -/
def InStep (browser : BookmarkBrowser R) : Prop :=
  SameUrls browser.manager.bookmarks browser.manager.bookmarkTree

variable (R) in
/-- Whatever is read from the files is in order. -/
def DiskAgrees (disk : ProfileDisk) : Prop :=
  ∀ state : StorageState R, storedState disk = some state → Agrees state

structure Kept (browser : BookmarkBrowser R) : Prop where
  twinned : Twinned browser.manager
  disk : DiskAgrees R browser.disk

theorem twinned_load {manager : StorageManager R} (twinned : Twinned manager) {disk : ProfileDisk}
    (agrees : DiskAgrees R disk) (now : Int) : Twinned (load manager disk now) := by
  rw [load_eq]
  cases stored : storedState (R := R) disk with
  | none => exact twinned
  | some state => exact (StorageManager.twinned_applyState state now).mpr (agrees state stored)

theorem agrees_cut {manager : StorageManager R} (twinned : Twinned manager)
    {before after : ProfileDisk} (agrees : DiskAgrees R before)
    (h : after = before ∨
      ∃ json, StateFormat.toStringPretty manager.state = some json ∧ Cut before json after) :
    DiskAgrees R after := by
  rcases h with rfl | ⟨json, written, cut⟩
  · exact agrees
  · intro state stored
    rcases cut.stored (R := R) with old | ⟨new, -⟩ | ⟨none, -⟩
    · exact agrees state (old ▸ stored)
    · rw [new] at stored
      rw [readState_written written stored]
      exact StorageManager.agrees_state twinned
    · cases none.symm.trans stored

variable [Inhabited R]

theorem kept_started {disk : ProfileDisk} (agrees : DiskAgrees R disk) (around : Surroundings) :
    Kept (started disk around : BookmarkBrowser R) where
  twinned := by
    have loaded := twinned_load StorageManager.twinned_fresh agrees around.appliedAt
    exact ⟨loaded.formed, loaded.same⟩
  disk := agrees

variable {browser : BookmarkBrowser R}

theorem Kept.saved (kept : Kept browser) (around : Surroundings) :
    Kept (browser.saved around) := by
  have ends := save_ends browser.manager ⟨around.faults, browser.disk⟩
  unfold Job.Ends at ends
  unfold BookmarkBrowser.saved
  split at ends
  · next ran =>
    rw [ran]
    exact ⟨kept.twinned, agrees_cut kept.twinned kept.disk ends⟩
  · exact ends.elim
  · next ran =>
    rw [ran]
    exact kept_started (agrees_cut kept.twinned kept.disk ends) around

theorem Kept.changed (kept : Kept browser)
    {change : Except Text Nat × StorageManager R} (twinned : Twinned change.2)
    (around : Surroundings) : Kept (browser.changed change around) := by
  obtain ⟨result, manager⟩ := change
  cases result with
  | error error => exact ⟨twinned, kept.disk⟩
  | ok id =>
    have next : Kept { browser with manager } := ⟨twinned, kept.disk⟩
    exact next.saved around

theorem Kept.step (kept : Kept browser)
    (action : BookmarkAction × Surroundings) : Kept (browser.step action) := by
  obtain ⟨action, around⟩ := action
  have twinned := kept.twinned
  cases action with
  | toggle url title => exact ⟨StorageManager.twinned_toggleBookmark twinned url title _, kept.disk⟩
  | remove url => exact ⟨StorageManager.twinned_removeBookmark twinned url, kept.disk⟩
  | addToFolder parentId title url =>
    have added := StorageManager.twinned_addBookmarkToFolder twinned parentId title url around.now
    exact kept.changed added around
  | createFolder parentId title =>
    exact kept.changed (StorageManager.twinned_createBookmarkFolder twinned parentId title) around
  | save => exact kept.saved around
  | load => exact ⟨twinned_load twinned kept.disk around.now, kept.disk⟩
  | reopen =>
    refine kept_started (agrees_cut twinned kept.disk ?_) around
    exact Job.Ends.leaves (P := fun s => s = browser.disk ∨ ∃ json,
        StateFormat.toStringPretty browser.manager.state = some json ∧ Cut browser.disk json s)
      ((save_ends browser.manager ⟨around.faults, browser.disk⟩).weaken nofun fun _ => id)

end BookmarkBrowser

open BookmarkBrowser in
/-- However a browser is used, the list and the tree have the same URLs, exactly when what it
reads from the files at first is in order. -/
theorem bookmarks_in_step_iff [StateFormat R] [Inhabited R] (disk : ProfileDisk)
    (around : Surroundings) :
    (∀ actions, ∀ browser ∈ History.visited step (started disk around : BookmarkBrowser R) actions,
      browser.InStep) ↔ DiskAgrees R disk := by
  constructor
  · intro inStep state stored
    have opened : SameUrls (load StorageManager.fresh disk around.appliedAt).bookmarks
        (load StorageManager.fresh disk around.appliedAt).bookmarkTree :=
      inStep [] _ mem_cons_self
    rw [load_eq, stored] at opened
    exact (restoreBookmarkTree_spec state.bookmarkTree state.bookmarks).2.mp opened
  · intro agrees actions browser visited
    have kept := History.visited_keeps step (kept_started agrees around)
      (fun moment _ kept => kept.step moment.2) browser visited
    exact kept.twinned.same

end

/-! ## A file without the list -/

section Sample

/-- A profile with a bookmark in the tree and no list of bookmarks. -/
def treeOnlyJson : Bytes :=
  ("\x7b\"version\":\"2.0.7\",\"cookies\":\x7b\x7d,\"local_storage\":\x7b\x7d,\"bookmark_tree\":" ++
    "\x7b\"id\":1,\"title\":\"Bookmarks Bar\",\"url\":null,\"is_folder\":true,\"children\":[" ++
    "\x7b\"id\":2,\"title\":\"A\",\"url\":\"https://a.example/\",\"is_folder\":false," ++
    "\"children\":[]\x7d]\x7d\x7d").toUTF8.toList

/-- What is read of it: the missing fields have their defaults. -/
def treeOnly : StorageState Unit where
  schemaVersion := 1
  version := "2.0.7".toList
  cookies := ∅
  localStorage := ∅
  bookmarks := []
  bookmarkTree :=
    { id := 1, title := "Bookmarks Bar".toList, url := none, isFolder := true
      children := [⟨2, "A".toList, some "https://a.example/".toList, false, []⟩] }
  history := []
  downloads := []
  rest := ()

/-- The format on this text; nothing else is read. -/
@[reducible] def treeOnlyFormat : StateFormat Unit where
  toStringPretty _ := none
  fromSlice json := if json = treeOnlyJson then some treeOnly else none
  reads_back := nofun

/-- The browser opens with a bookmark in the tree that is not in the list. -/
theorem list_not_filled :
    let := treeOnlyFormat
    let disk : ProfileDisk := Function.update (fun _ => none) .main (some treeOnlyJson)
    ¬∀ actions, ∀ browser ∈ History.visited BookmarkBrowser.step
      (BookmarkBrowser.started disk ⟨[], 0, 0, 0⟩ : BookmarkBrowser Unit) actions,
        browser.InStep := by
  intro format disk inStep
  have opened := inStep [] _ mem_cons_self "https://a.example/".toList
  have inTree : "https://a.example/".toList ∈
      (fromStorageDir (R := Unit) disk 0 0).bookmarkTree.urls := by decide +kernel
  have notListed : "https://a.example/".toList ∉
      (fromStorageDir (R := Unit) disk 0 0).bookmarks.map (·.url) := by decide +kernel
  exact notListed (opened.mpr inTree)

end Sample

end GhitaBrowser.Storage
