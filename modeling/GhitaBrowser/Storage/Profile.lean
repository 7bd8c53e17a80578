import GhitaBrowser.Lib.Jobs
import GhitaBrowser.Storage.Cookies

/-!
# The profile on disk

What the storage manager keeps, how it is saved and how it is loaded. A state is written to
a temporary file first; then the main file becomes the backup and the temporary file the
main file. Every operation may fail, or be the last one before the machine stops.
-/

namespace GhitaBrowser.Storage

open Html

/-! ## Bookmarks -/

structure BookmarkItem where
  id : Nat
  title : Text
  url : Option Text
  isFolder : Bool
  children : List BookmarkItem

structure BookmarksManager where
  root : BookmarkItem
  nextId : Nat

namespace BookmarksManager

def maxU64 : Nat := 2 ^ 64 - 1

def new : BookmarksManager :=
  { root := { id := 1, title := "Bookmarks Bar".toList, url := none, isFolder := true, children := [] }
    nextId := 2 }

/-- The ids that have been met and the largest of them. -/
structure Validation where
  seen : List Nat
  maxId : Nat

mutual

def validateTree : BookmarkItem → Nat → Validation → Except Text Validation
  | ⟨id, title, url, isFolder, children⟩, depth, found =>
    if depth > 32 || 10000 ≤ found.seen.length then
      .error "Bookmark tree exceeds its depth or item budget".toList
    else if found.seen.contains id then .error "Bookmark tree contains duplicate IDs".toList
    else if byteLen title > 4096 || url.any (byteLen · > 64 * 1024) then
      .error "Bookmark title or URL exceeds its byte budget".toList
    else if isFolder != url.isNone || (!isFolder && !children.isEmpty) then
      .error "Bookmark node shape is invalid".toList
    else validateChildren children (depth + 1) ⟨id :: found.seen, max found.maxId id⟩

def validateChildren : List BookmarkItem → Nat → Validation → Except Text Validation
  | [], _, found => .ok found
  | child :: children, depth, found =>
    match validateTree child depth found with
    | .error error => .error error
    | .ok found => validateChildren children depth found

end

def fromRoot (root : BookmarkItem) : Except Text BookmarksManager :=
  match validateTree root 0 ⟨[], 0⟩ with
  | .error error => .error error
  | .ok found =>
    if root.isFolder then .ok { root, nextId := min (found.maxId + 1) maxU64 }
    else .error "Bookmark root must be a folder".toList

mutual

/-- The tree with the item in its folder, if the folder is there. -/
def insertIntoNode : BookmarkItem → Nat → BookmarkItem → Option BookmarkItem
  | ⟨id, title, url, isFolder, children⟩, parentId, item =>
    if id == parentId && isFolder then some ⟨id, title, url, isFolder, children ++ [item]⟩
    else (insertIntoChildren children parentId item).map fun children =>
      ⟨id, title, url, isFolder, children⟩

def insertIntoChildren : List BookmarkItem → Nat → BookmarkItem → Option (List BookmarkItem)
  | [], _, _ => none
  | child :: children, parentId, item =>
    match if child.isFolder then insertIntoNode child parentId item else none with
    | some child => some (child :: children)
    | none => (insertIntoChildren children parentId item).map (child :: ·)

end

def addBookmark (bookmarks : BookmarksManager) (parentId : Nat) (title url : Text) :
    Except Text Nat × BookmarksManager :=
  let id := bookmarks.nextId
  let bookmarks := { bookmarks with nextId := (id + 1) % 2 ^ 64 }
  let item := { id, title, url := some url, isFolder := false, children := [] }
  match insertIntoNode bookmarks.root parentId item with
  | some root => (.ok id, { bookmarks with root })
  | none => (.error ("Parent folder ID ".toList ++ (toString parentId).toList ++ " not found".toList),
      bookmarks)

end BookmarksManager

/-! ## The state -/

structure Bookmark where
  url : Text
  title : Text
  addedAt : Int
deriving DecidableEq

structure HistoryRecord where
  url : Text
  title : Text
  visitedAt : Int
  visitCount : Nat
deriving DecidableEq

structure DownloadRecord where
  url : Text
  fileName : Text
  path : Text
  sizeBytes : Nat
  completedAt : Int
  success : Bool
deriving DecidableEq

/-- The data of each origin. -/
abbrev LocalStorages := Std.ExtTreeMap Text (Std.ExtTreeMap Text Text)

section

-- The settings, the session and the permissions.
variable {R : Type}

variable (R) in
structure StorageState where
  schemaVersion : Nat
  version : Text
  cookies : CookieStore
  localStorage : LocalStorages
  bookmarks : List Bookmark
  bookmarkTree : BookmarkItem
  history : List HistoryRecord
  downloads : List DownloadRecord
  rest : R

variable (R) in
structure StorageManager where
  cookies : CookieStore
  localStorage : LocalStorages
  bookmarks : List Bookmark
  bookmarkTree : BookmarksManager
  history : List HistoryRecord
  downloads : List DownloadRecord
  rest : R

def storageSchemaVersion : Nat := 3
def maxStorageBytes : Nat := 64 * 1024 * 1024

/-- The jars with the cookies that pass, without those that are left empty. -/
def keepCookies (keep : Cookie → Bool) (store : CookieStore) : CookieStore :=
  store.filterMap fun _ jar =>
    let jar := jar.filter keep
    if jar.isEmpty then none else some jar

def cleanExpired (store : CookieStore) (now : Int) : CookieStore :=
  keepCookies (fun cookie =>
    match cookie.expires with
    | some expires => expires > now
    | none => true) store

/-- Session cookies die with the session. -/
def persistedCookies (store : CookieStore) : CookieStore := keepCookies (·.expires.isSome) store

abbrev Bytes := List UInt8

/-- What `serde_json` makes of a state. What it has written it reads back as it was, or not
at all: it refuses what is nested too deeply. -/
class StateFormat (R : Type) where
  toStringPretty : StorageState R → Option Bytes
  fromSlice : Bytes → Option (StorageState R)
  reads_back : ∀ state json, toStringPretty state = some json →
    fromSlice json = some state ∨ fromSlice json = none

def version : Text := "2.0.7".toList

def StorageManager.state (manager : StorageManager R) : StorageState R :=
  { schemaVersion := storageSchemaVersion, version
    cookies := persistedCookies manager.cookies, localStorage := manager.localStorage
    bookmarks := manager.bookmarks, bookmarkTree := manager.bookmarkTree.root
    history := manager.history, downloads := manager.downloads, rest := manager.rest }

/-- A tree that is not valid is given up, and an empty one is filled from the bookmarks. -/
def restoreBookmarkTree (root : BookmarkItem) (bookmarks : List Bookmark) : BookmarksManager :=
  let tree :=
    match BookmarksManager.fromRoot root with
    | .ok tree => tree
    | .error _ => .new
  if tree.root.children.isEmpty then
    bookmarks.foldl (fun tree bookmark =>
      (tree.addBookmark tree.root.id bookmark.title bookmark.url).2) tree
  else tree

def StorageManager.applyState (manager : StorageManager R) (state : StorageState R) (now : Int) :
    StorageManager R :=
  { cookies := cleanExpired state.cookies now
    localStorage := state.localStorage.foldl (fun kept origin data => kept.insert origin data)
      manager.localStorage
    bookmarks := state.bookmarks
    bookmarkTree := restoreBookmarkTree state.bookmarkTree state.bookmarks
    history := state.history, downloads := state.downloads, rest := state.rest }

/-! ## The files -/

inductive ProfileFile where
  | main
  | backup
  | temporary
deriving DecidableEq

/-- The files of the storage directory. -/
abbrev ProfileDisk := ProfileFile → Option Bytes

abbrev SaveJob (α : Type) := Job Unit ProfileDisk α

/-- An operation that changes no file. -/
def untouched : SaveJob Unit := .op () (fun disk => .ok ((), disk)) fun _ disk => disk

/-- A file that is written, whole or up to where the operation gets. -/
def putFile (file : ProfileFile) (bytes : Bytes) : SaveJob Unit :=
  .op () (fun disk => .ok ((), Function.update disk file (some bytes))) fun fault disk =>
    match fault with
    | .none => disk
    | .error progress => Function.update disk file (some (bytes.take progress))
    | .crash progress => Function.update disk file (some (bytes.take progress))

/-- A change of the directory is done or not, and is not done if it fails. -/
def relink (file : ProfileFile) (change : Bytes → ProfileDisk → ProfileDisk) : SaveJob Unit :=
  .op ()
    (fun disk =>
      match disk file with
      | none => .error ()
      | some bytes => .ok ((), change bytes disk))
    fun fault disk =>
      match fault, disk file with
      | .crash (_ + 1), some bytes => change bytes disk
      | _, _ => disk

def removeFile (file : ProfileFile) : SaveJob Unit :=
  relink file fun _ disk => Function.update disk file none

def rename (source target : ProfileFile) : SaveJob Unit :=
  relink source fun bytes disk => Function.update (Function.update disk target (some bytes)) source none

/-! ## Saving -/

/-- `let _ = …`: a failure is passed over. -/
def passOver (job : SaveJob Unit) : SaveJob Unit := do
  let _ ← job.attempt
  pure ()

def removeBackup : SaveJob Unit := do
  let disk ← Job.get
  if (disk .backup).isSome then removeFile .backup else pure ()

def backUpMain : SaveJob Unit := do
  let disk ← Job.get
  if (disk .main).isSome then
    removeBackup
    rename .main .backup
  else pure ()

/-- After a failure the backup goes back to where it was. -/
def bringBack : SaveJob Unit := do
  let disk ← Job.get
  if (disk .backup).isSome && (disk .main).isNone then passOver (rename .backup .main)
  else pure ()

def replaceMain : SaveJob Unit := do
  match ← (rename .temporary .main).attempt with
  | .ok () => pure ()
  | .error error =>
    bringBack
    Job.throw error

def writeState (json : Bytes) : SaveJob Unit := do
  putFile .temporary []
  putFile .temporary json
  untouched
  backUpMain
  replaceMain

/-- What `save` does in a directory; a failure is logged. -/
def save [StateFormat R] (manager : StorageManager R) : SaveJob Unit := do
  match ← untouched.attempt with
  | .error _ => pure ()
  | .ok () =>
    match StateFormat.toStringPretty manager.state with
    | none => pure ()
    | some json =>
      match ← (writeState json).attempt with
      | .ok () => pure ()
      | .error _ => passOver (removeFile .temporary)

/-! ## Loading -/

section

variable [StateFormat R]

/-- A file that is too large or not understood is not read. -/
def readState (bytes : Bytes) : Option (StorageState R) :=
  if bytes.length > maxStorageBytes then none
  else
    match StateFormat.fromSlice bytes with
    | none => none
    | some state => if state.schemaVersion ≤ storageSchemaVersion then some state else none

def loadBackup (manager : StorageManager R) (disk : ProfileDisk) (now : Int) : StorageManager R :=
  match disk .backup with
  | none => manager
  | some backup =>
    match readState backup with
    | some state => manager.applyState state now
    | none => manager

def load (manager : StorageManager R) (disk : ProfileDisk) (now : Int) : StorageManager R :=
  match disk .main with
  | none => loadBackup manager disk now
  | some main =>
    match readState main with
    | some state => manager.applyState state now
    | none => loadBackup manager disk now

def StorageManager.fresh [Inhabited R] : StorageManager R :=
  { cookies := ∅, localStorage := ∅, bookmarks := [], bookmarkTree := .new, history := []
    downloads := [], rest := default }

/-- Open a profile; the clock is read when the state is applied and once more at the end. -/
def fromStorageDir [Inhabited R] (disk : ProfileDisk) (appliedAt openedAt : Int) : StorageManager R :=
  let manager := load StorageManager.fresh disk appliedAt
  { manager with cookies := cleanExpired manager.cookies openedAt }

end

end

end GhitaBrowser.Storage
