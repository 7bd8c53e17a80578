import GhitaBrowser.Lib.Str
import GhitaBrowser.Lib.Jobs
import GhitaBrowser.Lib.OrdMap
import Mathlib.Order.Defs.LinearOrder

/-!
# Update packages and directories

The manifest of a release, the files that come with it, and the checks a package has to
pass before anything on disk is touched. `semver`, `url`, SHA-256 and Ed25519 are
parameters.
-/

namespace GhitaBrowser.Updater

def maxUpdateFiles : Nat := 4096
def maxUpdateFileBytes : Nat := 512 * 1024 * 1024
def maxUpdatePackageBytes : Nat := 2 * 1024 * 1024 * 1024
def maxManifestBytes : Nat := 2 * 1024 * 1024
def maxKeyIdBytes : Nat := 128
def maxPackagePathBytes : Nat := 512

inductive UpdateError where
  | invalidManifest (message : String)
  | invalidSignature (message : String)
  | downgradeDisallowed (message : String)
  | unsupportedVersion (message : String)
  | payloadCorrupt (message : String)
  | storageError (message : String)
  | interrupted (message : String)
  | diskFull (message : String)
  | unsafePath (message : String)
deriving DecidableEq

structure UpdateManifest where
  version : String
  minSupportedVersion : String
  channel : String
  downloadUrl : String
  releaseNotes : Option String
  isDelta : Bool
  deltaBaseVersion : Option String
  publisherKeyId : String
  fileHashes : Std.ExtTreeMap String String compare
  signature : String

/-- The files are listed in the order in which the hash map is walked. -/
structure UpdatePackage where
  manifest : UpdateManifest
  files : List (String × List UInt8)
  distinct : (files.map Prod.fst).Nodup

/-- The parameters: `semver::Version` with its order, `url::Url` by scheme and host,
`sha256_hex`, and `PublisherTrustStore::verify` for a key, a payload and a signature. -/
class Release where
  Version : Type
  order : LinearOrder Version
  parseVersion : String → Option Version
  parseUrl : String → Option (String × Option String)
  sha256Hex : List UInt8 → String
  verify : String → List UInt8 → String → Except UpdateError Unit

instance [Release] : LinearOrder Release.Version := Release.order

/-! ## Names and paths -/

def isIdentifier (text : String) : Bool :=
  text.toList.all fun c => c.isAlphanum || c == '.' || c == '_' || c == '-'

def eqIgnoreAsciiCase (a b : String) : Bool := toAsciiLowercase a == toAsciiLowercase b

def validateKeyId (keyId : String) : Except UpdateError Unit :=
  if keyId = "" ∨ keyId.utf8ByteSize > maxKeyIdBytes then
    .error (.invalidManifest "invalid key id: length must be between 1 and 128 bytes")
  else if !isIdentifier keyId then
    .error (.invalidManifest
      "invalid key id: only ASCII letters, digits, dot, underscore and hyphen are allowed")
  else .ok ()

def reservedBasenames : List String :=
  ["CON", "PRN", "AUX", "NUL", "COM1", "COM2", "COM3", "COM4", "COM5", "COM6", "COM7", "COM8",
    "COM9", "LPT1", "LPT2", "LPT3", "LPT4", "LPT5", "LPT6", "LPT7", "LPT8", "LPT9"]

/-- `str::split` at a character. -/
def splitAt (separator : Char) (text : String) : List String :=
  (text.toList.splitOn separator).map String.ofList

def isReservedBasename (segment : String) : Bool :=
  reservedBasenames.any fun name => eqIgnoreAsciiCase name ((splitAt '.' segment).headD "")

/-- A path below the root of a tree. -/
abbrev RelPath := List String

def components (relative : String) : RelPath := splitAt '/' relative

/-- `validate_package_path`. What the path parser would refuse is refused by its segments. -/
def validatePackagePath (path : String) : Except UpdateError Unit :=
  if path = "" ∨ path.utf8ByteSize > maxPackagePathBytes then .error (.unsafePath path)
  else if path.toList.any fun c => c == '\\' || c == ':' || c == Char.ofNat 0 then .error (.unsafePath path)
  else if (components path).any fun segment =>
      segment == "" || segment == "." || segment == ".." || segment.toList.getLast? == some '.' ||
        segment.toList.getLast? == some ' ' || isReservedBasename segment then
    .error (.unsafePath path)
  else .ok ()

/-! ## The manifest -/

section

variable [Release]

open Release

/-- The loop of `validate` over the hashes. -/
def validateHashes : List (String × String) → Except UpdateError Unit
  | [] => .ok ()
  | (path, digest) :: hashes => do
    validatePackagePath path
    if digest.utf8ByteSize ≠ 64 ∨ !(digest.toList.all fun c => c.isDigit || ('a' ≤ c && c ≤ 'f') ||
        ('A' ≤ c && c ≤ 'F')) then
      .error (.invalidManifest ("invalid SHA-256 for " ++ path))
    else validateHashes hashes

def UpdateManifest.validate (manifest : UpdateManifest) : Except UpdateError Unit := do
  if (parseVersion manifest.version).isNone then
    .error (.invalidManifest "version is not valid semver")
  if (parseVersion manifest.minSupportedVersion).isNone then
    .error (.invalidManifest "min_supported_version is not valid semver")
  if manifest.channel = "" ∨ manifest.channel.utf8ByteSize > 32 ∨ !isIdentifier manifest.channel then
    .error (.invalidManifest "channel is not a bounded identifier")
  match parseUrl manifest.downloadUrl with
  | none => .error (.invalidManifest "download_url is invalid")
  | some (scheme, host) =>
    let loopbackHttp := scheme = "http" ∧
      host.any fun host => host == "localhost" || host == "127.0.0.1" || host == "[::1]"
    if scheme ≠ "https" ∧ ¬ loopbackHttp then
      .error (.invalidManifest "download_url must use HTTPS outside loopback")
  if manifest.releaseNotes.any fun notes => notes.utf8ByteSize > 64 * 1024 then
    .error (.invalidManifest "release notes exceed 64 KiB")
  if manifest.isDelta then
    match manifest.deltaBaseVersion with
    | none => .error (.invalidManifest "delta update is missing its base version")
    | some base =>
      if (parseVersion base).isNone then
        .error (.invalidManifest "delta base version is invalid")
  else if manifest.deltaBaseVersion.isSome then
    .error (.invalidManifest "full update cannot declare a delta base")
  validateKeyId manifest.publisherKeyId
  if manifest.signature.utf8ByteSize ≠ 128 then
    .error (.invalidSignature "Ed25519 signatures must contain 128 hexadecimal characters")
  if manifest.fileHashes.size = 0 ∨ manifest.fileHashes.size > maxUpdateFiles then
    .error (.invalidManifest ("file hash count must be 1..=" ++ toString maxUpdateFiles))
  validateHashes manifest.fileHashes.toList

/-! ## The payload -/

namespace UpdatePackage

/-- The loop of `validate_payload` over the files; `total` is the size so far. -/
def validateFiles (manifest : UpdateManifest) :
    List (String × List UInt8) → Nat → Except UpdateError Nat
  | [], total => .ok total
  | (path, bytes) :: files, total => do
    validatePackagePath path
    if bytes.length > maxUpdateFileBytes then
      .error (.payloadCorrupt
        ("payload file exceeds " ++ toString maxUpdateFileBytes ++ " bytes: " ++ path))
    else if total + bytes.length ≥ 2 ^ 64 then .error (.payloadCorrupt "payload size overflow")
    else
      match manifest.fileHashes[path]? with
      | none => .error (.payloadCorrupt ("unsigned payload path: " ++ path))
      | some expected =>
        if !eqIgnoreAsciiCase expected (sha256Hex bytes) then
          .error (.payloadCorrupt ("SHA-256 mismatch for " ++ path))
        else validateFiles manifest files (total + bytes.length)

def validatePayload (package : UpdatePackage) : Except UpdateError Unit := do
  package.manifest.validate
  if package.files.length ≠ package.manifest.fileHashes.size then
    .error (.payloadCorrupt "payload paths do not match the signed manifest")
  let total ← validateFiles package.manifest package.files 0
  if total > maxUpdatePackageBytes then
    .error (.payloadCorrupt ("package exceeds " ++ toString maxUpdatePackageBytes ++ " bytes"))
  else .ok ()

/-- `to_be_bytes`. -/
def bigEndian (value : UInt64) : List UInt8 :=
  (List.range 8).map fun i => (value >>> (8 * (7 - i)).toUInt64).toUInt8

def pushStr (bytes : List UInt8) (value : String) : List UInt8 :=
  bytes ++ bigEndian value.utf8ByteSize.toUInt64 ++ value.toUTF8.data.toList

def pushU64 (bytes : List UInt8) (value : UInt64) : List UInt8 := bytes ++ bigEndian value

def canonicalPayload (package : UpdatePackage) : Except UpdateError (List UInt8) := do
  package.validatePayload
  let manifest := package.manifest
  let bytes := pushStr [] "ghitabrowser-update-package-v1"
  let bytes := pushStr bytes manifest.version
  let bytes := pushStr bytes manifest.minSupportedVersion
  let bytes := pushStr bytes manifest.channel
  let bytes := pushStr bytes manifest.downloadUrl
  let bytes := pushStr bytes (manifest.releaseNotes.getD "")
  let bytes := pushU64 bytes manifest.isDelta.toUInt64
  let bytes := pushStr bytes (manifest.deltaBaseVersion.getD "")
  let bytes := pushStr bytes manifest.publisherKeyId
  let bytes := pushU64 bytes manifest.fileHashes.size.toUInt64
  .ok (manifest.fileHashes.toList.foldl
    (fun bytes entry => pushStr (pushStr bytes entry.1) (toAsciiLowercase entry.2)) bytes)

def verifySignature (package : UpdatePackage) : Except UpdateError Unit := do
  let payload ← package.canonicalPayload
  verify package.manifest.publisherKeyId payload package.manifest.signature

def payloadBytes (package : UpdatePackage) : Nat :=
  (package.files.map fun file => file.2.length).sum

end UpdatePackage

end

end GhitaBrowser.Updater

/-!
## The directories of the updater

The trees on disk, the journal and the state file, and the file operations of the updater.
Every operation may fail or be the last one before the machine stops. A file that is
being written is then cut short, a directory that is being removed or copied is left with
what was done so far, and a journal is the old one or the new one.
-/

namespace GhitaBrowser.Updater

/-! ## The disk -/

inductive Entry where
  | directory
  | file (bytes : List UInt8)
  | symlink
deriving DecidableEq

/-- What lies below a directory. -/
abbrev Tree := Std.ExtTreeMap RelPath Entry compare

/-- The directories that the updater works on. -/
inductive Place where
  | install
  | staging
  | candidate
  | backup
deriving DecidableEq

inductive JournalPhase where
  | staged
  | backedUp
  | applying
  | committed
deriving DecidableEq

structure UpdateJournal where
  fromVersion : String
  toVersion : String
  phase : JournalPhase
  isDelta : Bool
deriving DecidableEq

inductive UpdateState where
  | idle
  | available (version : String)
  | staging
  | applying
  | rollingBack
  | rolledBack
  | failed (message : String)

structure PersistedUpdaterState where
  currentVersion : String
  state : UpdateState
  installedManifest : Option UpdateManifest

structure Disk where
  trees : Place → Option Tree
  /-- `journal.json`. -/
  journal : Option UpdateJournal
  /-- `state.json`. -/
  persisted : Option PersistedUpdaterState
  availableSpace : Nat

abbrev AbsPath := List String

structure UpdateManager where
  currentVersion : String
  state : UpdateState
  installedManifest : Option UpdateManifest
  installDir : Option AbsPath
  stateDir : Option AbsPath

/-- The manager in memory and what is on disk. -/
structure System where
  manager : UpdateManager
  disk : Disk

/-- In which order a directory is walked: `read_dir` lists in no particular order. -/
class Listing where
  order : Place → Tree → List (RelPath × Entry)
  perm : ∀ place tree, (order place tree).Perm tree.toList

abbrev Work (α : Type) := Job UpdateError System α

def System.setTree (system : System) (place : Place) (tree : Option Tree) : System :=
  { system with disk := { system.disk with trees := Function.update system.disk.trees place tree } }

/-! ## Single operations -/

def Fault.progress : Fault → Nat
  | .none => 0
  | .error progress => progress
  | .crash progress => progress

/-- An error of the operating system. -/
def osError : UpdateError := .storageError "I/O error"

/-- An operation that reads. -/
def look : Work Unit := .op osError (fun system => .ok ((), system)) fun _ system => system

/-- An operation on the tree at a place. -/
def onTree (place : Place) (effect : Tree → Except UpdateError Tree) (partway : Nat → Tree → Tree) :
    Work Unit :=
  .op osError
    (fun system =>
      match system.disk.trees place with
      | none => .error (.storageError "No such file or directory")
      | some tree =>
        match effect tree with
        | .ok tree => .ok ((), system.setTree place (some tree))
        | .error error => .error error)
    fun fault system =>
      match system.disk.trees place with
      | none => system
      | some tree =>
        match effect tree with
        | .ok _ => system.setTree place (some (partway (Fault.progress fault) tree))
        | .error _ => system

/-- An operation that is done when it has begun. -/
def begun (effect : Tree → Tree) (progress : Nat) (tree : Tree) : Tree :=
  if progress = 0 then tree else effect tree

def removeEntry (place : Place) (path : RelPath) : Work Unit :=
  onTree place (fun tree => .ok (tree.erase path)) (begun fun tree => tree.erase path)

/-- `create_dir` below a place, for a directory that may be there. -/
def makeDir (place : Place) (path : RelPath) : Work Unit :=
  onTree place
    (fun tree =>
      match tree[path]? with
      | none => .ok (tree.insert path .directory)
      | some .directory => .ok tree
      | some _ => .error (.storageError "File exists"))
    (begun fun tree => tree.insert path .directory)

/-- `fs::write` and `fs::copy`: the file is emptied, then the bytes are written. Links are
never copied, so there is none to write through. -/
def writeFile (place : Place) (path : RelPath) (bytes : List UInt8) : Work Unit :=
  onTree place
    (fun tree =>
      match tree[path]? with
      | some .directory => .error (.storageError "Is a directory")
      | some .symlink => .error (.storageError "Is a symbolic link")
      | _ => .ok (tree.insert path (.file bytes)))
    fun progress tree =>
      match progress with
      | 0 => tree
      | written + 1 => tree.insert path (.file (bytes.take written))

/-- `create_dir_all` for the root of a place. -/
def createRoot (place : Place) : Work Unit :=
  .op osError
    (fun system => .ok ((), system.setTree place (some ((system.disk.trees place).getD ∅))))
    fun fault system =>
      if Fault.progress fault = 0 then system
      else system.setTree place (some ((system.disk.trees place).getD ∅))

def removeRoot (place : Place) : Work Unit :=
  .op osError (fun system => .ok ((), system.setTree place none))
    fun fault system => if Fault.progress fault = 0 then system else system.setTree place none

/-- A file that is replaced by renaming, or removed: not done if the operation fails. -/
def replaceFile (change : Disk → Disk) : Work Unit :=
  .op osError (fun system => .ok ((), { system with disk := change system.disk }))
    fun fault system =>
      match fault with
      | .crash (_ + 1) => { system with disk := change system.disk }
      | _ => system

/-! ## Paths -/

def display (path : AbsPath) : String := "/" ++ "/".intercalate path

def UpdateManager.placePath (manager : UpdateManager) : Place → AbsPath
  | .install => manager.installDir.getD []
  | .staging => manager.stateDir.getD [] ++ ["staging"]
  | .candidate => manager.stateDir.getD [] ++ ["candidate"]
  | .backup => manager.stateDir.getD [] ++ ["backup"]

def validateDestructiveTarget (target : AbsPath) (guarded : List AbsPath) : Except UpdateError Unit :=
  if target.length ≤ 1 then
    .error (.unsafePath ("refusing broad destructive target: " ++ display target))
  else if guarded.any fun path => target.isPrefixOf path then
    .error (.unsafePath ("target contains protected data: " ++ display target))
  else .ok ()

/-! ## Directories -/

section

variable [Listing]

def removeEntries (place : Place) : List (RelPath × Entry) → Work Unit
  | [] => pure ()
  | (path, _) :: entries => do
    removeEntry place path
    removeEntries place entries

/-- `remove_dir_all`: what a directory holds goes before the directory. -/
def removeDirAll (place : Place) : Work Unit := do
  let system ← Job.get
  removeEntries place (Listing.order place ((system.disk.trees place).getD ∅)).reverse
  removeRoot place

def recreateDirectory (place : Place) (guarded : List Place) : Work Unit := do
  let system ← Job.get
  if (system.disk.trees place).isSome then
    Job.ofExcept (validateDestructiveTarget (system.manager.placePath place)
      (guarded.map system.manager.placePath))
    removeDirAll place
  createRoot place

/-- The loop of `copy_tree_bounded`; `files` and `bytes` are the counts so far. -/
def copyEntries (root : AbsPath) (destination : Place) :
    List (RelPath × Entry) → Nat → Nat → Work Unit
  | [], _, _ => pure ()
  | (path, entry) :: entries, files, bytes => do
    look
    match entry with
    | .symlink =>
      Job.throw (.unsafePath
        ("symbolic links are forbidden in update trees: " ++ display (root ++ path)))
    | .directory =>
      makeDir destination path
      copyEntries root destination entries files bytes
    | .file content =>
      if files + 1 > maxUpdateFiles ∨ bytes + content.length > maxUpdatePackageBytes then
        Job.throw (.payloadCorrupt "update tree exceeds file or byte limit")
      else
        writeFile destination path content
        copyEntries root destination entries (files + 1) (bytes + content.length)

def copyTreeBounded (source destination : Place) : Work Unit := do
  let system ← Job.get
  match system.disk.trees source with
  | none => pure ()
  | some tree =>
    createRoot destination
    copyEntries (system.manager.placePath source) destination (Listing.order source tree) 0 0

end

end GhitaBrowser.Updater
