import Mathlib.Data.List.Infix
import GhitaBrowser.Updater.Package

/-!
# Applying and recovering an update

The package is staged and laid out as a candidate tree, the installed tree is backed up,
and the candidate replaces it. A journal says how far the update has come, and
`recover_interrupted_update` reads it when the update was cut off.
-/

namespace GhitaBrowser.Updater

open Release

/-- `UpdateFault`, which tests inject. -/
inductive UpdateFault where
  | none
  | diskFullBeforeStage
  | interruptAfterStage
  | interruptAfterBackup
  | interruptDuringApply
deriving DecidableEq

section

variable [Release] [Listing]

/-! ## The installer -/

/-- The directories that `create_dir_all` makes for a file. -/
def parents (path : RelPath) : List RelPath := path.dropLast.inits.tail

def makeDirs (place : Place) : List RelPath → Work Unit
  | [] => pure ()
  | path :: paths => do
    makeDir place path
    makeDirs place paths

/-- The loop of `stage_update` over the files. -/
def stageFiles : List (String × List UInt8) → Work Unit
  | [] => pure ()
  | (relative, bytes) :: files => do
    Job.ofExcept (validatePackagePath relative)
    makeDirs .staging (parents (components relative))
    writeFile .staging (components relative) bytes
    stageFiles files

/-- The loop of `verify_tree_files` over the expected digests. -/
def verifyFiles (place : Place) : List (String × String) → Work Unit
  | [] => pure ()
  | (relative, digest) :: expected => do
    Job.ofExcept (validatePackagePath relative)
    look
    let system ← Job.get
    match ((system.disk.trees place).getD ∅)[components relative]? with
    | none => Job.throw (.storageError "No such file or directory")
    | some (.file bytes) =>
      if bytes.length > maxUpdateFileBytes then
        Job.throw (.payloadCorrupt ("payload target exceeds size limit: " ++ relative))
      else
        look
        if !eqIgnoreAsciiCase digest (sha256Hex bytes) then
          Job.throw (.payloadCorrupt ("installed SHA-256 mismatch: " ++ relative))
        else verifyFiles place expected
    | some _ => Job.throw (.payloadCorrupt ("payload target is not a regular file: " ++ relative))

def verifyTreeFiles (place : Place) (expected : Std.ExtTreeMap String String compare) : Work Unit :=
  verifyFiles place expected.toList

def stageUpdate (package : UpdatePackage) : Work Unit := do
  Job.ofExcept package.validatePayload
  recreateDirectory .staging []
  stageFiles package.files
  verifyTreeFiles .staging package.manifest.fileHashes

def createBackup : Work Unit := do
  recreateDirectory .backup []
  copyTreeBounded .install .backup

def restoreBackup : Work Unit := do
  let system ← Job.get
  if (system.disk.trees .backup).isNone then Job.throw (.storageError "backup is missing")
  else
    recreateDirectory .install [.backup]
    copyTreeBounded .backup .install

/-- The part of `apply_staged_update` after the backup, with the candidate as the staged tree. -/
def replaceInstall (fault : UpdateFault) : Work Unit := do
  if fault = .interruptAfterBackup then Job.throw (.interrupted "fault after backup")
  else
    recreateDirectory .install [.backup]
    match ← Job.attempt (copyTreeBounded .candidate .install) with
    | .error error =>
      let _ ← Job.attempt restoreBackup
      Job.throw error
    | .ok () =>
      if fault = .interruptDuringApply then
        restoreBackup
        Job.throw (.interrupted "fault during apply")
      else pure ()

def applyStagedUpdate (fault : UpdateFault) : Work Unit := do
  createBackup
  replaceInstall fault

/-! ## Journal and state -/

def JournalPhase.name : JournalPhase → String
  | .staged => "Staged"
  | .backedUp => "BackedUp"
  | .applying => "Applying"
  | .committed => "Committed"

/-- `to_vec_pretty`; a version has no character that JSON escapes. -/
def UpdateJournal.encode (journal : UpdateJournal) : String :=
  "\x7b\n  \"from_version\": \"" ++ journal.fromVersion ++ "\",\n  \"to_version\": \"" ++
    journal.toVersion ++ "\",\n  \"phase\": \"" ++ journal.phase.name ++ "\",\n  \"is_delta\": " ++
    toString journal.isDelta ++ "\n\x7d"

def writeJournal (journal : UpdateJournal) : Work Unit :=
  replaceFile fun disk => { disk with journal := some journal }

/-- `read_bounded_json` of the journal. -/
def readJournal : Work UpdateJournal := do
  look
  let system ← Job.get
  match system.disk.journal with
  | none => Job.throw (.storageError "No such file or directory")
  | some journal =>
    if journal.encode.utf8ByteSize > maxManifestBytes then
      Job.throw (.payloadCorrupt ("JSON evidence exceeds " ++ toString maxManifestBytes ++ " bytes: " ++
        display (system.manager.stateDir.getD [] ++ ["journal.json"])))
    else pure journal

def updateJournalPhase (phase : JournalPhase) : Work Unit := do
  let journal ← readJournal
  writeJournal { journal with phase := phase }

/-- `remove_dir_all` of a directory that may be there. -/
def clearPlace (place : Place) : Work Unit := do
  let system ← Job.get
  if (system.disk.trees place).isSome then removeDirAll place else pure ()

def clearJournalAndStaging : Work Unit := do
  let system ← Job.get
  if system.disk.journal.isSome then replaceFile fun disk => { disk with journal := none }
  clearPlace .staging
  clearPlace .candidate

def System.setState (system : System) (state : UpdateState) : System :=
  { system with manager := { system.manager with state := state } }

def System.setJournal (system : System) (journal : Option UpdateJournal) : System :=
  { system with disk := { system.disk with journal := journal } }

def setState (state : UpdateState) : Work Unit := Job.modify fun system => system.setState state

def setVersion (version : String) : Work Unit :=
  Job.modify fun system => { system with manager := { system.manager with currentVersion := version } }

def persistState : Work Unit := do
  let system ← Job.get
  let manager := system.manager
  if manager.stateDir.isNone then pure ()
  else
    replaceFile fun disk =>
      { disk with
        persisted := some ⟨manager.currentVersion, manager.state, manager.installedManifest⟩ }

/-! ## The manager -/

/-- `VersionComparer::parse_version`. -/
def parseVersionOrError (value : String) : Except UpdateError Version :=
  match parseVersion value with
  | some version => .ok version
  | none => .error (.invalidManifest ("invalid semver: " ++ value))

def checkUpdate (manager : UpdateManager) (manifest : UpdateManifest) : Except UpdateError Unit := do
  manifest.validate
  let current ← parseVersionOrError manager.currentVersion
  let target ← parseVersionOrError manifest.version
  let minimum ← parseVersionOrError manifest.minSupportedVersion
  if current < minimum then
    .error (.unsupportedVersion
      (manager.currentVersion ++ " is older than required " ++ manifest.minSupportedVersion))
  if target ≤ current then
    .error (.downgradeDisallowed
      ("target " ++ manifest.version ++ " is not newer than " ++ manager.currentVersion))
  if manifest.isDelta ∧ manifest.deltaBaseVersion ≠ some manager.currentVersion then
    let base := (manifest.deltaBaseVersion.map fun base => "Some(\"" ++ base ++ "\")").getD "None"
    .error (.payloadCorrupt ("delta base " ++ base ++ " does not match " ++ manager.currentVersion))

/-- Three times the payload and 32 MiB, saturating. -/
def requiredSpace (payloadBytes : Nat) : Nat :=
  min (min (payloadBytes * 3) (2 ^ 64 - 1) + 32 * 1024 * 1024) (2 ^ 64 - 1)

def preflightSpace (payloadBytes : Nat) : Work Unit := do
  let system ← Job.get
  if system.manager.stateDir.isNone then Job.throw (.storageError "no updater state root configured")
  look
  if system.disk.availableSpace < requiredSpace payloadBytes then
    Job.throw (.diskFull
      ("requires " ++ toString (requiredSpace payloadBytes) ++ " bytes, only " ++
        toString system.disk.availableSpace ++ " available"))
  else pure ()

/-- The candidate tree: the installed one with the staged files over it for a delta. -/
def buildCandidate (isDelta : Bool) : Work Unit := do
  recreateDirectory .candidate [.install]
  if isDelta then copyTreeBounded .install .candidate
  copyTreeBounded .staging .candidate

def failIf (condition : Bool) (error : UpdateError) : Work Unit :=
  if condition then Job.throw error else pure ()

/-- The update stops at a fault that was asked for. -/
def interruptIf (condition : Bool) (state error : String) : Work Unit :=
  if condition then do
    setState (.failed state)
    Job.throw (.interrupted error)
  else pure ()

/-- The part of `apply_update_with_fault` up to `apply_staged_update`. -/
def prepareUpdate (package : UpdatePackage) (fault : UpdateFault) : Work Unit := do
  failIf (fault = .diskFullBeforeStage) (.diskFull "injected preflight failure")
  preflightSpace package.payloadBytes
  let system ← Job.get
  setState .staging
  stageUpdate package
  buildCandidate package.manifest.isDelta
  writeJournal
    { fromVersion := system.manager.currentVersion
      toVersion := package.manifest.version
      phase := .staged
      isDelta := package.manifest.isDelta }
  interruptIf (fault = .interruptAfterStage) "interrupted after stage" "fault after stage"
  createBackup
  updateJournalPhase .backedUp
  interruptIf (fault = .interruptAfterBackup) "interrupted after backup" "fault after backup"
  setState .applying
  updateJournalPhase .applying

/-- `UpdateError::to_string`. -/
def UpdateError.message : UpdateError → String
  | .invalidManifest message => "invalid update manifest: " ++ message
  | .invalidSignature message => "invalid update signature: " ++ message
  | .downgradeDisallowed message => "downgrade disallowed: " ++ message
  | .unsupportedVersion message => "unsupported version: " ++ message
  | .payloadCorrupt message => "corrupt update payload: " ++ message
  | .storageError message => "update storage error: " ++ message
  | .interrupted message => "update interrupted: " ++ message
  | .diskFull message => "insufficient disk space: " ++ message
  | .unsafePath message => "unsafe update path: " ++ message

/-- What `apply_update_with_fault` does when `apply_staged_update` has failed. -/
def rollBack (error : UpdateError) : Work Unit := do
  match ← Job.attempt restoreBackup with
  | .ok () => setState .rolledBack
  | .error rollbackError => setState (.failed rollbackError.message)
  persistState
  Job.throw error

def setInstalled (manifest : UpdateManifest) : Work Unit :=
  Job.modify fun system =>
    { system with
      manager :=
        { system.manager with
          currentVersion := manifest.version
          installedManifest := some manifest
          state := .idle } }

/-- The part of `apply_update_with_fault` after `apply_staged_update`. -/
def commitUpdate (package : UpdatePackage) : Work Unit := do
  verifyTreeFiles .install package.manifest.fileHashes
  updateJournalPhase .committed
  setInstalled package.manifest
  persistState
  clearJournalAndStaging

/-- The part of `apply_update_with_fault` before anything on disk is touched. -/
def beginUpdate (package : UpdatePackage) : Work Unit := do
  let system ← Job.get
  Job.ofExcept package.verifySignature
  Job.ofExcept (checkUpdate system.manager package.manifest)
  setState (.available package.manifest.version)

/-- The part of `apply_update_with_fault` from `apply_staged_update` on. -/
def finishUpdate (package : UpdatePackage) (fault : UpdateFault) : Work String := do
  match ← Job.attempt (applyStagedUpdate fault) with
  | .error error =>
    rollBack error
    pure package.manifest.version
  | .ok () =>
    commitUpdate package
    pure package.manifest.version

def applyUpdateWithFault (package : UpdatePackage) (fault : UpdateFault) : Work String := do
  beginUpdate package
  let system ← Job.get
  if system.manager.installDir.isNone then
    setInstalled package.manifest
    pure package.manifest.version
  else
    prepareUpdate package fault
    finishUpdate package fault

def applyUpdate (package : UpdatePackage) : Work String := applyUpdateWithFault package .none

/-- `recover_interrupted_update` when there may be a backup to go back to. -/
def recoverBackup (fromVersion : String) : Work Unit := do
  let system ← Job.get
  if system.manager.installDir.isNone then Job.throw (.storageError "no installation root configured")
  else
    setState .rollingBack
    restoreBackup
    setVersion fromVersion
    setState .rolledBack

def recoverPhase (journal : UpdateJournal) : Work Unit :=
  match journal.phase with
  | .staged => setState .idle
  | .backedUp | .applying => recoverBackup journal.fromVersion
  | .committed => do
    setVersion journal.toVersion
    setState .idle

def recoverInterruptedUpdate : Work Bool := do
  let system ← Job.get
  if system.manager.stateDir.isNone then pure false
  else if system.disk.journal.isNone then pure false
  else
    let journal ← readJournal
    recoverPhase journal
    persistState
    clearJournalAndStaging
    pure true

end

/-- `load_state` of a manager that is made again; `given` is the version it is made with. -/
def loadState (manager : UpdateManager) (given : String) (disk : Disk) : UpdateManager :=
  match disk.persisted with
  | none => { manager with currentVersion := given, state := .idle, installedManifest := none }
  | some persisted =>
    { manager with
      currentVersion := persisted.currentVersion
      state := persisted.state
      installedManifest := persisted.installedManifest }

end GhitaBrowser.Updater
