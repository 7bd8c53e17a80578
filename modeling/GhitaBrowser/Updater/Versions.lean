import GhitaBrowser.Updater.Recovery
import GhitaBrowser.Updater.Interrupted

/-!
# Repairs and versions

The operations of the manager besides `apply_update`. None of them is told what version the
files are that it puts into place.
-/

namespace GhitaBrowser.Updater

open Release

/-- What a symbolic link leads to. -/
class Links where
  follow : Place → Tree → RelPath → Option (List UInt8)

section

variable [Release] [Listing] [Links]

def sha256FileHex (place : Place) (path : RelPath) : Work String := do
  look
  let system ← Job.get
  let tree := (system.disk.trees place).getD ∅
  match tree[path]? with
  | some (.file bytes) => do
    look
    pure (sha256Hex bytes)
  | some .directory => Job.throw (.storageError "Is a directory")
  | some .symlink =>
    match Links.follow place tree path with
    | some bytes => pure (sha256Hex bytes)
    | none => Job.throw (.storageError "No such file or directory")
  | none => Job.throw (.storageError "No such file or directory")

/-- `atomic_write`: the file is written elsewhere and renamed. -/
def atomicWrite (place : Place) (path : RelPath) (bytes : List UInt8) : Work Unit :=
  onTree place
    (fun tree =>
      match tree[path]? with
      | some .directory => .error (.storageError "Is a directory")
      | _ => .ok (tree.insert path (.file bytes)))
    (begun fun tree => tree.insert path (.file bytes))

/-- The loop of `RepairEngine::repair` over the files. A file that cannot be read is one that
does not match. -/
def repairFiles (fileHashes : Std.ExtTreeMap String String compare) :
    List (String × List UInt8) → Work (List String)
  | [] => pure []
  | (relative, bytes) :: files => do
    let actual ← Job.attempt (sha256FileHex .install (components relative))
    let matched :=
      match actual with
      | .ok actual => eqIgnoreAsciiCase actual (fileHashes[relative]?.getD "")
      | .error _ => false
    if matched then repairFiles fileHashes files
    else do
      makeDirs .install (parents (components relative))
      atomicWrite .install (components relative) bytes
      let repaired ← repairFiles fileHashes files
      pure (relative :: repaired)

/-- `RepairEngine::repair`. -/
def repairTree (package : UpdatePackage) : Work (List String) := do
  Job.ofExcept package.validatePayload
  let repaired ← repairFiles package.manifest.fileHashes package.files
  verifyTreeFiles .install package.manifest.fileHashes
  pure repaired

def repair (package : UpdatePackage) : Work (List String) := do
  Job.ofExcept package.verifySignature
  let system ← Job.get
  if system.manager.installDir.isNone then Job.throw (.storageError "no installation root configured")
  else
    let repaired ← repairTree package
    persistState
    pure repaired

def rollback : Work Unit := do
  let system ← Job.get
  if system.manager.installDir.isNone then Job.throw (.storageError "no installation root configured")
  else if system.manager.stateDir.isNone then
    Job.throw (.storageError "no updater state root configured")
  else
    setState .rollingBack
    restoreBackup
    setState .rolledBack
    persistState

/-- `check_update` on its own. -/
def checkForUpdate (manifest : UpdateManifest) : Work Unit := do
  let system ← Job.get
  Job.ofExcept (checkUpdate system.manager manifest)
  setState (.available manifest.version)

inductive Operation where
  | check (manifest : UpdateManifest)
  | apply (package : UpdatePackage)
  | rollback
  | repair (package : UpdatePackage)

def Operation.perform : Operation → Work Unit
  | check manifest => checkForUpdate manifest
  | apply package => do
    let _ ← applyUpdate package
    pure ()
  | rollback => Updater.rollback
  | repair package => do
    let _ ← Updater.repair package
    pure ()

end

end GhitaBrowser.Updater

/-!
## Versions

The version of the manager and the files that are installed. An update changes both. A rollback
and a repair with another package change the files alone, and after them an update may go below
the version that is installed.
-/

namespace GhitaBrowser.Updater

open Release

/-! ## What stays -/

/-- Neither the trees nor the version have changed. -/
structure Quiet (before after : System) : Prop where
  trees : after.disk.trees = before.disk.trees
  version : after.manager.currentVersion = before.manager.currentVersion
  installDir : after.manager.installDir = before.manager.installDir

theorem Quiet.refl (system : System) : Quiet system system := ⟨rfl, rfl, rfl⟩

theorem Quiet.trans {first second third : System} (h : Quiet first second) (h' : Quiet second third) :
    Quiet first third where
  trees := h'.trees.trans h.trees
  version := h'.version.trans h.version
  installDir := h'.installDir.trans h.installDir

/-- A job that is done has changed neither the trees nor the version. -/
abbrev IsQuiet {α : Type} (job : Work α) : Prop := ∀ s, job.Leads (fun _ t => Quiet s t) s

theorem IsQuiet.bind {α β : Type} {job : Work α} {next : α → Work β} (h : IsQuiet job)
    (hnext : ∀ value, IsQuiet (next value)) : IsQuiet (job >>= next) := fun s =>
  (h s).bind fun value t ht => (hnext value t).mono fun _ _ hu => ht.trans hu

theorem pure_quiet {α : Type} (value : α) : IsQuiet (pure value : Work α) := fun s =>
  Job.leads_pure (.refl s)

theorem throw_quiet {α : Type} (error : UpdateError) : IsQuiet (Job.throw error : Work α) :=
  fun _ => Job.leads_throw

theorem look_quiet : IsQuiet look := fun s =>
  Job.leads_of_ends fun _ => (look_ends (fun _ => .refl s) (fun _ => trivial) trivial :
    look.Ends (fun _ y => Quiet s y.state) (fun _ => True) (fun _ => True) _)

theorem setState_quiet (state : UpdateState) : IsQuiet (setState state) := fun _ =>
  Job.leads_modify ⟨rfl, rfl, rfl⟩

theorem replaceFile_quiet {change : Disk → Disk} (h : ∀ disk, (change disk).trees = disk.trees) :
    IsQuiet (replaceFile change) := fun s => by
  refine Job.leads_of_ends fun faults => (Update.replaceFile_ends change).mono ?_ (fun _ hy => hy) fun _ hs => hs
  intro _ y hy
  rw [hy]
  exact ⟨h _, rfl, rfl⟩

theorem failIf_quiet (condition : Bool) (error : UpdateError) : IsQuiet (failIf condition error) := by
  unfold failIf
  split
  · exact throw_quiet _
  · exact pure_quiet _

theorem interruptIf_quiet (condition : Bool) (state error : String) :
    IsQuiet (interruptIf condition state error) := by
  unfold interruptIf
  split
  · exact (setState_quiet _).bind fun _ => throw_quiet _
  · exact pure_quiet _

theorem preflightSpace_quiet (bytes : Nat) : IsQuiet (preflightSpace bytes) := fun s => by
  unfold preflightSpace
  refine Job.leads_get_bind ?_
  have hrest : IsQuiet (do
      look
      if s.disk.availableSpace < requiredSpace bytes then
        Job.throw (.diskFull
          ("requires " ++ toString (requiredSpace bytes) ++ " bytes, only " ++
            toString s.disk.availableSpace ++ " available"))
      else pure ()) := by
    refine look_quiet.bind fun _ => ?_
    split
    · exact throw_quiet _
    · exact pure_quiet _
  cases s.manager.stateDir with
  | none => exact throw_quiet _ s
  | some path => exact hrest s

theorem updateJournalPhase_quiet (phase : JournalPhase) : IsQuiet (updateJournalPhase phase) := by
  have hread : IsQuiet readJournal := fun s =>
    Job.leads_of_ends fun _ => Update.readJournal_ends.mono (fun _ _ hy => hy.1 ▸ .refl _)
      (fun _ hy => hy) fun _ hs => hs
  exact hread.bind fun _ => replaceFile_quiet fun _ => rfl

theorem persistState_quiet : IsQuiet persistState := fun s => by
  unfold persistState
  refine Job.leads_get_bind ?_
  dsimp only
  split
  · exact pure_quiet _ s
  · have hquiet : ∀ persisted, IsQuiet (replaceFile fun disk => { disk with persisted := persisted }) :=
      fun _ => replaceFile_quiet fun _ => rfl
    exact hquiet _ s

theorem verifyTreeFiles_quiet [Release] (place : Place)
    (expected : Std.ExtTreeMap String String compare) : IsQuiet (verifyTreeFiles place expected) :=
  fun s => Job.leads_of_ends fun faults =>
    (@verifyFiles_ends ⟨faults, s⟩ place _ expected.toList).mono (fun _ _ hy => hy ▸ .refl _)
      (fun _ hy => hy) fun _ hs => hs

/-- The installation is as it was, with its version. -/
structure Still (before after : System) : Prop where
  install : after.disk.trees .install = before.disk.trees .install
  version : after.manager.currentVersion = before.manager.currentVersion
  installDir : after.manager.installDir = before.manager.installDir

theorem Still.trans {first second third : System} (h : Still first second) (h' : Still second third) :
    Still first third where
  install := h'.install.trans h.install
  version := h'.version.trans h.version
  installDir := h'.installDir.trans h.installDir

variable {before after : System}

theorem Quiet.still (h : Quiet before after) : Still before after where
  install := by rw [h.trees]
  version := h.version
  installDir := h.installDir

variable {P : Option Tree → Prop} {place : Place}

theorem At.still
    (h : At before place P after) (hplace : place ≠ .install) : Still before after := by
  obtain ⟨tree, -, rfl⟩ := h
  exact ⟨by simp [hplace.symm], rfl, rfl⟩

theorem At.tree (h : At before place P after) : P (after.disk.trees place) := by
  obtain ⟨tree, hP, rfl⟩ := h
  simpa using hP

theorem At.other {other : Place}
    (h : At before place P after) (hplace : other ≠ place) :
    after.disk.trees other = before.disk.trees other := by
  obtain ⟨tree, -, rfl⟩ := h
  simp [hplace]

/-- The files are in place, with the version that the manager says. -/
structure Has (tree : Tree) (version : String) (before after : System) : Prop where
  install : after.disk.trees .install = some tree
  version : after.manager.currentVersion = version
  installDir : after.manager.installDir = before.manager.installDir

theorem Has.still {tree : Tree} {version : String} {before middle after : System}
    (h : Has tree version before middle) (h' : Still middle after) : Has tree version before after where
  install := h'.install.trans h.install
  version := h'.version.trans h.version
  installDir := h'.installDir.trans h.installDir

/-! ## Updating -/

section

variable [Listing] {s : System} {old new : Tree}

theorem clearPlace_still (hplace : place ≠ .install) :
    (clearPlace place).Leads (fun _ t => Still s t) s := by
  unfold clearPlace
  refine Job.leads_get_bind ?_
  cases htree : s.disk.trees place with
  | none =>
    rw [Option.isSome_none, if_neg Bool.false_ne_true]
    exact Job.leads_pure (Quiet.refl s).still
  | some tree =>
    rw [Option.isSome_some, if_pos rfl]
    have hremove : (removeDirAll place).Leads (fun _ t => At s place (· = none) t) s :=
      Job.leads_of_ends fun _ => removeDirAll_ends (F := fun _ => True) (fun _ _ _ => trivial) htree trivial
    exact hremove.mono fun _ _ ht => ht.still hplace

theorem clearJournalAndStaging_still : clearJournalAndStaging.Leads (fun _ t => Still s t) s := by
  have hrest (t : System) : (do
      clearPlace .staging
      clearPlace .candidate : Work Unit).Leads (fun _ u => Still t u) t :=
    (clearPlace_still (by decide)).bind fun _ u hu =>
      (clearPlace_still (by decide)).mono fun _ _ hv => hu.trans hv
  unfold clearJournalAndStaging
  refine Job.leads_get_bind ?_
  dsimp only
  split
  · have hgone : IsQuiet (replaceFile fun disk => { disk with journal := none }) :=
      replaceFile_quiet fun _ => rfl
    exact (hgone s).bind fun _ t ht => (hrest t).mono fun _ _ hu => ht.still.trans hu
  · exact hrest s

theorem recreateDirectory_leads (place : Place) (guarded : List Place) :
    (recreateDirectory place guarded).Leads (fun _ t => At s place (· = some ∅) t) s :=
  Job.leads_of_ends fun _ => recreate_ends guarded

theorem copyTreeBounded_leads {source : Place} (hsource : s.disk.trees source = some new)
    (hplace : s.disk.trees place = some ∅) :
    (copyTreeBounded source place).Leads (fun _ t => At s place (· = some new) t) s := by
  have hcopy : (copyTreeBounded source place).Leads (fun _ t => At s place
      (fun left => ∃ after, left = some after ∧ Over new ((s.disk.trees place).getD ∅) after) t) s :=
    Job.leads_of_ends fun _ => copy_ends hsource
  refine hcopy.mono fun _ t ht => ht.mono ?_
  rintro left ⟨after, rfl, hover⟩
  rw [hplace, Option.getD_some] at hover
  rw [hover.empty]

theorem replaceInstall_leads (fault : UpdateFault) (hcandidate : s.disk.trees .candidate = some new) :
    (replaceInstall fault).Leads (fun _ t => At s .install (· = some new) t) s := by
  unfold replaceInstall
  split
  · exact Job.leads_throw
  refine (recreateDirectory_leads .install [.backup]).bind fun _ t ht => ?_
  have hcopy : (copyTreeBounded .candidate .install).Leads
      (fun _ u => At s .install (· = some new) u) t :=
    (copyTreeBounded_leads ((ht.other (by decide)).trans hcandidate) ht.tree).mono
      fun _ _ hu => (anything ht).trans hu
  refine Job.Leads.bind (Job.leads_attempt (P := fun result u =>
    result = .ok () → At s .install (· = some new) u) (hcopy.mono fun _ _ hu _ => hu) fun _ _ => nofun) ?_
  rintro result u hu
  cases result with
  | error error => exact Job.leads_any.bind fun _ _ _ => Job.leads_throw
  | ok value =>
    dsimp only
    split
    · exact Job.leads_any.bind fun _ _ _ => Job.leads_throw
    · exact Job.leads_pure (hu rfl)

variable [Release]

variable (package : UpdatePackage)

theorem prepareUpdate_leads (fault : UpdateFault) (hinstall : s.disk.trees .install = some old) :
    (prepareUpdate package fault).Leads
      (fun _ t => Still s t ∧ t.disk.trees .candidate = some (newTree old package)) s := by
  unfold prepareUpdate
  refine (failIf_quiet _ _ s).bind fun _ t ht => ?_
  refine (preflightSpace_quiet _ t).bind fun _ u hu => ?_
  refine Job.leads_get_bind ?_
  refine (setState_quiet _ u).bind fun _ v hv => ?_
  have hquiet := (ht.trans hu).trans hv
  have hstage : (stageUpdate package).Leads
      (fun _ t => At v .staging (· = some (overlayFiles ∅ package.files)) t) v :=
    Job.leads_of_ends fun _ => stageUpdate_ends package
  refine hstage.bind fun _ w hw => ?_
  have hstaged := hquiet.still.trans (hw.still (by decide))
  have hbuild : (buildCandidate package.manifest.isDelta).Leads
      (fun _ t => At w .candidate (· = some (newTree old package)) t) w :=
    Job.leads_of_ends fun _ => buildCandidate_ends package (hstaged.install.trans hinstall) hw.tree
  refine hbuild.bind fun _ x hx => ?_
  have hbuilt := hstaged.trans (hx.still (by decide))
  have hwritten : IsQuiet (writeJournal
      { fromVersion := u.manager.currentVersion
        toVersion := package.manifest.version
        phase := .staged
        isDelta := package.manifest.isDelta }) := replaceFile_quiet fun _ => rfl
  refine (hwritten x).bind fun _ y hy => (interruptIf_quiet _ _ _ y).bind fun _ z hz => ?_
  have hbefore := hy.trans hz
  have hbackup : createBackup.Leads (fun _ t => At z .backup (· = some old) t) z :=
    Job.leads_of_ends fun _ => (createBackup_ends ((hbuilt.trans hbefore.still).install.trans hinstall)).mono
      (fun _ _ h => h.2) (fun _ h => h) fun _ h => h
  refine hbackup.bind fun _ a ha => ?_
  have hlast : IsQuiet (do
      updateJournalPhase .backedUp
      interruptIf (fault = .interruptAfterBackup) "interrupted after backup" "fault after backup"
      setState .applying
      updateJournalPhase .applying) :=
    (updateJournalPhase_quiet _).bind fun _ => (interruptIf_quiet _ _ _).bind fun _ =>
      (setState_quiet _).bind fun _ => updateJournalPhase_quiet _
  refine (hlast a).mono fun _ b hb => ⟨?_, ?_⟩
  · exact ((hbuilt.trans hbefore.still).trans (ha.still (by decide))).trans hb.still
  · rw [hb.trees, ha.other (by decide), hbefore.trees]
    exact hx.tree

theorem commitUpdate_leads (hinstall : s.disk.trees .install = some new) :
    (commitUpdate package).Leads (fun _ t => Has new package.manifest.version s t) s := by
  unfold commitUpdate
  refine (verifyTreeFiles_quiet _ _ s).bind fun _ t ht => ?_
  refine (updateJournalPhase_quiet _ t).bind fun _ u hu => ?_
  have hquiet := ht.trans hu
  have hset : (setInstalled package.manifest).Leads
      (fun _ v => Has new package.manifest.version s v) u :=
    Job.leads_modify ⟨by rw [← hinstall, ← hquiet.trees], rfl, hquiet.installDir⟩
  refine hset.bind fun _ v hv => (persistState_quiet v).bind fun _ w hw => ?_
  exact clearJournalAndStaging_still.mono fun _ _ hx => hv.still (hw.still.trans hx)

theorem finishUpdate_leads (fault : UpdateFault)
    (hinstall : s.disk.trees .install = some old) (hcandidate : s.disk.trees .candidate = some new) :
    (finishUpdate package fault).Leads (fun _ t => Has new package.manifest.version s t) s := by
  have happly : (applyStagedUpdate fault).Leads
      (fun _ t => t.disk.trees .install = some new ∧ t.manager = s.manager) s := by
    have hbackup : createBackup.Leads (fun _ t => At s .backup (· = some old) t) s :=
      Job.leads_of_ends fun _ => (createBackup_ends hinstall).mono (fun _ _ h => h.2) (fun _ h => h)
        fun _ h => h
    refine hbackup.bind fun _ t ht => ?_
    refine (replaceInstall_leads fault ((ht.other (by decide)).trans hcandidate)).mono fun _ u hu => ⟨hu.tree, ?_⟩
    obtain ⟨_, -, rfl⟩ := ht
    obtain ⟨_, -, rfl⟩ := hu
    rfl
  unfold finishUpdate
  refine Job.Leads.bind (Job.leads_attempt (P := fun result t => result = .ok () →
    t.disk.trees .install = some new ∧ t.manager = s.manager) (happly.mono fun _ _ ht _ => ht)
    fun _ _ => nofun) ?_
  intro result t ht
  cases result with
  | error error =>
    -- after the rollback the error is thrown again
    have hthrown : (rollBack error).Leads (fun _ _ => False) t := by
      unfold rollBack
      refine Job.leads_any.bind fun result u _ => ?_
      cases result with
      | ok value => exact Job.leads_any.bind fun _ _ _ => Job.leads_any.bind fun _ _ _ => Job.leads_throw
      | error error =>
        exact Job.leads_any.bind fun _ _ _ => Job.leads_any.bind fun _ _ _ => Job.leads_throw
    exact hthrown.bind fun _ _ h => h.elim
  | ok value =>
    obtain ⟨hnew, hmanager⟩ := ht rfl
    refine (commitUpdate_leads package hnew).bind fun _ u hu => Job.leads_pure ⟨hu.install, hu.version, ?_⟩
    rw [hu.installDir, hmanager]

theorem applyUpdate_leads
    (hinstall : s.manager.installDir.isSome → s.disk.trees .install = some old) :
    (applyUpdate package).Leads (fun _ t => checkUpdate s.manager package.manifest = .ok () ∧
      t.manager.currentVersion = package.manifest.version ∧
      t.manager.installDir = s.manager.installDir ∧ (s.manager.installDir.isSome →
        t.disk.trees .install = some (newTree old package))) s := by
  have hbegin : (beginUpdate package).Leads (fun _ t =>
      checkUpdate s.manager package.manifest = .ok () ∧ Quiet s t) s :=
    Job.leads_get_bind (Job.leads_ofExcept_bind fun _ _ => Job.leads_ofExcept_bind fun _ hcheck =>
      (setState_quiet _ s).mono fun _ _ ht => ⟨hcheck, ht⟩)
  unfold applyUpdate applyUpdateWithFault
  refine hbegin.bind fun _ t ht => Job.leads_get_bind ?_
  obtain ⟨hcheck, ht⟩ := ht
  cases hdir : t.manager.installDir with
  | none =>
    have hnone : s.manager.installDir = none := ht.installDir.symm.trans hdir
    rw [Option.isNone_none, if_pos rfl]
    have hset : (setInstalled package.manifest).Leads
        (fun _ u => u.manager.currentVersion = package.manifest.version ∧
          u.manager.installDir = t.manager.installDir) t := Job.leads_modify ⟨rfl, rfl⟩
    refine hset.bind fun _ u hu => Job.leads_pure ⟨hcheck, hu.1, hu.2.trans ht.installDir, ?_⟩
    rw [hnone]
    nofun
  | some path =>
    have hsome : s.manager.installDir = some path := ht.installDir.symm.trans hdir
    rw [Option.isNone_some, if_neg Bool.false_ne_true]
    have hold : t.disk.trees .install = some old := by
      rw [ht.trees]
      exact hinstall (by rw [hsome]; rfl)
    refine (prepareUpdate_leads package .none hold).bind fun _ u hu => ?_
    refine (finishUpdate_leads package .none (hu.1.install.trans hold) hu.2).mono fun _ v hv => ?_
    exact ⟨hcheck, hv.version, hv.installDir.trans (hu.1.installDir.trans ht.installDir),
      fun _ => hv.install⟩

/-! ## Rolling back and repairing -/

omit [Release] in
theorem restoreBackup_leads (hbackup : s.disk.trees .backup = some old) :
    restoreBackup.Leads (fun _ t => At s .install (· = some old) t) s :=
  Job.leads_of_ends fun _ => restoreBackup_ends hbackup

omit [Release] in
theorem rollback_leads (hbackup : s.manager.installDir.isSome → s.disk.trees .backup = some old) :
    rollback.Leads (fun _ t => s.manager.installDir.isSome ∧
      Has old s.manager.currentVersion s t) s := by
  unfold rollback
  refine Job.leads_get_bind ?_
  cases hdir : s.manager.installDir with
  | none => exact Job.leads_throw
  | some path =>
    rw [Option.isNone_some, if_neg Bool.false_ne_true]
    split
    · exact Job.leads_throw
    · refine (setState_quiet _ s).bind fun _ t ht => ?_
      have hrestore : restoreBackup.Leads (fun _ u => At t .install (· = some old) u) t :=
        restoreBackup_leads ((congrArg (· .backup) ht.trees).trans (hbackup (by rw [hdir]; rfl)))
      refine hrestore.bind fun _ u hu => (setState_quiet _ u).bind fun _ v hv => ?_
      refine (persistState_quiet v).mono fun _ w hw => ⟨rfl, ?_⟩
      have hlast := (hv.trans hw).still
      have hmanager : u.manager = t.manager := by
        obtain ⟨_, -, rfl⟩ := hu
        rfl
      refine ⟨hlast.install.trans hu.tree, ?_, ?_⟩
      · rw [hlast.version, hmanager, ht.version]
      · rw [hlast.installDir, hmanager, ht.installDir]

/-- The file is in the tree, with the directories above it. -/
structure Holds (tree : Tree) (file : String × List UInt8) : Prop where
  parents : ∀ path ∈ parents (components file.1), tree[path]? = some .directory
  file : tree[components file.1]? = some (.file file.2)

omit [Listing] [Release] in
theorem makeDirs_same {paths : List RelPath} (h : ∀ path ∈ paths, old[path]? = some .directory) :
    paths.foldl (fun tree parent => tree.insert parent .directory) old = old := by
  induction paths with
  | nil => rfl
  | cons path paths ih =>
    rw [List.foldl_cons, insert_same (h path List.mem_cons_self)]
    exact ih fun other hother => h other (List.mem_cons_of_mem _ hother)

variable [Links]

omit [Listing] in
theorem sha256FileHex_ends {x : Exposed System} (place : Place) (path : RelPath) :
    (sha256FileHex place path).Ends (fun _ y => y.state = x.state) (fun y => y.state = x.state)
      (fun _ => True) x := by
  have hlook {y : Exposed System} (hy : y.state = x.state) : look.Ends
      (fun _ z => z.state = x.state) (fun z => z.state = x.state) (fun _ => True) y :=
    look_ends (fun _ => hy) (fun _ => hy) trivial
  unfold sha256FileHex
  refine (hlook rfl).bind fun _ y hy => Job.ends_get_bind ?_
  dsimp only
  split
  · exact (hlook hy).bind fun _ z hz => Job.ends_pure hz
  · exact Job.ends_throw hy
  · split
    · exact Job.ends_pure hy
    · exact Job.ends_throw hy
  · exact Job.ends_throw hy

omit [Listing] in
theorem repairFiles_leads (fileHashes : Std.ExtTreeMap String String compare)
    (files : List (String × List UInt8)) (hinstall : s.disk.trees .install = some old)
    (hfiles : ∀ file ∈ files, Holds old file) :
    (repairFiles fileHashes files).Leads (fun _ t => At s .install (· = some old) t) s := by
  induction files generalizing s with
  | nil => exact Job.leads_pure (.refl hinstall)
  | cons file files ih =>
    obtain ⟨relative, bytes⟩ := file
    obtain ⟨hparents, hfile⟩ := hfiles _ List.mem_cons_self
    have hrest {t : System} (ht : At s .install (· = some old) t) :
        (repairFiles fileHashes files).Leads (fun _ u => At s .install (· = some old) u) t :=
      (ih ht.tree fun other hother => hfiles other (List.mem_cons_of_mem _ hother)).mono
        fun _ _ hu => ht.trans hu
    have hread (faults : List Fault) : (Job.attempt (sha256FileHex .install (components relative))).Ends
        (fun _ y => y.state = s) (fun _ => True) (fun _ => True) ⟨faults, s⟩ :=
      Job.ends_attempt ((sha256FileHex_ends _ _).mono (fun _ _ hy => hy) (fun _ hy _ => hy) fun _ hs => hs)
    have hread : (Job.attempt (sha256FileHex .install (components relative))).Leads (fun _ t => t = s) s :=
      Job.leads_of_ends hread
    -- what is written is what was there
    have hwritten : (do
        makeDirs .install (parents (components relative))
        atomicWrite .install (components relative) bytes
        let repaired ← repairFiles fileHashes files
        pure (relative :: repaired)).Leads (fun _ t => At s .install (· = some old) t) s := by
      have hdirs : (makeDirs .install (parents (components relative))).Leads
          (fun _ t => At s .install (· = some old) t) s := by
        have hmade := fun faults => makeDirs_ends (x := ⟨faults, s⟩) (parents (components relative)) hinstall
        rw [makeDirs_same hparents] at hmade
        exact Job.leads_of_ends hmade
      refine hdirs.bind fun _ t ht => ?_
      have hwrite : (atomicWrite .install (components relative) bytes).Leads
          (fun _ u => At t .install (· = some old) u) t := by
        refine Job.leads_of_ends fun _ => onTree_ends (E := fun _ => True) ht.tree ?_ trivial fun _ => trivial
        intro after hafter
        split at hafter
        · cases hafter
        · rw [← Except.ok.inj hafter, insert_same hfile]
      refine hwrite.bind fun _ u hu => ?_
      exact (hrest (ht.trans hu)).bind fun _ _ hv => Job.leads_pure hv
    unfold repairFiles
    refine hread.bind fun actual t ht => ?_
    rw [ht]
    dsimp only
    cases actual with
    | error error => exact hwritten
    | ok actual =>
      dsimp only
      split
      · exact hrest (.refl hinstall)
      · exact hwritten

omit [Listing] in
theorem repair_leads (hinstall : s.manager.installDir.isSome → s.disk.trees .install = some old)
    (hfiles : ∀ file ∈ package.files, Holds old file) :
    (repair package).Leads (fun _ t => s.manager.installDir.isSome ∧
      Has old s.manager.currentVersion s t) s := by
  unfold repair
  refine Job.leads_ofExcept_bind fun _ _ => Job.leads_get_bind ?_
  cases hdir : s.manager.installDir with
  | none => exact Job.leads_throw
  | some path =>
    rw [Option.isNone_some, if_neg Bool.false_ne_true]
    have htree : (repairTree package).Leads (fun _ t => Has old s.manager.currentVersion s t) s := by
      refine Job.leads_ofExcept_bind fun _ _ => ?_
      refine (repairFiles_leads _ _ (hinstall (by rw [hdir]; rfl)) hfiles).bind fun _ t ht => ?_
      refine (verifyTreeFiles_quiet _ _ t).bind fun _ u hu => Job.leads_pure ?_
      have hplaced : Has old s.manager.currentVersion s t := by
        refine ⟨ht.tree, ?_, ?_⟩
        · obtain ⟨_, -, rfl⟩ := ht
          rfl
        · obtain ⟨_, -, rfl⟩ := ht
          rfl
      exact hplaced.still hu.still
    refine htree.bind fun _ t ht => (persistState_quiet t).bind fun _ u hu => ?_
    exact Job.leads_pure ⟨rfl, ht.still hu.still⟩

end

/-! ## Runs -/

section

variable [Release] [Listing] [Links] (published : String → Tree)

/-- The package is made of the files of its version: a full one has them all, and a delta has
those that are not there yet. -/
def Genuine (package : UpdatePackage) : Prop :=
  ∀ base, (package.manifest.isDelta → package.manifest.deltaBaseVersion = some base) →
    newTree (published base) package = published package.manifest.version

/-- The updates are made with packages of the publisher. -/
def Operation.Published : Operation → Prop
  | apply package => Genuine published package
  | _ => True

/-- The files of the current version are installed. -/
def Matches (system : System) : Prop :=
  system.manager.installDir.isSome →
    system.disk.trees .install = some (published system.manager.currentVersion)

/-- The operation does not bring back files of another version. -/
def Operation.Stays (system : System) : Operation → Prop
  | rollback => system.disk.trees .backup = some (published system.manager.currentVersion)
  | repair package => ∀ file ∈ package.files, Holds (published system.manager.currentVersion) file
  | _ => True

/-- The operation is done, and leaves this. -/
def Operation.Succeeds (operation : Operation) (before after : System) : Prop :=
  ∃ faults left, operation.perform ⟨faults, before⟩ = (.done (), ⟨left, after⟩)

/-- The version of the manifest is higher. -/
def Higher (current : String) (manifest : UpdateManifest) : Prop :=
  ∃ low high, parseVersion current = some low ∧ parseVersion manifest.version = some high ∧ low < high

omit [Listing] [Links] in
theorem checkUpdate_higher {manager : UpdateManager} {manifest : UpdateManifest}
    (h : checkUpdate manager manifest = .ok ()) : Higher manager.currentVersion manifest ∧
      (manifest.isDelta → manifest.deltaBaseVersion = some manager.currentVersion) := by
  have hparsed {text : String} {version : Version} (hparse : parseVersionOrError text = .ok version) :
      parseVersion text = some version := by
    unfold parseVersionOrError at hparse
    split at hparse
    · next found hfound => rw [hfound, Except.ok.inj hparse]
    · cases hparse
  unfold checkUpdate at h
  cases hvalid : manifest.validate with
  | error error => rw [hvalid] at h; cases h
  | ok value =>
  cases hcurrent : parseVersionOrError manager.currentVersion with
  | error error => rw [hvalid, hcurrent] at h; cases h
  | ok current =>
  cases htarget : parseVersionOrError manifest.version with
  | error error => rw [hvalid, hcurrent, htarget] at h; cases h
  | ok target =>
  cases hminimum : parseVersionOrError manifest.minSupportedVersion with
  | error error => rw [hvalid, hcurrent, htarget, hminimum] at h; cases h
  | ok minimum =>
    rw [hvalid, hcurrent, htarget, hminimum] at h
    simp only [bind, Except.bind] at h
    split at h
    · cases h
    split at h
    · cases h
    next hnewer =>
    split at h
    · cases h
    next hbase =>
    refine ⟨⟨current, target, hparsed hcurrent, hparsed htarget, not_le.mp hnewer⟩, fun hdelta => ?_⟩
    exact not_ne_iff.mp fun hne => hbase ⟨hdelta, hne⟩

theorem Operation.Succeeds.matches {operation : Operation}
    (hmatches : Matches published before) (hgenuine : operation.Published published)
    (hstays : operation.Stays published before) (h : operation.Succeeds before after) :
    Matches published after := by
  obtain ⟨faults, left, hrun⟩ := h
  -- a run that is done leaves what the operation leads to
  have hdone {P : System → Prop} (hleads : operation.perform.Leads (fun _ t => P t) before) : P after :=
    hleads faults () _ hrun
  -- the files of the same version are in place again
  have hsame (h : Has (published before.manager.currentVersion) before.manager.currentVersion before after) :
      Matches published after := fun _ => by rw [h.version]; exact h.install
  cases operation with
  | check manifest =>
    have hquiet : IsQuiet (Operation.check manifest).perform := fun s =>
      Job.leads_get_bind (Job.leads_ofExcept_bind fun _ _ => setState_quiet _ s)
    have h := hdone (hquiet before)
    intro hdir
    rw [h.trees, h.version]
    exact hmatches (h.installDir ▸ hdir)
  | apply package =>
    have happly := hdone ((applyUpdate_leads package hmatches).bind fun _ _ ht => Job.leads_pure ht)
    obtain ⟨hcheck, hversion, hdirs, hinstall⟩ := happly
    intro hdir
    rw [hversion, ← hgenuine _ (checkUpdate_higher hcheck).2]
    exact hinstall (hdirs ▸ hdir)
  | rollback => exact hsame (hdone ((rollback_leads fun _ => hstays).mono fun _ _ ht => ht.2))
  | repair package =>
    have hrepair : (Operation.repair package).perform.Leads (fun _ t =>
        Has (published before.manager.currentVersion) before.manager.currentVersion before t) before :=
      (repair_leads package hmatches hstays).bind fun _ _ ht => Job.leads_pure ht.2
    exact hsame (hdone hrepair)

/-- While no rollback and no repair brings back files of another version, the files of the
current version are installed, and every update goes up from there. -/
theorem updates_match {start final : System} (hstart : Matches published start)
    (hrun : Relation.ReflTransGen (fun s t => ∃ operation : Operation, operation.Published published ∧
      operation.Stays published s ∧ operation.Succeeds s t) start final) :
    Matches published final ∧
      (∀ manifest t, (Operation.check manifest).Succeeds final t →
        Higher final.manager.currentVersion manifest) ∧
      ∀ package t, Genuine published package → (Operation.apply package).Succeeds final t →
        Higher final.manager.currentVersion package.manifest ∧
          t.manager.currentVersion = package.manifest.version ∧ Matches published t := by
  have hfinal : Matches published final := by
    induction hrun with
    | refl => exact hstart
    | tail _ hstep ih =>
      obtain ⟨operation, hgenuine, hstays, hsucceeds⟩ := hstep
      exact hsucceeds.matches published ih hgenuine hstays
  refine ⟨hfinal, ?_, ?_⟩
  · rintro manifest t ⟨faults, left, hcheck⟩
    have hleads : (Operation.check manifest).perform.Leads
        (fun _ _ => Higher final.manager.currentVersion manifest) final :=
      Job.leads_get_bind (Job.leads_ofExcept_bind fun _ hok =>
        (setState_quiet _ final).mono fun _ _ _ => (checkUpdate_higher hok).1)
    exact hleads faults () _ hcheck
  · intro package t hgenuine hsucceeds
    have hpublished : (Operation.apply package).Published published := hgenuine
    have hmatches := hsucceeds.matches published hfinal hpublished trivial
    obtain ⟨faults, left, happly⟩ := hsucceeds
    have hleads : (Operation.apply package).perform.Leads (fun _ t =>
        Higher final.manager.currentVersion package.manifest ∧
          t.manager.currentVersion = package.manifest.version) final :=
      (applyUpdate_leads package hfinal).bind fun _ _ ht =>
        Job.leads_pure ⟨(checkUpdate_higher ht.1).1, ht.2.1⟩
    obtain ⟨hhigher, hversion⟩ := hleads faults () _ happly
    exact ⟨hhigher, hversion, hmatches⟩

end

/-! ## An update and a rollback -/

@[reducible] def sampleLinks : Links where
  follow _ _ _ := none

/-- The two versions of the sample. -/
def samplePublished (version : String) : Tree :=
  if version = "1.0.0" then sampleTree else newTree ∅ samplePackage

theorem genuine_sample : Genuine samplePublished samplePackage := fun _ _ => rfl

/-- A system after an operation without a fault. -/
def samplePerformed (operation : Operation) (system : System) : System :=
  (@Operation.perform sampleRelease sampleListing sampleLinks operation ⟨[], system⟩).2.state

/-- The operation is done. -/
abbrev SampleStep (operation : Operation) (s t : System) : Prop :=
  @Operation.Succeeds sampleRelease sampleListing sampleLinks operation s t

theorem sampleStep_of_done {operation : Operation} {system : System}
    (h : (@Operation.perform sampleRelease sampleListing sampleLinks operation ⟨[], system⟩).1.isDone = true) :
    SampleStep operation system (samplePerformed operation system) := by
  unfold SampleStep Operation.Succeeds samplePerformed
  generalize hrun : @Operation.perform sampleRelease sampleListing sampleLinks operation ⟨[], system⟩ = result
  rw [hrun] at h
  obtain ⟨ending, after⟩ := result
  cases ending with
  | done value => exact ⟨[], after.faults, hrun⟩
  | failed error => cases h
  | crashed => cases h

def sampleChecked : System := samplePerformed (.check samplePackage.manifest) sampleSystem

def sampleApplied : System := samplePerformed (.apply samplePackage) sampleChecked

def sampleRepaired : System := samplePerformed (.repair samplePackage) sampleApplied

/-- A check, the update and a repair with the same package. -/
theorem updates_match_sample :
    Matches samplePublished sampleRepaired ∧ sampleRepaired.manager.currentVersion = "2.0.0" ∧
      ∀ manifest t, @Operation.Succeeds sampleRelease sampleListing sampleLinks (.check manifest)
        sampleRepaired t → @Higher sampleRelease "2.0.0" manifest := by
  have hchecked : SampleStep (.check samplePackage.manifest) sampleSystem sampleChecked :=
    sampleStep_of_done (by decide +kernel)
  have happlied : SampleStep (.apply samplePackage) sampleChecked sampleApplied :=
    sampleStep_of_done (by decide +kernel)
  have hrepaired : SampleStep (.repair samplePackage) sampleApplied sampleRepaired :=
    sampleStep_of_done (by decide +kernel)
  have hversion : sampleRepaired.manager.currentVersion = "2.0.0" := by decide +kernel
  have hstays : (Operation.repair samplePackage).Stays samplePublished sampleApplied := by
    intro file hfile
    obtain rfl := List.mem_singleton.mp hfile
    have hfound : (samplePublished sampleApplied.manager.currentVersion)[components "app"]? =
        some (.file [2]) := by decide +kernel
    exact ⟨nofun, hfound⟩
  obtain ⟨hmatches, hhigher, -⟩ := @updates_match sampleRelease sampleListing sampleLinks
    samplePublished sampleSystem sampleRepaired (fun _ => rfl)
    (((Relation.ReflTransGen.single
      ⟨.check samplePackage.manifest, trivial, trivial, hchecked⟩).tail
      ⟨.apply samplePackage, genuine_sample, trivial, happlied⟩).tail
      ⟨.repair samplePackage, trivial, hstays, hrepaired⟩)
  exact ⟨hmatches, hversion, hversion ▸ hhigher⟩

/-- The rollback puts the old files back and keeps the new version. -/
theorem rollback_keeps_version : ¬ ∀ final, Relation.ReflTransGen (fun s t => ∃ operation : Operation,
      operation.Published samplePublished ∧ SampleStep operation s t) sampleSystem final →
    Matches samplePublished final := by
  intro hall
  have hupdate : SampleStep (.apply samplePackage) sampleSystem _ := sampleStep_of_done (by decide +kernel)
  have hrollback : SampleStep .rollback (samplePerformed (.apply samplePackage) sampleSystem) _ :=
    sampleStep_of_done (by decide +kernel)
  have hmatches := hall _ ((Relation.ReflTransGen.single ⟨.apply samplePackage, genuine_sample, hupdate⟩).tail
    ⟨.rollback, trivial, hrollback⟩)
  have hfile := congrArg (Option.map fun tree : Tree => tree[["app"]]?) (hmatches (by decide +kernel))
  exact absurd hfile (by decide +kernel)

end GhitaBrowser.Updater
