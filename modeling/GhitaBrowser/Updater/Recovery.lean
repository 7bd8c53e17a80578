import GhitaBrowser.Updater.Copying

/-!
# Recovery

An update is cut off anywhere, recovery is cut off any number of times, and then runs to
its end. The installation is the old tree with the old version or the new tree with the
new one, unless the update was cut off while the backup was made for the second time: that
backup overwrites the first one when the journal already says that there is one.
-/

namespace GhitaBrowser.Updater

/-! ## What an update leads to -/

section

/-- A file is put into a tree, with the directories above it. -/
def addFile (tree : Tree) (path : RelPath) (bytes : List UInt8) : Tree :=
  ((parents path).foldl (fun tree parent => tree.insert parent .directory) tree).insert path (.file bytes)

def overlayFiles (base : Tree) (files : List (String × List UInt8)) : Tree :=
  files.foldl (fun tree file => addFile tree (components file.1) file.2) base

/-- The files of the package; for a delta laid over the old tree. -/
def newTree (old : Tree) (package : UpdatePackage) : Tree :=
  overlayFiles (if package.manifest.isDelta then old else ∅) package.files

/-- The version that a manager finds which is made again; `given` is the version it is made with. -/
def recordedVersion (given : String) (disk : Disk) : String :=
  (disk.persisted.map PersistedUpdaterState.currentVersion).getD given

/-- The process is started again. -/
def System.restart (system : System) (given : String) : System :=
  { system with manager := loadState system.manager given system.disk }

/-- The system after a job; after a crash the process is started again. -/
def afterJob {α : Type} (given : String) : JobEnd UpdateError α × Exposed System → System
  | (.crashed, after) => after.state.restart given
  | (_, after) => after.state

/-- A call of `recover_interrupted_update`, in the same process or a new one. -/
structure Attempt where
  restart : Bool
  faults : List Fault

variable [Release] [Listing]

def System.recoverOnce (given : String) (system : System) (attempt : Attempt) : System :=
  afterJob given (recoverInterruptedUpdate
    ⟨attempt.faults, if attempt.restart then system.restart given else system⟩)

/-- Recovery that is cut off any number of times and then runs without a fault. -/
def System.recovered (given : String) (system : System) (attempts : List Attempt) (last : Bool) : System :=
  (attempts.foldl (System.recoverOnce given) system).recoverOnce given ⟨last, []⟩

/-- The system after an update with these faults. -/
def System.updated (given : String) (system : System) (package : UpdatePackage) (fault : UpdateFault)
    (faults : List Fault) : System :=
  afterJob given (applyUpdateWithFault package fault ⟨faults, system⟩)

end

/-- A tree and its version, before and after an update. -/
structure Update where
  old : Tree
  new : Tree
  fromVersion : String
  toVersion : String
  isDelta : Bool
  given : String

/-- The old tree with the old version or the new tree with the new one. -/
def Update.Consistent (update : Update) (version : String) (disk : Disk) : Prop :=
  (disk.trees .install = some update.old ∧ version = update.fromVersion ∧
      recordedVersion update.given disk = update.fromVersion) ∨
    (disk.trees .install = some update.new ∧ version = update.toVersion ∧
      recordedVersion update.given disk = update.toVersion)

/-- An installation that no update is being applied to. -/
structure Installed (given : String) (system : System) (old : Tree) : Prop where
  install : system.disk.trees .install = some old
  journal : system.disk.journal = none
  recorded : recordedVersion given system.disk = system.manager.currentVersion
  installDir : system.manager.installDir.isSome = true
  stateDir : system.manager.stateDir.isSome = true

namespace Update

variable {update : Update}

def journal (update : Update) (phase : JournalPhase) : UpdateJournal :=
  ⟨update.fromVersion, update.toVersion, phase, update.isDelta⟩

/-! ## The invariant -/

/-- The tree that a rollback leads to is the old one: nothing can be restored and the tree is
there, or the backup is whole. -/
structure Backed (update : Update) (system : System) : Prop where
  copyable : Copyable update.old
  refused : Refused system.manager → system.disk.trees .install = some update.old
  whole : ¬ Refused system.manager → system.disk.trees .backup = some update.old ∨
    system.disk.trees .backup = none ∧ system.disk.trees .install = some update.old

def AtPhase (update : Update) (version : String) (system : System) : JournalPhase → Prop
  | .staged => system.disk.trees .install = some update.old ∧ version = update.fromVersion ∧
    recordedVersion update.given system.disk = update.fromVersion
  | .backedUp => update.Backed system ∧ version = update.fromVersion ∧
    recordedVersion update.given system.disk = update.fromVersion
  | .applying => update.Backed system ∧ version = update.fromVersion ∧
    recordedVersion update.given system.disk = update.fromVersion
  | .committed => system.disk.trees .install = some update.new

/-- What holds wherever an update or a recovery is cut off; `version` is the one the manager
takes for the current one. -/
structure Sound (update : Update) (version : String) (system : System) : Prop where
  installDir : system.manager.installDir.isSome = true
  stateDir : system.manager.stateDir.isSome = true
  state : (system.disk.journal = none ∧ update.Consistent version system.disk) ∨
    ∃ phase, system.disk.journal = some (update.journal phase) ∧ update.AtPhase version system phase

/-- The same directories and places, whatever the manager says about its state. -/
structure SameDirs (a b : UpdateManager) : Prop where
  installDir : b.installDir = a.installDir
  stateDir : b.stateDir = a.stateDir

theorem SameDirs.refused {a b : UpdateManager} (h : SameDirs a b) : Refused b ↔ Refused a := by
  unfold Refused UpdateManager.placePath
  simp only [h.installDir, h.stateDir]

theorem sameDirs_loadState (manager : UpdateManager) (given : String) (disk : Disk) :
    SameDirs manager (loadState manager given disk) := by
  unfold loadState
  split
  · exact ⟨rfl, rfl⟩
  · exact ⟨rfl, rfl⟩

theorem currentVersion_loadState (manager : UpdateManager) (given : String) (disk : Disk) :
    (loadState manager given disk).currentVersion = recordedVersion given disk := by
  unfold loadState recordedVersion
  split
  · next hpersisted => rw [hpersisted]; rfl
  · next persisted hpersisted => rw [hpersisted]; rfl

namespace Sound

variable {version : String} {system : System}

theorem manager (h : update.Sound version system) {manager : UpdateManager}
    (hsame : SameDirs system.manager manager) : update.Sound version { system with manager := manager } where
  installDir := hsame.installDir ▸ h.installDir
  stateDir := hsame.stateDir ▸ h.stateDir
  state := by
    rcases h.state with hnone | ⟨phase, hjournal, hphase⟩
    · exact .inl hnone
    · refine .inr ⟨phase, hjournal, ?_⟩
      have hbacked : update.Backed system → update.Backed { system with manager := manager } := by
        intro hbacked
        refine ⟨hbacked.copyable, ?_, ?_⟩
        · exact fun hrefused => hbacked.refused (hsame.refused.mp hrefused)
        · exact fun hallowed => hbacked.whole fun hrefused => hallowed (hsame.refused.mpr hrefused)
      cases phase with
      | staged => exact hphase
      | backedUp => exact ⟨hbacked hphase.1, hphase.2⟩
      | applying => exact ⟨hbacked hphase.1, hphase.2⟩
      | committed => exact hphase

theorem recorded (h : update.Sound version system) :
    update.Sound (recordedVersion update.given system.disk) system where
  installDir := h.installDir
  stateDir := h.stateDir
  state := by
    rcases h.state with ⟨hnone, hconsistent⟩ | ⟨phase, hjournal, hphase⟩
    · refine .inl ⟨hnone, ?_⟩
      rcases hconsistent with ⟨hinstall, -, hrecorded⟩ | ⟨hinstall, -, hrecorded⟩
      · exact .inl ⟨hinstall, hrecorded, hrecorded⟩
      · exact .inr ⟨hinstall, hrecorded, hrecorded⟩
    · refine .inr ⟨phase, hjournal, ?_⟩
      cases phase with
      | staged => exact ⟨hphase.1, hphase.2.2, hphase.2.2⟩
      | backedUp => exact ⟨hphase.1, hphase.2.2, hphase.2.2⟩
      | applying => exact ⟨hphase.1, hphase.2.2, hphase.2.2⟩
      | committed => exact hphase

theorem restart (h : update.Sound (recordedVersion update.given system.disk) system) :
    update.Sound (system.restart update.given).manager.currentVersion (system.restart update.given) := by
  have hversion : (system.restart update.given).manager.currentVersion =
      recordedVersion update.given system.disk := currentVersion_loadState _ _ _
  rw [hversion]
  exact h.manager (sameDirs_loadState _ _ _)

theorem setTree (h : update.Sound version system) {place : Place} (hinstall : place ≠ .install)
    (hbackup : place ≠ .backup) (tree : Option Tree) :
    update.Sound version (system.setTree place tree) where
  installDir := h.installDir
  stateDir := h.stateDir
  state := by
    have htrees : ∀ other, other ≠ place →
        (system.setTree place tree).disk.trees other = system.disk.trees other := by
      intro other hne
      rw [System.setTree_trees, if_neg hne]
    have hinstall' := htrees .install hinstall.symm
    have hbacked : update.Backed system → update.Backed (system.setTree place tree) := by
      intro hbacked
      refine ⟨hbacked.copyable, ?_, ?_⟩
      · intro hrefused
        rw [hinstall']
        exact hbacked.refused hrefused
      · intro hallowed
        rw [hinstall', htrees .backup hbackup.symm]
        exact hbacked.whole hallowed
    unfold Consistent at *
    rw [hinstall']
    rcases h.state with hnone | ⟨phase, hjournal, hphase⟩
    · exact .inl hnone
    · refine .inr ⟨phase, hjournal, ?_⟩
      cases phase with
      | staged => exact ⟨hinstall'.trans hphase.1, hphase.2⟩
      | backedUp => exact ⟨hbacked hphase.1, hphase.2⟩
      | applying => exact ⟨hbacked hphase.1, hphase.2⟩
      | committed => exact hinstall'.trans hphase

theorem at_place (h : update.Sound version system) {place : Place} (hinstall : place ≠ .install)
    (hbackup : place ≠ .backup) {P : Option Tree → Prop} {after : System}
    (hat : At system place P after) : update.Sound version after := by
  obtain ⟨tree, -, rfl⟩ := hat
  exact h.setTree hinstall hbackup tree

theorem persist (h : update.Sound version system) (persisted : PersistedUpdaterState)
    (hversion : persisted.currentVersion = version) :
    update.Sound version { system with disk := { system.disk with persisted := some persisted } } where
  installDir := h.installDir
  stateDir := h.stateDir
  state := by
    have hrecorded : recordedVersion update.given { system.disk with persisted := some persisted } =
        version := hversion
    rcases h.state with ⟨hnone, hconsistent⟩ | ⟨phase, hjournal, hphase⟩
    · refine .inl ⟨hnone, ?_⟩
      rcases hconsistent with ⟨hinstall, hcurrent, -⟩ | ⟨hinstall, hcurrent, -⟩
      · exact .inl ⟨hinstall, hcurrent, hrecorded.trans hcurrent⟩
      · exact .inr ⟨hinstall, hcurrent, hrecorded.trans hcurrent⟩
    · refine .inr ⟨phase, hjournal, ?_⟩
      have hbacked : update.Backed system →
          update.Backed { system with disk := { system.disk with persisted := some persisted } } :=
        fun hbacked => ⟨hbacked.copyable, hbacked.refused, hbacked.whole⟩
      cases phase with
      | staged => exact ⟨hphase.1, hphase.2.1, hrecorded.trans hphase.2.1⟩
      | backedUp => exact ⟨hbacked hphase.1, hphase.2.1, hrecorded.trans hphase.2.1⟩
      | applying => exact ⟨hbacked hphase.1, hphase.2.1, hrecorded.trans hphase.2.1⟩
      | committed => exact hphase

end Sound

/-! ## Rules for jobs that keep the invariant -/

/-- However a job is cut off, the invariant holds. -/
def Holds (update : Update) (x : Exposed System) : Prop :=
  update.Sound x.state.manager.currentVersion x.state

def HoldsAfterRestart (update : Update) (system : System) : Prop :=
  update.Sound (recordedVersion update.given system.disk) system

variable {x : Exposed System}

theorem Holds.restart (h : update.Holds x) : update.HoldsAfterRestart x.state :=
  h.recorded

/-- However a job ends, its surroundings find the invariant. -/
theorem afterJob_sound {α : Type} {job : Work α} {done : α → Exposed System → Prop}
    (h : job.Ends done update.Holds update.HoldsAfterRestart x)
    (hdone : ∀ value y, done value y → update.Holds y) :
    update.Sound (afterJob update.given (job x)).manager.currentVersion (afterJob update.given (job x)) := by
  unfold Job.Ends at h
  generalize job x = result at h ⊢
  obtain ⟨ending, after⟩ := result
  cases ending with
  | done value => exact hdone value after h
  | failed error => exact h
  | crashed => exact Sound.restart h

theorem restarted_sound {s : System} (h : update.Sound s.manager.currentVersion s) (restart : Bool) :
    update.Sound (if restart then s.restart update.given else s).manager.currentVersion
      (if restart then s.restart update.given else s) := by
  split
  · exact h.recorded.restart
  · exact h

theorem Holds.setState (h : update.Holds x) (state : UpdateState) :
    update.Holds { x with state := x.state.setState state } :=
  h.manager ⟨rfl, rfl⟩

theorem Holds.of_state {x y : Exposed System} (h : update.Holds x) (hstate : y.state = x.state) :
    update.Holds y := by
  unfold Holds
  rw [hstate]
  exact h

theorem Holds.at_place {x y : Exposed System} (h : update.Holds x) {place : Place}
    (hinstall : place ≠ .install) (hbackup : place ≠ .backup) {P : Option Tree → Prop}
    (hat : At x.state place P y.state) : update.Holds y := by
  have hsound := Sound.at_place h hinstall hbackup hat
  obtain ⟨tree, -, hstate⟩ := hat
  unfold Holds
  rw [hstate] at hsound ⊢
  exact hsound

theorem Holds.crash_at_place (h : update.Holds x) {place : Place}
    (hinstall : place ≠ .install) (hbackup : place ≠ .backup) {P : Option Tree → Prop} {s : System}
    (hat : At x.state place P s) : update.HoldsAfterRestart s := by
  have hsound := Sound.at_place (Sound.recorded h) hinstall hbackup hat
  obtain ⟨tree, -, rfl⟩ := hat
  exact hsound

theorem replaceFile_ends (change : Disk → Disk) :
    (replaceFile change).Ends
      (fun _ y => y.state = { x.state with disk := change x.state.disk })
      (fun y => y.state = x.state)
      (fun s => s = x.state ∨ s = { x.state with disk := change x.state.disk }) x := by
  refine Job.ends_op ?_ (fun _ => rfl) (fun _ _ => rfl) ?_
  · intro value state faults heffect
    exact (Prod.mk.inj (Except.ok.inj heffect)).2.symm
  · intro progress
    cases progress with
    | zero => exact .inl rfl
    | succ progress => exact .inr rfl

theorem readJournal_ends :
    readJournal.Ends (fun journal y => y.state = x.state ∧ x.state.disk.journal = some journal)
      (fun y => y.state = x.state) (fun s => s = x.state) x := by
  have hlook : look.Ends (fun _ y => y.state = x.state) (fun y => y.state = x.state)
      (fun s => s = x.state) x := look_ends (fun _ => rfl) (fun _ => rfl) rfl
  unfold readJournal
  refine hlook.bind fun _ y hy => ?_
  refine Job.ends_get_bind ?_
  rw [hy]
  split
  · exact Job.ends_throw hy
  · next journal hjournal =>
    split
    · exact Job.ends_throw hy
    · exact Job.ends_pure ⟨hy, hjournal⟩

theorem readJournal_holds (h : update.Holds x) :
    readJournal.Ends (fun journal y => y.state = x.state ∧ x.state.disk.journal = some journal)
      update.Holds update.HoldsAfterRestart x := by
  refine readJournal_ends.weaken (fun y hy => h.of_state hy) ?_
  rintro s rfl
  exact h.restart

/-- Writing the state file changes nothing but the version that was recorded. -/
structure Persisted (update : Update) (before after : System) : Prop where
  manager : after.manager = before.manager
  trees : after.disk.trees = before.disk.trees
  journal : after.disk.journal = before.disk.journal
  recorded : recordedVersion update.given after.disk = before.manager.currentVersion

theorem persistState_holds (h : update.Holds x) :
    persistState.Ends (fun _ y => update.Holds y ∧ update.Persisted x.state y.state)
      update.Holds update.HoldsAfterRestart x := by
  unfold persistState
  refine Job.ends_get_bind ?_
  dsimp only
  rw [Option.isNone_eq_false_iff.mpr h.stateDir, if_neg Bool.false_ne_true]
  have hpersist := Sound.persist h
    ⟨x.state.manager.currentVersion, x.state.manager.state, x.state.manager.installedManifest⟩ rfl
  refine (replaceFile_ends _).mono ?_ ?_ ?_
  · intro _ y hy
    refine ⟨?_, ?_⟩
    · unfold Holds
      rw [hy]
      exact hpersist
    · rw [hy]
      exact ⟨rfl, rfl, rfl, rfl⟩
  · exact fun y hy => h.of_state hy
  · rintro s (rfl | rfl)
    · exact h.restart
    · exact hpersist

section

variable [Listing]

theorem clearPlace_holds (h : update.Holds x) {place : Place}
    (hinstall : place ≠ .install) (hbackup : place ≠ .backup) :
    (clearPlace place).Ends
      (fun _ y => update.Holds y ∧ y.state.disk.journal = x.state.disk.journal)
      update.Holds update.HoldsAfterRestart x := by
  unfold clearPlace
  refine Job.ends_get_bind ?_
  cases htree : x.state.disk.trees place with
  | none =>
    rw [Option.isSome_none, if_neg Bool.false_ne_true]
    exact Job.ends_pure ⟨h, rfl⟩
  | some tree =>
    rw [Option.isSome_some, if_pos rfl]
    refine (removeDirAll_ends (F := fun _ => True) (fun _ _ _ => trivial) htree trivial).mono ?_ ?_ ?_
    · intro _ y hy
      refine ⟨h.at_place hinstall hbackup hy, ?_⟩
      obtain ⟨_, -, hstate⟩ := hy
      rw [hstate]
      rfl
    · exact fun y hy => h.at_place hinstall hbackup hy
    · exact fun s hs => h.crash_at_place hinstall hbackup hs

theorem clearJournalAndStaging_holds (h : update.Holds x)
    (hconsistent : update.Consistent x.state.manager.currentVersion x.state.disk) :
    clearJournalAndStaging.Ends (fun _ y => update.Holds y ∧ y.state.disk.journal = none)
      update.Holds update.HoldsAfterRestart x := by
  have hclear : ∀ y : Exposed System, update.Holds y → y.state.disk.journal = none →
      (do
        clearPlace .staging
        clearPlace .candidate : Work Unit).Ends
        (fun _ z => update.Holds z ∧ z.state.disk.journal = none)
        update.Holds update.HoldsAfterRestart y := by
    intro y hy hnone
    refine (clearPlace_holds hy (by decide) (by decide)).bind fun _ z hz => ?_
    refine (clearPlace_holds hz.1 (by decide) (by decide)).mono ?_ (fun _ h => h) fun _ h => h
    exact fun _ w hw => ⟨hw.1, hw.2.trans (hz.2.trans hnone)⟩
  unfold clearJournalAndStaging
  refine Job.ends_get_bind ?_
  dsimp only
  cases hjournal : x.state.disk.journal with
  | none =>
    rw [Option.isSome_none, if_neg Bool.false_ne_true]
    exact hclear x h hjournal
  | some journal =>
    rw [Option.isSome_some, if_pos rfl]
    have hgone : ∀ version, update.Consistent version x.state.disk → update.Sound version
        { x.state with disk := { x.state.disk with journal := none } } := fun version hversion =>
      ⟨h.installDir, h.stateDir, .inl ⟨rfl, hversion⟩⟩
    have hrecorded : update.Consistent (recordedVersion update.given x.state.disk) x.state.disk := by
      rcases hconsistent with ⟨hinstall, -, hrecorded⟩ | ⟨hinstall, -, hrecorded⟩
      · exact .inl ⟨hinstall, hrecorded, hrecorded⟩
      · exact .inr ⟨hinstall, hrecorded, hrecorded⟩
    refine Job.Ends.bind ((replaceFile_ends _).weaken ?_ ?_) ?_
    · exact fun y hy => h.of_state hy
    · rintro s (rfl | rfl)
      · exact h.restart
      · exact hgone _ hrecorded
    · intro _ y hy
      have hholds : update.Holds y := by
        unfold Holds
        rw [hy]
        exact hgone _ hconsistent
      exact hclear y hholds (by rw [hy])

end

/-! ## Restoring the backup -/

/-- The journal says that there is a backup to go back to. -/
structure Rolling (update : Update) (system : System) : Prop where
  installDir : system.manager.installDir.isSome = true
  stateDir : system.manager.stateDir.isSome = true
  journal : ∃ phase, (phase = .backedUp ∨ phase = .applying) ∧
    system.disk.journal = some (update.journal phase)
  backed : update.Backed system
  current : system.manager.currentVersion = update.fromVersion
  recorded : recordedVersion update.given system.disk = update.fromVersion

namespace Rolling

theorem sound {version : String} {system : System} (h : update.Rolling system)
    (hversion : version = update.fromVersion) : update.Sound version system where
  installDir := h.installDir
  stateDir := h.stateDir
  state := by
    obtain ⟨phase, rfl | rfl, hjournal⟩ := h.journal
    · exact .inr ⟨_, hjournal, h.backed, hversion, h.recorded⟩
    · exact .inr ⟨_, hjournal, h.backed, hversion, h.recorded⟩

theorem holds (h : update.Rolling x.state) : update.Holds x := h.sound h.current

theorem holdsAfterRestart {system : System} (h : update.Rolling system) :
    update.HoldsAfterRestart system := h.sound h.recorded

theorem at_install {before after : System} (h : update.Rolling before)
    (hallowed : ¬ Refused before.manager) (hbackup : before.disk.trees .backup = some update.old)
    {P : Option Tree → Prop} (hat : At before .install P after) : update.Rolling after := by
  obtain ⟨tree, -, rfl⟩ := hat
  refine ⟨h.installDir, h.stateDir, h.journal, ⟨h.backed.copyable, ?_, ?_⟩, h.current, h.recorded⟩
  · exact fun hrefused => absurd hrefused hallowed
  · intro _
    refine .inl ?_
    rw [System.setTree_trees, if_neg (by decide)]
    exact hbackup

theorem setState {system : System} (h : update.Rolling system) (state : UpdateState) :
    update.Rolling (system.setState state) :=
  ⟨h.installDir, h.stateDir, h.journal, ⟨h.backed.copyable, h.backed.refused, h.backed.whole⟩,
    h.current, h.recorded⟩

end Rolling

section

variable [Listing]

theorem restoreBackup_rolling (h : update.Rolling x.state) :
    restoreBackup.Ends
      (fun _ y => update.Rolling y.state ∧ y.state.disk.trees .install = some update.old)
      (fun y => update.Rolling y.state) update.Rolling x := by
  by_cases hrefused : Refused x.state.manager
  · have hinstall := h.backed.refused hrefused
    refine (restoreBackup_blocked (.inr ⟨by rw [hinstall]; rfl, hrefused⟩)).mono ?_ ?_ ?_
    · exact fun _ _ h => h.elim
    · rintro y rfl
      exact h
    · exact fun _ h => h.elim
  · rcases h.backed.whole hrefused with hbackup | ⟨hnone, -⟩
    · refine (restoreBackup_ends hbackup).mono ?_ ?_ ?_
      · intro _ y hy
        refine ⟨h.at_install hrefused hbackup hy, ?_⟩
        obtain ⟨_, rfl, hstate⟩ := hy
        rw [hstate]
        simp
      · exact fun y hy => h.at_install hrefused hbackup hy
      · exact fun s hs => h.at_install hrefused hbackup hs
    · refine (restoreBackup_blocked (.inl hnone)).mono ?_ ?_ ?_
      · exact fun _ _ h => h.elim
      · rintro y rfl
        exact h
      · exact fun _ h => h.elim

/-! ## Recovery -/

/-- Tree and version agree, but for what was recorded. -/
def Settled (update : Update) (system : System) : Prop :=
  (system.disk.trees .install = some update.old ∧
      system.manager.currentVersion = update.fromVersion) ∨
    (system.disk.trees .install = some update.new ∧ system.manager.currentVersion = update.toVersion)

theorem recoverBackup_holds (h : update.Rolling x.state) :
    (recoverBackup update.fromVersion).Ends
      (fun _ y => update.Holds y ∧ update.Settled y.state)
      update.Holds update.HoldsAfterRestart x := by
  unfold recoverBackup
  refine Job.ends_get_bind ?_
  rw [Option.isNone_eq_false_iff.mpr h.installDir, if_neg Bool.false_ne_true]
  refine Job.ends_modify_bind ?_
  have hrestore := @restoreBackup_rolling update ⟨x.faults, _⟩ _ (h.setState .rollingBack)
  refine Job.Ends.bind (hrestore.weaken ?_ ?_) ?_
  · exact fun _ hy => hy.holds
  · exact fun _ hs => hs.holdsAfterRestart
  · rintro _ y ⟨hrolling, hinstall⟩
    refine Job.ends_modify_bind ?_
    refine Job.ends_modify ⟨?_, .inl ⟨hinstall, rfl⟩⟩
    exact (hrolling.sound rfl).manager ⟨rfl, rfl⟩

theorem recoverPhase_holds {phase : JournalPhase} (h : update.Holds x)
    (hjournal : x.state.disk.journal = some (update.journal phase))
    (hphase : update.AtPhase x.state.manager.currentVersion x.state phase) :
    (recoverPhase (update.journal phase)).Ends
      (fun _ y => update.Holds y ∧ update.Settled y.state)
      update.Holds update.HoldsAfterRestart x := by
  have hrolling : phase = .backedUp ∨ phase = .applying → update.Backed x.state →
      x.state.manager.currentVersion = update.fromVersion →
      recordedVersion update.given x.state.disk = update.fromVersion → update.Rolling x.state :=
    fun hor hbacked hcurrent hrecorded =>
      ⟨h.installDir, h.stateDir, ⟨phase, hor, hjournal⟩, hbacked, hcurrent, hrecorded⟩
  cases phase with
  | staged =>
    show (setState .idle).Ends _ _ _ _
    refine Job.ends_modify ⟨h.setState .idle, .inl ⟨hphase.1, hphase.2.1⟩⟩
  | backedUp => exact recoverBackup_holds (hrolling (.inl rfl) hphase.1 hphase.2.1 hphase.2.2)
  | applying => exact recoverBackup_holds (hrolling (.inr rfl) hphase.1 hphase.2.1 hphase.2.2)
  | committed =>
    refine Job.ends_modify_bind ?_
    refine Job.ends_modify ⟨?_, .inr ⟨hphase, rfl⟩⟩
    exact ⟨h.installDir, h.stateDir, .inr ⟨.committed, hjournal, hphase⟩⟩

theorem finishRecovery_holds (h : update.Holds x) (hsettled : update.Settled x.state) :
    (do
      persistState
      clearJournalAndStaging
      pure true : Work Bool).Ends (fun _ y => update.Holds y ∧ y.state.disk.journal = none)
      update.Holds update.HoldsAfterRestart x := by
  refine (persistState_holds h).bind fun _ y hy => ?_
  obtain ⟨hholds, hpersisted⟩ := hy
  have hconsistent : update.Consistent y.state.manager.currentVersion y.state.disk := by
    unfold Consistent
    rw [hpersisted.trees, hpersisted.recorded, hpersisted.manager]
    rcases hsettled with ⟨hinstall, hversion⟩ | ⟨hinstall, hversion⟩
    · exact .inl ⟨hinstall, hversion, hversion⟩
    · exact .inr ⟨hinstall, hversion, hversion⟩
  refine (clearJournalAndStaging_holds hholds hconsistent).bind fun _ z hz => ?_
  exact Job.ends_pure hz

theorem recover_holds (h : update.Holds x) :
    recoverInterruptedUpdate.Ends (fun _ y => update.Holds y ∧ y.state.disk.journal = none)
      update.Holds update.HoldsAfterRestart x := by
  unfold recoverInterruptedUpdate
  refine Job.ends_get_bind ?_
  rw [Option.isNone_eq_false_iff.mpr h.stateDir, if_neg Bool.false_ne_true]
  rcases h.state with ⟨hnone, -⟩ | ⟨phase, hjournal, hphase⟩
  · rw [hnone, Option.isNone_none, if_pos rfl]
    exact Job.ends_pure ⟨h, hnone⟩
  · rw [hjournal, Option.isNone_some, if_neg Bool.false_ne_true]
    refine (readJournal_holds h).bind fun journal y hy => ?_
    obtain ⟨hstate, hread⟩ := hy
    obtain rfl : update.journal phase = journal := Option.some.inj (hjournal.symm.trans hread)
    rw [← hstate] at hjournal hphase
    refine (recoverPhase_holds (h.of_state hstate) hjournal hphase).bind fun _ z hz => ?_
    exact finishRecovery_holds hz.1 hz.2

end

/-! ## Recovery without a fault -/

theorem replaceFile_goes {s : System} (change : Disk → Disk) :
    (replaceFile change).Goes (fun _ t => t = { s with disk := change s.disk }) s :=
  Job.goes_op rfl rfl

theorem persistState_goes {s : System} (hstate : s.manager.stateDir.isSome = true) :
    persistState.Goes (fun _ _ => True) s := by
  unfold persistState
  refine Job.goes_get_bind ?_
  dsimp only
  rw [Option.isNone_eq_false_iff.mpr hstate, if_neg Bool.false_ne_true]
  exact (replaceFile_goes _).mono fun _ _ _ => trivial

theorem readJournal_goes {s : System} {journal : UpdateJournal} (hjournal : s.disk.journal = some journal)
    (hfits : journal.encode.utf8ByteSize ≤ maxManifestBytes) :
    readJournal.Goes (fun read t => read = journal ∧ t = s) s := by
  unfold readJournal
  refine look_goes.bind ?_
  rintro _ _ rfl
  refine Job.goes_get_bind ?_
  rw [hjournal]
  dsimp only
  rw [if_neg (Nat.not_lt.mpr hfits)]
  exact Job.goes_pure ⟨rfl, rfl⟩

/-- Nothing stops a rollback. -/
def Unblocked (system : System) : Prop :=
  (∃ tree, system.disk.trees .backup = some tree) ∧
    (system.disk.trees .install = none ∨ ¬ Refused system.manager)

theorem Backed.install_of_blocked {s : System} (h : update.Backed s) (hblocked : ¬ Unblocked s) :
    s.disk.trees .install = some update.old := by
  by_cases hrefused : Refused s.manager
  · exact h.refused hrefused
  · rcases h.whole hrefused with hbackup | ⟨-, hinstall⟩
    · exact absurd ⟨⟨_, hbackup⟩, .inr hrefused⟩ hblocked
    · exact hinstall

section

variable [Listing]

theorem clearPlace_goes {s : System} (place : Place) : (clearPlace place).Goes (fun _ _ => True) s := by
  unfold clearPlace
  refine Job.goes_get_bind ?_
  cases htree : s.disk.trees place with
  | none =>
    rw [Option.isSome_none, if_neg Bool.false_ne_true]
    exact Job.goes_pure trivial
  | some tree =>
    rw [Option.isSome_some, if_pos rfl]
    exact (removeDirAll_goes htree).mono fun _ _ _ => trivial

theorem clearJournalAndStaging_goes {s : System} : clearJournalAndStaging.Goes (fun _ _ => True) s := by
  have hclear : ∀ t : System, (do
      clearPlace .staging
      clearPlace .candidate : Work Unit).Goes (fun _ _ => True) t := fun t =>
    (clearPlace_goes .staging).bind fun _ _ _ => clearPlace_goes .candidate
  unfold clearJournalAndStaging
  refine Job.goes_get_bind ?_
  dsimp only
  split
  · exact (replaceFile_goes _).bind fun _ t _ => hclear t
  · exact hclear s

theorem recoverBackup_goes {s : System} (h : update.Rolling s) (hfree : Unblocked s) :
    (recoverBackup update.fromVersion).Goes (fun _ t => t.manager.stateDir.isSome = true) s := by
  obtain ⟨⟨tree, hbackup⟩, hallowed⟩ := hfree
  have hcopyable : Copyable tree := by
    by_cases hrefused : Refused s.manager
    · rw [h.backed.refused hrefused] at hallowed
      exact absurd hrefused (hallowed.resolve_left nofun)
    · rcases h.backed.whole hrefused with hold | ⟨hnone, -⟩
      · rw [← Option.some.inj (hold.symm.trans hbackup)]
        exact h.backed.copyable
      · rw [hnone] at hbackup
        cases hbackup
  unfold recoverBackup
  refine Job.goes_get_bind ?_
  rw [Option.isNone_eq_false_iff.mpr h.installDir, if_neg Bool.false_ne_true]
  refine Job.goes_modify_bind ?_
  refine Job.Goes.bind (restoreBackup_goes hbackup hcopyable hallowed) fun _ t ht => ?_
  obtain ⟨_, -, rfl⟩ := ht
  exact ⟨(), _, rfl, h.stateDir⟩

theorem recover_goes {s : System} {phase : JournalPhase} {version : String}
    (h : update.Sound version s) (hjournal : s.disk.journal = some (update.journal phase))
    (hfits : (update.journal phase).encode.utf8ByteSize ≤ maxManifestBytes)
    (hphase : (recoverPhase (update.journal phase)).Goes (fun _ t => t.manager.stateDir.isSome = true) s) :
    recoverInterruptedUpdate.Goes (fun _ _ => True) s := by
  unfold recoverInterruptedUpdate
  refine Job.goes_get_bind ?_
  rw [Option.isNone_eq_false_iff.mpr h.stateDir, if_neg Bool.false_ne_true, hjournal,
    Option.isNone_some, if_neg Bool.false_ne_true]
  refine (readJournal_goes hjournal hfits).bind ?_
  rintro _ _ ⟨rfl, rfl⟩
  refine hphase.bind fun _ t ht => ?_
  refine (persistState_goes ht).bind fun _ u _ => ?_
  exact clearJournalAndStaging_goes.bind fun _ _ _ => Job.goes_pure trivial

theorem recover_blocked (h : update.Rolling x.state) (hblocked : ¬ Unblocked x.state) :
    recoverInterruptedUpdate.Ends (fun _ _ => False)
      (fun y => y.state.disk = x.state.disk ∧
        y.state.manager.currentVersion = x.state.manager.currentVersion)
      (fun s => s.disk = x.state.disk) x := by
  obtain ⟨phase, hphase, hjournal⟩ := h.journal
  have hrecover : recoverPhase (update.journal phase) = recoverBackup update.fromVersion := by
    rcases hphase with rfl | rfl
    · rfl
    · rfl
  have hrestore : x.state.disk.trees .backup = none ∨
      (x.state.disk.trees .install).isSome = true ∧ Refused x.state.manager := by
    cases hbackup : x.state.disk.trees .backup with
    | none => exact .inl rfl
    | some tree =>
      refine .inr ?_
      by_contra hnot
      refine hblocked ⟨⟨tree, hbackup⟩, ?_⟩
      rw [not_and_or, Bool.not_eq_true, Option.isSome_eq_false_iff, Option.isNone_iff_eq_none] at hnot
      exact hnot
  unfold recoverInterruptedUpdate
  refine Job.ends_get_bind ?_
  rw [Option.isNone_eq_false_iff.mpr h.stateDir, if_neg Bool.false_ne_true, hjournal,
    Option.isNone_some, if_neg Bool.false_ne_true]
  refine Job.Ends.bind (readJournal_ends.weaken ?_ ?_) ?_
  · intro y hy
    rw [hy]
    exact ⟨rfl, rfl⟩
  · rintro s rfl
    rfl
  · rintro journal y ⟨hstate, hread⟩
    obtain rfl : update.journal phase = journal := Option.some.inj (hjournal.symm.trans hread)
    rw [hrecover]
    have hbackup : (recoverBackup update.fromVersion).Ends (fun _ _ => False)
        (fun z => z.state.disk = x.state.disk ∧
          z.state.manager.currentVersion = x.state.manager.currentVersion)
        (fun s => s.disk = x.state.disk) y := by
      unfold recoverBackup
      refine Job.ends_get_bind ?_
      rw [hstate, Option.isNone_eq_false_iff.mpr h.installDir, if_neg Bool.false_ne_true]
      refine Job.ends_modify_bind ?_
      refine Job.Ends.bind (Job.Ends.weaken (restoreBackup_blocked ?_) ?_ ?_) fun _ _ h => h.elim
      · rw [hstate]
        exact hrestore
      · rintro z rfl
        rw [hstate]
        exact ⟨rfl, rfl⟩
      · exact fun _ h => h.elim
    exact hbackup.bind fun _ _ h => h.elim

/-- Recovery that runs without a fault leaves tree and version that agree. -/
theorem recovered_consistent {s : System} (h : update.Sound s.manager.currentVersion s)
    (hfits : ∀ phase, (update.journal phase).encode.utf8ByteSize ≤ maxManifestBytes) :
    update.Consistent (afterJob update.given (recoverInterruptedUpdate ⟨[], s⟩)).manager.currentVersion
      (afterJob update.given (recoverInterruptedUpdate ⟨[], s⟩)).disk := by
  -- a recovery that goes through ends without a journal
  have hdone : recoverInterruptedUpdate.Goes (fun _ _ => True) s → update.Consistent
      (afterJob update.given (recoverInterruptedUpdate ⟨[], s⟩)).manager.currentVersion
      (afterJob update.given (recoverInterruptedUpdate ⟨[], s⟩)).disk := by
    rintro ⟨value, after, hrun, -⟩
    have hends := @recover_holds update ⟨[], s⟩ _ h
    unfold Job.Ends at hends
    rw [hrun] at hends ⊢
    obtain ⟨hholds, hjournal⟩ := hends
    rcases hholds.state with ⟨-, hconsistent⟩ | ⟨phase, hsome, -⟩
    · exact hconsistent
    · rw [hjournal] at hsome
      cases hsome
  -- one that is blocked leaves the old tree as it is
  have hrollback : update.Rolling s → ((recoverBackup update.fromVersion).Goes
      (fun _ t => t.manager.stateDir.isSome = true) s → recoverInterruptedUpdate.Goes (fun _ _ => True) s) →
      update.Consistent (afterJob update.given (recoverInterruptedUpdate ⟨[], s⟩)).manager.currentVersion
        (afterJob update.given (recoverInterruptedUpdate ⟨[], s⟩)).disk := by
    intro hrolling hgoes
    by_cases hfree : Unblocked s
    · exact hdone (hgoes (recoverBackup_goes hrolling hfree))
    · have hinstall := hrolling.backed.install_of_blocked hfree
      have hends := @recover_blocked update ⟨[], s⟩ _ hrolling hfree
      unfold Job.Ends at hends
      generalize recoverInterruptedUpdate ⟨[], s⟩ = result at hends ⊢
      obtain ⟨ending, after⟩ := result
      cases ending with
      | done value => exact hends.elim
      | failed error =>
        obtain ⟨hdisk, hversion⟩ := hends
        refine .inl ⟨?_, hversion.trans hrolling.current, ?_⟩
        · exact (congrArg (fun disk => disk.trees .install) hdisk).trans hinstall
        · exact (congrArg (recordedVersion update.given) hdisk).trans hrolling.recorded
      | crashed =>
        have hrecorded := (congrArg (recordedVersion update.given) hends).trans hrolling.recorded
        refine .inl ⟨?_, (currentVersion_loadState _ _ _).trans hrecorded, hrecorded⟩
        exact (congrArg (fun disk => disk.trees .install) hends).trans hinstall
  rcases h.state with ⟨hnone, -⟩ | ⟨phase, hjournal, hphase⟩
  · refine hdone ?_
    unfold recoverInterruptedUpdate
    refine Job.goes_get_bind ?_
    rw [Option.isNone_eq_false_iff.mpr h.stateDir, if_neg Bool.false_ne_true, hnone,
      Option.isNone_none, if_pos rfl]
    exact Job.goes_pure trivial
  · have hgoes := recover_goes h hjournal (hfits phase)
    cases phase with
    | staged => exact hdone (hgoes ⟨(), _, rfl, h.stateDir⟩)
    | backedUp =>
      exact hrollback ⟨h.installDir, h.stateDir, ⟨_, .inl rfl, hjournal⟩, hphase.1, hphase.2.1, hphase.2.2⟩
        hgoes
    | applying =>
      exact hrollback ⟨h.installDir, h.stateDir, ⟨_, .inr rfl, hjournal⟩, hphase.1, hphase.2.1, hphase.2.2⟩
        hgoes
    | committed => exact hdone (hgoes ⟨(), _, rfl, h.stateDir⟩)

theorem recoverOnce_sound {s : System} (h : update.Sound s.manager.currentVersion s) (attempt : Attempt) :
    update.Sound (s.recoverOnce update.given attempt).manager.currentVersion
      (s.recoverOnce update.given attempt) :=
  afterJob_sound (recover_holds (restarted_sound h attempt.restart)) fun _ _ hy => hy.1

theorem attempts_sound {s : System} (h : update.Sound s.manager.currentVersion s) (attempts : List Attempt) :
    update.Sound (attempts.foldl (System.recoverOnce update.given) s).manager.currentVersion
      (attempts.foldl (System.recoverOnce update.given) s) := by
  induction attempts generalizing s with
  | nil => exact h
  | cons attempt attempts ih => exact ih (recoverOnce_sound h attempt)

/-- From a state of the invariant recovery leads to tree and version that agree, however
often it is cut off itself. -/
theorem recovered_of_sound {s : System} (h : update.Sound s.manager.currentVersion s)
    (hfits : ∀ phase, (update.journal phase).encode.utf8ByteSize ≤ maxManifestBytes)
    (attempts : List Attempt) (last : Bool) :
    update.Consistent (s.recovered update.given attempts last).manager.currentVersion
      (s.recovered update.given attempts last).disk :=
  recovered_consistent (restarted_sound (attempts_sound h attempts) last) hfits

end

end Update

end GhitaBrowser.Updater
