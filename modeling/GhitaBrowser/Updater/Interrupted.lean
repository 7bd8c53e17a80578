import GhitaBrowser.Updater.Recovery

/-!
# Interrupted updates

What `apply_update` leaves wherever it is cut off.
-/

namespace GhitaBrowser.Updater

/-! ## Staging -/

theorem addFile_over {upper lower result : Tree} (h : Over upper lower result) (path : RelPath)
    (bytes : List UInt8) : Over (addFile upper path bytes) lower (addFile result path bytes) := by
  have hinsert : ∀ {upper result : Tree} (path : RelPath) (entry : Entry), Over upper lower result →
      Over (upper.insert path entry) lower (result.insert path entry) := by
    intro upper result path entry h other
    rw [Std.ExtTreeMap.getElem?_insert, Std.ExtTreeMap.getElem?_insert]
    split
    · rfl
    · exact h other
  have hparents : ∀ (paths : List RelPath) {upper result : Tree}, Over upper lower result →
      Over (paths.foldl (fun tree parent => tree.insert parent .directory) upper) lower
        (paths.foldl (fun tree parent => tree.insert parent .directory) result) := by
    intro paths
    induction paths with
    | nil => exact fun h => h
    | cons path paths ih => exact fun h => ih (hinsert path .directory h)
  exact hinsert path _ (hparents _ h)

theorem overlayFiles_over (base : Tree) (files : List (String × List UInt8)) :
    Over (overlayFiles ∅ files) base (overlayFiles base files) := by
  have hfold : ∀ (files : List (String × List UInt8)) {upper result : Tree}, Over upper base result →
      Over (overlayFiles upper files) base (overlayFiles result files) := by
    intro files
    induction files with
    | nil => exact fun h => h
    | cons file files ih => exact fun h => ih (addFile_over h _ _)
  refine hfold files fun path => ?_
  rw [Std.ExtTreeMap.getElem?_empty, Option.none_or]

theorem Over.unique {upper lower first second : Tree} (hfirst : Over upper lower first)
    (hsecond : Over upper lower second) : first = second := by
  refine Std.ExtTreeMap.ext_getElem? fun path => ?_
  rw [hfirst path, hsecond path]

section

variable {x : Exposed System} {place : Place}

/-- Whatever a job that is cut off leaves at its place. -/
def Anything : Option Tree → Prop := fun _ => True

theorem anything {P : Option Tree → Prop} {before after : System} (h : At before place P after) :
    At before place Anything after := h.mono fun _ _ => trivial

theorem makeDirs_ends (paths : List RelPath) {tree : Tree}
    (htree : x.state.disk.trees place = some tree) :
    (makeDirs place paths).Ends
      (fun _ y => At x.state place
        (· = some (paths.foldl (fun tree parent => tree.insert parent .directory) tree)) y.state)
      (fun y => At x.state place Anything y.state) (At x.state place Anything) x := by
  induction paths generalizing x tree with
  | nil => exact Job.ends_pure (.refl htree)
  | cons path paths ih =>
    refine Job.Ends.bind ((makeDir_ends path htree).weaken ?_ ?_) ?_
    · exact fun y hy => hy.mono fun _ _ => trivial
    · exact fun s hs => hs.mono fun _ _ => trivial
    · intro _ y hy
      have hstep : At x.state place (fun _ => True) y.state := hy.mono fun _ _ => trivial
      obtain ⟨_, rfl, hstate⟩ := hy
      have htree' : y.state.disk.trees place = some (tree.insert path .directory) := by
        rw [hstate]
        simp
      exact (ih htree').mono (fun _ z hz => hstep.trans hz) (fun z hz => hstep.trans hz)
        fun s hs => hstep.trans hs

theorem stageFiles_ends (files : List (String × List UInt8)) {tree : Tree}
    (htree : x.state.disk.trees .staging = some tree) :
    (stageFiles files).Ends (fun _ y => At x.state .staging (· = some (overlayFiles tree files)) y.state)
      (fun y => At x.state .staging Anything y.state) (At x.state .staging Anything) x := by
  induction files generalizing x tree with
  | nil => exact Job.ends_pure (.refl htree)
  | cons file files ih =>
    obtain ⟨relative, bytes⟩ := file
    refine Job.ends_ofExcept_bind ?_ (.refl trivial)
    intro _ _
    refine (makeDirs_ends _ htree).bind fun _ y hy => ?_
    have hdirs : At x.state .staging (fun _ => True) y.state := hy.mono fun _ _ => trivial
    obtain ⟨_, rfl, hstate⟩ := hy
    have htree' : y.state.disk.trees .staging = some
        ((parents (components relative)).foldl (fun tree parent => tree.insert parent .directory) tree) := by
      rw [hstate]
      simp
    refine Job.Ends.bind ((writeFile_ends (components relative) bytes htree').mono
      (fun _ z hz => hz) ?_ ?_) ?_
    · exact fun z hz => hdirs.trans (hz.mono fun _ _ => trivial)
    · exact fun s hs => hdirs.trans (hs.mono fun _ _ => trivial)
    · intro _ z hz
      have hwritten : At x.state .staging (fun _ => True) z.state := hdirs.trans (hz.mono fun _ _ => trivial)
      obtain ⟨_, rfl, hstate'⟩ := hz
      have htree'' : z.state.disk.trees .staging = some (addFile tree (components relative) bytes) := by
        rw [hstate']
        simp [addFile]
      exact (ih htree'').mono (fun _ w hw => hwritten.trans hw) (fun w hw => hwritten.trans hw)
        fun s hs => hwritten.trans hs

section

variable [Release]

theorem verifyFiles_ends (expected : List (String × String)) :
    (verifyFiles place expected).Ends (fun _ y => y.state = x.state) (fun y => y.state = x.state)
      (fun s => s = x.state) x := by
  have hlook : ∀ y : Exposed System, y.state = x.state →
      look.Ends (fun _ z => z.state = x.state) (fun z => z.state = x.state) (fun s => s = x.state) y :=
    fun y hy => look_ends (fun _ => hy) (fun _ => hy) hy
  induction expected generalizing x with
  | nil => exact Job.ends_pure rfl
  | cons file expected ih =>
    obtain ⟨relative, digest⟩ := file
    refine Job.ends_ofExcept_bind ?_ rfl
    intro _ _
    refine (hlook x rfl).bind fun _ y hy => ?_
    refine Job.ends_get_bind ?_
    split
    · exact Job.ends_throw hy
    · split
      · exact Job.ends_throw hy
      · refine (hlook y hy).bind fun _ z hz => ?_
        split
        · exact Job.ends_throw hz
        · rw [← hz]
          refine ih ?_
          rw [hz]
          exact hlook
    · exact Job.ends_throw hy

end

variable [Listing]

theorem recreate_ends (guarded : List Place) :
    (recreateDirectory place guarded).Ends (fun _ y => At x.state place (· = some ∅) y.state)
      (fun y => At x.state place Anything y.state) (At x.state place Anything) x :=
  (recreateDirectory_ends (F := fun _ => True) guarded (fun _ _ _ => trivial) trivial
    fun _ _ => trivial).weaken (fun _ hy => anything hy) fun _ hs => anything hs

theorem copy_ends {source : Place} {upper : Tree} (hsource : x.state.disk.trees source = some upper) :
    (copyTreeBounded source place).Ends
      (fun _ y => At x.state place
        (fun left => ∃ after, left = some after ∧
          Over upper ((x.state.disk.trees place).getD ∅) after) y.state)
      (fun y => At x.state place Anything y.state) (At x.state place Anything) x :=
  (copyTreeBounded_ends hsource).mono (fun _ _ hy => hy.2) (fun _ hy => anything hy) fun _ hs => anything hs

theorem buildCandidate_ends {old : Tree} (package : UpdatePackage)
    (hinstall : x.state.disk.trees .install = some old)
    (hstaging : x.state.disk.trees .staging = some (overlayFiles ∅ package.files)) :
    (buildCandidate package.manifest.isDelta).Ends
      (fun _ y => At x.state .candidate (· = some (newTree old package)) y.state)
      (fun y => At x.state .candidate Anything y.state) (At x.state .candidate Anything) x := by
  -- the staged files over what the candidate holds
  have hover : ∀ (y : Exposed System) (base : Tree), At x.state .candidate (· = some base) y.state →
      newTree old package = overlayFiles base package.files →
      (copyTreeBounded .staging .candidate).Ends
        (fun _ z => At x.state .candidate (· = some (newTree old package)) z.state)
        (fun z => At x.state .candidate Anything z.state) (At x.state .candidate Anything) y := by
    intro y base hy hnew
    have hstep := anything hy
    obtain ⟨_, rfl, hstate⟩ := hy
    have hcandidate : y.state.disk.trees .candidate = some base := by
      rw [hstate]
      simp
    have hsource : y.state.disk.trees .staging = some (overlayFiles ∅ package.files) := by
      rw [hstate]
      simpa using hstaging
    refine (copy_ends hsource).mono ?_ (fun z hz => hstep.trans hz) fun s hs => hstep.trans hs
    intro _ z hz
    refine hstep.trans (hz.mono ?_)
    rintro left ⟨after, rfl, hafter⟩
    rw [hcandidate] at hafter
    rw [hnew, hafter.unique (overlayFiles_over base package.files)]
  unfold buildCandidate
  refine (recreate_ends [.install]).bind fun _ y hy => ?_
  cases hdelta : package.manifest.isDelta with
  | false => exact hover y ∅ hy (by rw [newTree, hdelta, if_neg Bool.false_ne_true])
  | true =>
    have hempty := anything hy
    obtain ⟨_, rfl, hstate⟩ := hy
    have hcandidate : y.state.disk.trees .candidate = some ∅ := by
      rw [hstate]
      simp
    have hsource : y.state.disk.trees .install = some old := by
      rw [hstate]
      simpa using hinstall
    refine Job.Ends.bind ((copy_ends hsource).weaken ?_ ?_) ?_
    · exact fun z hz => hempty.trans hz
    · exact fun s hs => hempty.trans hs
    · intro _ z hz
      refine hover z old (hempty.trans (hz.mono ?_)) (by rw [newTree, hdelta, if_pos rfl])
      rintro left ⟨after, rfl, hafter⟩
      rw [hcandidate] at hafter
      rw [hafter.empty]

variable [Release]

theorem stageUpdate_ends (package : UpdatePackage) :
    (stageUpdate package).Ends
      (fun _ y => At x.state .staging (· = some (overlayFiles ∅ package.files)) y.state)
      (fun y => At x.state .staging Anything y.state) (At x.state .staging Anything) x := by
  unfold stageUpdate
  refine Job.ends_ofExcept_bind ?_ (.refl trivial)
  intro _ _
  refine (recreate_ends []).bind fun _ y hy => ?_
  have hempty := anything hy
  obtain ⟨_, rfl, hstate⟩ := hy
  have htree : y.state.disk.trees .staging = some ∅ := by
    rw [hstate]
    simp
  refine Job.Ends.bind ((stageFiles_ends package.files htree).weaken ?_ ?_) ?_
  · exact fun z hz => hempty.trans hz
  · exact fun s hs => hempty.trans hs
  · intro _ z hz
    have hstaged := hempty.trans hz
    refine (verifyFiles_ends _).mono ?_ ?_ ?_
    · intro _ w hw
      rw [hw]
      exact hstaged
    · intro w hw
      rw [hw]
      exact anything hstaged
    · rintro s rfl
      exact anything hstaged

end

/-! ## Up to the second backup -/

namespace Update

variable {update : Update}

/-- The old tree is in its place, with its version. -/
structure Untouched (update : Update) (system : System) : Prop where
  installDir : system.manager.installDir.isSome = true
  stateDir : system.manager.stateDir.isSome = true
  install : system.disk.trees .install = some update.old
  current : system.manager.currentVersion = update.fromVersion
  recorded : recordedVersion update.given system.disk = update.fromVersion

namespace Untouched

variable {system : System}

theorem at_place (h : update.Untouched system) {place : Place} (hplace : place ≠ .install)
    {P : Option Tree → Prop} {after : System} (hat : At system place P after) : update.Untouched after := by
  obtain ⟨tree, -, rfl⟩ := hat
  refine ⟨h.installDir, h.stateDir, ?_, h.current, h.recorded⟩
  rw [System.setTree_trees, if_neg hplace.symm]
  exact h.install

theorem setState (h : update.Untouched system) (state : UpdateState) :
    update.Untouched (system.setState state) :=
  ⟨h.installDir, h.stateDir, h.install, h.current, h.recorded⟩

theorem setJournal (h : update.Untouched system) (journal : Option UpdateJournal) :
    update.Untouched (system.setJournal journal) :=
  ⟨h.installDir, h.stateDir, h.install, h.current, h.recorded⟩

theorem sound (h : update.Untouched system) {version : String} (hversion : version = update.fromVersion)
    (hjournal : system.disk.journal = none ∨ system.disk.journal = some (update.journal .staged)) :
    update.Sound version system where
  installDir := h.installDir
  stateDir := h.stateDir
  state := by
    rcases hjournal with hnone | hstaged
    · exact .inl ⟨hnone, .inl ⟨h.install, hversion, h.recorded⟩⟩
    · exact .inr ⟨.staged, hstaged, h.install, hversion, h.recorded⟩

theorem holds {x : Exposed System} (h : update.Untouched x.state)
    (hjournal : x.state.disk.journal = none ∨ x.state.disk.journal = some (update.journal .staged)) :
    update.Holds x := h.sound h.current hjournal

theorem holdsAfterRestart (h : update.Untouched system)
    (hjournal : system.disk.journal = none ∨ system.disk.journal = some (update.journal .staged)) :
    update.HoldsAfterRestart system := h.sound h.recorded hjournal

theorem rolling (h : update.Untouched system) (hcopyable : Copyable update.old)
    (hbackup : system.disk.trees .backup = some update.old)
    (hjournal : ∃ phase, (phase = .backedUp ∨ phase = .applying) ∧
      system.disk.journal = some (update.journal phase)) : update.Rolling system :=
  ⟨h.installDir, h.stateDir, hjournal, ⟨hcopyable, fun _ => h.install, fun _ => .inl hbackup⟩, h.current,
    h.recorded⟩

end Untouched

/-- What there is from the first backup until the backup is made for the second time. -/
structure Ready (update : Update) (phase : JournalPhase) (system : System) : Prop where
  untouched : update.Untouched system
  copyable : Copyable update.old
  backup : system.disk.trees .backup = some update.old
  candidate : system.disk.trees .candidate = some update.new
  journal : system.disk.journal = some (update.journal phase)

namespace Ready

variable {phase : JournalPhase} {system : System}

theorem setState (h : update.Ready phase system) (state : UpdateState) :
    update.Ready phase (system.setState state) :=
  ⟨h.untouched.setState state, h.copyable, h.backup, h.candidate, h.journal⟩

theorem setPhase (h : update.Ready phase system) (next : JournalPhase) :
    update.Ready next (system.setJournal (some (update.journal next))) :=
  ⟨h.untouched.setJournal _, h.copyable, h.backup, h.candidate, rfl⟩

theorem rolling (h : update.Ready phase system) (hphase : phase = .backedUp ∨ phase = .applying) :
    update.Rolling system :=
  h.untouched.rolling h.copyable h.backup ⟨phase, hphase, h.journal⟩

end Ready

variable {x : Exposed System}

theorem updateJournalPhase_ends {phase : JournalPhase}
    (hjournal : x.state.disk.journal = some (update.journal phase)) (next : JournalPhase) :
    (updateJournalPhase next).Ends
      (fun _ y => y.state = x.state.setJournal (some (update.journal next)))
      (fun y => y.state = x.state)
      (fun s => s = x.state ∨ s = x.state.setJournal (some (update.journal next))) x := by
  unfold updateJournalPhase
  refine Job.Ends.bind (readJournal_ends.weaken (fun _ hy => hy) fun _ hs => .inl hs) ?_
  rintro read y ⟨hstate, hread⟩
  obtain rfl : update.journal phase = read := Option.some.inj (hjournal.symm.trans hread)
  rw [← hstate]
  exact replaceFile_ends _

theorem failIf_ends (condition : Bool) (error : UpdateError) (h : update.Holds x) :
    (failIf condition error).Ends (fun _ y => y = x) update.Holds update.HoldsAfterRestart x := by
  unfold failIf
  split
  · exact Job.ends_throw h
  · exact Job.ends_pure rfl

theorem interruptIf_ends (condition : Bool) (state error : String)
    (h : update.Holds x) :
    (interruptIf condition state error).Ends (fun _ y => y = x) update.Holds update.HoldsAfterRestart x := by
  unfold interruptIf
  split
  · refine Job.ends_modify_bind ?_
    exact Job.ends_throw (h.setState _)
  · exact Job.ends_pure rfl

theorem preflightSpace_ends (bytes : Nat) (h : update.Holds x) :
    (preflightSpace bytes).Ends (fun _ y => y.state = x.state) update.Holds update.HoldsAfterRestart x := by
  have hlook : look.Ends (fun _ y => y.state = x.state) update.Holds update.HoldsAfterRestart x :=
    look_ends (fun _ => rfl) (fun _ => h.of_state rfl) h.restart
  unfold preflightSpace
  refine Job.ends_get_bind ?_
  rw [Option.isNone_eq_false_iff.mpr h.stateDir, if_neg Bool.false_ne_true]
  refine hlook.bind fun _ y hy => ?_
  generalize requiredSpace bytes = required
  split
  · exact Job.ends_throw (h.of_state hy)
  · exact Job.ends_pure hy

theorem backedUp_ends (fault : UpdateFault) (h : update.Ready .staged x.state) :
    (do
      updateJournalPhase .backedUp
      interruptIf (fault = .interruptAfterBackup) "interrupted after backup" "fault after backup"
      setState .applying
      updateJournalPhase .applying : Work Unit).Ends (fun _ y => update.Ready .applying y.state)
      update.Holds update.HoldsAfterRestart x := by
  have hbackedUp := h.setPhase .backedUp
  refine Job.Ends.bind ((updateJournalPhase_ends h.journal .backedUp).weaken ?_ ?_) ?_
  · exact fun y hy => (h.untouched.holds (.inr h.journal)).of_state hy
  · rintro s (rfl | rfl)
    · exact h.untouched.holdsAfterRestart (.inr h.journal)
    · exact (hbackedUp.rolling (.inl rfl)).holdsAfterRestart
  intro _ y hy
  rw [← hy] at hbackedUp
  refine (interruptIf_ends _ _ _ (hbackedUp.rolling (.inl rfl)).holds).bind fun _ z hz => ?_
  rw [hz]
  refine Job.ends_modify_bind ?_
  have hstate := hbackedUp.setState .applying
  have happlying := hstate.setPhase .applying
  have hphase := @updateJournalPhase_ends update ⟨y.faults, _⟩ _ hstate.journal .applying
  refine hphase.mono ?_ ?_ ?_
  · intro _ w hw
    rw [hw]
    exact happlying
  · intro w hw
    have hrolling : update.Rolling w.state := hw ▸ hstate.rolling (.inl rfl)
    exact hrolling.holds
  · rintro s (rfl | rfl)
    · exact (hstate.rolling (.inl rfl)).holdsAfterRestart
    · exact (happlying.rolling (.inr rfl)).holdsAfterRestart

section

variable [Listing]

theorem firstBackup_ends (fault : UpdateFault) (h : update.Untouched x.state)
    (hnone : x.state.disk.journal = none) (hcandidate : x.state.disk.trees .candidate = some update.new) :
    (do
      writeJournal (update.journal .staged)
      interruptIf (fault = .interruptAfterStage) "interrupted after stage" "fault after stage"
      createBackup
      updateJournalPhase .backedUp
      interruptIf (fault = .interruptAfterBackup) "interrupted after backup" "fault after backup"
      setState .applying
      updateJournalPhase .applying : Work Unit).Ends (fun _ y => update.Ready .applying y.state)
      update.Holds update.HoldsAfterRestart x := by
  have hwritten := h.setJournal (some (update.journal .staged))
  refine Job.Ends.bind ((replaceFile_ends _).weaken ?_ ?_) ?_
  · exact fun y hy => (h.holds (.inl hnone)).of_state hy
  · rintro s (rfl | rfl)
    · exact h.holdsAfterRestart (.inl hnone)
    · exact hwritten.holdsAfterRestart (.inr rfl)
  intro _ y hy
  replace hy : y.state = x.state.setJournal (some (update.journal .staged)) := hy
  have hjournal : y.state.disk.journal = some (update.journal .staged) := by
    rw [hy]
    rfl
  have hcandidate' : y.state.disk.trees .candidate = some update.new := by
    rw [hy]
    exact hcandidate
  rw [← hy] at hwritten
  refine (interruptIf_ends _ _ _ (hwritten.holds (.inr hjournal))).bind fun _ z hz => ?_
  rw [hz]
  have hkept : ∀ {P : Option Tree → Prop} {s : System}, At y.state .backup P s →
      update.Untouched s ∧ s.disk.journal = some (update.journal .staged) := by
    intro P s hs
    refine ⟨hwritten.at_place (by decide) hs, ?_⟩
    obtain ⟨_, -, rfl⟩ := hs
    exact hjournal
  refine Job.Ends.bind ((createBackup_ends hwritten.install).weaken ?_ ?_) ?_
  · exact fun w hw => (hkept hw).1.holds (.inr (hkept hw).2)
  · exact fun s hs => (hkept hs).1.holdsAfterRestart (.inr (hkept hs).2)
  rintro _ w ⟨hcopyable, hw⟩
  obtain ⟨huntouched, hjournal'⟩ := hkept hw
  obtain ⟨_, rfl, hstate⟩ := hw
  refine backedUp_ends fault ⟨huntouched, hcopyable, ?_, ?_, hjournal'⟩
  · rw [hstate]
    simp
  · rw [hstate]
    simpa using hcandidate'

variable [Release]

theorem prepareUpdate_ends (package : UpdatePackage) (fault : UpdateFault)
    (hnew : update.new = newTree update.old package)
    (hversion : update.toVersion = package.manifest.version)
    (hdelta : update.isDelta = package.manifest.isDelta) (h : update.Untouched x.state)
    (hnone : x.state.disk.journal = none) :
    (prepareUpdate package fault).Ends (fun _ y => update.Ready .applying y.state) update.Holds
      update.HoldsAfterRestart x := by
  unfold prepareUpdate
  refine (failIf_ends _ _ (h.holds (.inl hnone))).bind fun _ x' hx' => ?_
  rw [hx']
  refine (preflightSpace_ends _ (h.holds (.inl hnone))).bind fun _ y hy => ?_
  rw [← hy] at h hnone
  refine Job.ends_get_bind (Job.ends_modify_bind ?_)
  have hstart := h.setState .staging
  refine Job.Ends.bind ((stageUpdate_ends package).weaken ?_ ?_) ?_
  · intro z hz
    refine (hstart.at_place (by decide) hz).holds (.inl ?_)
    obtain ⟨_, -, hstate⟩ := hz
    rw [hstate]
    exact hnone
  · intro s hs
    refine (hstart.at_place (by decide) hs).holdsAfterRestart (.inl ?_)
    obtain ⟨_, -, rfl⟩ := hs
    exact hnone
  · intro _ z hz
    have hstaged := hstart.at_place (by decide) hz
    have hnone' : z.state.disk.journal = none := by
      obtain ⟨_, -, hstate⟩ := hz
      rw [hstate]
      exact hnone
    have hfiles : z.state.disk.trees .staging = some (overlayFiles ∅ package.files) := by
      obtain ⟨_, rfl, hstate⟩ := hz
      rw [hstate]
      simp
    have hkept : ∀ {P : Option Tree → Prop} {s : System}, At z.state .candidate P s →
        update.Untouched s ∧ s.disk.journal = none := by
      intro P s hs
      refine ⟨hstaged.at_place (by decide) hs, ?_⟩
      obtain ⟨_, -, rfl⟩ := hs
      exact hnone'
    refine Job.Ends.bind ((buildCandidate_ends package hstaged.install hfiles).weaken ?_ ?_) ?_
    · exact fun w hw => (hkept hw).1.holds (.inl (hkept hw).2)
    · exact fun s hs => (hkept hs).1.holdsAfterRestart (.inl (hkept hs).2)
    intro _ w hw
    obtain ⟨huntouched, hnone''⟩ := hkept hw
    have hcandidate : w.state.disk.trees .candidate = some update.new := by
      obtain ⟨_, rfl, hstate⟩ := hw
      rw [hstate, hnew]
      simp
    have hjournal : (⟨y.state.manager.currentVersion, package.manifest.version, .staged,
        package.manifest.isDelta⟩ : UpdateJournal) = update.journal .staged := by
      rw [h.current, ← hversion, ← hdelta]
      rfl
    have hfirst := firstBackup_ends fault huntouched hnone'' hcandidate
    rw [← hjournal] at hfirst
    exact hfirst

end

theorem beginUpdate_ends [Release] (package : UpdatePackage) {done : Unit → Exposed System → Prop}
    {failed : Exposed System → Prop} {crashed : System → Prop} (hfailed : failed x)
    (hdone : checkUpdate x.state.manager package.manifest = .ok () →
      done () { x with state := x.state.setState (.available package.manifest.version) }) :
    (beginUpdate package).Ends done failed crashed x := by
  unfold beginUpdate
  refine Job.ends_get_bind ?_
  refine Job.ends_ofExcept_bind (fun _ _ => ?_) hfailed
  refine Job.ends_ofExcept_bind (fun _ hcheck => ?_) hfailed
  exact Job.ends_modify (hdone hcheck)

/-! ## The second backup and after -/

section

variable [Listing]

/-- The second backup leaves the one that there was, none, or a whole one; or it does not
matter, since the installation is not to be replaced. -/
def LeavesWhole (update : Update) (x : Exposed System) : Prop :=
  Refused x.state.manager ∨ (createBackup x).2.state.disk.trees .backup = none ∨
    (createBackup x).2.state.disk.trees .backup = some update.old

theorem secondBackup_ends (h : update.Ready .applying x.state)
    (hwhole : update.LeavesWhole x) :
    createBackup.Ends (fun _ y => update.Ready .applying y.state) (fun y => update.Rolling y.state)
      update.Rolling x := by
  have hrolling : ∀ {P : Option Tree → Prop} {s : System}, At x.state .backup P s →
      (Refused x.state.manager ∨ s.disk.trees .backup = none ∨ s.disk.trees .backup = some update.old) →
      update.Rolling s := by
    intro P s hs hbackup
    have huntouched := h.untouched.at_place (by decide) hs
    obtain ⟨tree, -, rfl⟩ := hs
    refine ⟨huntouched.installDir, huntouched.stateDir, ⟨.applying, .inr rfl, h.journal⟩,
      ⟨h.copyable, fun _ => huntouched.install, ?_⟩, huntouched.current, huntouched.recorded⟩
    intro hallowed
    rcases hbackup with hrefused | hnone | hold
    · exact absurd hrefused hallowed
    · exact .inr ⟨hnone, huntouched.install⟩
    · exact .inl hold
  have hends := (createBackup_ends h.untouched.install).and_run
    (P := fun y => Refused x.state.manager ∨ y.state.disk.trees .backup = none ∨
      y.state.disk.trees .backup = some update.old) hwhole
  refine hends.mono ?_ ?_ ?_
  · rintro _ y ⟨⟨-, hy⟩, -, -⟩
    have huntouched := h.untouched.at_place (by decide) hy
    obtain ⟨_, rfl, hstate⟩ := hy
    refine ⟨huntouched, h.copyable, ?_, ?_, ?_⟩
    · rw [hstate]
      simp
    · rw [hstate]
      simpa using h.candidate
    · rw [hstate]
      exact h.journal
  · exact fun y hy => hrolling hy.1 hy.2
  · rintro s ⟨hs, faults, hP⟩
    exact hrolling hs hP

/-- The new tree is in its place and the journal does not say so yet. -/
structure Replaced (update : Update) (system : System) : Prop where
  rolling : update.Rolling system
  install : system.disk.trees .install = some update.new
  journal : system.disk.journal = some (update.journal .applying)

theorem replaceInstall_ends (fault : UpdateFault)
    (h : update.Ready .applying x.state) :
    (replaceInstall fault).Ends (fun _ y => update.Replaced y.state) (fun y => update.Rolling y.state)
      update.Rolling x := by
  have hrolling := h.rolling (.inr rfl)
  unfold replaceInstall
  split
  · exact Job.ends_throw hrolling
  by_cases hrefused : Refused x.state.manager
  · have hinstall : (x.state.disk.trees .install).isSome = true := by rw [h.untouched.install]; rfl
    refine Job.Ends.bind ((recreateDirectory_refused hinstall hrefused).weaken ?_ ?_) ?_
    · rintro y rfl
      exact hrolling
    · exact fun _ h => h.elim
    · exact fun _ _ h => h.elim
  have hplace : ∀ {P : Option Tree → Prop} {s : System}, At x.state .install P s → update.Rolling s :=
    fun hs => hrolling.at_install hrefused h.backup hs
  refine Job.Ends.bind ((recreate_ends [.backup]).weaken (fun y hy => hplace hy) fun s hs => hplace hs) ?_
  intro _ y hy
  have hempty := anything hy
  obtain ⟨_, rfl, hstate⟩ := hy
  have hcandidate : y.state.disk.trees .candidate = some update.new := by
    rw [hstate]
    simpa using h.candidate
  have hinstall : y.state.disk.trees .install = some ∅ := by
    rw [hstate]
    simp
  -- the copy of the candidate, and what is done when it fails
  have hcopy : (Job.attempt (copyTreeBounded .candidate .install)).Ends
      (fun result z => (result = .ok () → update.Replaced z.state) ∧ update.Rolling z.state)
      (fun z => update.Rolling z.state) update.Rolling y := by
    refine Job.ends_attempt ((copy_ends hcandidate).mono ?_ ?_ ?_)
    · intro _ z hz
      have hz' := hempty.trans hz
      refine ⟨fun _ => ⟨hplace hz', ?_, ?_⟩, hplace hz'⟩
      · obtain ⟨left, ⟨after, rfl, hover⟩, hstate'⟩ := hz
        rw [hinstall] at hover
        rw [hstate', hover.empty]
        simp
      · obtain ⟨left, -, hstate'⟩ := hz'
        rw [hstate']
        exact h.journal
    · intro z hz error
      exact ⟨nofun, hplace (hempty.trans hz)⟩
    · exact fun s hs => hplace (hempty.trans hs)
  refine hcopy.bind ?_
  rintro result z ⟨hok, hz⟩
  cases result with
  | error error =>
    have hrestore : (Job.attempt restoreBackup).Ends (fun _ w => update.Rolling w.state)
        (fun w => update.Rolling w.state) update.Rolling z :=
      Job.ends_attempt ((restoreBackup_rolling hz).mono (fun _ w hw => hw.1) (fun w hw _ => hw) fun _ hs => hs)
    exact hrestore.bind fun _ w hw => Job.ends_throw hw
  | ok value =>
    dsimp only
    split
    · exact (restoreBackup_rolling hz).bind fun _ w hw => Job.ends_throw hw.1
    · exact Job.ends_pure (hok rfl)

theorem rollBack_ends (error : UpdateError) (h : update.Rolling x.state) :
    (rollBack error).Ends (fun _ _ => False) update.Holds update.HoldsAfterRestart x := by
  have hrestore : (Job.attempt restoreBackup).Ends (fun _ y => update.Rolling y.state)
      update.Holds update.HoldsAfterRestart x := by
    refine Job.ends_attempt ((restoreBackup_rolling h).mono (fun _ y hy => hy.1) (fun y hy _ => hy) ?_)
    exact fun s hs => hs.holdsAfterRestart
  have hfinish : ∀ (y : Exposed System) (state : UpdateState), update.Rolling y.state →
      (do
        setState state
        persistState
        Job.throw error : Work Unit).Ends (fun _ _ => False) update.Holds update.HoldsAfterRestart y := by
    intro y state hy
    refine Job.ends_modify_bind ?_
    have hstate := @persistState_holds update ⟨y.faults, _⟩ (hy.setState state).holds
    exact hstate.bind fun _ z hz => Job.ends_throw hz.1
  unfold rollBack
  refine hrestore.bind fun result y hy => ?_
  cases result with
  | ok value => exact hfinish y _ hy
  | error error => exact hfinish y _ hy

variable [Release]

theorem commitUpdate_ends (package : UpdatePackage)
    (hversion : update.toVersion = package.manifest.version) (h : update.Replaced x.state) :
    (commitUpdate package).Ends (fun _ y => update.Holds y) update.Holds update.HoldsAfterRestart x := by
  have hholds := h.rolling.holds
  -- with the journal committed the version does not matter
  have hcommitted : ∀ (manager : UpdateManager) (version : String), SameDirs x.state.manager manager →
      update.Sound version ((System.setJournal { x.state with manager := manager })
        (some (update.journal .committed))) := by
    intro manager version hsame
    refine ⟨?_, ?_, .inr ⟨.committed, rfl, h.install⟩⟩
    · exact hsame.installDir ▸ h.rolling.installDir
    · exact hsame.stateDir ▸ h.rolling.stateDir
  unfold commitUpdate
  refine Job.Ends.bind ((verifyFiles_ends _).weaken ?_ ?_) ?_
  · exact fun y hy => hholds.of_state hy
  · rintro s rfl
    exact h.rolling.holdsAfterRestart
  intro _ y hy
  have hjournal : y.state.disk.journal = some (update.journal .applying) := by
    rw [hy]
    exact h.journal
  refine Job.Ends.bind ((updateJournalPhase_ends hjournal .committed).weaken ?_ ?_) ?_
  · exact fun z hz => hholds.of_state (hz.trans hy)
  · rintro s (rfl | rfl)
    · rw [hy]
      exact h.rolling.holdsAfterRestart
    · rw [hy]
      exact hcommitted _ _ ⟨rfl, rfl⟩
  intro _ z hz
  rw [hy] at hz
  refine Job.ends_modify_bind ?_
  have hinstalled : update.Holds
      { z with
        state :=
          { z.state with
            manager :=
              { z.state.manager with
                currentVersion := package.manifest.version
                installedManifest := some package.manifest
                state := .idle } } } := by
    unfold Holds
    rw [hz]
    exact hcommitted _ _ ⟨rfl, rfl⟩
  refine (persistState_holds hinstalled).bind ?_
  rintro _ w ⟨hw, hpersisted⟩
  have hconsistent : update.Consistent w.state.manager.currentVersion w.state.disk := by
    unfold Consistent
    rw [hpersisted.trees, hpersisted.recorded, hpersisted.manager]
    refine .inr ⟨?_, hversion.symm, hversion.symm⟩
    show z.state.disk.trees .install = _
    rw [hz]
    exact h.install
  exact (clearJournalAndStaging_holds hw hconsistent).mono (fun _ _ h => h.1) (fun _ h => h) fun _ h => h

theorem finishUpdate_ends (package : UpdatePackage) (fault : UpdateFault)
    (hversion : update.toVersion = package.manifest.version) (h : update.Ready .applying x.state)
    (hwhole : update.LeavesWhole x) :
    (finishUpdate package fault).Ends (fun _ y => update.Holds y) update.Holds update.HoldsAfterRestart
      x := by
  have hstaged : (Job.attempt (applyStagedUpdate fault)).Ends
      (fun result y => (result = .ok () → update.Replaced y.state) ∧ update.Rolling y.state)
      update.Holds update.HoldsAfterRestart x := by
    refine Job.ends_attempt (Job.Ends.bind ((secondBackup_ends h hwhole).weaken ?_ ?_) ?_)
    · exact fun y hy error => ⟨nofun, hy⟩
    · exact fun s hs => hs.holdsAfterRestart
    · intro _ y hy
      refine (replaceInstall_ends fault hy).mono ?_ ?_ ?_
      · exact fun _ z hz => ⟨fun _ => hz, hz.rolling⟩
      · exact fun z hz error => ⟨nofun, hz⟩
      · exact fun s hs => hs.holdsAfterRestart
  unfold finishUpdate
  refine hstaged.bind ?_
  rintro result y ⟨hok, hy⟩
  cases result with
  | error error => exact (rollBack_ends error hy).bind fun _ _ h => h.elim
  | ok value => exact (commitUpdate_ends package hversion (hok rfl)).bind fun _ z hz => Job.ends_pure hz

/-- The second backup is whole whenever the update gets there. -/
def BackupStaysWhole (update : Update) (package : UpdatePackage) (fault : UpdateFault)
    (x : Exposed System) : Prop :=
  ∀ y, (do
    beginUpdate package
    prepareUpdate package fault : Work Unit) x = (.done (), y) → update.LeavesWhole y

theorem applyUpdateWithFault_ends (package : UpdatePackage) (fault : UpdateFault)
    (hnew : update.new = newTree update.old package)
    (hversion : update.toVersion = package.manifest.version)
    (hdelta : update.isDelta = package.manifest.isDelta) (h : update.Untouched x.state)
    (hnone : x.state.disk.journal = none) (hwhole : update.BackupStaysWhole package fault x) :
    (applyUpdateWithFault package fault).Ends (fun _ y => update.Holds y) update.Holds
      update.HoldsAfterRestart x := by
  have hbegin : (beginUpdate package).Ends
      (fun _ y => update.Untouched y.state ∧ y.state.disk.journal = none) update.Holds
      update.HoldsAfterRestart x :=
    beginUpdate_ends package (h.holds (.inl hnone)) fun _ => ⟨h.setState _, hnone⟩
  unfold applyUpdateWithFault
  refine Job.Ends.bind ((hbegin.and_run (P := fun _ => True) trivial).weaken (fun _ hy => hy.1)
    fun _ hs => hs.1) ?_
  rintro _ y ⟨⟨huntouched, hnone'⟩, hrun, -⟩
  refine Job.ends_get_bind ?_
  rw [Option.isNone_eq_false_iff.mpr huntouched.installDir, if_neg Bool.false_ne_true]
  have hprepare := prepareUpdate_ends package fault hnew hversion hdelta huntouched hnone'
  refine Job.Ends.bind ((hprepare.and_run (P := fun _ => True) trivial).weaken (fun _ hy => hy.1)
    fun _ hs => hs.1) ?_
  rintro _ z ⟨hready, hrun', -⟩
  exact finishUpdate_ends package fault hversion hready (hwhole z ((Job.bind_run hrun).trans hrun'))

/-! ## A backup in pieces -/

/-- The same update with another tree to go back to. -/
def withTrees (update : Update) (old new : Tree) : Update := { update with old := old, new := new }

omit [Release] in
theorem brokenBackup_ends {tree : Tree} (new : Tree)
    (h : update.Ready .applying x.state) (hallowed : ¬ Refused x.state.manager)
    (hbackup : (createBackup x).2.state.disk.trees .backup = some tree) (hne : tree ≠ update.old) :
    createBackup.Ends (fun _ _ => False) (fun y => (update.withTrees tree new).Rolling y.state)
      (update.withTrees tree new).Rolling x := by
  have hold : Left Copyable (x.state.disk.trees .backup) := by
    rw [h.backup]
    exact left_some h.copyable
  have hrolling : ∀ {s : System}, At x.state .backup
      (Left fun left => Left Copyable (x.state.disk.trees .backup) → Copyable left) s →
      s.disk.trees .backup = some tree → (update.withTrees tree new).Rolling s := by
    intro s hs hsome
    have huntouched := h.untouched.at_place (by decide) hs
    obtain ⟨left, hleft, rfl⟩ := hs
    have hcopyable : Copyable tree := by
      rw [System.setTree_trees, if_pos rfl] at hsome
      exact hleft tree hsome hold
    exact ⟨huntouched.installDir, huntouched.stateDir, ⟨.applying, .inr rfl, h.journal⟩,
      ⟨hcopyable, fun hrefused => absurd hrefused hallowed, fun _ => .inl hsome⟩, huntouched.current,
      huntouched.recorded⟩
  have hends := (createBackup_ends h.untouched.install).and_run
    (P := fun y => y.state.disk.trees .backup = some tree) hbackup
  refine hends.mono ?_ ?_ ?_
  · rintro _ y ⟨⟨-, hy⟩, -, hsome⟩
    obtain ⟨_, rfl, hstate⟩ := hy
    rw [hstate, System.setTree_trees, if_pos rfl] at hsome
    exact hne (Option.some.inj hsome).symm
  · exact fun y hy => hrolling hy.1 hy.2
  · rintro s ⟨hs, faults, hsome⟩
    exact hrolling hs hsome

theorem finishUpdate_broken (package : UpdatePackage) (fault : UpdateFault)
    (h : createBackup.Ends (fun _ _ => False) (fun y => update.Rolling y.state) update.Rolling x) :
    (finishUpdate package fault).Ends (fun _ y => update.Holds y) update.Holds update.HoldsAfterRestart
      x := by
  have hstaged : (Job.attempt (applyStagedUpdate fault)).Ends
      (fun result y => result ≠ .ok () ∧ update.Rolling y.state)
      update.Holds update.HoldsAfterRestart x := by
    refine Job.ends_attempt (Job.Ends.bind (h.weaken ?_ ?_) fun _ _ h => h.elim)
    · exact fun y hy error => ⟨nofun, hy⟩
    · exact fun s hs => hs.holdsAfterRestart
  unfold finishUpdate
  refine hstaged.bind ?_
  rintro result y ⟨hne, hy⟩
  cases result with
  | error error => exact (rollBack_ends error hy).bind fun _ _ h => h.elim
  | ok value => exact absurd rfl hne

theorem applyUpdateWithFault_run {x y z : Exposed System} {package : UpdatePackage} {fault : UpdateFault}
    (hbegin : beginUpdate package x = (.done (), y)) (hdir : y.state.manager.installDir.isSome = true)
    (hprepare : prepareUpdate package fault y = (.done (), z)) :
    applyUpdateWithFault package fault x = finishUpdate package fault z := by
  unfold applyUpdateWithFault
  rw [Job.bind_run hbegin]
  show (if y.state.manager.installDir.isNone = true then _ else _ : Work String) y = _
  rw [Option.isNone_eq_false_iff.mpr hdir, if_neg Bool.false_ne_true]
  exact Job.bind_run hprepare

end

end Update

/-! ## The theorem -/

namespace Update

variable {update : Update}

theorem not_leavesWhole [Listing] {x : Exposed System} (h : ¬ update.LeavesWhole x) :
    ∃ tree, ¬ Refused x.state.manager ∧ (createBackup x).2.state.disk.trees .backup = some tree ∧
      tree ≠ update.old := by
  unfold LeavesWhole at h
  push Not at h
  obtain ⟨hallowed, hsome, hne⟩ := h
  obtain ⟨tree, htree⟩ := Option.ne_none_iff_exists'.mp hsome
  exact ⟨tree, hallowed, htree, fun heq => hne (heq ▸ htree)⟩

theorem not_consistent {version : String} {disk : Disk} {tree : Tree}
    (hversions : update.fromVersion ≠ update.toVersion) (hne : tree ≠ update.old)
    (hother : ∀ new, (update.withTrees tree new).Consistent version disk) :
    ¬ update.Consistent version disk := by
  obtain ⟨new, hnew⟩ : ∃ new, new ≠ update.new := by
    by_cases htree : tree = update.new
    · exact ⟨update.old, fun heq => hne (htree.trans heq.symm)⟩
    · exact ⟨tree, htree⟩
  rintro (⟨hinstall, hfrom, -⟩ | ⟨hinstall, hto, -⟩)
  · rcases hother new with ⟨hthird, -, -⟩ | ⟨-, hversion, -⟩
    · exact hne (Option.some.inj (hthird.symm.trans hinstall))
    · exact hversions (hfrom.symm.trans hversion)
  · rcases hother new with ⟨-, hversion, -⟩ | ⟨hthird, -, -⟩
    · exact hversions (Eq.symm (hto.symm.trans hversion))
    · exact hnew (Option.some.inj (hthird.symm.trans hinstall))

theorem checkUpdate_newer [Release] {manager : UpdateManager} {manifest : UpdateManifest}
    (h : checkUpdate manager manifest = .ok ()) : manager.currentVersion ≠ manifest.version := by
  intro hsame
  unfold checkUpdate at h
  rw [hsame] at h
  cases hvalid : manifest.validate with
  | error error =>
    rw [hvalid] at h
    cases h
  | ok value =>
    cases hversion : parseVersionOrError manifest.version with
    | error error =>
      rw [hvalid, hversion] at h
      cases h
    | ok version =>
      cases hminimum : parseVersionOrError manifest.minSupportedVersion with
      | error error =>
        rw [hvalid, hversion, hminimum] at h
        cases h
      | ok minimum =>
        rw [hvalid, hversion, hminimum] at h
        simp only [bind, Except.bind, le_refl, if_true] at h
        split at h
        · cases h
        · cases h

theorem beginUpdate_done [Release] {x y : Exposed System} {package : UpdatePackage}
    (h : beginUpdate package x = (.done (), y)) :
    checkUpdate x.state.manager package.manifest = .ok () ∧
      y.state = x.state.setState (.available package.manifest.version) :=
  (@beginUpdate_ends x _ package
    (fun _ y => checkUpdate x.state.manager package.manifest = .ok () ∧
      y.state = x.state.setState (.available package.manifest.version))
    (fun _ => True) (fun _ => True) trivial fun hcheck => ⟨hcheck, rfl⟩).of_run h

end Update

section

variable [Release] [Listing]

/-- The update that a package makes of an installation. -/
def updateOf (given : String) (system : System) (old : Tree) (package : UpdatePackage) : Update where
  old := old
  new := newTree old package
  fromVersion := system.manager.currentVersion
  toVersion := package.manifest.version
  isDelta := package.manifest.isDelta
  given := given

/-- An update that is cut off anywhere, and a recovery that is cut off any number of times,
lead to the old tree or the new one with its version exactly when the second backup is not
left in pieces. -/
theorem recovery_iff (given : String) (system : System) (old : Tree) (package : UpdatePackage)
    (fault : UpdateFault) (faults : List Fault) (attempts : List Attempt) (last : Bool)
    (hinstalled : Installed given system old)
    (hfits : ∀ phase, ((updateOf given system old package).journal phase).encode.utf8ByteSize ≤
      maxManifestBytes) :
    (updateOf given system old package).Consistent
        ((system.updated given package fault faults).recovered given attempts last).manager.currentVersion
        ((system.updated given package fault faults).recovered given attempts last).disk ↔
      (updateOf given system old package).BackupStaysWhole package fault ⟨faults, system⟩ := by
  have huntouched : (updateOf given system old package).Untouched system :=
    ⟨hinstalled.installDir, hinstalled.stateDir, hinstalled.install, rfl, hinstalled.recorded⟩
  constructor
  · intro hconsistent
    by_contra hnot
    unfold Update.BackupStaysWhole at hnot
    push Not at hnot
    obtain ⟨z, hrun, hbroken⟩ := hnot
    obtain ⟨⟨⟩, y, hbegin, hprepare⟩ := Job.of_bind_run hrun
    obtain ⟨hcheck, hstate⟩ := Update.beginUpdate_done hbegin
    have hbegun : (updateOf given system old package).Untouched y.state := hstate ▸ huntouched.setState _
    have hready := (Update.prepareUpdate_ends package fault rfl rfl rfl hbegun
      (by rw [hstate]; exact hinstalled.journal)).of_run hprepare
    obtain ⟨tree, hallowed, hbackup, hne⟩ := Update.not_leavesWhole hbroken
    -- the tree that is restored is the one in pieces, whatever the new tree is
    have hrecovered : ∀ new, ((updateOf given system old package).withTrees tree new).Consistent
        ((system.updated given package fault faults).recovered given attempts last).manager.currentVersion
        ((system.updated given package fault faults).recovered given attempts last).disk := by
      intro new
      have hfinish := Update.finishUpdate_broken package fault
        (Update.brokenBackup_ends new hready hallowed hbackup hne)
      have hsound := Update.afterJob_sound hfinish fun _ _ h => h
      rw [← Update.applyUpdateWithFault_run hbegin hbegun.installDir hprepare] at hsound
      exact Update.recovered_of_sound hsound hfits attempts last
    exact Update.not_consistent (Update.checkUpdate_newer hcheck) hne hrecovered hconsistent
  · intro hwhole
    have hends := @Update.applyUpdateWithFault_ends (updateOf given system old package)
      ⟨faults, system⟩ _ _ package fault rfl rfl rfl huntouched hinstalled.journal hwhole
    exact Update.recovered_of_sound (Update.afterJob_sound hends fun _ _ h => h) hfits attempts last

end

/-! ## An example -/

/-- SHA-256 of a file that holds the byte 2. -/
def sampleDigest : String := "dbc1b4c900ffe48d575b5da5c638040125f65db0fe3e24494b76ea986457d986"

/-- The answers that the sample package needs. -/
@[reducible] def sampleRelease : Release where
  Version := Nat
  order := inferInstance
  parseVersion text := if text = "1.0.0" then some 1 else if text = "2.0.0" then some 2 else none
  parseUrl _ := some ("https", some "updates.example")
  sha256Hex _ := sampleDigest
  verify _ _ _ := .ok ()

@[reducible] def sampleListing : Listing where
  order _ tree := tree.toList
  perm _ _ := .refl _

/-- A full update of one file. -/
def samplePackage : UpdatePackage where
  manifest :=
    { version := "2.0.0"
      minSupportedVersion := "1.0.0"
      channel := "stable"
      downloadUrl := "https://updates.example/app"
      releaseNotes := none
      isDelta := false
      deltaBaseVersion := none
      publisherKeyId := "ghita"
      fileHashes := (∅ : Std.ExtTreeMap String String compare).insert "app" sampleDigest
      signature := String.ofList (List.replicate 128 '0') }
  files := [("app", [2])]
  distinct := by decide

def sampleTree : Tree := (∅ : Tree).insert ["app"] (.file [1])

def sampleSystem : System where
  manager :=
    { currentVersion := "1.0.0"
      state := .idle
      installedManifest := none
      installDir := some ["opt", "ghita"]
      stateDir := some ["home", "profile", "updater"] }
  disk :=
    { trees := Function.update (fun _ => none) .install (some sampleTree)
      journal := none
      persisted := none
      availableSpace := 2 ^ 30 }

/-- The sample after an update with these faults and a recovery. -/
def sampleRecovered (faults : List Fault) : System :=
  @System.recovered sampleListing "1.0.0"
    (@System.updated sampleRelease sampleListing "1.0.0" sampleSystem samplePackage .none faults) [] true

/-- The faults of a machine that stops in the middle of the new file. -/
def cutInstall : List Fault := List.replicate 29 .none ++ [.crash 1]

/-- The sample after them, a recovery that is cut off as well, and another one. -/
def sampleResumed : System :=
  @System.recovered sampleListing "1.0.0"
    (@System.updated sampleRelease sampleListing "1.0.0" sampleSystem samplePackage .none cutInstall)
    [⟨true, [.none, .none, .crash 1]⟩] true

/-- The second backup is whole by then, and the old file comes back. -/
theorem recovery_iff_sample :
    (updateOf "1.0.0" sampleSystem sampleTree samplePackage).Consistent
      sampleResumed.manager.currentVersion sampleResumed.disk := by
  have hinstalled : Installed "1.0.0" sampleSystem sampleTree := ⟨rfl, rfl, rfl, rfl, rfl⟩
  have hfits : ∀ phase, ((updateOf "1.0.0" sampleSystem sampleTree samplePackage).journal
      phase).encode.utf8ByteSize ≤ maxManifestBytes := by
    intro phase
    cases phase <;> decide
  unfold sampleResumed
  refine (@recovery_iff sampleRelease sampleListing "1.0.0" sampleSystem sampleTree samplePackage
    .none cutInstall _ true hinstalled hfits).mpr fun y hrun => .inr (.inr ?_)
  have hlist : ((@createBackup sampleListing y).2.state.disk.trees .backup).map
      Std.ExtTreeMap.toList = some sampleTree.toList := by
    have hend : _ = y := congrArg Prod.snd hrun
    subst hend
    decide +kernel
  obtain ⟨tree, htree, hsame⟩ := Option.map_eq_some_iff.mp hlist
  rw [htree]
  exact congrArg some (Std.ExtTreeMap.ext_toList (.of_eq hsame))

/-- The faults of a machine that stops when it has made the directory of the second backup. -/
def secondBackupCrash : List Fault := List.replicate 20 .none ++ [.crash 1]

/-- Recovery empties the installation. -/
theorem recovery_empties_install :
    ¬ (updateOf "1.0.0" sampleSystem sampleTree samplePackage).Consistent
      (sampleRecovered secondBackupCrash).manager.currentVersion (sampleRecovered secondBackupCrash).disk := by
  rintro (⟨hinstall, -, -⟩ | ⟨-, hversion, -⟩)
  · have hsize := congrArg (Option.map Std.ExtTreeMap.size) hinstall
    exact absurd hsize (by decide +kernel)
  · exact absurd hversion (by decide +kernel)

end GhitaBrowser.Updater
