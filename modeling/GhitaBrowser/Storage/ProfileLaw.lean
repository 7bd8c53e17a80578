import GhitaBrowser.Storage.Profile

/-!
# Saving a profile

What a save leaves wherever it is cut off, and what is loaded from it.
-/

namespace GhitaBrowser.Storage

open Html

/-! ## The files -/

section Files

variable {x : Exposed ProfileDisk} {before after : ProfileDisk} {json : Bytes}

theorem putFile_ends (bytes : Bytes) :
    (putFile .temporary bytes).Ends
      (fun _ y => y.state = Function.update x.state .temporary (some bytes))
      (fun y => ∃ content, y.state = Function.update x.state .temporary content)
      (fun s => ∃ content, s = Function.update x.state .temporary content) x := by
  refine Job.ends_op ?_ ?_ ?_ ?_
  · rintro value state faults ⟨⟩
    rfl
  · exact fun _ => ⟨x.state .temporary, (Function.update_eq_self _ _).symm⟩
  · exact fun _ _ => ⟨_, rfl⟩
  · exact fun _ => ⟨_, rfl⟩

theorem untouched_ends :
    untouched.Ends (fun _ y => y.state = x.state) (fun y => y.state = x.state) (fun s => s = x.state) x := by
  refine Job.ends_op ?_ ?_ ?_ ?_
  · rintro _ _ _ ⟨⟩
    rfl
  · exact fun _ => rfl
  · exact fun _ _ => rfl
  · exact fun _ => rfl

variable {change : Bytes → ProfileDisk → ProfileDisk} {file : ProfileFile}

theorem relink_ends :
    (relink file change).Ends
      (fun _ y => ∃ bytes, x.state file = some bytes ∧ y.state = change bytes x.state)
      (fun y => y.state = x.state)
      (fun s => s = x.state ∨ ∃ bytes, x.state file = some bytes ∧ s = change bytes x.state) x := by
  refine Job.ends_op ?_ ?_ ?_ ?_
  · intro value state faults heffect
    split at heffect
    · cases heffect
    · next bytes hfile =>
      cases heffect
      exact ⟨bytes, hfile, rfl⟩
  · exact fun _ => rfl
  · exact fun _ _ => rfl
  · intro progress
    split
    · next bytes _ hfile => exact .inr ⟨bytes, hfile, rfl⟩
    · exact .inl rfl

/-- The main file and the backup of a save that is cut off, or done. -/
inductive Cut (before : ProfileDisk) (json : Bytes) (after : ProfileDisk) : Prop
  | same (hmain : after .main = before .main) (hbackup : after .backup = before .backup)
  | unbacked (hsome : (before .main).isSome) (hmain : after .main = before .main)
      (hbackup : after .backup = none)
  | aside (hsome : (before .main).isSome) (hmain : after .main = none)
      (hbackup : after .backup = before .main)
  | broughtBack (hnone : before .main = none) (hmain : after .main = before .backup)
      (hbackup : after .backup = none)
  | replaced (hmain : after .main = some json)
      (hbackup : after .backup = (before .main).or (before .backup))

/-- The main file, if there was one, has become the backup. -/
structure BackedUp (before after : ProfileDisk) : Prop where
  main : after .main = none
  backup : after .backup = (before .main).or (before .backup)

theorem BackedUp.cut (h : BackedUp before after) : Cut before json after := by
  obtain ⟨hmain, hbackup⟩ := h
  cases hbefore : before .main with
  | none => exact .same (hmain.trans hbefore.symm) (by rw [hbackup, hbefore, Option.none_or])
  | some bytes => exact .aside (by rw [hbefore]; rfl) hmain (by rw [hbackup, hbefore, Option.some_or])

theorem backUpMain_ends :
    backUpMain.Ends
      (fun _ y => BackedUp x.state y.state ∧ y.state .temporary = x.state .temporary)
      (fun y => Cut x.state json y.state) (Cut x.state json) x := by
  unfold backUpMain
  refine Job.ends_get_bind ?_
  cases hmain : x.state .main with
  | none => exact ⟨⟨hmain, by rw [hmain, Option.none_or]⟩, rfl⟩
  | some main =>
    have hsome : (x.state .main).isSome := by rw [hmain]; rfl
    rw [Option.isSome_some, if_pos rfl]
    -- Up to here the backup may be gone, and nothing else has changed.
    have hremove : removeBackup.Ends
        (fun _ y => (∀ file, file ≠ .backup → y.state file = x.state file) ∧ Cut x.state json y.state)
        (fun y => Cut x.state json y.state) (Cut x.state json) x := by
      unfold removeBackup
      refine Job.ends_get_bind ?_
      split
      · refine relink_ends.mono ?_ ?_ ?_
        · rintro _ y ⟨bytes, -, hstate⟩
          rw [hstate]
          exact ⟨fun file hne => Function.update_of_ne hne _ _, .unbacked hsome rfl rfl⟩
        · intro y hstate
          rw [hstate]
          exact .same rfl rfl
        · rintro s (rfl | ⟨bytes, -, rfl⟩)
          · exact .same rfl rfl
          · exact .unbacked hsome rfl rfl
      · exact ⟨fun _ _ => rfl, .same rfl rfl⟩
    refine hremove.bind fun _ y ⟨hothers, hcut⟩ => ?_
    have hy : y.state .main = some main := (hothers .main nofun).trans hmain
    have hmoved : ∀ {bytes}, y.state .main = some bytes → BackedUp x.state
        (Function.update (Function.update y.state .backup (some bytes)) .main none) := by
      intro bytes hbytes
      refine ⟨rfl, ?_⟩
      show some bytes = _
      rw [← hbytes, hy, hmain, Option.some_or]
    refine relink_ends.mono ?_ ?_ ?_
    · rintro _ z ⟨bytes, hbytes, hstate⟩
      rw [hstate]
      exact ⟨hmoved hbytes, hothers .temporary nofun⟩
    · intro z hstate
      rwa [hstate]
    · rintro s (rfl | ⟨bytes, hbytes, rfl⟩)
      · exact hcut
      · exact (hmoved hbytes).cut

theorem passOver_ends {job : SaveJob Unit} {P : ProfileDisk → Prop}
    (h : job.Ends (fun _ y => P y.state) (fun y => P y.state) P x) :
    (passOver job).Ends (fun _ y => P y.state) (fun _ => False) P x := by
  have hattempt : job.attempt.Ends (fun _ y => P y.state) (fun _ => False) P x :=
    Job.ends_attempt (h.mono (fun _ _ hy => hy) (fun _ hy _ => hy) fun _ hs => hs)
  unfold passOver
  exact hattempt.bind fun _ y hy => hy

theorem bringBack_ends (h : BackedUp before x.state) :
    bringBack.Ends (fun _ y => Cut before json y.state) (fun _ => False) (Cut before json) x := by
  unfold bringBack
  refine Job.ends_get_bind ?_
  split
  · refine passOver_ends ?_
    have hback : ∀ {bytes}, x.state .backup = some bytes → Cut before json
        (Function.update (Function.update x.state .main (some bytes)) .backup none) := by
      intro bytes hbytes
      have hnew : Function.update (Function.update x.state .main (some bytes)) .backup none .main =
          x.state .backup := hbytes.symm
      cases hmain : before .main with
      | none =>
        refine .broughtBack hmain (hnew.trans ?_) rfl
        rw [h.backup, hmain, Option.none_or]
      | some main =>
        refine .unbacked (by rw [hmain]; rfl) (hnew.trans ?_) rfl
        rw [h.backup, hmain, Option.some_or]
    refine relink_ends.mono ?_ ?_ ?_
    · rintro _ y ⟨bytes, hbytes, hstate⟩
      rw [hstate]
      exact hback hbytes
    · intro y hstate
      rw [hstate]
      exact h.cut
    · rintro s (rfl | ⟨bytes, hbytes, rfl⟩)
      · exact h.cut
      · exact hback hbytes
  · exact h.cut

theorem replaceMain_ends (h : BackedUp before x.state) (htemporary : x.state .temporary = some json) :
    replaceMain.Ends (fun _ y => Cut before json y.state) (fun y => Cut before json y.state)
      (Cut before json) x := by
  have hreplaced : ∀ {bytes}, x.state .temporary = some bytes → Cut before json
      (Function.update (Function.update x.state .main (some bytes)) .temporary none) := by
    intro bytes hbytes
    refine .replaced ?_ ?_
    · exact hbytes.symm.trans htemporary
    · exact h.backup
  have hrename : (rename .temporary .main).attempt.Ends
      (fun result y => match result with
        | .ok _ => Cut before json y.state
        | .error _ => BackedUp before y.state)
      (fun y => Cut before json y.state) (Cut before json) x := by
    refine Job.ends_attempt (relink_ends.mono ?_ ?_ ?_)
    · rintro _ y ⟨bytes, hbytes, hstate⟩
      rw [hstate]
      exact hreplaced hbytes
    · intro y hstate _
      rw [hstate]
      exact h
    · rintro s (rfl | ⟨bytes, hbytes, rfl⟩)
      · exact h.cut
      · exact hreplaced hbytes
  unfold replaceMain
  refine hrename.bind fun result y hy => ?_
  cases result with
  | ok _ => exact hy
  | error error => exact ((bringBack_ends hy).weaken nofun fun _ => id).bind fun _ z hz => hz

theorem writeState_ends :
    (writeState json).Ends (fun _ y => Cut x.state json y.state) (fun y => Cut x.state json y.state)
      (Cut x.state json) x := by
  have hsame : ∀ {content : Option Bytes} {disk : ProfileDisk},
      disk .main = x.state .main → disk .backup = x.state .backup →
      Cut x.state json (Function.update disk .temporary content) := fun hmain hbackup =>
    .same hmain hbackup
  unfold writeState
  refine Job.Ends.bind ((putFile_ends []).weaken ?_ ?_) fun _ y hy => ?_
  · rintro y ⟨content, hstate⟩
    rw [hstate]
    exact hsame rfl rfl
  · rintro s ⟨content, rfl⟩
    exact hsame rfl rfl
  have hymain : y.state .main = x.state .main := by rw [hy]; rfl
  have hybackup : y.state .backup = x.state .backup := by rw [hy]; rfl
  refine Job.Ends.bind ((putFile_ends json).weaken ?_ ?_) fun _ z hz => ?_
  · rintro z ⟨content, hstate⟩
    rw [hstate]
    exact hsame hymain hybackup
  · rintro s ⟨content, rfl⟩
    exact hsame hymain hybackup
  have hzmain : z.state .main = x.state .main := by rw [hz]; exact hymain
  have hzbackup : z.state .backup = x.state .backup := by rw [hz]; exact hybackup
  have hztemporary : z.state .temporary = some json := by rw [hz]; rfl
  refine Job.Ends.bind (untouched_ends.weaken ?_ ?_) fun _ w hw => ?_
  · intro w hw
    rw [hw]
    exact .same hzmain hzbackup
  · rintro s rfl
    exact .same hzmain hzbackup
  have hcut : ∀ {after}, Cut w.state json after → Cut x.state json after := by
    rw [hw]
    rintro after (⟨hmain, hbackup⟩ | ⟨hsome, hmain, hbackup⟩ | ⟨hsome, hmain, hbackup⟩ |
      ⟨hnone, hmain, hbackup⟩ | ⟨hmain, hbackup⟩)
    · exact .same (hmain.trans hzmain) (hbackup.trans hzbackup)
    · exact .unbacked (hzmain ▸ hsome) (hmain.trans hzmain) hbackup
    · exact .aside (hzmain ▸ hsome) hmain (hbackup.trans hzmain)
    · exact .broughtBack (hzmain ▸ hnone) (hmain.trans hzbackup) hbackup
    · exact .replaced hmain (by rw [hbackup, hzmain, hzbackup])
  refine Job.Ends.bind (backUpMain_ends.weaken (fun _ => hcut) fun _ => hcut) fun _ v hv => ?_
  obtain ⟨hbacked, htemporary⟩ := hv
  refine (replaceMain_ends hbacked (htemporary.trans (hw ▸ hztemporary))).mono ?_ ?_ ?_
  · exact fun _ _ => hcut
  · exact fun _ => hcut
  · exact fun _ => hcut

theorem Cut.frame {first second : ProfileDisk} (h : Cut before json first)
    (hmain : second .main = first .main) (hbackup : second .backup = first .backup) :
    Cut before json second := by
  obtain ⟨h, h'⟩ | ⟨hsome, h, h'⟩ | ⟨hsome, h, h'⟩ | ⟨hnone, h, h'⟩ | ⟨h, h'⟩ := h
  · exact .same (hmain.trans h) (hbackup.trans h')
  · exact .unbacked hsome (hmain.trans h) (hbackup.trans h')
  · exact .aside hsome (hmain.trans h) (hbackup.trans h')
  · exact .broughtBack hnone (hmain.trans h) (hbackup.trans h')
  · exact .replaced (hmain.trans h) (hbackup.trans h')

end Files

/-! ## What is loaded -/

section

variable {R : Type} [StateFormat R]

def readFile (disk : ProfileDisk) (file : ProfileFile) : Option (StorageState R) :=
  (disk file).bind readState

/-- The state in the main file, or else in the backup. -/
def storedState (disk : ProfileDisk) : Option (StorageState R) :=
  (readFile disk .main).or (readFile disk .backup)

variable {disk : ProfileDisk} {file : ProfileFile} {change : Bytes → ProfileDisk → ProfileDisk}

theorem readFile_none (h : disk file = none) :
    readFile (R := R) disk file = none := by
  rw [readFile, h, Option.bind_none]

theorem readFile_some {bytes : Bytes}
    (h : disk file = some bytes) : readFile (R := R) disk file = readState bytes := by
  rw [readFile, h, Option.bind_some]

theorem readFile_congr {disk' : ProfileDisk} {file' : ProfileFile}
    (h : disk file = disk' file') : readFile (R := R) disk file = readFile disk' file' := by
  rw [readFile, h, readFile]

theorem loadBackup_eq (manager : StorageManager R) (disk : ProfileDisk) (now : Int) :
    loadBackup manager disk now = ((readFile disk .backup).map (manager.applyState · now)).getD manager := by
  unfold loadBackup
  split
  · next hbackup => rw [readFile_none hbackup]; rfl
  · next backup hbackup =>
    rw [readFile_some hbackup]
    split
    · next state hread => rw [hread]; rfl
    · next hread => rw [hread]; rfl

theorem load_eq (manager : StorageManager R) (disk : ProfileDisk) (now : Int) :
    load manager disk now = ((storedState disk).map (manager.applyState · now)).getD manager := by
  unfold load storedState
  rw [loadBackup_eq]
  split
  · next hmain => rw [readFile_none hmain]; rfl
  · next main hmain =>
    rw [readFile_some hmain]
    split
    · next state hread => rw [hread]; rfl
    · next hread => rw [hread]; rfl

variable (R) in
/-- The backup is all that can be read. -/
def OnlyBackup (disk : ProfileDisk) : Prop :=
  (disk .main).isSome ∧ readFile (R := R) disk .main = none ∧ (readFile (R := R) disk .backup).isSome

variable {json : Bytes}

/-- What is stored when a save is cut off: the old state or the new one, unless only the
backup could be read. -/
theorem Cut.stored {before after : ProfileDisk} (h : Cut before json after) :
    storedState after = (storedState before : Option (StorageState R)) ∨
      storedState after = readState (R := R) json ∧ (readState (R := R) json).isSome ∨
      storedState (R := R) after = none ∧ OnlyBackup R before := by
  -- A main file without its backup: what is lost is a backup that was all.
  have hmainOnly : (before .main).isSome → storedState after = readFile (R := R) before .main →
      storedState after = (storedState before : Option (StorageState R)) ∨
      storedState (R := R) after = none ∧ OnlyBackup R before := by
    intro hsome hstored
    rw [hstored, storedState]
    cases hread : readFile (R := R) before .main with
    | some state => exact .inl rfl
    | none =>
      cases hback : readFile (R := R) before .backup with
      | none => exact .inl rfl
      | some state => exact .inr ⟨rfl, hsome, hread, by rw [hback]; rfl⟩
  obtain ⟨hmain, hbackup⟩ | ⟨hsome, hmain, hbackup⟩ | ⟨hsome, hmain, hbackup⟩ |
    ⟨hnone, hmain, hbackup⟩ | ⟨hmain, hbackup⟩ := h
  · exact .inl (by rw [storedState, readFile_congr hmain, readFile_congr hbackup, storedState])
  · refine (hmainOnly hsome ?_).imp_right .inr
    rw [storedState, readFile_congr hmain, readFile_none hbackup, Option.or_none]
  · refine (hmainOnly hsome ?_).imp_right .inr
    rw [storedState, readFile_none hmain, readFile_congr hbackup, Option.none_or]
  · refine .inl ?_
    rw [storedState, readFile_congr hmain, readFile_none hbackup, storedState, readFile_none hnone, Option.or_none,
      Option.none_or]
  · have hstored : storedState (R := R) after = (readState json).or (readFile after .backup) := by
      rw [storedState, readFile_some hmain]
    cases hjson : readState (R := R) json with
    | some state => exact .inr (.inl ⟨by rw [hstored, hjson, Option.some_or], rfl⟩)
    | none =>
      rw [hjson, Option.none_or] at hstored
      cases hbefore : before .main with
      | none =>
        rw [hbefore, Option.none_or] at hbackup
        exact .inl (by rw [hstored, readFile_congr hbackup, storedState, readFile_none hbefore, Option.none_or])
      | some main =>
        rw [hbefore, Option.some_or, ← hbefore] at hbackup
        exact (hmainOnly (by rw [hbefore]; rfl) (hstored.trans (readFile_congr hbackup))).imp_right .inr

/-! ## The profile -/

structure Profile where
  bookmarks : List Bookmark
  bookmarkTree : BookmarkItem
  history : List HistoryRecord
  cookies : CookieStore

def StorageManager.profile (manager : StorageManager R) : Profile :=
  ⟨manager.bookmarks, manager.bookmarkTree.root, manager.history, manager.cookies⟩

/-- The profile of a manager as of a later time: session cookies and expired ones are gone. -/
def StorageManager.profileAt (manager : StorageManager R) (appliedAt openedAt : Int) : Profile :=
  { manager.profile with
    cookies := cleanExpired (cleanExpired (persistedCookies manager.cookies) appliedAt) openedAt }

variable [Inhabited R]

/-- The profile that is opened from the files. -/
def opened (disk : ProfileDisk) (appliedAt openedAt : Int) : Profile :=
  (fromStorageDir (R := R) disk appliedAt openedAt).profile

/-- The profile that is opened from a stored state, or from none. -/
def openedFrom (stored : Option (StorageState R)) (appliedAt openedAt : Int) : Profile :=
  match stored with
  | none => (StorageManager.fresh (R := R)).profileAt appliedAt openedAt
  | some state =>
    { bookmarks := state.bookmarks
      bookmarkTree := (restoreBookmarkTree state.bookmarkTree state.bookmarks).root
      history := state.history
      cookies := cleanExpired (cleanExpired state.cookies appliedAt) openedAt }

theorem opened_eq (disk : ProfileDisk) (appliedAt openedAt : Int) :
    opened (R := R) disk appliedAt openedAt = openedFrom (R := R) (storedState disk) appliedAt openedAt := by
  unfold opened fromStorageDir
  rw [load_eq]
  cases storedState (R := R) disk <;> rfl

omit [Inhabited R] in
theorem readState_written {state found : StorageState R}
    (hwritten : StateFormat.toStringPretty state = some json) (hread : readState json = some found) :
    found = state := by
  unfold readState at hread
  obtain hback | hback := StateFormat.reads_back state json hwritten
  · rw [hback] at hread
    simp only [Option.ite_none_left_eq_some, Option.ite_none_right_eq_some, Option.some.injEq] at hread
    exact hread.2.2.symm
  · rw [hback] at hread
    simp at hread

omit [Inhabited R] in
theorem save_ends (manager : StorageManager R) (x : Exposed ProfileDisk) :
    (save manager).Ends
      (fun _ y => y.state = x.state ∨
        ∃ json, StateFormat.toStringPretty manager.state = some json ∧ Cut x.state json y.state)
      (fun _ => False)
      (fun s => s = x.state ∨
        ∃ json, StateFormat.toStringPretty manager.state = some json ∧ Cut x.state json s) x := by
  have hlooked : untouched.attempt.Ends (fun _ y => y.state = x.state) (fun _ => False)
      (fun s => s = x.state) x :=
    Job.ends_attempt (untouched_ends.mono (fun _ _ hy => hy) (fun _ hy _ => hy) fun _ hs => hs)
  unfold save
  refine (hlooked.weaken nofun fun s hs => .inl hs).bind fun result y hy => ?_
  cases result with
  | error _ => exact .inl hy
  | ok _ =>
    cases hwritten : StateFormat.toStringPretty manager.state with
    | none => exact .inl hy
    | some json =>
      have hwrite : (writeState json).attempt.Ends (fun _ z => Cut x.state json z.state)
          (fun _ => False) (Cut x.state json) y :=
        hy ▸ Job.ends_attempt (writeState_ends.mono (fun _ _ hz => hz) (fun _ hz _ => hz) fun _ hs => hs)
      refine (hwrite.weaken nofun fun s hs => .inr ⟨json, rfl, hs⟩).bind fun result z hz => ?_
      cases result with
      | ok _ => exact .inr ⟨json, rfl, hz⟩
      | error _ =>
        have hclean : (removeFile .temporary).Ends (fun _ w => Cut x.state json w.state)
            (fun w => Cut x.state json w.state) (Cut x.state json) z := by
          refine relink_ends.mono ?_ ?_ ?_
          · rintro _ w ⟨bytes, -, hw⟩
            rw [hw]
            exact hz.frame rfl rfl
          · intro w hw
            rwa [hw]
          · rintro s (rfl | ⟨bytes, -, rfl⟩)
            · exact hz
            · exact hz.frame rfl rfl
        exact (passOver_ends hclean).mono (fun _ w hw => .inr ⟨json, rfl, hw⟩) nofun
          fun s hs => .inr ⟨json, rfl, hs⟩

/-! ## Runs -/

theorem relink_spared
    {faults : List Fault} {before : ProfileDisk} {bytes : Bytes} (hfile : before file = some bytes)
    {done : Unit → Exposed ProfileDisk → Prop} {failed : Exposed ProfileDisk → Prop}
    {crashed : ProfileDisk → Prop} (h : done () ⟨faults, change bytes before⟩) :
    (relink file change).Ends done failed crashed ⟨.none :: faults, before⟩ := by
  unfold relink
  refine Job.ends_spared ?_ h
  rw [hfile]

theorem relink_goes {before : ProfileDisk} {bytes : Bytes} (hfile : before file = some bytes)
    {wanted : Unit → ProfileDisk → Prop} (h : wanted () (change bytes before)) :
    (relink file change).Goes wanted before := by
  unfold relink
  refine Job.goes_op ?_ h
  rw [hfile]

/-- Each operation before the main file is renamed goes through, and that one does not. -/
def stopBeforeRename : List Fault := [.none, .none, .none, .none, .none, .crash 0]

variable {manager : StorageManager R}

omit [Inhabited R] in
theorem save_stopped {backup main : Bytes}
    (hwritten : StateFormat.toStringPretty manager.state = some json)
    (hmain : disk .main = some main) (hbackup : disk .backup = some backup) :
    (save manager).Ends (fun _ _ => False) (fun _ => False)
      (fun s => s .main = some main ∧ s .backup = none) ⟨stopBeforeRename, disk⟩ := by
  have hmain' : Function.update (Function.update disk .temporary (some [])) .temporary (some json) .main =
      some main := hmain
  have hbackup' : Function.update (Function.update disk .temporary (some [])) .temporary (some json)
      .backup = some backup := hbackup
  unfold save
  refine Job.Ends.bind (Job.ends_attempt (Job.ends_spared rfl ?_)) fun _ _ => id
  rw [hwritten]
  refine Job.Ends.bind (Job.ends_attempt ?_) fun _ _ => id
  unfold writeState
  refine Job.Ends.bind (Job.ends_spared rfl ?_) fun _ _ => id
  refine Job.Ends.bind (Job.ends_spared rfl ?_) fun _ _ => id
  refine Job.Ends.bind (Job.ends_spared rfl ?_) fun _ _ => id
  refine Job.Ends.bind ?_ fun _ _ => id
  unfold backUpMain
  refine Job.ends_get_bind ?_
  dsimp only
  rw [hmain', Option.isSome_some, if_pos rfl]
  refine Job.Ends.bind ?_ fun _ _ => id
  unfold removeBackup
  refine Job.ends_get_bind ?_
  dsimp only
  rw [hbackup', Option.isSome_some, if_pos rfl]
  refine relink_spared hbackup' ?_
  unfold rename relink
  refine Job.ends_stopped ?_
  exact ⟨hmain', rfl⟩

theorem backUpMain_goes (htemporary : disk .temporary = some json) :
    backUpMain.Goes (fun _ after => after .temporary = some json) disk := by
  unfold backUpMain
  refine Job.goes_get_bind ?_
  cases hmain : disk .main with
  | none => exact Job.goes_pure htemporary
  | some main =>
    have hremove : removeBackup.Goes
        (fun _ after => after .temporary = some json ∧ after .main = some main) disk := by
      unfold removeBackup
      refine Job.goes_get_bind ?_
      cases hbackup : disk .backup with
      | none => exact Job.goes_pure ⟨htemporary, hmain⟩
      | some backup =>
        rw [Option.isSome_some, if_pos rfl]
        exact relink_goes hbackup ⟨htemporary, hmain⟩
    exact hremove.bind fun _ middle hmiddle => relink_goes hmiddle.2 hmiddle.1

theorem replaceMain_goes (htemporary : disk .temporary = some json) :
    replaceMain.Goes (fun _ after => after .main = some json) disk := by
  have hrename : (rename .temporary .main).Goes (fun _ after => after .main = some json) disk :=
    relink_goes htemporary rfl
  unfold replaceMain
  refine (Job.goes_attempt hrename).bind fun result after hafter => ?_
  obtain ⟨value, rfl, hmain⟩ := hafter
  exact Job.goes_pure hmain

theorem opened_stopped (hwritten : StateFormat.toStringPretty manager.state = some json)
    (honly : OnlyBackup R disk) (appliedAt openedAt : Int) :
    opened (R := R) ((save manager).leaves ⟨stopBeforeRename, disk⟩) appliedAt openedAt =
      openedFrom (R := R) none appliedAt openedAt := by
  obtain ⟨hsome, hmain, hback⟩ := honly
  obtain ⟨main, hfile⟩ := Option.isSome_iff_exists.mp hsome
  obtain ⟨state, hback⟩ := Option.isSome_iff_exists.mp hback
  obtain ⟨backup, hbackup, -⟩ := Option.bind_eq_some_iff.mp hback
  have hstopped := ((save_stopped hwritten hfile hbackup).mono nofun nofun fun _ => id).leaves
  rw [opened_eq, storedState, readFile_none hstopped.2, readFile_congr (hstopped.1.trans hfile.symm),
    hmain, Option.none_or]

omit [Inhabited R] in
theorem save_goes
    (hwritten : StateFormat.toStringPretty manager.state = some json) (disk : ProfileDisk) :
    (save manager).Goes (fun _ after => after .main = some json) disk := by
  have hput : ∀ bytes before, (putFile .temporary bytes).Goes
      (fun _ after => after .temporary = some bytes) before := fun _ _ => Job.goes_op rfl rfl
  have hwrite : (writeState json).Goes (fun _ after => after .main = some json) disk := by
    unfold writeState
    refine (hput [] disk).bind fun _ first _ => ?_
    refine (hput json first).bind fun _ second hsecond => ?_
    have hsync : untouched.Goes (fun _ after => after .temporary = some json) second :=
      Job.goes_op rfl hsecond
    refine hsync.bind fun _ third hthird => ?_
    exact (backUpMain_goes hthird).bind fun _ fourth hfourth => replaceMain_goes hfourth
  have hlooked : untouched.Goes (fun _ after => after = disk) disk := Job.goes_op rfl rfl
  unfold save
  refine (Job.goes_attempt hlooked).bind fun result after hafter => ?_
  obtain ⟨value, rfl, rfl⟩ := hafter
  rw [hwritten]
  refine (Job.goes_attempt hwrite).bind fun result last hlast => ?_
  obtain ⟨value, rfl, hmain⟩ := hlast
  exact Job.goes_pure hmain


/-! ## Cut-off saves -/

/-- Wherever a save is cut off, the profile that is opened next is the old one or the new one. -/
def SurvivesCuts (manager : StorageManager R) (disk : ProfileDisk) (appliedAt openedAt : Int) : Prop :=
  ∀ faults, opened (R := R) ((save manager).leaves ⟨faults, disk⟩) appliedAt openedAt ∈
    [opened (R := R) disk appliedAt openedAt, manager.profileAt appliedAt openedAt]

/-- The bookmark tree is restored as it was saved. -/
def TreeKept (manager : StorageManager R) : Prop :=
  (restoreBookmarkTree manager.bookmarkTree.root manager.bookmarks).root = manager.bookmarkTree.root

/-- What a save must not meet: a tree that is not restored, or a backup that is all that
is left. Where it does not matter, the profile is the old one or the new one all the same. -/
structure SafeToSave (manager : StorageManager R) (disk : ProfileDisk) (appliedAt openedAt : Int) :
    Prop where
  tree : ∀ json, StateFormat.toStringPretty manager.state = some json →
    (readState (R := R) json).isSome → TreeKept manager ∨
      openedFrom (some manager.state) appliedAt openedAt = opened (R := R) disk appliedAt openedAt
  backup : ∀ json, StateFormat.toStringPretty manager.state = some json → OnlyBackup R disk →
    openedFrom (R := R) none appliedAt openedAt ∈
      [opened (R := R) disk appliedAt openedAt, manager.profileAt appliedAt openedAt]

omit [StateFormat R] in
theorem openedFrom_state {appliedAt openedAt : Int} :
    openedFrom (some manager.state) appliedAt openedAt = manager.profileAt appliedAt openedAt ↔
      TreeKept manager := by
  constructor
  · exact fun h => congrArg Profile.bookmarkTree h
  · intro h
    show Profile.mk _ (restoreBookmarkTree manager.bookmarkTree.root manager.bookmarks).root _ _ = _
    rw [h]
    rfl

/-- A save survives being cut off exactly if it is safe to save. -/
theorem save_survives (manager : StorageManager R) (disk : ProfileDisk) (appliedAt openedAt : Int) :
    SurvivesCuts manager disk appliedAt openedAt ↔ SafeToSave manager disk appliedAt openedAt := by
  constructor
  · refine fun h => ⟨fun json hwritten hread => ?_, fun json hwritten honly => ?_⟩
    · -- The save that is not cut off stores the new state.
      have hmain := (save_goes hwritten disk).leaves
      obtain ⟨state, hread⟩ := Option.isSome_iff_exists.mp hread
      have hdone := h []
      obtain rfl := readState_written hwritten hread
      rw [opened_eq ((save manager).leaves _), storedState, readFile_some hmain, hread, Option.some_or,
        List.mem_pair, openedFrom_state] at hdone
      exact hdone.symm
    · have hlost := h stopBeforeRename
      rwa [opened_stopped hwritten honly] at hlost
  · -- Every cut leaves the old state, the new state, or a main file that cannot be read alone.
    intro h faults
    have hleft := Job.Ends.leaves (P := fun s => s = disk ∨ ∃ json,
        StateFormat.toStringPretty manager.state = some json ∧ Cut disk json s)
      ((save_ends manager ⟨faults, disk⟩).weaken nofun fun _ => id)
    obtain hsame | ⟨json, hwritten, hcut⟩ := hleft
    · rw [hsame]
      exact List.mem_cons_self
    rw [opened_eq ((save manager).leaves _)]
    obtain hstored | ⟨hstored, hread⟩ | ⟨hstored, honly⟩ := hcut.stored (R := R)
    · rw [hstored, ← opened_eq]
      exact List.mem_cons_self
    · have hkept := h.tree json hwritten hread
      obtain ⟨state, hread⟩ := Option.isSome_iff_exists.mp hread
      obtain rfl := readState_written hwritten hread
      rw [hstored, hread, List.mem_pair, openedFrom_state]
      exact hkept.symm
    · rw [hstored]
      exact h.backup json hwritten honly

end

/-! ## A main file that is not understood -/

section Sample

/-- A browser with one visit in its history. -/
def visitor (url : String) : StorageManager Unit :=
  { StorageManager.fresh with history := [⟨url.toList, [], 0, 1⟩] }

open Classical in
/-- Two states have a text, and no other text is understood. -/
noncomputable abbrev twoStates (old new : StorageState Unit) : StateFormat Unit where
  toStringPretty state := if state = old then some [1] else if state = new then some [2] else none
  fromSlice
    | [1] => some old
    | [2] => some new
    | _ => none
  reads_back := by
    intro state json hwritten
    split at hwritten
    · next heq =>
      cases hwritten
      exact .inl (congrArg some heq.symm)
    · split at hwritten
      · next heq =>
        cases hwritten
        exact .inl (congrArg some heq.symm)
      · cases hwritten

/-- A main file that is cut short, beside a backup that is whole. -/
def cutShort : ProfileDisk
  | .main => some []
  | .backup => some [1]
  | .temporary => none

noncomputable abbrev visitTexts : StateFormat Unit :=
  twoStates (visitor "https://old.example/").state (visitor "https://new.example/").state

/-- The backup with the old history is removed before the broken main file is moved. -/
theorem save_lost :
    ¬@SurvivesCuts Unit visitTexts _ (visitor "https://new.example/") cutShort 0 0 := by
  intro h
  have hne : (visitor "https://new.example/").state ≠ (visitor "https://old.example/").state := fun heq =>
    absurd (congrArg StorageState.history heq) (by decide)
  have hwritten : visitTexts.toStringPretty (visitor "https://new.example/").state = some [2] :=
    (if_neg hne).trans (if_pos rfl)
  have honly : @OnlyBackup Unit visitTexts cutShort := ⟨rfl, rfl, rfl⟩
  have hlost := h stopBeforeRename
  rw [@opened_stopped Unit visitTexts _ _ _ _ hwritten honly] at hlost
  obtain hold | hnew := List.mem_pair.mp hlost
  · exact absurd (congrArg Profile.history hold) (by decide)
  · exact absurd (congrArg Profile.history hnew) (by decide)

end Sample

end GhitaBrowser.Storage
