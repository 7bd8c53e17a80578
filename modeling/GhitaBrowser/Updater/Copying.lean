import GhitaBrowser.Updater.Update

/-!
# Copying trees

What the directory operations leave: a whole copy if they go through, and otherwise
something at the one place they work on.
-/

namespace GhitaBrowser.Updater

open List

/-! ## One place -/

namespace System

variable (system : System) (place : Place) (tree : Option Tree)

@[simp] theorem setTree_trees (other : Place) :
    (system.setTree place tree).disk.trees other =
      if other = place then tree else system.disk.trees other := by
  unfold setTree
  exact Function.update_apply _ _ _ _

@[simp] theorem setTree_setTree (again : Option Tree) :
    (system.setTree place tree).setTree place again = system.setTree place again := by
  unfold setTree
  rw [Function.update_idem]

theorem setTree_self : system.setTree place (system.disk.trees place) = system := by
  unfold setTree
  rw [Function.update_eq_self]

end System

/-- Nothing but the tree at a place has changed. -/
def At (before : System) (place : Place) (P : Option Tree → Prop) (after : System) : Prop :=
  ∃ tree, P tree ∧ after = before.setTree place tree

theorem At.mono {before after : System} {place : Place} {P Q : Option Tree → Prop}
    (h : At before place P after) (himp : ∀ tree, P tree → Q tree) : At before place Q after := by
  obtain ⟨tree, hP, rfl⟩ := h
  exact ⟨tree, himp tree hP, rfl⟩

theorem At.refl {before : System} {place : Place} {P : Option Tree → Prop}
    (h : P (before.disk.trees place)) : At before place P before :=
  ⟨_, h, (before.setTree_self place).symm⟩

theorem At.trans {before middle after : System} {place : Place} {P Q : Option Tree → Prop}
    (h : At before place P middle) (h' : At middle place Q after) : At before place Q after := by
  obtain ⟨_, -, rfl⟩ := h
  obtain ⟨tree, hQ, rfl⟩ := h'
  exact ⟨tree, hQ, before.setTree_setTree _ _ _⟩

/-! ## Single operations -/

section

variable {x : Exposed System} {place : Place}

theorem look_ends {done : Unit → Exposed System → Prop} {failed : Exposed System → Prop}
    {crashed : System → Prop} (hdone : ∀ faults, done () ⟨faults, x.state⟩)
    (hfailed : ∀ faults, failed ⟨faults, x.state⟩) (hcrashed : crashed x.state) :
    look.Ends done failed crashed x := by
  refine Job.ends_op ?_ hfailed (fun _ => hfailed) fun _ => hcrashed
  intro value state faults heffect
  obtain ⟨-, rfl⟩ := Prod.mk.inj (Except.ok.inj heffect)
  exact hdone faults

theorem onTree_ends {effect : Tree → Except UpdateError Tree} {partway : Nat → Tree → Tree}
    {tree : Tree} (htree : x.state.disk.trees place = some tree) {Q E : Option Tree → Prop}
    (hdone : ∀ after, effect tree = .ok after → Q (some after)) (hsame : E (some tree))
    (hpart : ∀ progress, E (some (partway progress tree))) :
    (onTree place effect partway).Ends (fun _ y => At x.state place Q y.state)
      (fun y => At x.state place E y.state) (At x.state place E) x := by
  have hsame' : At x.state place E x.state := .refl (htree ▸ hsame)
  refine Job.ends_op ?_ (fun _ => hsame') ?_ ?_
  · intro value state faults heffect
    rw [htree] at heffect
    dsimp only at heffect
    split at heffect
    · next after hafter =>
      obtain ⟨-, rfl⟩ := Prod.mk.inj (Except.ok.inj heffect)
      exact ⟨some after, hdone after hafter, rfl⟩
    · cases heffect
  all_goals
    intros
    rw [htree]
    dsimp only
    split
    · exact ⟨_, hpart _, rfl⟩
    · exact hsame'

theorem createRoot_ends {E : Option Tree → Prop} (hsame : E (x.state.disk.trees place))
    (hmade : E (some ((x.state.disk.trees place).getD ∅))) :
    (createRoot place).Ends
      (fun _ y => At x.state place (· = some ((x.state.disk.trees place).getD ∅)) y.state)
      (fun y => At x.state place E y.state) (At x.state place E) x := by
  have hpart : ∀ fault, At x.state place E
      (if Fault.progress fault = 0 then x.state
        else x.state.setTree place (some ((x.state.disk.trees place).getD ∅))) := by
    intro fault
    split
    · exact .refl hsame
    · exact ⟨_, hmade, rfl⟩
  refine Job.ends_op ?_ (fun _ => .refl hsame) (fun _ _ => hpart _) fun _ => hpart _
  intro value state faults heffect
  obtain ⟨-, rfl⟩ := Prod.mk.inj (Except.ok.inj heffect)
  exact ⟨_, rfl, rfl⟩

theorem removeRoot_ends {E : Option Tree → Prop} (hsame : E (x.state.disk.trees place))
    (hgone : E none) :
    (removeRoot place).Ends (fun _ y => At x.state place (· = none) y.state)
      (fun y => At x.state place E y.state) (At x.state place E) x := by
  have hpart : ∀ fault, At x.state place E
      (if Fault.progress fault = 0 then x.state else x.state.setTree place none) := by
    intro fault
    split
    · exact .refl hsame
    · exact ⟨_, hgone, rfl⟩
  refine Job.ends_op ?_ (fun _ => .refl hsame) (fun _ _ => hpart _) fun _ => hpart _
  intro value state faults heffect
  obtain ⟨-, rfl⟩ := Prod.mk.inj (Except.ok.inj heffect)
  exact ⟨_, rfl, rfl⟩

end

/-! ## Counting -/

def Entry.files : Entry → Nat
  | .file _ => 1
  | _ => 0

def Entry.size : Entry → Nat
  | .file bytes => bytes.length
  | _ => 0

def fileCount (tree : Tree) : Nat := OrdMap.total (fun _ entry => entry.files) tree

def byteCount (tree : Tree) : Nat := OrdMap.total (fun _ entry => entry.size) tree

/-- A tree without links, with so many files and bytes at most. -/
structure Within (files bytes : Nat) (tree : Tree) : Prop where
  links : ∀ path : RelPath, tree[path]? ≠ some .symlink
  files : fileCount tree ≤ files
  bytes : byteCount tree ≤ bytes

/-- A tree that `copy_tree_bounded` copies. -/
def Copyable (tree : Tree) : Prop := Within maxUpdateFiles maxUpdatePackageBytes tree

theorem total_erase_le (f : RelPath → Entry → Nat) (tree : Tree) (path : RelPath) :
    OrdMap.total f (tree.erase path) ≤ OrdMap.total f tree := by
  cases h : tree[path]? with
  | none => rw [OrdMap.erase_of_absent h]
  | some entry =>
    rw [OrdMap.total_eq f h]
    exact Nat.le_add_left _ _

theorem total_insert_le (f : RelPath → Entry → Nat) (tree : Tree) (path : RelPath) (entry : Entry) :
    OrdMap.total f (tree.insert path entry) ≤ OrdMap.total f tree + f path entry := by
  rw [OrdMap.total_insert, Nat.add_comm]
  exact Nat.add_le_add_right (total_erase_le f tree path) _

theorem within_empty (files bytes : Nat) : Within files bytes ∅ where
  links path := by simp
  files := by
    unfold fileCount
    rw [OrdMap.total_empty]
    exact Nat.zero_le _
  bytes := by
    unfold byteCount
    rw [OrdMap.total_empty]
    exact Nat.zero_le _

namespace Within

variable {files bytes : Nat} {tree : Tree}

theorem mono (h : Within files bytes tree) {files' bytes' : Nat} (hfiles : files ≤ files')
    (hbytes : bytes ≤ bytes') : Within files' bytes' tree :=
  ⟨h.links, h.files.trans hfiles, h.bytes.trans hbytes⟩

theorem erase (h : Within files bytes tree) (path : RelPath) : Within files bytes (tree.erase path) where
  links other := by
    rw [Std.ExtTreeMap.getElem?_erase]
    split
    · exact nofun
    · exact h.links other
  files := (total_erase_le _ _ _).trans h.files
  bytes := (total_erase_le _ _ _).trans h.bytes

variable {entry : Entry}

theorem insert (h : Within files bytes tree) (path : RelPath) (hlink : entry ≠ .symlink) :
    Within (files + entry.files) (bytes + entry.size) (tree.insert path entry) where
  links other := by
    rw [Std.ExtTreeMap.getElem?_insert]
    split
    · exact fun heq => hlink (Option.some.inj heq)
    · exact h.links other
  files := (total_insert_le _ _ _ _).trans (Nat.add_le_add_right h.files _)
  bytes := (total_insert_le _ _ _ _).trans (Nat.add_le_add_right h.bytes _)

end Within

/-! ## Removing -/

def Left (F : Tree → Prop) (tree : Option Tree) : Prop := ∀ t, tree = some t → F t

section

variable {x : Exposed System} {place : Place} {F : Tree → Prop}

theorem removeEntries_ends (hF : ∀ tree path, F tree → F (tree.erase path))
    (entries : List (RelPath × Entry)) {tree : Tree} (htree : x.state.disk.trees place = some tree)
    (h : F tree) :
    (removeEntries place entries).Ends
      (fun _ y => At x.state place (fun left => ∃ t, left = some t ∧ F t) y.state)
      (fun y => At x.state place (Left F) y.state) (At x.state place (Left F)) x := by
  have hleft : ∀ {t : Tree}, F t → Left F (some t) := by
    intro t ht t' heq
    rwa [← Option.some.inj heq]
  induction entries generalizing x tree with
  | nil => exact Job.ends_pure (.refl ⟨tree, htree, h⟩)
  | cons entry entries ih =>
    obtain ⟨path, entry⟩ := entry
    have hstep : (removeEntry place path).Ends
        (fun _ y => At x.state place (fun left => ∃ t, left = some t ∧ F t) y.state)
        (fun y => At x.state place (Left F) y.state) (At x.state place (Left F)) x := by
      refine onTree_ends htree ?_ (hleft h) fun progress => ?_
      · intro after hafter
        obtain rfl := Except.ok.inj hafter
        exact ⟨_, rfl, hF _ _ h⟩
      · unfold begun
        split
        · exact hleft h
        · exact hleft (hF _ _ h)
    refine hstep.bind fun _ y hy => ?_
    obtain ⟨_, ⟨t, rfl, ht⟩, hstate⟩ := hy
    have htree' : y.state.disk.trees place = some t := by
      rw [hstate]
      simp
    have hrest := ih htree' ht
    have hstep : At x.state place (fun _ => True) y.state := ⟨_, trivial, hstate⟩
    exact hrest.mono (fun _ z hz => hstep.trans hz) (fun z hz => hstep.trans hz) fun s hs => hstep.trans hs

variable [Listing]

theorem removeDirAll_ends (hF : ∀ tree path, F tree → F (tree.erase path)) {tree : Tree}
    (htree : x.state.disk.trees place = some tree) (h : F tree) :
    (removeDirAll place).Ends (fun _ y => At x.state place (· = none) y.state)
      (fun y => At x.state place (Left F) y.state) (At x.state place (Left F)) x := by
  unfold removeDirAll
  refine Job.ends_get_bind ?_
  refine (removeEntries_ends hF _ htree h).bind fun _ y hy => ?_
  have hremoved : At x.state place (fun _ => True) y.state := hy.mono fun _ _ => trivial
  obtain ⟨_, ⟨t, rfl, ht⟩, hstate⟩ := hy
  have hroot : (removeRoot place).Ends (fun _ z => At y.state place (· = none) z.state)
      (fun z => At y.state place (Left F) z.state) (At y.state place (Left F)) y := by
    refine removeRoot_ends ?_ ?_
    · intro t' heq
      rw [hstate, System.setTree_trees, if_pos rfl] at heq
      rwa [← Option.some.inj heq]
    · intro t' heq
      cases heq
  exact hroot.mono (fun _ z hz => hremoved.trans hz) (fun z hz => hremoved.trans hz)
    fun s hs => hremoved.trans hs

theorem recreateDirectory_ends (guarded : List Place)
    (hF : ∀ tree path, F tree → F (tree.erase path)) (hempty : F ∅)
    (h : Left F (x.state.disk.trees place)) :
    (recreateDirectory place guarded).Ends (fun _ y => At x.state place (· = some ∅) y.state)
      (fun y => At x.state place (Left F) y.state) (At x.state place (Left F)) x := by
  have hleft : Left F (some ∅) := by
    rintro t ⟨⟩
    exact hempty
  unfold recreateDirectory
  refine Job.ends_get_bind ?_
  dsimp only
  cases htree : x.state.disk.trees place with
  | none =>
    rw [Option.isSome_none, if_neg Bool.false_ne_true]
    have hroot := createRoot_ends h (by rwa [htree])
    rwa [htree] at hroot
  | some tree =>
    rw [Option.isSome_some, if_pos rfl]
    refine Job.ends_ofExcept_bind ?_ (.refl h)
    intro _ _
    refine (removeDirAll_ends hF htree (h tree htree)).bind fun _ y hy => ?_
    have hremoved : At x.state place (fun _ => True) y.state := hy.mono fun _ _ => trivial
    obtain ⟨_, rfl, hstate⟩ := hy
    have hnone : y.state.disk.trees place = none := by rw [hstate]; simp
    have hgone : Left F (y.state.disk.trees place) := by
      rw [hnone]
      nofun
    have hroot := createRoot_ends hgone (by rwa [hnone])
    rw [hnone] at hroot
    exact hroot.mono (fun _ z hz => hremoved.trans hz) (fun z hz => hremoved.trans hz)
      fun s hs => hremoved.trans hs

/-! ## Copying -/

end

/-- A tree with the entries of a list laid over it. -/
def Overlaid (entries : List (RelPath × Entry)) (before after : Tree) : Prop :=
  ∀ path, (∀ entry, (path, entry) ∈ entries → after[path]? = some entry) ∧
    ((∀ entry, (path, entry) ∉ entries) → after[path]? = before[path]?)

/-- The entries are copied without meeting a link or a limit. -/
structure Counted (entries : List (RelPath × Entry)) (files bytes : Nat) : Prop where
  links : ∀ entry ∈ entries, entry.2 ≠ .symlink
  files : files + (entries.map fun entry => entry.2.files).sum ≤ maxUpdateFiles
  bytes : bytes + (entries.map fun entry => entry.2.size).sum ≤ maxUpdatePackageBytes

variable {entries : List (RelPath × Entry)} {path : RelPath} {entry : Entry}

theorem Counted.cons {files bytes : Nat} (hlink : entry ≠ .symlink)
    (h : Counted entries (files + entry.files) (bytes + entry.size)) :
    Counted ((path, entry) :: entries) files bytes where
  links := by
    intro other hother
    rcases mem_cons.mp hother with rfl | hrest
    · exact hlink
    · exact h.links other hrest
  files := by
    rw [map_cons, sum_cons, ← Nat.add_assoc]
    exact h.files
  bytes := by
    rw [map_cons, sum_cons, ← Nat.add_assoc]
    exact h.bytes

theorem Counted.of_cons {files bytes : Nat} (h : Counted ((path, entry) :: entries) files bytes) :
    entry ≠ .symlink ∧ Counted entries (files + entry.files) (bytes + entry.size) := by
  have hfiles := h.files
  have hbytes := h.bytes
  rw [map_cons, sum_cons, ← Nat.add_assoc] at hfiles hbytes
  exact ⟨h.links _ mem_cons_self,
    fun other hother => h.links other (mem_cons_of_mem _ hother), hfiles, hbytes⟩

theorem Overlaid.cons {before after : Tree} (hnew : ∀ other, (path, other) ∉ entries)
    (h : Overlaid entries (before.insert path entry) after) :
    Overlaid ((path, entry) :: entries) before after := by
  intro other
  constructor
  · intro found hfound
    rcases mem_cons.mp hfound with hhead | hrest
    · obtain ⟨rfl, rfl⟩ := Prod.mk.inj hhead
      rw [(h other).2 hnew, Std.ExtTreeMap.getElem?_insert_self]
    · exact (h other).1 found hrest
  · intro habsent
    have hne : path ≠ other := by
      rintro rfl
      exact habsent entry mem_cons_self
    rw [(h other).2 fun found hfound => habsent found (mem_cons_of_mem _ hfound),
      Std.ExtTreeMap.getElem?_insert, if_neg (by simpa using hne)]

theorem insert_same {tree : Tree} (h : tree[path]? = some entry) :
    tree.insert path entry = tree := by
  refine Std.ExtTreeMap.ext_getElem? fun other => ?_
  rw [Std.ExtTreeMap.getElem?_insert]
  split
  · next heq => rw [← h, Std.LawfulEqCmp.eq_of_compare heq]
  · rfl

section

variable {x : Exposed System} {place : Place} {tree : Tree}

/-- An entry that is copied, or cut off while it is copied, adds no more than itself. -/
def Grown (entry : Entry) (before after : Tree) : Prop :=
  ∀ files bytes, Within files bytes before → Within (files + entry.files) (bytes + entry.size) after

theorem Grown.refl : Grown entry tree tree := fun _ _ h =>
  h.mono (Nat.le_add_right _ _) (Nat.le_add_right _ _)

theorem Grown.insert (path : RelPath) {part : Entry} (hlink : part ≠ .symlink)
    (hfiles : part.files ≤ entry.files) (hsize : part.size ≤ entry.size) :
    Grown entry tree (tree.insert path part) := fun _ _ h =>
  (h.insert path hlink).mono (Nat.add_le_add_left hfiles _) (Nat.add_le_add_left hsize _)

theorem left_some {F : Tree → Prop} (h : F tree) : Left F (some tree) := by
  rintro t ⟨⟩
  exact h

theorem makeDir_ends (path : RelPath) (htree : x.state.disk.trees place = some tree) :
    (makeDir place path).Ends
      (fun _ y => At x.state place (· = some (tree.insert path .directory)) y.state)
      (fun y => At x.state place (Left (Grown .directory tree)) y.state)
      (At x.state place (Left (Grown .directory tree))) x := by
  refine onTree_ends htree ?_ (left_some .refl) fun progress => ?_
  · intro after hafter
    split at hafter
    · rw [Except.ok.inj hafter]
    · next hpath => rw [← Except.ok.inj hafter, insert_same hpath]
    · cases hafter
  · unfold begun
    split
    · exact left_some .refl
    · exact left_some (.insert path nofun (Nat.le_refl _) (Nat.le_refl _))

theorem writeFile_ends (path : RelPath) (bytes : List UInt8)
    (htree : x.state.disk.trees place = some tree) :
    (writeFile place path bytes).Ends
      (fun _ y => At x.state place (· = some (tree.insert path (.file bytes))) y.state)
      (fun y => At x.state place (Left (Grown (.file bytes) tree)) y.state)
      (At x.state place (Left (Grown (.file bytes) tree))) x := by
  refine onTree_ends htree ?_ (left_some .refl) fun progress => ?_
  · intro after hafter
    split at hafter
    · cases hafter
    · cases hafter
    · rw [Except.ok.inj hafter]
  · cases progress with
    | zero => exact left_some .refl
    | succ written => exact left_some (.insert path nofun (Nat.le_refl _) (length_take_le' _ _))

/-- What a copy leaves that is cut off can be copied itself. -/
def CutCopy (files bytes : Nat) (before : Tree) : Option Tree → Prop :=
  Left fun left => Within files bytes before → Copyable left

theorem copyEntries_ends (root : AbsPath) (entries : List (RelPath × Entry)) {files bytes : Nat}
    (hnodup : (entries.map Prod.fst).Nodup) (hfiles : files ≤ maxUpdateFiles)
    (hbytes : bytes ≤ maxUpdatePackageBytes) (htree : x.state.disk.trees place = some tree) :
    (copyEntries root place entries files bytes).Ends
      (fun _ y => Counted entries files bytes ∧
        At x.state place (fun left => ∃ after, left = some after ∧ Overlaid entries tree after) y.state)
      (fun y => At x.state place (CutCopy files bytes tree) y.state)
      (At x.state place (CutCopy files bytes tree)) x := by
  have hsame : At x.state place (CutCopy files bytes tree) x.state :=
    .refl (htree ▸ left_some fun h => h.mono hfiles hbytes)
  induction entries generalizing x files bytes tree with
  | nil =>
    refine Job.ends_pure ⟨⟨by simp, by simpa using hfiles, by simpa using hbytes⟩, ?_⟩
    exact .refl ⟨tree, htree, fun path => ⟨by simp, fun _ => rfl⟩⟩
  | cons entry entries ih =>
    obtain ⟨path, entry⟩ := entry
    obtain ⟨hpath, hrest⟩ := nodup_cons.mp hnodup
    have hnew : ∀ other, (path, other) ∉ entries := fun other hother =>
      hpath (mem_map.mpr ⟨_, hother, rfl⟩)
    -- the entries after one that was copied
    have hgo : ∀ y : Exposed System, entry ≠ .symlink → files + entry.files ≤ maxUpdateFiles →
        bytes + entry.size ≤ maxUpdatePackageBytes →
        At x.state place (· = some (tree.insert path entry)) y.state →
        (copyEntries root place entries (files + entry.files) (bytes + entry.size)).Ends
          (fun _ z => Counted ((path, entry) :: entries) files bytes ∧ At x.state place
            (fun left => ∃ after, left = some after ∧ Overlaid ((path, entry) :: entries) tree after) z.state)
          (fun z => At x.state place (CutCopy files bytes tree) z.state)
          (At x.state place (CutCopy files bytes tree)) y := by
      intro y hlink hfiles hbytes hy
      have hstep : At x.state place (fun _ => True) y.state := hy.mono fun _ _ => trivial
      obtain ⟨_, rfl, hstate⟩ := hy
      have hinserted : y.state.disk.trees place = some (tree.insert path entry) := by
        rw [hstate]
        simp
      have hcut : ∀ left, CutCopy (files + entry.files) (bytes + entry.size) (tree.insert path entry) left →
          CutCopy files bytes tree left := fun left hleft t ht hwithin =>
        hleft t ht (hwithin.insert path hlink)
      refine (ih hrest hfiles hbytes hinserted ?_).mono ?_ ?_ ?_
      · exact .refl (hinserted ▸ left_some fun h => h.mono hfiles hbytes)
      · rintro _ z ⟨hcounted, hz⟩
        refine ⟨hcounted.cons hlink, hstep.trans (hz.mono ?_)⟩
        rintro left ⟨after, rfl, hover⟩
        exact ⟨after, rfl, hover.cons hnew⟩
      · exact fun z hz => hstep.trans (hz.mono hcut)
      · exact fun s hs => hstep.trans (hs.mono hcut)
    have hlook : look.Ends (fun _ y => y.state = x.state)
        (fun y => At x.state place (CutCopy files bytes tree) y.state)
        (At x.state place (CutCopy files bytes tree)) x :=
      look_ends (fun _ => rfl) (fun _ => hsame) hsame
    have hcut : ∀ left, files + entry.files ≤ maxUpdateFiles →
        bytes + entry.size ≤ maxUpdatePackageBytes → Left (Grown entry tree) left →
        CutCopy files bytes tree left := fun left hfiles hbytes hleft t ht hwithin =>
      (hleft t ht files bytes hwithin).mono hfiles hbytes
    unfold copyEntries
    refine hlook.bind fun _ y hy => ?_
    have htree' : y.state.disk.trees place = some tree := by rw [hy, htree]
    rw [← hy] at hgo hsame ⊢
    cases entry with
    | symlink => exact Job.ends_throw hsame
    | directory =>
      refine Job.Ends.bind ((makeDir_ends path htree').weaken ?_ ?_) ?_
      · exact fun z hz => hz.mono fun left => hcut left hfiles hbytes
      · exact fun s hs => hs.mono fun left => hcut left hfiles hbytes
      · exact fun _ z hz => hgo z nofun hfiles hbytes hz
    | file content =>
      dsimp only
      split
      · exact Job.ends_throw hsame
      · next hlimit =>
        rw [not_or, Nat.not_lt, Nat.not_lt] at hlimit
        refine Job.Ends.bind ((writeFile_ends path content htree').weaken ?_ ?_) ?_
        · exact fun z hz => hz.mono fun left => hcut left hlimit.1 hlimit.2
        · exact fun s hs => hs.mono fun left => hcut left hlimit.1 hlimit.2
        · exact fun _ z hz => hgo z nofun hlimit.1 hlimit.2 hz

end

/-! ## Whole trees -/

/-- A tree laid over another one. -/
def Over (upper lower result : Tree) : Prop :=
  ∀ path : RelPath, result[path]? = upper[path]?.or lower[path]?

theorem Over.empty {upper result : Tree} (h : Over upper ∅ result) : result = upper := by
  refine Std.ExtTreeMap.ext_getElem? fun path => ?_
  rw [h path, Std.ExtTreeMap.getElem?_empty, Option.or_none]

section

variable [Listing] {x : Exposed System}

theorem order_nodup (place : Place) (tree : Tree) :
    ((Listing.order place tree).map Prod.fst).Nodup := by
  refine ((Listing.perm place tree).map Prod.fst).nodup_iff.mpr ?_
  unfold List.Nodup
  rw [pairwise_map]
  refine List.Pairwise.imp ?_ (Std.ExtTreeMap.distinct_keys_toList (t := tree))
  intro first second hne heq
  exact hne (Std.LawfulEqCmp.compare_eq_iff_eq.mpr heq)

theorem mem_order {place : Place} {tree : Tree} :
    (path, entry) ∈ Listing.order place tree ↔ tree[path]? = some entry := by
  rw [(Listing.perm place tree).mem_iff, Std.ExtTreeMap.mem_toList_iff_getElem?_eq_some]

theorem Counted.copyable {place : Place} {tree : Tree} (h : Counted (Listing.order place tree) 0 0) :
    Copyable tree where
  links path hpath := h.links _ (mem_order.mpr hpath) rfl
  files := by
    have hfiles := h.files
    rw [Nat.zero_add, ((Listing.perm place tree).map _).sum_eq] at hfiles
    exact hfiles
  bytes := by
    have hbytes := h.bytes
    rw [Nat.zero_add, ((Listing.perm place tree).map _).sum_eq] at hbytes
    exact hbytes

theorem Overlaid.over {place : Place} {upper lower result : Tree}
    (h : Overlaid (Listing.order place upper) lower result) : Over upper lower result := by
  intro path
  cases hpath : upper[path]? with
  | some entry => exact (h path).1 entry (mem_order.mpr hpath)
  | none =>
    refine (h path).2 fun entry hentry => ?_
    rw [mem_order, hpath] at hentry
    cases hentry

theorem copyTreeBounded_ends {source place : Place} {upper : Tree}
    (hsource : x.state.disk.trees source = some upper) :
    (copyTreeBounded source place).Ends
      (fun _ y => Copyable upper ∧ At x.state place
        (fun left => ∃ after, left = some after ∧
          Over upper ((x.state.disk.trees place).getD ∅) after) y.state)
      (fun y => At x.state place
        (Left fun left => Left (Within 0 0) (x.state.disk.trees place) → Copyable left) y.state)
      (At x.state place
        (Left fun left => Left (Within 0 0) (x.state.disk.trees place) → Copyable left)) x := by
  have hwithin : Left (Within 0 0) (x.state.disk.trees place) →
      Within 0 0 ((x.state.disk.trees place).getD ∅) := by
    intro hleft
    cases hplace : x.state.disk.trees place with
    | none => exact within_empty 0 0
    | some tree => exact hleft tree hplace
  have hcopyable : ∀ {tree : Tree}, Within 0 0 tree → Copyable tree := fun h =>
    h.mono (Nat.zero_le _) (Nat.zero_le _)
  unfold copyTreeBounded
  refine Job.ends_get_bind ?_
  rw [hsource]
  refine Job.Ends.bind (createRoot_ends ?_ ?_) ?_
  · intro tree htree hleft
    exact hcopyable (hleft tree htree)
  · exact left_some fun hleft => hcopyable (hwithin hleft)
  · intro _ y hy
    have hstep : At x.state place (fun _ => True) y.state := hy.mono fun _ _ => trivial
    obtain ⟨_, rfl, hstate⟩ := hy
    have hroot : y.state.disk.trees place = some ((x.state.disk.trees place).getD ∅) := by
      rw [hstate]
      simp
    have hcut : ∀ left, CutCopy 0 0 ((x.state.disk.trees place).getD ∅) left →
        Left (fun left => Left (Within 0 0) (x.state.disk.trees place) → Copyable left) left :=
      fun left hleft t ht h => hleft t ht (hwithin h)
    refine (copyEntries_ends _ _ (order_nodup _ _) (Nat.zero_le _) (Nat.zero_le _) hroot).mono ?_ ?_ ?_
    · rintro _ z ⟨hcounted, hz⟩
      refine ⟨hcounted.copyable, hstep.trans (hz.mono ?_)⟩
      rintro left ⟨after, rfl, hover⟩
      exact ⟨after, rfl, hover.over⟩
    · exact fun z hz => hstep.trans (hz.mono hcut)
    · exact fun s hs => hstep.trans (hs.mono hcut)

/-! ## Backing up and restoring -/

theorem createBackup_ends {old : Tree} (hinstall : x.state.disk.trees .install = some old) :
    createBackup.Ends
      (fun _ y => Copyable old ∧ At x.state .backup (· = some old) y.state)
      (fun y => At x.state .backup
        (Left fun left => Left Copyable (x.state.disk.trees .backup) → Copyable left) y.state)
      (At x.state .backup
        (Left fun left => Left Copyable (x.state.disk.trees .backup) → Copyable left)) x := by
  have hempty : Copyable ∅ := within_empty _ _
  unfold createBackup
  refine Job.Ends.bind (recreateDirectory_ends [] ?_ ?_ ?_) ?_
  · exact fun tree path h hleft => (h hleft).erase path
  · exact fun _ => hempty
  · exact fun tree htree hleft => hleft tree htree
  · intro _ y hy
    have hstep : At x.state .backup (fun _ => True) y.state := hy.mono fun _ _ => trivial
    obtain ⟨_, rfl, hstate⟩ := hy
    have hbackup : y.state.disk.trees .backup = some ∅ := by
      rw [hstate]
      simp
    have hsource : y.state.disk.trees .install = some old := by
      rw [hstate]
      simpa using hinstall
    have hwithin : Left (Within 0 0) (y.state.disk.trees .backup) := by
      rw [hbackup]
      exact left_some (within_empty 0 0)
    refine (copyTreeBounded_ends hsource).mono ?_ ?_ ?_
    · rintro _ z ⟨hcopyable, hz⟩
      refine ⟨hcopyable, hstep.trans (hz.mono ?_)⟩
      rintro left ⟨after, rfl, hover⟩
      rw [hbackup] at hover
      rw [hover.empty]
    · exact fun z hz => hstep.trans (hz.mono fun left hleft t ht _ => hleft t ht hwithin)
    · exact fun s hs => hstep.trans (hs.mono fun left hleft t ht _ => hleft t ht hwithin)

theorem replaceTree_ends {source : Place} (hne : source ≠ .install) {tree : Tree}
    (hsource : x.state.disk.trees source = some tree) :
    (do
      recreateDirectory .install [.backup]
      copyTreeBounded source .install : Work Unit).Ends
      (fun _ y => At x.state .install (· = some tree) y.state)
      (fun y => At x.state .install (fun _ => True) y.state) (At x.state .install fun _ => True) x := by
  refine Job.Ends.bind ((recreateDirectory_ends (F := fun _ => True) [.backup] ?_ ?_ ?_).weaken ?_ ?_) ?_
  · exact fun _ _ _ => trivial
  · trivial
  · exact fun _ _ => trivial
  · exact fun y hy => hy.mono fun _ _ => trivial
  · exact fun s hs => hs.mono fun _ _ => trivial
  · intro _ y hy
    have hstep : At x.state .install (fun _ => True) y.state := hy.mono fun _ _ => trivial
    obtain ⟨_, rfl, hstate⟩ := hy
    have hinstall : y.state.disk.trees .install = some ∅ := by
      rw [hstate]
      simp
    have hsource' : y.state.disk.trees source = some tree := by
      rw [hstate]
      simpa [hne] using hsource
    refine (copyTreeBounded_ends hsource').mono ?_ ?_ ?_
    · rintro _ z ⟨-, hz⟩
      refine hstep.trans (hz.mono ?_)
      rintro left ⟨after, rfl, hover⟩
      rw [hinstall] at hover
      rw [hover.empty]
    · exact fun z hz => hstep.trans (hz.mono fun _ _ => trivial)
    · exact fun s hs => hstep.trans (hs.mono fun _ _ => trivial)

theorem restoreBackup_ends {old : Tree} (hbackup : x.state.disk.trees .backup = some old) :
    restoreBackup.Ends (fun _ y => At x.state .install (· = some old) y.state)
      (fun y => At x.state .install (fun _ => True) y.state) (At x.state .install fun _ => True) x := by
  unfold restoreBackup
  refine Job.ends_get_bind ?_
  rw [hbackup]
  exact replaceTree_ends (by decide) hbackup

/-- The installation directory is one that is not removed. -/
def Refused (manager : UpdateManager) : Prop :=
  ∃ error, validateDestructiveTarget (manager.placePath .install) [manager.placePath .backup] = .error error

theorem recreateDirectory_refused (hinstall : (x.state.disk.trees .install).isSome = true)
    (hrefused : Refused x.state.manager) :
    (recreateDirectory .install [.backup]).Ends (fun _ _ => False) (· = x) (fun _ => False) x := by
  obtain ⟨error, herror⟩ := hrefused
  unfold recreateDirectory
  refine Job.ends_get_bind ?_
  dsimp only
  rw [if_pos hinstall]
  refine Job.ends_ofExcept_bind ?_ rfl
  intro value hvalue
  rw [map_singleton, herror] at hvalue
  cases hvalue

/-- Without a backup, or if the installation is not to be removed, nothing is restored and
nothing changes. -/
theorem restoreBackup_blocked (h : x.state.disk.trees .backup = none ∨
    (x.state.disk.trees .install).isSome = true ∧ Refused x.state.manager) :
    restoreBackup.Ends (fun _ _ => False) (· = x) (fun _ => False) x := by
  unfold restoreBackup
  refine Job.ends_get_bind ?_
  split
  · exact Job.ends_throw rfl
  · next hbackup =>
    rcases h with hnone | ⟨hinstall, hrefused⟩
    · rw [hnone] at hbackup
      exact absurd rfl hbackup
    · refine (recreateDirectory_refused hinstall hrefused).bind ?_
      exact fun _ _ h => h.elim

end

/-! ## Without faults -/

section

variable {s : System} {place : Place} {tree : Tree}

theorem look_goes : look.Goes (fun _ after => after = s) s := Job.goes_op rfl rfl

theorem onTree_goes {effect : Tree → Except UpdateError Tree} {partway : Nat → Tree → Tree}
    (htree : s.disk.trees place = some tree) {after : Tree} (heffect : effect tree = .ok after) :
    (onTree place effect partway).Goes (fun _ t => At s place (· = some after) t) s := by
  refine @Job.goes_op _ _ _ _ _ _ _ _ () (s.setTree place (some after)) ?_ ⟨some after, rfl, rfl⟩
  rw [htree]
  dsimp only
  rw [heffect]

theorem createRoot_goes :
    (createRoot place).Goes (fun _ t => At s place (· = some ((s.disk.trees place).getD ∅)) t) s :=
  Job.goes_op rfl ⟨_, rfl, rfl⟩

theorem removeEntries_goes (entries : List (RelPath × Entry)) (htree : s.disk.trees place = some tree) :
    (removeEntries place entries).Goes (fun _ t => At s place (fun _ => True) t) s := by
  induction entries generalizing s tree with
  | nil => exact Job.goes_pure (.refl trivial)
  | cons entry entries ih =>
    obtain ⟨path, entry⟩ := entry
    refine Job.Goes.bind (onTree_goes htree rfl) fun _ t ht => ?_
    have hstep : At s place (fun _ => True) t := ht.mono fun _ _ => trivial
    obtain ⟨_, rfl, rfl⟩ := ht
    have herased : (s.setTree place (some (tree.erase path))).disk.trees place =
        some (tree.erase path) := by simp
    exact (ih herased).mono fun _ u hu => hstep.trans hu

theorem copyEntries_goes (root : AbsPath) {files bytes : Nat}
    (hnodup : (entries.map Prod.fst).Nodup) (hcounted : Counted entries files bytes)
    (htree : s.disk.trees place = some tree) (hfree : ∀ entry ∈ entries, tree[entry.1]? = none) :
    (copyEntries root place entries files bytes).Goes
      (fun _ t => At s place (fun left => ∃ after, left = some after ∧ Overlaid entries tree after) t) s := by
  induction entries generalizing s files bytes tree with
  | nil => exact Job.goes_pure (.refl ⟨tree, htree, fun path => ⟨by simp, fun _ => rfl⟩⟩)
  | cons entry entries ih =>
    obtain ⟨path, entry⟩ := entry
    obtain ⟨hpath, hrest⟩ := nodup_cons.mp hnodup
    obtain ⟨hlink, hcounted'⟩ := hcounted.of_cons
    have hnew : ∀ other, (path, other) ∉ entries := fun other hother =>
      hpath (mem_map.mpr ⟨_, hother, rfl⟩)
    have habsent : tree[path]? = none := hfree _ mem_cons_self
    -- the entries after the first
    have hgo : ∀ t, At s place (· = some (tree.insert path entry)) t →
        (copyEntries root place entries (files + entry.files) (bytes + entry.size)).Goes
          (fun _ u => At s place
            (fun left => ∃ after, left = some after ∧ Overlaid ((path, entry) :: entries) tree after) u) t := by
      intro t ht
      have hstep : At s place (fun _ => True) t := ht.mono fun _ _ => trivial
      obtain ⟨_, rfl, rfl⟩ := ht
      have hinserted : (s.setTree place (some (tree.insert path entry))).disk.trees place =
          some (tree.insert path entry) := by simp
      refine (ih hrest hcounted' hinserted ?_).mono ?_
      · intro other hother
        have hne : path ≠ other.1 := by
          rintro rfl
          exact hnew other.2 hother
        rw [Std.ExtTreeMap.getElem?_insert, if_neg (by simpa using hne)]
        exact hfree other (mem_cons_of_mem _ hother)
      · rintro _ u hu
        refine hstep.trans (hu.mono ?_)
        rintro left ⟨after, rfl, hover⟩
        exact ⟨after, rfl, hover.cons hnew⟩
    unfold copyEntries
    refine look_goes.bind ?_
    rintro _ _ rfl
    cases entry with
    | symlink => exact absurd rfl hlink
    | directory =>
      refine Job.Goes.bind (onTree_goes htree ?_) fun _ t ht => hgo t ht
      rw [habsent]
    | file content =>
      have hfiles : ¬ (files + 1 > maxUpdateFiles ∨ bytes + content.length > maxUpdatePackageBytes) := by
        rw [not_or, Nat.not_lt, Nat.not_lt]
        exact ⟨(Nat.le_add_right _ _).trans hcounted'.files, (Nat.le_add_right _ _).trans hcounted'.bytes⟩
      dsimp only
      rw [if_neg hfiles]
      refine Job.Goes.bind (onTree_goes htree ?_) fun _ t ht => hgo t ht
      rw [habsent]

section

variable [Listing]

theorem removeDirAll_goes (htree : s.disk.trees place = some tree) :
    (removeDirAll place).Goes (fun _ t => At s place (· = none) t) s := by
  unfold removeDirAll
  refine Job.goes_get_bind ?_
  refine Job.Goes.bind (removeEntries_goes _ htree) fun _ t ht => ?_
  exact Job.goes_op rfl (ht.trans ⟨none, rfl, rfl⟩)

theorem recreateDirectory_goes {guarded : List Place}
    (h : s.disk.trees place = none ∨ validateDestructiveTarget (s.manager.placePath place)
      (guarded.map s.manager.placePath) = .ok ()) :
    (recreateDirectory place guarded).Goes (fun _ t => At s place (· = some ∅) t) s := by
  unfold recreateDirectory
  refine Job.goes_get_bind ?_
  dsimp only
  cases htree : s.disk.trees place with
  | none =>
    rw [Option.isSome_none, if_neg Bool.false_ne_true]
    refine createRoot_goes.mono fun _ t ht => ?_
    rwa [htree] at ht
  | some tree =>
    have hvalid := h.resolve_left (by rw [htree]; nofun)
    rw [Option.isSome_some, if_pos rfl, hvalid]
    refine Job.goes_ok_bind ?_
    refine Job.Goes.bind (removeDirAll_goes htree) fun _ t ht => ?_
    have hstep : At s place (fun _ => True) t := ht.mono fun _ _ => trivial
    obtain ⟨_, rfl, rfl⟩ := ht
    refine createRoot_goes.mono fun _ u hu => hstep.trans ?_
    simpa using hu

theorem copyTreeBounded_goes {source : Place} (hsource : s.disk.trees source = some tree)
    (hcopyable : Copyable tree) (hplace : s.disk.trees place = some ∅) :
    (copyTreeBounded source place).Goes (fun _ t => At s place (· = some tree) t) s := by
  have hsum : ∀ f : RelPath × Entry → Nat, ((Listing.order source tree).map f).sum =
      (tree.toList.map f).sum := fun f => ((Listing.perm source tree).map f).sum_eq
  have hcounted : Counted (Listing.order source tree) 0 0 := by
    refine ⟨?_, ?_, ?_⟩
    · rintro ⟨path, entry⟩ hentry rfl
      exact hcopyable.links path (mem_order.mp hentry)
    · rw [hsum, Nat.zero_add]
      exact hcopyable.files
    · rw [hsum, Nat.zero_add]
      exact hcopyable.bytes
  unfold copyTreeBounded
  refine Job.goes_get_bind ?_
  rw [hsource]
  refine Job.Goes.bind createRoot_goes fun _ t ht => ?_
  rw [hplace, Option.getD_some] at ht
  have hstep : At s place (fun _ => True) t := ht.mono fun _ _ => trivial
  obtain ⟨_, rfl, rfl⟩ := ht
  have hempty : (s.setTree place (some ∅)).disk.trees place = some ∅ := by simp
  refine (copyEntries_goes _ (order_nodup source tree) hcounted hempty ?_).mono ?_
  · exact fun entry _ => Std.ExtTreeMap.getElem?_empty
  · rintro _ u hu
    refine hstep.trans (hu.mono ?_)
    rintro left ⟨after, rfl, hover⟩
    rw [hover.over.empty]

theorem restoreBackup_goes (hbackup : s.disk.trees .backup = some tree) (hcopyable : Copyable tree)
    (hallowed : s.disk.trees .install = none ∨ ¬ Refused s.manager) :
    restoreBackup.Goes (fun _ t => At s .install (· = some tree) t) s := by
  unfold restoreBackup
  refine Job.goes_get_bind ?_
  rw [hbackup]
  refine Job.Goes.bind (recreateDirectory_goes (hallowed.imp_right ?_)) fun _ t ht => ?_
  · intro hrefused
    cases hvalid : validateDestructiveTarget (s.manager.placePath .install)
        [s.manager.placePath .backup] with
    | ok value => exact hvalid
    | error error => exact absurd ⟨error, hvalid⟩ hrefused
  · have hstep : At s .install (fun _ => True) t := ht.mono fun _ _ => trivial
    obtain ⟨_, rfl, rfl⟩ := ht
    have hsource : (s.setTree .install (some ∅)).disk.trees .backup = some tree := by simpa using hbackup
    refine (copyTreeBounded_goes hsource hcopyable (by simp)).mono fun _ u hu => hstep.trans hu

end

end

end GhitaBrowser.Updater
