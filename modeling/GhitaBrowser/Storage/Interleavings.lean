import GhitaBrowser.Lib.OrdMap
import GhitaBrowser.Storage.Rollback

/-!
# Interleaved transactions

Any number of transactions are opened, write, commit and abort in any order. A write of
a transaction that has committed is lost when an older snapshot is put back over it. In a
run in which a snapshot is put back only over the writes of its own transaction, the
databases are what the writes of all transactions make of them, but for those of
transactions that were rolled back and never committed.
-/

namespace GhitaBrowser.Storage

open List

/-! ## Runs -/

/-- What happened to a database. -/
inductive Change where
  | opened (version : Option Nat)
  | wrote (store : String) (write : StoreWrite)
  | restored

structure HistoryEntry where
  owner : Nat
  dbName : String
  change : Change

/-- A transaction that a caller holds, and the length of the history when it was opened. -/
structure HeldTransaction where
  tx : IDBTransaction
  beganAt : Nat

variable {held : HeldTransaction} {id : Nat} {tx : IDBTransaction}

/-- The engine with the transactions that are open. History and committed transactions are
recorded for the theorem, the engine does not read them. -/
structure World where
  engine : IndexedDBEngine
  held : IdMap HeldTransaction
  history : List HistoryEntry
  committed : List Nat

inductive EngineCall where
  | begin (name : String) (version : Option Nat)
  | write (tx : Nat) (store : String) (write : StoreWrite)
  | commit (tx : Nat)
  | abort (tx : Nat)

namespace IndexedDBEngine

/-- `restore_snapshot_if_safe` puts the snapshot back. -/
def restores (engine : IndexedDBEngine) (tx : IDBTransaction) : Bool :=
  tx.rollbackSnapshot.isSome &&
    engine.databases[tx.dbName]?.any fun db => db.mutationEpoch == tx.epochAtOpen

def overBudget (engine : IndexedDBEngine) : Prop :=
  engine.totalRecords > maxRecordsPerOrigin ∨ engine.retainedBytes > maxOriginValueBytes

instance (engine : IndexedDBEngine) : Decidable engine.overBudget :=
  inferInstanceAs (Decidable (_ ∨ _))

end IndexedDBEngine

namespace World

def start (engine : IndexedDBEngine) : World where
  engine := engine
  held := ∅
  history := []
  committed := []

def opens (world : World) (name : String) (version : Option Nat) (tx : IDBTransaction)
    (engine : IndexedDBEngine) : World :=
  { world with
    engine := engine
    held := world.held.insert tx.id ⟨tx, world.history.length + 1⟩
    history := world.history ++ [⟨tx.id, name, .opened version⟩] }

def commits (world : World) (id : Nat) (engine : IndexedDBEngine) : World :=
  { world with
    engine := engine
    held := world.held.erase id
    committed := id :: world.committed }

/-- A transaction is over; its snapshot was put back or not. -/
def release (world : World) (held : HeldTransaction) (id : Nat) (engine : IndexedDBEngine) : World :=
  { world with
    engine := engine
    held := world.held.erase id
    history :=
      if world.engine.restores held.tx then world.history ++ [⟨id, held.tx.dbName, .restored⟩]
      else world.history }

section

variable [JsonReader]

/-- A transaction writes to its database. -/
def writes (world : World) (id : Nat) (held : HeldTransaction) (store : String) (write : StoreWrite) :
    World :=
  { world with
    engine := world.engine.write held.tx.dbName store write
    history := world.history ++ [⟨id, held.tx.dbName, .wrote store write⟩] }

def step (world : World) : EngineCall → World
  | .begin name version =>
    match world.engine.openDb name version with
    | (.error _, engine) => { world with engine := engine }
    | (.ok tx, engine) => world.opens name version tx engine
  | .write id store write =>
    match world.held[id]? with
    | none => world
    | some held => world.writes id held store write
  | .commit id =>
    match world.held[id]? with
    | none => world
    | some held =>
      match world.engine.commitTransaction held.tx with
      | (.error _, engine) => world.release held id engine
      | (.ok (), engine) => world.commits id engine
  | .abort id =>
    match world.held[id]? with
    | none => world
    | some held => world.release held id (world.engine.abortTransaction held.tx).2

def run (world : World) (calls : List EngineCall) : World := calls.foldl step world

/-! ## What a history makes of the databases -/

def applyChange (name : String) (db : Option IDBDatabase) (entry : HistoryEntry) : Option IDBDatabase :=
  if entry.dbName = name then
    match entry.change with
    | .opened version => some (IndexedDBEngine.openedDatabase name db version)
    | .wrote store write => db.map fun db => db.write store write
    | .restored => db
  else db

def replay (name : String) (db : Option IDBDatabase) (history : List HistoryEntry) :
    Option IDBDatabase := history.foldl (applyChange name) db

end

/-- A change that was not rolled back. -/
def survives (rolledBack : List Nat) (entry : HistoryEntry) : Bool :=
  match entry.change with
  | .wrote _ _ => !rolledBack.contains entry.owner
  | _ => true

/-- No write of a committed transaction is lost: the databases are what the writes make of
them, those of some transactions left out, none of which has committed. -/
def CommittedSurvive [JsonReader] (initial : Databases) (world : World) : Prop :=
  ∃ rolledBack : List Nat, (∀ id ∈ rolledBack, id ∉ world.committed) ∧
    ∀ name : String, world.engine.databases[name]? =
      replay name initial[name]? (world.history.filter (survives rolledBack))

/-! ## The condition -/

/-- Since a transaction was opened, nothing but its own writes has happened to its database. -/
def Undisturbed (world : World) (held : HeldTransaction) : Prop :=
  ∀ entry ∈ world.history.drop held.beganAt, entry.dbName = held.tx.dbName →
    entry.owner = held.tx.id

/-- A snapshot is put back only over the writes of its own transaction. -/
def Meets (world : World) : EngineCall → Prop
  | .abort id => ∀ held, world.held[id]? = some held → world.engine.restores held.tx = true →
    world.Undisturbed held
  | .commit id => ∀ held, world.held[id]? = some held → world.engine.overBudget →
    world.engine.restores held.tx = true → world.Undisturbed held
  | _ => True

def RunMeets [JsonReader] : World → List EngineCall → Prop
  | _, [] => True
  | world, call :: calls => world.Meets call ∧ RunMeets (world.step call) calls

/-! ## Replaying -/

section

variable [JsonReader] {name : String} {db : Option IDBDatabase}

theorem replay_append (history more : List HistoryEntry) :
    replay name db (history ++ more) = replay name (replay name db history) more :=
  foldl_append

theorem replay_filter_congr {history : List HistoryEntry} {p q : HistoryEntry → Bool}
    (h : ∀ entry ∈ history, entry.dbName = name → p entry = q entry) :
    replay name db (history.filter p) = replay name db (history.filter q) := by
  induction history generalizing db with
  | nil => rfl
  | cons entry history ih =>
    have hrest := fun db => @ih db fun other hother => h other (mem_cons_of_mem _ hother)
    have hskip : entry.dbName ≠ name → ∀ r : HistoryEntry → Bool, ∀ db,
        replay name db ((entry :: history).filter r) = replay name db (history.filter r) := by
      intro hname r db
      rw [filter_cons]
      split
      · unfold replay
        rw [foldl_cons, applyChange, if_neg hname]
      · rfl
    by_cases hname : entry.dbName = name
    · rw [filter_cons, filter_cons, h entry mem_cons_self hname]
      split
      · exact hrest _
      · exact hrest _
    · rw [hskip hname, hskip hname, hrest]

theorem replay_filter_none {history : List HistoryEntry} {p : HistoryEntry → Bool}
    (h : ∀ entry ∈ history, entry.dbName = name → p entry = false) :
    replay name db (history.filter p) = db := by
  rw [replay_filter_congr (q := fun _ => false) h, filter_false]
  rfl

end

variable {entry : HistoryEntry}

theorem survives_of_not_mem {rolledBack : List Nat}
    (h : entry.owner ∉ rolledBack) : survives rolledBack entry = true := by
  unfold survives
  split
  · simpa using h
  · rfl

theorem survives_cons {rolledBack : List Nat}
    (h : entry.owner ≠ id) : survives (id :: rolledBack) entry = survives rolledBack entry := by
  unfold survives
  split
  · simp [h]
  · rfl

theorem survives_of_kept {rolledBack : List Nat}
    (h : survives [entry.owner] entry = true) : survives rolledBack entry = true := by
  unfold survives at h ⊢
  cases hchange : entry.change with
  | wrote store write => simp [hchange] at h
  | opened version => rfl
  | restored => rfl

theorem survives_wrote {rolledBack : List Nat}
    (howner : entry.owner = id) (hwrote : ∃ store write, entry.change = .wrote store write) :
    survives (id :: rolledBack) entry = false := by
  obtain ⟨store, write, hchange⟩ := hwrote
  simp [survives, hchange, howner]

theorem erase_of_none {other : Nat} {table : IdMap HeldTransaction} (h : table[other]? = none) :
    (table.erase id)[other]? = none := by
  rw [IdMap.getElem?_erase]
  split
  · rfl
  · exact h

theorem of_erase {other : Nat} {table : IdMap HeldTransaction} {found : HeldTransaction}
    (h : (table.erase id)[other]? = some found) : id ≠ other ∧ table[other]? = some found := by
  rw [IdMap.getElem?_erase] at h
  split at h
  · cases h
  · next hne => exact ⟨Ne.symm hne, h⟩

theorem opens_held_old {world : World} {name : String} {version : Option Nat}
    {opened : IndexedDBEngine} (hid : tx.id = world.engine.nextTxId)
    (hlt : id < world.engine.nextTxId) :
    (world.opens name version tx opened).held[id]? = world.held[id]? := by
  show (world.held.insert tx.id ⟨tx, world.history.length + 1⟩)[id]? = world.held[id]?
  rw [IdMap.getElem?_insert, if_neg]
  rw [hid]
  exact Nat.ne_of_lt hlt

/-! ## The invariant -/

/-- What the world knows of a transaction that is open. -/
structure HeldSound [JsonReader] (initial : Databases) (rolledBack : List Nat) (world : World) (id : Nat)
    (held : HeldTransaction) : Prop where
  id_eq : held.tx.id = id
  id_lt : id < world.engine.nextTxId
  not_committed : held.tx.committed = false
  not_aborted : held.tx.aborted = false
  began_le : held.beganAt ≤ world.history.length
  open_before : ∀ entry ∈ world.history.take held.beganAt, entry.owner = id →
    ∃ version, entry.change = .opened version
  wrote_after : ∀ entry ∈ world.history.drop held.beganAt, entry.owner = id →
    ∃ store write, entry.change = .wrote store write
  on_own : ∀ entry ∈ world.history, entry.owner = id → entry.dbName = held.tx.dbName
  snapshot : world.Undisturbed held → held.tx.rollbackSnapshot =
    replay held.tx.dbName initial[held.tx.dbName]?
      ((world.history.take held.beganAt).filter (survives rolledBack))

structure Sound [JsonReader] (initial : Databases) (rolledBack : List Nat) (world : World) : Prop where
  replayed : ∀ name : String, world.engine.databases[name]? =
    replay name initial[name]? (world.history.filter (survives rolledBack))
  rolled_back : ∀ id ∈ rolledBack, id < world.engine.nextTxId ∧ world.held[id]? = none ∧
    id ∉ world.committed
  committed : ∀ id ∈ world.committed, id < world.engine.nextTxId ∧ world.held[id]? = none
  owners : ∀ entry ∈ world.history, entry.owner < world.engine.nextTxId
  held : ∀ {id held}, world.held[id]? = some held → HeldSound initial rolledBack world id held

theorem sound_start [JsonReader] (engine : IndexedDBEngine) :
    Sound engine.databases [] (start engine) where
  replayed := fun name => rfl
  rolled_back := by simp
  committed := by simp [start]
  owners := by simp [start]
  held := by simp [start]

theorem Undisturbed.of_append {world after : World}
    (hhistory : after.history = world.history ++ [entry]) (hbegan : held.beganAt ≤ world.history.length)
    (h : after.Undisturbed held) :
    world.Undisturbed held ∧ (entry.dbName = held.tx.dbName → entry.owner = held.tx.id) := by
  have hdrop : after.history.drop held.beganAt = world.history.drop held.beganAt ++ [entry] := by
    rw [hhistory, drop_append_of_le_length hbegan]
  unfold Undisturbed at h ⊢
  rw [hdrop] at h
  constructor
  · exact fun other hother => h other (mem_append_left _ hother)
  · exact h entry (mem_append_right _ (mem_singleton.mpr rfl))

theorem openDb_error {engine opened : IndexedDBEngine} {name : String} {version : Option Nat}
    {failure : String} (h : engine.openDb name version = (.error failure, opened)) : opened = engine := by
  unfold IndexedDBEngine.openDb at h
  split at h
  · exact (Prod.mk.inj h).2.symm
  · dsimp only at h
    split at h
    · exact (Prod.mk.inj h).2.symm
    · cases (Prod.mk.inj h).1

section

variable [JsonReader] {initial : Databases} {rolledBack : List Nat} {world : World}

/-- A step that leaves a transaction open, adds an entry and rolls nothing back. -/
theorem HeldSound.grow {after : World} (h : HeldSound initial rolledBack world id held)
    (hhistory : after.history = world.history ++ [entry])
    (hnext : world.engine.nextTxId ≤ after.engine.nextTxId)
    (howner : entry.owner = id →
      entry.dbName = held.tx.dbName ∧ ∃ store write, entry.change = .wrote store write) :
    HeldSound initial rolledBack after id held := by
  have htake : after.history.take held.beganAt = world.history.take held.beganAt := by
    rw [hhistory, take_append_of_le_length h.began_le]
  have hdrop : after.history.drop held.beganAt = world.history.drop held.beganAt ++ [entry] := by
    rw [hhistory, drop_append_of_le_length h.began_le]
  constructor
  · exact h.id_eq
  · exact h.id_lt.trans_le hnext
  · exact h.not_committed
  · exact h.not_aborted
  · rw [hhistory, length_append]
    exact h.began_le.trans (Nat.le_add_right _ _)
  · rw [htake]
    exact h.open_before
  · rw [hdrop]
    intro other hother hid
    rcases mem_append.mp hother with hold | hnew
    · exact h.wrote_after other hold hid
    · obtain rfl := mem_singleton.mp hnew
      exact (howner hid).2
  · rw [hhistory]
    intro other hother hid
    rcases mem_append.mp hother with hold | hnew
    · exact h.on_own other hold hid
    · obtain rfl := mem_singleton.mp hnew
      exact (howner hid).1
  · rw [htake]
    exact fun hundisturbed => h.snapshot (hundisturbed.of_append hhistory h.began_le).1

/-- A step that leaves a transaction open and adds no entry. -/
theorem HeldSound.stay {after : World}
    (h : HeldSound initial rolledBack world id held) (hhistory : after.history = world.history)
    (hnext : after.engine.nextTxId = world.engine.nextTxId) :
    HeldSound initial rolledBack after id held := by
  constructor
  · exact h.id_eq
  · exact hnext ▸ h.id_lt
  · exact h.not_committed
  · exact h.not_aborted
  · exact hhistory ▸ h.began_le
  · exact hhistory ▸ h.open_before
  · exact hhistory ▸ h.wrote_after
  · exact hhistory ▸ h.on_own
  · intro hundisturbed
    rw [hhistory]
    refine h.snapshot ?_
    unfold Undisturbed at hundisturbed ⊢
    rwa [hhistory] at hundisturbed

/-! ## The steps -/

theorem replay_snoc {name : String} {db : Option IDBDatabase}
    {history : List HistoryEntry} (h : survives rolledBack entry = true) :
    replay name db ((history ++ [entry]).filter (survives rolledBack)) =
      applyChange name (replay name db (history.filter (survives rolledBack))) entry := by
  rw [filter_append, filter_cons, if_pos h, filter_nil, replay_append]
  rfl

theorem Sound.not_rolledBack (h : Sound initial rolledBack world)
    (hheld : world.held[id]? = some held) : id ∉ rolledBack := by
  intro hmem
  rw [(h.rolled_back id hmem).2.1] at hheld
  cases hheld

theorem heldSound_opened {name : String} {version : Option Nat}
    {opened : IndexedDBEngine} (hopen : world.engine.openDb name version = (.ok tx, opened))
    (howners : ∀ entry ∈ world.history, entry.owner < world.engine.nextTxId)
    (hreplayed : opened.databases[name]? = replay name initial[name]?
      ((world.opens name version tx opened).history.filter (survives rolledBack))) :
    HeldSound initial rolledBack (world.opens name version tx opened) tx.id
      ⟨tx, world.history.length + 1⟩ := by
  obtain ⟨hname, hcommitted, haborted, hid, hsnapshot, -, hnext, hdatabases⟩ :=
    IndexedDBEngine.openDb_ok hopen
  have hlength : (world.opens name version tx opened).history.length ≤ world.history.length + 1 := by
    simp [opens]
  have htake := take_of_length_le hlength
  have hown : ∀ entry ∈ (world.opens name version tx opened).history, entry.owner = tx.id →
      entry = ⟨tx.id, name, .opened version⟩ := by
    intro entry hentry howner
    rcases mem_append.mp hentry with hold | hnew
    · exact absurd (howner.trans hid) (Nat.ne_of_lt (howners entry hold))
    · exact mem_singleton.mp hnew
  constructor
  · rfl
  · show tx.id < opened.nextTxId
    rw [hid, hnext]
    exact Nat.lt_succ_self _
  · exact hcommitted
  · exact haborted
  · show world.history.length + 1 ≤ (world.history ++ [_]).length
    rw [length_append, length_singleton]
  · rw [htake]
    intro entry hentry howner
    exact ⟨version, by rw [hown entry hentry howner]⟩
  · rw [drop_of_length_le hlength]
    intro entry hentry
    cases hentry
  · intro entry hentry howner
    rw [hown entry hentry howner]
    exact hname.symm
  · intro _
    rw [htake, hname, ← hreplayed, hdatabases, Std.ExtTreeMap.getElem?_insert_self]
    exact hsnapshot

theorem sound_opens (h : Sound initial rolledBack world) {name : String} {version : Option Nat}
    {opened : IndexedDBEngine}
    (hopen : world.engine.openDb name version = (.ok tx, opened)) :
    Sound initial rolledBack (world.opens name version tx opened) := by
  obtain ⟨-, -, -, hid, -, -, hnext, hdatabases⟩ := IndexedDBEngine.openDb_ok hopen
  have hle : world.engine.nextTxId ≤ opened.nextTxId := by
    rw [hnext]
    exact Nat.le_succ _
  have hreplayed : ∀ other : String, opened.databases[other]? =
      replay other initial[other]?
        ((world.opens name version tx opened).history.filter (survives rolledBack)) := by
    intro other
    rw [opens, replay_snoc rfl, applyChange, ← h.replayed, hdatabases]
    by_cases hother : name = other
    · subst hother
      rw [if_pos rfl, Std.ExtTreeMap.getElem?_insert_self]
    · rw [if_neg hother, Std.ExtTreeMap.getElem?_insert, if_neg (by simpa using hother)]
  constructor
  · exact hreplayed
  · intro id hmem
    obtain ⟨hlt, hheld, hnot⟩ := h.rolled_back id hmem
    exact ⟨hlt.trans_le hle, (opens_held_old hid hlt).trans hheld, hnot⟩
  · intro id hmem
    obtain ⟨hlt, hheld⟩ := h.committed id hmem
    exact ⟨hlt.trans_le hle, (opens_held_old hid hlt).trans hheld⟩
  · intro entry hentry
    rcases mem_append.mp hentry with hold | hnew
    · exact (h.owners entry hold).trans_le hle
    · obtain rfl := mem_singleton.mp hnew
      show tx.id < opened.nextTxId
      rw [hid, hnext]
      exact Nat.lt_succ_self _
  · intro id held hheld
    by_cases hsame : tx.id = id
    · have hnew : (world.opens name version tx opened).held[tx.id]? =
          some ⟨tx, world.history.length + 1⟩ := by
        show (world.held.insert tx.id ⟨tx, world.history.length + 1⟩)[tx.id]? = _
        rw [IdMap.getElem?_insert, if_pos rfl]
      subst hsame
      obtain rfl := Option.some.inj (hnew.symm.trans hheld)
      exact heldSound_opened hopen h.owners (hreplayed name)
    · have hold : world.held[id]? = some held := by
        have hheld : (world.held.insert tx.id ⟨tx, world.history.length + 1⟩)[id]? = some held := hheld
        rwa [IdMap.getElem?_insert, if_neg (Ne.symm hsame)] at hheld
      exact (h.held hold).grow rfl hle fun howner => absurd howner hsame

theorem sound_writes (h : Sound initial rolledBack world)
    (hheld : world.held[id]? = some held) (store : String) (write : StoreWrite) :
    Sound initial rolledBack (world.writes id held store write) := by
  have hsurvives : survives rolledBack ⟨id, held.tx.dbName, .wrote store write⟩ = true :=
    survives_of_not_mem (h.not_rolledBack hheld)
  constructor
  · intro name
    rw [writes, replay_snoc hsurvives, applyChange, ← h.replayed, IndexedDBEngine.write]
    by_cases hname : held.tx.dbName = name
    · subst hname
      rw [if_pos rfl, Std.ExtTreeMap.getElem?_modify_self]
    · rw [if_neg hname, Std.ExtTreeMap.getElem?_modify, if_neg (by simpa using hname)]
  · exact h.rolled_back
  · exact h.committed
  · intro entry hentry
    rcases mem_append.mp hentry with hold | hnew
    · exact h.owners entry hold
    · obtain rfl := mem_singleton.mp hnew
      exact (h.held hheld).id_lt
  · intro other found hfound
    refine (h.held hfound).grow rfl (Nat.le_refl _) fun howner => ?_
    obtain rfl : id = other := howner
    obtain rfl := Option.some.inj (hheld.symm.trans hfound)
    exact ⟨rfl, store, write, rfl⟩

theorem sound_commits (h : Sound initial rolledBack world) (hheld : world.held[id]? = some held) :
    Sound initial rolledBack (world.commits id world.engine) := by
  constructor
  · exact h.replayed
  · intro other hmem
    obtain ⟨hlt, hnone, hnot⟩ := h.rolled_back other hmem
    refine ⟨hlt, erase_of_none hnone, ?_⟩
    intro hcommitted
    rcases mem_cons.mp hcommitted with rfl | hrest
    · exact h.not_rolledBack hheld hmem
    · exact hnot hrest
  · intro other hmem
    rcases mem_cons.mp hmem with rfl | hrest
    · exact ⟨(h.held hheld).id_lt, (IdMap.getElem?_erase _ _ _).trans (if_pos rfl)⟩
    · exact ⟨(h.committed other hrest).1, erase_of_none (h.committed other hrest).2⟩
  · exact h.owners
  · intro other found hfound
    exact (h.held (of_erase hfound).2).stay rfl rfl

end

theorem restoreSnapshotIfSafe_of_restores {engine : IndexedDBEngine} {snapshot : IDBDatabase}
    (hsnapshot : tx.rollbackSnapshot = some snapshot) (h : engine.restores tx = true) :
    engine.restoreSnapshotIfSafe tx =
      { engine with databases := engine.databases.insert tx.dbName snapshot } := by
  unfold IndexedDBEngine.restores at h
  unfold IndexedDBEngine.restoreSnapshotIfSafe
  rw [Bool.and_eq_true] at h
  rw [hsnapshot]
  exact if_pos h.2

theorem restoreSnapshotIfSafe_of_not {engine : IndexedDBEngine}
    (h : engine.restores tx = false) : engine.restoreSnapshotIfSafe tx = engine := by
  unfold IndexedDBEngine.restores at h
  unfold IndexedDBEngine.restoreSnapshotIfSafe
  split
  · rfl
  · next snapshot hsnapshot =>
    rw [hsnapshot, Option.isSome_some, Bool.true_and] at h
    rw [if_neg]
    simpa using h

theorem commitTransaction_of_overBudget {engine : IndexedDBEngine}
    (haborted : tx.aborted = false) (h : engine.overBudget) :
    engine.commitTransaction tx =
      (.error "IndexedDB origin storage budget exceeded", engine.restoreSnapshotIfSafe tx) := by
  unfold IndexedDBEngine.commitTransaction
  rw [haborted, if_neg Bool.false_ne_true]
  exact if_pos h

theorem commitTransaction_of_not {engine : IndexedDBEngine}
    (haborted : tx.aborted = false) (h : ¬ engine.overBudget) :
    engine.commitTransaction tx = (.ok (), engine) := by
  unfold IndexedDBEngine.commitTransaction
  rw [haborted, if_neg Bool.false_ne_true]
  exact if_neg h

section

variable [JsonReader] {initial : Databases} {rolledBack : List Nat} {world : World}

theorem sound_released (h : Sound initial rolledBack world)
    (hrestores : world.engine.restores held.tx = false) :
    Sound initial rolledBack (world.release held id (world.engine.restoreSnapshotIfSafe held.tx)) := by
  unfold release
  rw [restoreSnapshotIfSafe_of_not hrestores, hrestores]
  constructor
  · exact h.replayed
  · intro other hmem
    obtain ⟨hlt, hnone, hnot⟩ := h.rolled_back other hmem
    exact ⟨hlt, erase_of_none hnone, hnot⟩
  · intro other hmem
    exact ⟨(h.committed other hmem).1, erase_of_none (h.committed other hmem).2⟩
  · exact h.owners
  · intro other found hfound
    exact (h.held (of_erase hfound).2).stay rfl rfl

theorem replay_rolledBack_elsewhere {name : String} {db : Option IDBDatabase}
    {history : List HistoryEntry} (h : ∀ entry ∈ history, entry.owner = id → entry.dbName ≠ name) :
    replay name db (history.filter (survives (id :: rolledBack))) =
      replay name db (history.filter (survives rolledBack)) := by
  refine replay_filter_congr fun entry hentry hname => survives_cons ?_
  intro howner
  exact h entry hentry howner hname

theorem replay_rolledBack_own {db : Option IDBDatabase}
    (h : HeldSound initial rolledBack world id held) (hundisturbed : world.Undisturbed held) :
    replay held.tx.dbName db (world.history.filter (survives (id :: rolledBack))) =
      replay held.tx.dbName db ((world.history.take held.beganAt).filter (survives rolledBack)) := by
  have hsplit := take_append_drop held.beganAt world.history
  have hbefore : ∀ entry ∈ world.history.take held.beganAt, entry.dbName = held.tx.dbName →
      survives (id :: rolledBack) entry = survives rolledBack entry := by
    intro entry hentry _
    by_cases howner : entry.owner = id
    · obtain ⟨version, hchange⟩ := h.open_before entry hentry howner
      simp [survives, hchange]
    · exact survives_cons howner
  have hafter : ∀ entry ∈ world.history.drop held.beganAt, entry.dbName = held.tx.dbName →
      survives (id :: rolledBack) entry = false := by
    intro entry hentry hname
    have howner : entry.owner = id := (hundisturbed entry hentry hname).trans h.id_eq
    exact survives_wrote howner (h.wrote_after entry hentry howner)
  calc replay held.tx.dbName db (world.history.filter (survives (id :: rolledBack)))
      = replay held.tx.dbName
          (replay held.tx.dbName db
            ((world.history.take held.beganAt).filter (survives (id :: rolledBack))))
          ((world.history.drop held.beganAt).filter (survives (id :: rolledBack))) := by
        rw [← replay_append, ← filter_append, hsplit]
    _ = replay held.tx.dbName db
          ((world.history.take held.beganAt).filter (survives (id :: rolledBack))) :=
        replay_filter_none hafter
    _ = replay held.tx.dbName db ((world.history.take held.beganAt).filter (survives rolledBack)) :=
        replay_filter_congr hbefore

/-- Another open transaction after a snapshot was put back: if it is still undisturbed, it is
one of another database. -/
theorem HeldSound.beside {after : World} {other : Nat} {found : HeldTransaction}
    (h : HeldSound initial rolledBack world other found)
    (hheld : HeldSound initial rolledBack world id held) (hne : id ≠ other)
    (hhistory : after.history = world.history ++ [⟨id, held.tx.dbName, .restored⟩])
    (hnext : world.engine.nextTxId ≤ after.engine.nextTxId) :
    HeldSound initial (id :: rolledBack) after other found := by
  have hgrown : HeldSound initial rolledBack after other found :=
    h.grow hhistory hnext fun howner => absurd howner hne
  refine { hgrown with snapshot := fun hundisturbed => ?_ }
  have hother : held.tx.dbName ≠ found.tx.dbName := by
    intro hsame
    exact hne (((hundisturbed.of_append hhistory h.began_le).2 hsame).trans h.id_eq)
  rw [hgrown.snapshot hundisturbed]
  refine (replay_rolledBack_elsewhere ?_).symm
  intro entry hentry howner
  rw [hhistory, take_append_of_le_length h.began_le] at hentry
  rw [hheld.on_own entry (mem_of_mem_take hentry) howner]
  exact hother

theorem sound_restored (h : Sound initial rolledBack world) (hheld : world.held[id]? = some held)
    (hrestores : world.engine.restores held.tx = true) (hundisturbed : world.Undisturbed held) :
    Sound initial (id :: rolledBack)
      (world.release held id (world.engine.restoreSnapshotIfSafe held.tx)) := by
  have hsound := h.held hheld
  obtain ⟨snapshot, hsnapshot⟩ : ∃ snapshot, held.tx.rollbackSnapshot = some snapshot := by
    rw [IndexedDBEngine.restores, Bool.and_eq_true] at hrestores
    exact Option.isSome_iff_exists.mp hrestores.1
  unfold release
  rw [restoreSnapshotIfSafe_of_restores hsnapshot hrestores, if_pos hrestores]
  constructor
  · intro name
    have hrestored : applyChange name
        (replay name initial[name]? (world.history.filter (survives (id :: rolledBack))))
        ⟨id, held.tx.dbName, .restored⟩ =
        replay name initial[name]? (world.history.filter (survives (id :: rolledBack))) :=
      ite_self _
    rw [replay_snoc rfl, hrestored]
    by_cases hname : held.tx.dbName = name
    · subst hname
      rw [Std.ExtTreeMap.getElem?_insert_self, replay_rolledBack_own hsound hundisturbed,
        ← hsound.snapshot hundisturbed, hsnapshot]
    · rw [Std.ExtTreeMap.getElem?_insert, if_neg (by simpa using hname), h.replayed]
      refine (replay_rolledBack_elsewhere ?_).symm
      intro entry hentry howner
      rw [hsound.on_own entry hentry howner]
      exact hname
  · intro other hmem
    rcases mem_cons.mp hmem with rfl | hrest
    · refine ⟨hsound.id_lt, (IdMap.getElem?_erase _ _ _).trans (if_pos rfl), ?_⟩
      intro hcommitted
      rw [(h.committed other hcommitted).2] at hheld
      cases hheld
    · obtain ⟨hlt, hnone, hnot⟩ := h.rolled_back other hrest
      exact ⟨hlt, erase_of_none hnone, hnot⟩
  · intro other hmem
    exact ⟨(h.committed other hmem).1, erase_of_none (h.committed other hmem).2⟩
  · intro entry hentry
    rcases mem_append.mp hentry with hold | hnew
    · exact h.owners entry hold
    · obtain rfl := mem_singleton.mp hnew
      exact hsound.id_lt
  · intro other found hfound
    obtain ⟨hne, hold⟩ := of_erase hfound
    exact (h.held hold).beside hsound hne rfl (Nat.le_refl _)

theorem sound_release (h : Sound initial rolledBack world) (hheld : world.held[id]? = some held)
    (hmeets : world.engine.restores held.tx = true → world.Undisturbed held) :
    ∃ rolledBack, Sound initial rolledBack
      (world.release held id (world.engine.restoreSnapshotIfSafe held.tx)) := by
  cases hrestores : world.engine.restores held.tx with
  | false => exact ⟨rolledBack, sound_released h hrestores⟩
  | true => exact ⟨id :: rolledBack, sound_restored h hheld hrestores (hmeets hrestores)⟩

theorem sound_step (h : Sound initial rolledBack world) {call : EngineCall} (hmeets : world.Meets call) :
    ∃ rolledBack, Sound initial rolledBack (world.step call) := by
  cases call with
  | begin name version =>
    simp only [step]
    split
    · next failure opened hopen =>
      rw [openDb_error hopen]
      exact ⟨rolledBack, h⟩
    · next tx opened hopen => exact ⟨rolledBack, sound_opens h hopen⟩
  | write id store write =>
    simp only [step]
    split
    · exact ⟨rolledBack, h⟩
    · next held hheld => exact ⟨rolledBack, sound_writes h hheld store write⟩
  | commit id =>
    simp only [step]
    split
    · exact ⟨rolledBack, h⟩
    · next held hheld =>
      by_cases hbudget : world.engine.overBudget
      · rw [commitTransaction_of_overBudget (h.held hheld).not_aborted hbudget]
        exact sound_release h hheld fun hrestores => hmeets held hheld hbudget hrestores
      · rw [commitTransaction_of_not (h.held hheld).not_aborted hbudget]
        exact ⟨rolledBack, sound_commits h hheld⟩
  | abort id =>
    simp only [step]
    split
    · exact ⟨rolledBack, h⟩
    · next held hheld =>
      unfold IndexedDBEngine.abortTransaction
      rw [(h.held hheld).not_committed, if_neg Bool.false_ne_true]
      exact sound_release h hheld fun hrestores => hmeets held hheld hrestores

theorem sound_run (h : Sound initial rolledBack world) {calls : List EngineCall}
    (hmeets : RunMeets world calls) : ∃ rolledBack, Sound initial rolledBack (world.run calls) := by
  induction calls generalizing world rolledBack with
  | nil => exact ⟨rolledBack, h⟩
  | cons call calls ih =>
    obtain ⟨more, hstep⟩ := sound_step h hmeets.1
    exact ih hstep hmeets.2

end

/-- In a run in which a snapshot is put back only over the writes of its own transaction, no
write of a committed transaction is lost. -/
theorem committed_writes_survive [JsonReader] (engine : IndexedDBEngine) (calls : List EngineCall)
    (hmeets : RunMeets (start engine) calls) :
    CommittedSurvive engine.databases ((start engine).run calls) := by
  obtain ⟨rolledBack, hsound⟩ := sound_run (sound_start engine) hmeets
  exact ⟨rolledBack, fun id hmem => (hsound.rolled_back id hmem).2.2, hsound.replayed⟩

/-! ## An example -/

/-- Two transactions on the sample: the second writes and commits, then the first ends. -/
def sampleRun (last : EngineCall) : List EngineCall :=
  [.begin "app" none, .begin "app" none,
    .write 2 "users" (.put (some (.string "k")) "\x7b\x7d"), .commit 2, last]

/-- How many records an object store of a database has. -/
def recordCount (store : String) (db : Option IDBDatabase) : Option Nat :=
  (db.bind fun db => db.objectStores[store]?).map fun store => store.records.length

/-- The first transaction commits as well, and a third one writes and is aborted. -/
def abortedRun : List EngineCall :=
  sampleRun (.commit 1) ++
    [.begin "app" none, .write 3 "users" (.put (some (.string "m")) "\x7b\x7d"), .abort 3]

/-- The record of the third transaction goes, that of the second stays. -/
theorem committed_writes_survive_both :
    @CommittedSurvive sampleReader sampleEngine.databases
        (@run sampleReader (start sampleEngine) abortedRun) ∧
      recordCount "users"
        (@run sampleReader (start sampleEngine) abortedRun).engine.databases["app"]? = some 1 := by
  refine ⟨@committed_writes_survive sampleReader sampleEngine abortedRun ?_, by decide +kernel⟩
  refine ⟨trivial, trivial, trivial, ?_, ?_, trivial, trivial, ?_, trivial⟩
  · intro held _ hbudget
    exact absurd hbudget (by decide +kernel)
  · intro held _ hbudget
    exact absurd hbudget (by decide +kernel)
  · intro held hheld _
    -- only its own write came after it was opened
    have hown : ∀ held ∈ (@run sampleReader (start sampleEngine) abortedRun.dropLast).held[3]?,
        ∀ entry ∈ (@run sampleReader (start sampleEngine) abortedRun.dropLast).history.drop
          held.beganAt, entry.owner = held.tx.id := by decide +kernel
    exact fun entry hentry _ => hown held hheld entry hentry

/-- The first transaction aborts, and the record of the second is gone. -/
theorem committed_write_is_lost :
    ¬ @CommittedSurvive sampleReader sampleEngine.databases
      (@run sampleReader (start sampleEngine) (sampleRun (.abort 1))) := by
  rintro ⟨rolledBack, hrolledBack, hreplayed⟩
  have hmember : (2 : Nat) ∉ rolledBack := by
    intro hmem
    exact hrolledBack 2 hmem (by decide +kernel)
  have happ := congrArg (recordCount "users") (hreplayed "app")
  rw [@replay_filter_congr sampleReader _ _ _ _ (fun _ => true), filter_true] at happ
  · exact absurd happ (by decide +kernel)
  · intro entry hentry _
    have hown : ∀ entry ∈ (@run sampleReader (start sampleEngine) (sampleRun (.abort 1))).history,
        entry.owner = 2 ∨ survives [entry.owner] entry = true := by decide +kernel
    rcases hown entry hentry with howner | hkept
    · exact survives_of_not_mem (howner ▸ hmember)
    · exact survives_of_kept hkept

end World

end GhitaBrowser.Storage
