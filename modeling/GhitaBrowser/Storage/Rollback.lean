import GhitaBrowser.Storage.IndexedDb

/-!
# Rolling back one transaction

An abort puts the snapshot back only if the epoch of the database has not moved. The
snapshot is taken after `open_db` has made or upgraded the database, and the transaction's
own object stores move the epoch, so neither is ever rolled back.
-/

namespace GhitaBrowser.Storage

/-! ## Opening -/

namespace IndexedDBEngine

theorem openDb_ok {engine opened : IndexedDBEngine} {name : String} {version : Option Nat}
    {tx : IDBTransaction} (h : engine.openDb name version = (.ok tx, opened)) :
    tx.dbName = name ∧ tx.committed = false ∧ tx.aborted = false ∧ tx.id = engine.nextTxId ∧
      tx.rollbackSnapshot = some (openedDatabase name engine.databases[name]? version) ∧
      tx.epochAtOpen = (openedDatabase name engine.databases[name]? version).mutationEpoch ∧
      opened.nextTxId = engine.nextTxId + 1 ∧
      opened.databases =
        engine.databases.insert name (openedDatabase name engine.databases[name]? version) := by
  unfold openDb at h
  split at h
  · cases h
  · dsimp only at h
    split at h
    · cases h
    · obtain ⟨htx, rfl⟩ := Prod.mk.inj h
      obtain rfl := Except.ok.inj htx
      exact ⟨rfl, rfl, rfl, rfl, rfl, rfl, rfl, rfl⟩

theorem openedDatabase_same {name : String} {db : IDBDatabase} {version : Option Nat}
    (h : (targetVersion (some db) version).2 = false) : openedDatabase name (some db) version = db := by
  unfold openedDatabase
  simp [h]

theorem openedDatabase_upgraded {name : String} {db : IDBDatabase} {version : Option Nat}
    (h : (targetVersion (some db) version).2 = true) :
    (openedDatabase name (some db) version).version ≠ db.version := by
  cases version with
  | none => cases h
  | some requested =>
    by_cases hlt : requested > db.version
    · have htarget : targetVersion (some db) (some requested) = (requested, true) := by
        simp [targetVersion, hlt]
      have hne : db.version ≠ requested := Nat.ne_of_lt hlt
      unfold openedDatabase
      simp only [htarget, Option.getD_some, ne_eq, hne, not_false_eq_true, and_self, if_true]
      exact Ne.symm hne
    · simp [targetVersion, hlt] at h

end IndexedDBEngine

/-! ## The calls of a transaction -/

section

variable [JsonReader]

inductive TransactionCall where
  | write (store : String) (write : StoreWrite)
  | createObjectStore (name : String) (keyPath : Option String) (autoIncrement : Bool)
  | deleteObjectStore (name : String)

namespace TransactionCall

/-- The database after a call, also when the call fails. -/
def apply (db : IDBDatabase) : TransactionCall → IDBDatabase
  | .write store call => IDBDatabase.write db store call
  | .createObjectStore name keyPath autoIncrement => (db.createObjectStore name keyPath autoIncrement).2
  | .deleteObjectStore name => (db.deleteObjectStore name).2

/-- The call makes an object store or takes one away. -/
def changesSchema (db : IDBDatabase) : TransactionCall → Bool
  | .write _ _ => false
  | .createObjectStore name _ _ =>
    decide (db.objectStores.size < maxStoresPerDb) && !db.objectStores.contains name
  | .deleteObjectStore name => db.objectStores.contains name

end TransactionCall

def applyCalls (db : IDBDatabase) (calls : List TransactionCall) : IDBDatabase :=
  calls.foldl TransactionCall.apply db

/-- How many of the calls make an object store or take one away. -/
def schemaChanges : IDBDatabase → List TransactionCall → Nat
  | _, [] => 0
  | db, call :: calls => (call.changesSchema db).toNat + schemaChanges (call.apply db) calls

/-- Everything a database holds but its epoch: schema, records, indexes, key generators and
the version. -/
structure Contents where
  name : String
  version : Nat
  objectStores : ObjectStores

def IDBDatabase.contents (db : IDBDatabase) : Contents := ⟨db.name, db.version, db.objectStores⟩

namespace IndexedDBEngine

/-- The calls of a transaction on the database it was opened on. -/
def runCalls (engine : IndexedDBEngine) (name : String) (calls : List TransactionCall) :
    IndexedDBEngine :=
  { engine with databases := engine.databases.modify name fun db => applyCalls db calls }

/-- The engine after a transaction is opened, used and aborted. -/
def aborted (opened : IndexedDBEngine) (tx : IDBTransaction) (calls : List TransactionCall) :
    IndexedDBEngine := ((opened.runCalls tx.dbName calls).abortTransaction tx).2

end IndexedDBEngine

def Restored (before after : IndexedDBEngine) (name : String) : Prop :=
  after.databases[name]?.map IDBDatabase.contents = before.databases[name]?.map IDBDatabase.contents

/-! ## What calls do to epoch and version -/

theorem epoch_apply (db : IDBDatabase) (call : TransactionCall) :
    (call.apply db).mutationEpoch = db.mutationEpoch + UInt64.ofNat (call.changesSchema db).toNat := by
  cases call with
  | write store write => simp [TransactionCall.apply, TransactionCall.changesSchema, IDBDatabase.write]
  | createObjectStore name keyPath autoIncrement =>
    unfold TransactionCall.apply TransactionCall.changesSchema IDBDatabase.createObjectStore
    by_cases hsize : db.objectStores.size ≥ maxStoresPerDb
    · simp [hsize, Nat.not_lt.mpr hsize]
    · by_cases hcontains : db.objectStores.contains name
      · simp [hsize, hcontains]
      · simp [hsize, hcontains, Nat.lt_of_not_le hsize]
  | deleteObjectStore name =>
    unfold TransactionCall.apply TransactionCall.changesSchema IDBDatabase.deleteObjectStore
    by_cases hcontains : db.objectStores.contains name
    · simp [hcontains]
    · simp [hcontains]

theorem version_apply (db : IDBDatabase) (call : TransactionCall) :
    (call.apply db).version = db.version := by
  cases call with
  | write store write => rfl
  | createObjectStore name keyPath autoIncrement =>
    show (db.createObjectStore name keyPath autoIncrement).2.version = db.version
    unfold IDBDatabase.createObjectStore
    split
    · rfl
    · split
      · rfl
      · rfl
  | deleteObjectStore name =>
    show (db.deleteObjectStore name).2.version = db.version
    unfold IDBDatabase.deleteObjectStore
    split
    · rfl
    · rfl

theorem epoch_applyCalls (db : IDBDatabase) (calls : List TransactionCall) :
    (applyCalls db calls).mutationEpoch =
      db.mutationEpoch + UInt64.ofNat (schemaChanges db calls) := by
  induction calls generalizing db with
  | nil => simp [applyCalls, schemaChanges]
  | cons call calls ih =>
    have hrest := ih (call.apply db)
    unfold applyCalls at hrest ⊢
    rw [List.foldl_cons, hrest, epoch_apply, schemaChanges, UInt64.ofNat_add, UInt64.add_assoc]

theorem version_applyCalls (db : IDBDatabase) (calls : List TransactionCall) :
    (applyCalls db calls).version = db.version := by
  induction calls generalizing db with
  | nil => rfl
  | cons call calls ih => exact (ih (call.apply db)).trans (version_apply db call)

theorem epoch_eq_iff (db : IDBDatabase) (calls : List TransactionCall) :
    (applyCalls db calls).mutationEpoch = db.mutationEpoch ↔
      schemaChanges db calls % 2 ^ 64 = 0 := by
  rw [epoch_applyCalls]
  have hzero : db.mutationEpoch + UInt64.ofNat (schemaChanges db calls) = db.mutationEpoch ↔
      UInt64.ofNat (schemaChanges db calls) = 0 := by
    constructor
    · intro h
      simpa using h
    · intro h
      rw [h, UInt64.add_zero]
  rw [hzero, ← UInt64.toNat_inj, UInt64.toNat_ofNat']
  rfl

/-! ## The abort -/

namespace IndexedDBEngine

theorem databases_aborted {engine opened : IndexedDBEngine} {name : String} {version : Option Nat}
    {tx : IDBTransaction} (h : engine.openDb name version = (.ok tx, opened))
    (calls : List TransactionCall) :
    (opened.aborted tx calls).databases[name]? =
      some (if schemaChanges (openedDatabase name engine.databases[name]? version) calls % 2 ^ 64 = 0
        then openedDatabase name engine.databases[name]? version
        else applyCalls (openedDatabase name engine.databases[name]? version) calls) := by
  obtain ⟨hname, hcommitted, -, -, hsnapshot, hepoch, -, hdatabases⟩ := openDb_ok h
  have hcurrent : (opened.runCalls name calls).databases[name]? =
      some (applyCalls (openedDatabase name engine.databases[name]? version) calls) := by
    rw [runCalls, Std.ExtTreeMap.getElem?_modify_self, hdatabases, Std.ExtTreeMap.getElem?_insert_self]
    rfl
  unfold aborted abortTransaction restoreSnapshotIfSafe
  rw [hname, hcommitted, hsnapshot, hepoch]
  simp only [Bool.false_eq_true, if_false, hcurrent, Option.any_some, beq_iff_eq, epoch_eq_iff]
  split
  · rw [Std.ExtTreeMap.getElem?_insert_self]
  · exact hcurrent

end IndexedDBEngine

open IndexedDBEngine

/-- An abort restores the database exactly when opening neither made nor upgraded it, and no
object store was made or taken away, or nothing was left to restore. -/
theorem abort_restores_iff (engine opened : IndexedDBEngine) (name : String) (version : Option Nat)
    (tx : IDBTransaction) (calls : List TransactionCall)
    (hopen : engine.openDb name version = (.ok tx, opened)) :
    Restored engine (opened.aborted tx calls) name ↔
      ∃ db, engine.databases[name]? = some db ∧ (targetVersion (some db) version).2 = false ∧
        (schemaChanges db calls % 2 ^ 64 = 0 ∨ (applyCalls db calls).contents = db.contents) := by
  unfold Restored
  rw [databases_aborted hopen]
  cases hcurrent : engine.databases[name]? with
  | none => simp
  | some db =>
    cases hupgrade : (targetVersion (some db) version).2 with
    | false =>
      rw [openedDatabase_same hupgrade]
      simp only [Option.map_some, Option.some.injEq, exists_eq_left', hupgrade, true_and]
      split
      · next hepoch => exact iff_of_true rfl (.inl hepoch)
      · next hepoch => exact (or_iff_right hepoch).symm
    | true =>
      have hversion := @openedDatabase_upgraded name _ _ hupgrade
      simp only [Option.map_some, Option.some.injEq, exists_eq_left', hupgrade, Bool.true_eq_false,
        false_and, iff_false]
      intro hsame
      have hcontents := congrArg Contents.version hsame
      split at hcontents
      · exact hversion hcontents
      · exact hversion ((version_applyCalls _ calls).symm.trans hcontents)

end

/-! ## An example -/

/-- A database at version 1 with one object store. -/
def sampleEngine : IndexedDBEngine where
  databases := (∅ : Databases).insert "app"
    { name := "app"
      version := 1
      objectStores := (∅ : ObjectStores).insert "users" (.new "users" none false)
      mutationEpoch := 1 }
  nextTxId := 1

/-- The transaction of an open that succeeds. -/
def openedTx : Except String IDBTransaction × IndexedDBEngine → IDBTransaction
  | (.ok tx, _) => tx
  | (.error _, _) => ⟨0, .readOnly, [], "", none, 0, false, false⟩

/-- A reader that knows the text of an empty object. -/
@[reducible] def sampleReader : JsonReader where
  fromStr json := if json = "\x7b\x7d" then .ok (.object []) else .error "expected value"

def sampleAborted (version : Option Nat) (calls : List TransactionCall) : IndexedDBEngine :=
  @IndexedDBEngine.aborted sampleReader (sampleEngine.openDb "app" version).2
    (openedTx (sampleEngine.openDb "app" version)) calls

/-- Writes that are rolled back. -/
theorem abort_restores_put :
    Restored sampleEngine
      (sampleAborted none [.write "users" (.put (some (.string "k")) "\x7b\x7d"), .write "users" .clear])
      "app" :=
  (@abort_restores_iff sampleReader sampleEngine (sampleEngine.openDb "app" none).2 "app" none
    (openedTx (sampleEngine.openDb "app" none)) _ rfl).mpr ⟨_, rfl, rfl, .inl rfl⟩

/-- An upgrade with a new object store is not rolled back. -/
theorem abort_keeps_upgrade :
    ¬ Restored sampleEngine (sampleAborted (some 2) [.createObjectStore "fresh" none false]) "app" := by
  intro hrestored
  have hversion := congrArg (Option.map Contents.version) hrestored
  exact absurd hversion (by decide)

end GhitaBrowser.Storage
