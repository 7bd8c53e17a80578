import GhitaBrowser.Lib.OrdMap

/-!
# IndexedDB databases

Keys, object stores, databases and the engine of one origin. Writes go straight to the
databases. A transaction is a snapshot of its database, taken when it is opened and put
back when it is aborted, provided that the epoch of the database has not moved.

`serde_json` is a parameter; the copy on disk, the cursors and the reads by an index are left
out.
-/

namespace GhitaBrowser.Storage

def maxDbsPerOrigin : Nat := 64
def maxStoresPerDb : Nat := 256
def maxIndexesPerStore : Nat := 1024
def maxRecordsPerOrigin : Nat := 100000
def maxRecordValueBytes : Nat := 2 * 1024 * 1024
def maxKeyBytes : Nat := 64 * 1024
def maxObjectStoreValueBytes : Nat := 32 * 1024 * 1024
def maxOriginValueBytes : Nat := 256 * 1024 * 1024

/-! ## JSON values -/

/-- `serde_json::Value`, a number with what `as_f64` makes of it. -/
inductive JsonValue where
  | null
  | bool (value : Bool)
  | number (asF64 : Option Float)
  | string (value : String)
  | array (values : List JsonValue)
  | object (fields : List (String × JsonValue))

/-- `serde_json::from_str`. -/
class JsonReader where
  fromStr : String → Except String JsonValue

def JsonValue.get (value : JsonValue) (part : String) : Option JsonValue :=
  match value with
  | .object fields => (fields.find? fun field => field.1 == part).map Prod.snd
  | _ => none

/-! ## Keys -/

inductive IDBKey where
  | array (values : List IDBKey)
  | string (value : String)
  | date (value : Float)
  | number (value : Float)
  | binary (bytes : List UInt8)

namespace IDBKey

mutual

/-- The derived `==`, for which NaN differs from itself. -/
def beq : IDBKey → IDBKey → Bool
  | .array a, .array b => beqElements a b
  | .string a, .string b => a == b
  | .date a, .date b => a == b
  | .number a, .number b => a == b
  | .binary a, .binary b => a == b
  | _, _ => false

def beqElements : List IDBKey → List IDBKey → Bool
  | [], [] => true
  | a :: as, b :: bs => beq a b && beqElements as bs
  | _, _ => false

end

instance : BEq IDBKey := ⟨beq⟩

def typeRank : IDBKey → Nat
  | .array _ => 5
  | .string _ => 4
  | .date _ => 3
  | .number _ => 2
  | .binary _ => 1

/-- The order of two floats with NaN below every number. -/
def cmpFloat (a b : Float) : Ordering :=
  if a.isNaN && b.isNaN then .eq
  else if a.isNaN then .lt
  else if b.isNaN then .gt
  else if a < b then .lt
  else if b < a then .gt
  else .eq

mutual

def cmp : IDBKey → IDBKey → Ordering
  | .array a, .array b => cmpElements a b
  | .string a, .string b => compare a b
  | .date a, .date b => cmpFloat a b
  | .number a, .number b => cmpFloat a b
  | .binary a, .binary b => compare a b
  | a, b => compare a.typeRank b.typeRank

/-- The elements in common one after the other, then the lengths. -/
def cmpElements : List IDBKey → List IDBKey → Ordering
  | [], [] => .eq
  | [], _ :: _ => .lt
  | _ :: _, [] => .gt
  | a :: as, b :: bs =>
    match cmp a b with
    | .eq => cmpElements as bs
    | order => order

end

mutual

def validateKeyBudget : IDBKey → Nat → Except String Nat
  | key, depth =>
    if depth > 32 then .error "IndexedDB key nesting budget exceeded"
    else
      let bytes : Except String Nat := match key with
        | .array values =>
          if values.length > 1024 then .error "IndexedDB array key element budget exceeded"
          else validateElements values depth 0
        | .string value => .ok value.utf8ByteSize
        | .binary bytes => .ok bytes.length
        | .date _ => .ok 8
        | .number _ => .ok 8
      match bytes with
      | .error error => .error error
      | .ok bytes =>
        if bytes > maxKeyBytes then .error "IndexedDB key byte budget exceeded" else .ok bytes

/-- The loop over the elements of an array key, which stops beyond the limit. -/
def validateElements : List IDBKey → Nat → Nat → Except String Nat
  | [], _, bytes => .ok bytes
  | value :: values, depth, bytes =>
    match validateKeyBudget value (depth + 1) with
    | .error error => .error error
    | .ok more =>
      if bytes + more > maxKeyBytes then .ok (bytes + more)
      else validateElements values depth (bytes + more)

end

end IDBKey

mutual

def jsonValueToKey : JsonValue → Except String IDBKey
  | .number asF64 =>
    match asF64.filter Float.isFinite with
    | some number => .ok (.number number)
    | none => .error "Invalid number key"
  | .string value =>
    if value.utf8ByteSize ≤ 64 * 1024 then .ok (.string value)
    else .error "Unsupported IndexedDB key value"
  | .array values =>
    if values.length ≤ 1024 then
      match jsonValuesToKeys values with
      | .ok keys => .ok (.array keys)
      | .error error => .error error
    else .error "Unsupported IndexedDB key value"
  | _ => .error "Unsupported IndexedDB key value"

def jsonValuesToKeys : List JsonValue → Except String (List IDBKey)
  | [] => .ok []
  | value :: values =>
    match jsonValueToKey value with
    | .error error => .error error
    | .ok key =>
      match jsonValuesToKeys values with
      | .error error => .error error
      | .ok keys => .ok (key :: keys)

end

/-! ## Object stores -/

structure IDBIndexConfig where
  name : String
  keyPath : String
  unique : Bool
  multiEntry : Bool

structure IDBRecord where
  key : IDBKey
  value : String

structure IDBObjectStore where
  name : String
  keyPath : Option String
  autoIncrement : Bool
  autoIncrementCounter : Nat
  records : List IDBRecord
  indexes : Std.ExtTreeMap String IDBIndexConfig compare

section

variable [JsonReader]

/-- The loop of `extract_key_from_json` along the parts of a key path. -/
def followPath (keyPath : String) : JsonValue → List String → Except String JsonValue
  | current, [] => .ok current
  | current, part :: parts =>
    match current.get part with
    | none => .error ("Key path '" ++ keyPath ++ "' not found in JSON")
    | some next => followPath keyPath next parts

def extractKeyFromJson (json keyPath : String) : Except String IDBKey :=
  match JsonReader.fromStr json with
  | .error error => .error ("Invalid JSON: " ++ error)
  | .ok parsed =>
    match followPath keyPath parsed (keyPath.splitOn ".") with
    | .error error => .error error
    | .ok current =>
      match jsonValueToKey current with
      | .error _ => .error ("Unsupported key type at '" ++ keyPath ++ "'")
      | .ok key => .ok key

def extractKeysFromJson (json : String) (config : IDBIndexConfig) : Except String (List IDBKey) :=
  match extractKeyFromJson json config.keyPath with
  | .error error => .error error
  | .ok key =>
    if config.multiEntry then
      match key with
      | .array values => .ok values
      | value => .ok [value]
    else .ok [key]

namespace IDBObjectStore

def new (name : String) (keyPath : Option String) (autoIncrement : Bool) : IDBObjectStore where
  name := name
  keyPath := keyPath
  autoIncrement := autoIncrement
  autoIncrementCounter := 1
  records := []
  indexes := ∅

def get (store : IDBObjectStore) (key : IDBKey) : Option IDBRecord :=
  store.records.find? fun record => record.key == key

/-- The loop of `validate_indexes` over the records, for one index. -/
def validateRecords (config : IDBIndexConfig) (primaryKey : IDBKey) (proposed : List IDBKey) :
    List IDBRecord → Except String Unit
  | [] => .ok ()
  | record :: records =>
    if record.key == primaryKey then validateRecords config primaryKey proposed records
    else
      match extractKeysFromJson record.value config with
      | .error error => .error error
      | .ok existing =>
        if proposed.any fun key => existing.any fun other => other == key then
          .error ("ConstraintError: unique index '" ++ config.name ++ "' already contains this key")
        else validateRecords config primaryKey proposed records

/-- The loop of `validate_indexes` over the unique indexes. -/
def validateConfigs (records : List IDBRecord) (primaryKey : IDBKey) (value : String) :
    List IDBIndexConfig → Except String Unit
  | [] => .ok ()
  | config :: configs =>
    match extractKeysFromJson value config with
    | .error error => .error error
    | .ok proposed =>
      match validateRecords config primaryKey proposed records with
      | .error error => .error error
      | .ok () => validateConfigs records primaryKey value configs

def validateIndexes (store : IDBObjectStore) (primaryKey : IDBKey) (value : String) :
    Except String Unit :=
  validateConfigs store.records primaryKey value
    ((store.indexes.toList.map Prod.snd).filter IDBIndexConfig.unique)

/-- Replace the value of the first record with a key, or add a record and sort. -/
def insertRecord (records : List IDBRecord) (key : IDBKey) (value : String) : List IDBRecord :=
  match records.findIdx? fun record => record.key == key with
  | some position => records.modify position fun record => { record with value := value }
  | none =>
    (records ++ [IDBRecord.mk key value]).mergeSort fun a b => !(IDBKey.cmp a.key b.key).isGT

/-- The part of `put` after the key is known. -/
def putAt (store : IDBObjectStore) (key : IDBKey) (value : String) :
    Except String IDBKey × IDBObjectStore :=
  match key.validateKeyBudget 0 with
  | .error error => (.error error, store)
  | .ok _ =>
    let previousBytes := ((store.get key).map fun record => record.value.utf8ByteSize).getD 0
    let retainedBytes := (store.records.map fun record => record.value.utf8ByteSize).sum
    if retainedBytes - previousBytes + value.utf8ByteSize > maxObjectStoreValueBytes then
      (.error "Object store value-byte budget exceeded", store)
    else if previousBytes = 0 ∧ store.records.length ≥ maxRecordsPerOrigin then
      (.error "Object store record budget exceeded", store)
    else
      match store.validateIndexes key value with
      | .error error => (.error error, store)
      | .ok () => (.ok key, { store with records := insertRecord store.records key value })

/-- `put`; a key is generated before the checks, also when one of them fails. -/
def put (store : IDBObjectStore) (key : Option IDBKey) (value : String) :
    Except String IDBKey × IDBObjectStore :=
  if value.utf8ByteSize > maxRecordValueBytes then
    (.error "Record value exceeds 2 MB budget", store)
  else
    match key with
    | some key => store.putAt key value
    | none =>
      if store.autoIncrement then
        putAt { store with autoIncrementCounter := store.autoIncrementCounter + 1 }
          (.number store.autoIncrementCounter.toUInt64.toFloat) value
      else (.error "Key required when autoIncrement is false", store)

def add (store : IDBObjectStore) (key : Option IDBKey) (value : String) :
    Except String IDBKey × IDBObjectStore :=
  let actualKey : Except String IDBKey := match key with
    | some key => .ok key
    | none =>
      if store.autoIncrement then .ok (.number store.autoIncrementCounter.toUInt64.toFloat)
      else .error "Key required when autoIncrement is false"
  match actualKey with
  | .error error => (.error error, store)
  | .ok actualKey =>
    if (store.get actualKey).isSome then (.error "Key already exists in object store", store)
    else store.put key value

def delete (store : IDBObjectStore) (key : IDBKey) : IDBObjectStore :=
  { store with records := store.records.eraseP fun record => record.key == key }

def clear (store : IDBObjectStore) : IDBObjectStore := { store with records := [] }

/-- The loop of `create_index` over the keys of one record; `seen` is the set so far. -/
def seeKeys (seen : List IDBKey) : List IDBKey → Except String (List IDBKey)
  | [] => .ok seen
  | key :: keys =>
    if seen.any fun other => IDBKey.cmp other key == .eq then
      .error "ConstraintError: unique index contains duplicate keys"
    else seeKeys (key :: seen) keys

/-- The loop of `create_index` over the records. -/
def seeRecords (config : IDBIndexConfig) (seen : List IDBKey) : List IDBRecord → Except String Unit
  | [] => .ok ()
  | record :: records =>
    match extractKeysFromJson record.value config with
    | .error error => .error error
    | .ok keys =>
      match seeKeys seen keys with
      | .error error => .error error
      | .ok seen => seeRecords config seen records

def createIndex (store : IDBObjectStore) (config : IDBIndexConfig) :
    Except String Unit × IDBObjectStore :=
  if config.name = "" ∨ config.name.utf8ByteSize > 256 ∨ config.keyPath = "" then
    (.error "Index name and key path are required", store)
  else if store.indexes.size ≥ maxIndexesPerStore ∧ ¬ store.indexes.contains config.name then
    (.error "Max indexes per object store exceeded", store)
  else if store.indexes.contains config.name then
    (.error ("Index '" ++ config.name ++ "' already exists"), store)
  else
    match if config.unique then seeRecords config [] store.records else .ok () with
    | .error error => (.error error, store)
    | .ok () => (.ok (), { store with indexes := store.indexes.insert config.name config })

def deleteIndex (store : IDBObjectStore) (name : String) : IDBObjectStore :=
  { store with indexes := store.indexes.erase name }

end IDBObjectStore

/-! ## Databases -/

abbrev ObjectStores := Std.ExtTreeMap String IDBObjectStore compare

structure IDBDatabase where
  name : String
  version : Nat
  objectStores : ObjectStores
  mutationEpoch : UInt64

namespace IDBDatabase

def new (name : String) (version : Nat) : IDBDatabase where
  name := name
  version := version
  objectStores := ∅
  mutationEpoch := 0

def createObjectStore (db : IDBDatabase) (name : String) (keyPath : Option String)
    (autoIncrement : Bool) : Except String Unit × IDBDatabase :=
  if db.objectStores.size ≥ maxStoresPerDb then
    (.error "Max object stores per DB exceeded", db)
  else if db.objectStores.contains name then
    (.error ("ObjectStore '" ++ name ++ "' already exists"), db)
  else
    (.ok (),
      { db with
        objectStores := db.objectStores.insert name (.new name keyPath autoIncrement)
        mutationEpoch := db.mutationEpoch + 1 })

def deleteObjectStore (db : IDBDatabase) (name : String) : Bool × IDBDatabase :=
  if db.objectStores.contains name then
    (true,
      { db with
        objectStores := db.objectStores.erase name
        mutationEpoch := db.mutationEpoch + 1 })
  else (false, db)

end IDBDatabase

/-- A write to one object store, through `object_stores.get_mut`. -/
inductive StoreWrite where
  | put (key : Option IDBKey) (value : String)
  | add (key : Option IDBKey) (value : String)
  | delete (key : IDBKey)
  | clear
  | createIndex (config : IDBIndexConfig)
  | deleteIndex (name : String)

/-- The store after a write, also when the write fails. -/
def StoreWrite.apply (store : IDBObjectStore) : StoreWrite → IDBObjectStore
  | .put key value => (store.put key value).2
  | .add key value => (store.add key value).2
  | .delete key => store.delete key
  | .clear => store.clear
  | .createIndex config => (store.createIndex config).2
  | .deleteIndex name => store.deleteIndex name

def IDBDatabase.write (db : IDBDatabase) (store : String) (write : StoreWrite) : IDBDatabase :=
  { db with objectStores := db.objectStores.modify store write.apply }

/-! ## The engine -/

inductive IDBTransactionMode where
  | readOnly
  | readWrite
  | versionChange
deriving DecidableEq

structure IDBTransaction where
  id : Nat
  mode : IDBTransactionMode
  scope : List String
  dbName : String
  rollbackSnapshot : Option IDBDatabase
  epochAtOpen : UInt64
  aborted : Bool
  committed : Bool

abbrev Databases := Std.ExtTreeMap String IDBDatabase compare

structure IndexedDBEngine where
  databases : Databases
  nextTxId : Nat

namespace IndexedDBEngine

/-- The version an open is for, and whether the database is new or upgraded. -/
def targetVersion (current : Option IDBDatabase) (version : Option Nat) : Nat × Bool :=
  match current with
  | some db =>
    match version with
    | some requested => if requested > db.version then (requested, true) else (db.version, false)
    | none => (db.version, false)
  | none => (version.getD 1, true)

/-- The database an open leaves behind. -/
def openedDatabase (name : String) (current : Option IDBDatabase) (version : Option Nat) : IDBDatabase :=
  let (target, isNewOrUpgrade) := targetVersion current version
  let db := current.getD (.new name target)
  if isNewOrUpgrade ∧ db.version ≠ target then
    { db with version := target, mutationEpoch := db.mutationEpoch + 1 }
  else db

def openDb (engine : IndexedDBEngine) (name : String) (version : Option Nat) :
    Except String IDBTransaction × IndexedDBEngine :=
  if engine.databases.size ≥ maxDbsPerOrigin ∧ ¬ engine.databases.contains name then
    (.error "Max databases per origin budget exceeded", engine)
  else
    let current := engine.databases[name]?
    if current.any fun db => version.any fun requested => requested < db.version then
      (.error "VersionRequestedBelowCurrent", engine)
    else
      let db := openedDatabase name current version
      (.ok
        { id := engine.nextTxId
          mode := if (targetVersion current version).2 then .versionChange else .readOnly
          scope := db.objectStores.toList.map Prod.fst
          dbName := name
          rollbackSnapshot := some db
          epochAtOpen := db.mutationEpoch
          aborted := false
          committed := false },
        { databases := engine.databases.insert name db
          nextTxId := engine.nextTxId + 1 })

def restoreSnapshotIfSafe (engine : IndexedDBEngine) (tx : IDBTransaction) : IndexedDBEngine :=
  match tx.rollbackSnapshot with
  | none => engine
  | some snapshot =>
    if engine.databases[tx.dbName]?.any fun db => db.mutationEpoch == tx.epochAtOpen then
      { engine with databases := engine.databases.insert tx.dbName snapshot }
    else engine

def totalRecords (engine : IndexedDBEngine) : Nat :=
  OrdMap.total (fun _ db => OrdMap.total (fun _ store => store.records.length) db.objectStores)
    engine.databases

def retainedBytes (engine : IndexedDBEngine) : Nat :=
  OrdMap.total
    (fun _ db => OrdMap.total
      (fun _ store => (store.records.map fun record => record.value.utf8ByteSize).sum) db.objectStores)
    engine.databases

def commitTransaction (engine : IndexedDBEngine) (tx : IDBTransaction) :
    Except String Unit × IndexedDBEngine :=
  if tx.aborted then (.error "Transaction was aborted", engine)
  else if engine.totalRecords > maxRecordsPerOrigin ∨ engine.retainedBytes > maxOriginValueBytes then
    (.error "IndexedDB origin storage budget exceeded", engine.restoreSnapshotIfSafe tx)
  else (.ok (), engine)

def abortTransaction (engine : IndexedDBEngine) (tx : IDBTransaction) :
    Except String Unit × IndexedDBEngine :=
  if tx.committed then (.error "Transaction was already committed", engine)
  else (.ok (), engine.restoreSnapshotIfSafe tx)

/-- A write to the database of a transaction. -/
def write (engine : IndexedDBEngine) (name store : String) (write : StoreWrite) : IndexedDBEngine :=
  { engine with databases := engine.databases.modify name fun db => db.write store write }

end IndexedDBEngine

end

end GhitaBrowser.Storage
