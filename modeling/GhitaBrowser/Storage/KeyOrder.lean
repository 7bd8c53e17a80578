import GhitaBrowser.Lib.FloatOrder
import GhitaBrowser.Lib.History
import GhitaBrowser.Storage.IndexedDb

/-!
# The order of IndexedDB keys

The comparison of keys is a total order, with NaN below the numbers and equal to itself. The
derived `==` says that NaN differs from itself, so two records can be kept under one NaN key;
an object store whose keys are free of NaN is strictly sorted (`records_sorted`).
-/

namespace GhitaBrowser.Storage

open FloatOrder Std List

/-! ## Numbers and dates -/

theorem place_above_nan {f : Float.Model.UnpackedFloat} (h : f.isNaN = false) :
    cmpPlaces (-3, 0, 0) (place f) = .lt := by
  cases f with
  | notANumber => cases h
  | infinity s => cases s <;> rfl
  | zero s => rfl
  | finite s => cases s <;> rfl

theorem floatPlace_nan {a : Float} (h : a.isNaN = true) : floatPlace a = (-3, 0, 0) := by
  have unpacked : a.toModel.unpack.isNaN = true := h
  unfold floatPlace
  cases shape : a.toModel.unpack with
  | notANumber => rfl
  | infinity s => rw [shape] at unpacked; cases unpacked
  | zero s => rw [shape] at unpacked; cases unpacked
  | finite s => rw [shape] at unpacked; cases unpacked

namespace IDBKey

theorem cmpFloat_eq (a b : Float) : cmpFloat a b = cmpPlaces (floatPlace a) (floatPlace b) := by
  unfold cmpFloat
  cases aNaN : a.isNaN with
  | true =>
    cases bNaN : b.isNaN with
    | true => rw [floatPlace_nan aNaN, floatPlace_nan bNaN]; rfl
    | false =>
      rw [floatPlace_nan aNaN]
      exact (place_above_nan (f := b.toModel.unpack) bNaN).symm
  | false =>
    cases bNaN : b.isNaN with
    | true =>
      rw [floatPlace_nan bNaN]
      exact (OrientedCmp.gt_of_lt (place_above_nan (f := a.toModel.unpack) aNaN)).symm
    | false =>
      have less : a < b ↔ cmpPlaces (floatPlace a) (floatPlace b) = .lt := by
        rw [lt_iff]
        exact ⟨fun h => h.2.2, fun h => ⟨aNaN, bNaN, h⟩⟩
      have greater : b < a ↔ cmpPlaces (floatPlace a) (floatPlace b) = .gt := by
        rw [lt_iff, ← OrientedCmp.gt_iff_lt]
        exact ⟨fun h => h.2.2, fun h => ⟨bNaN, aNaN, h⟩⟩
      simp only [less, greater, Bool.false_and, Bool.false_eq_true, if_false]
      cases cmpPlaces (floatPlace a) (floatPlace b) <;> rfl

/-! ## The comparison -/

/-- How a comparison with a first key composes with later ones. -/
def Composes (cmp : α → α → Ordering) (a : α) : Prop :=
  ∀ b c, (cmp a b = .eq → cmp a c = cmp b c) ∧ (cmp a b = .lt → cmp b c ≠ .gt → cmp a c = .lt)

theorem composes_of_transCmp (cmp : α → α → Ordering) [TransCmp cmp] (a : α) : Composes cmp a := by
  intro b c
  refine ⟨TransCmp.congr_left, fun less notGreater => ?_⟩
  exact TransCmp.lt_of_lt_of_isLE less (Ordering.isLE_iff_ne_gt.mpr notGreater)

theorem composes_cmpFloat (a : Float) : Composes cmpFloat a := by
  intro b c
  simp only [cmpFloat_eq]
  exact composes_of_transCmp cmpPlaces (floatPlace a) (floatPlace b) (floatPlace c)

theorem cmp_of_typeRank {a b : IDBKey} (h : a.typeRank ≠ b.typeRank) :
    cmp a b = compare a.typeRank b.typeRank := by
  cases a <;> cases b <;> first | rfl | exact absurd rfl h

theorem composes_of_sameType {a : IDBKey}
    (same : ∀ b c : IDBKey, b.typeRank = a.typeRank → c.typeRank = a.typeRank →
      (cmp a b = .eq → cmp a c = cmp b c) ∧ (cmp a b = .lt → cmp b c ≠ .gt → cmp a c = .lt)) :
    Composes cmp a := by
  intro b c
  by_cases hb : b.typeRank = a.typeRank
  · by_cases hc : c.typeRank = a.typeRank
    · exact same b c hb hc
    · have alike : cmp a c = cmp b c := by
        rw [cmp_of_typeRank (Ne.symm hc), cmp_of_typeRank (hb ▸ Ne.symm hc), hb]
      refine ⟨fun _ => alike, fun _ notGreater => ?_⟩
      rw [← alike, cmp_of_typeRank (Ne.symm hc), Nat.compare_ne_gt] at notGreater
      rw [cmp_of_typeRank (Ne.symm hc), Nat.compare_eq_lt]
      exact Nat.lt_of_le_of_ne notGreater (Ne.symm hc)
  · rw [cmp_of_typeRank (Ne.symm hb)]
    refine ⟨fun equal => absurd (Nat.compare_eq_eq.mp equal).symm hb, fun less notGreater => ?_⟩
    rw [Nat.compare_eq_lt] at less
    have below : b.typeRank ≤ c.typeRank := by
      by_cases hc : b.typeRank = c.typeRank
      · exact Nat.le_of_eq hc
      · rwa [cmp_of_typeRank hc, Nat.compare_ne_gt] at notGreater
    have apart := Nat.lt_of_lt_of_le less below
    rw [cmp_of_typeRank (Nat.ne_of_lt apart), Nat.compare_eq_lt]
    exact apart

mutual

theorem cmp_composes : ∀ a : IDBKey, Composes cmp a
  | .array as => composes_of_sameType fun b c hb hc => by
    obtain ⟨bs, rfl⟩ : ∃ bs, b = .array bs := by cases b <;> simp_all [typeRank]
    obtain ⟨cs, rfl⟩ : ∃ cs, c = .array cs := by cases c <;> simp_all [typeRank]
    simpa only [cmp] using cmpElements_composes as bs cs
  | .string x => composes_of_sameType fun b c hb hc => by
    obtain ⟨y, rfl⟩ : ∃ y, b = .string y := by cases b <;> simp_all [typeRank]
    obtain ⟨z, rfl⟩ : ∃ z, c = .string z := by cases c <;> simp_all [typeRank]
    simpa only [cmp] using composes_of_transCmp compare x y z
  | .date x => composes_of_sameType fun b c hb hc => by
    obtain ⟨y, rfl⟩ : ∃ y, b = .date y := by cases b <;> simp_all [typeRank]
    obtain ⟨z, rfl⟩ : ∃ z, c = .date z := by cases c <;> simp_all [typeRank]
    simpa only [cmp] using composes_cmpFloat x y z
  | .number x => composes_of_sameType fun b c hb hc => by
    obtain ⟨y, rfl⟩ : ∃ y, b = .number y := by cases b <;> simp_all [typeRank]
    obtain ⟨z, rfl⟩ : ∃ z, c = .number z := by cases c <;> simp_all [typeRank]
    simpa only [cmp] using composes_cmpFloat x y z
  | .binary x => composes_of_sameType fun b c hb hc => by
    obtain ⟨y, rfl⟩ : ∃ y, b = .binary y := by cases b <;> simp_all [typeRank]
    obtain ⟨z, rfl⟩ : ∃ z, c = .binary z := by cases c <;> simp_all [typeRank]
    simpa only [cmp] using composes_of_transCmp compare x y z

theorem cmpElements_composes : ∀ as : List IDBKey, Composes cmpElements as
  | [] => by
    intro bs cs
    cases bs <;> cases cs <;> simp [cmpElements]
  | a :: as => by
    intro bs cs
    cases bs with
    | nil => cases cs <;> simp [cmpElements]
    | cons b bs =>
      cases cs with
      | nil => simp [cmpElements]
      | cons c cs =>
        obtain ⟨firstEq, firstLt⟩ := cmp_composes a b c
        obtain ⟨restEq, restLt⟩ := cmpElements_composes as bs cs
        simp only [cmpElements]
        cases hab : cmp a b with
        | eq =>
          rw [firstEq hab]
          dsimp only
          refine ⟨fun equal => ?_, fun less notGreater => ?_⟩
          · rw [restEq equal]
          · cases hbc : cmp b c with
            | eq =>
              rw [hbc] at notGreater
              exact restLt less notGreater
            | lt => rfl
            | gt =>
              rw [hbc] at notGreater
              exact absurd rfl notGreater
        | lt =>
          refine ⟨nofun, fun _ notGreater => ?_⟩
          rw [firstLt hab]
          intro greater
          rw [greater] at notGreater
          exact notGreater rfl
        | gt => exact ⟨nofun, nofun⟩

end

mutual

theorem cmp_swap : ∀ a b : IDBKey, cmp b a = (cmp a b).swap
  | .array as, b => by
    cases b with
    | array bs => simpa only [cmp] using cmpElements_swap as bs
    | _ => rfl
  | .string x, b => by
    cases b with
    | string y => simpa only [cmp] using OrientedCmp.eq_swap
    | _ => rfl
  | .date x, b => by
    cases b with
    | date y => simpa only [cmp, cmpFloat_eq] using OrientedCmp.eq_swap
    | _ => rfl
  | .number x, b => by
    cases b with
    | number y => simpa only [cmp, cmpFloat_eq] using OrientedCmp.eq_swap
    | _ => rfl
  | .binary x, b => by
    cases b with
    | binary y => simpa only [cmp] using OrientedCmp.eq_swap
    | _ => rfl

theorem cmpElements_swap : ∀ as bs : List IDBKey, cmpElements bs as = (cmpElements as bs).swap
  | [], bs => by cases bs <;> rfl
  | a :: as, bs => by
    cases bs with
    | nil => rfl
    | cons b bs =>
      simp only [cmpElements]
      rw [cmp_swap a b]
      cases cmp a b with
      | eq => exact cmpElements_swap as bs
      | lt => rfl
      | gt => rfl

end

instance : TransCmp cmp where
  eq_swap {a b} := cmp_swap b a
  isLE_trans {a b c} ab bc := by
    rw [Ordering.isLE_iff_ne_gt] at ab bc ⊢
    cases hab : cmp a b with
    | eq => rwa [(cmp_composes a b c).1 hab]
    | lt =>
      rw [(cmp_composes a b c).2 hab bc]
      exact Ordering.noConfusion
    | gt => exact absurd hab ab

/-! ## The comparison and `==` -/

mutual

/-- No number or date in the key is NaN. -/
def nanFree : IDBKey → Bool
  | .array values => elementsNanFree values
  | .string _ => true
  | .date value => !value.isNaN
  | .number value => !value.isNaN
  | .binary _ => true

def elementsNanFree : List IDBKey → Bool
  | [] => true
  | value :: values => nanFree value && elementsNanFree values

end

/-- The comparison and `==` agree on when another key is the same. -/
def Consistent (key : IDBKey) : Prop := ∀ other, cmp key other = .eq ↔ (key == other) = true

theorem cmpFloat_eq_iff {a : Float} (h : a.isNaN = false) (b : Float) :
    cmpFloat a b = .eq ↔ (a == b) = true := by
  rw [cmpFloat_eq, FloatOrder.beq_iff]
  refine ⟨fun equal => ⟨h, ?_, equal⟩, fun same => same.2.2⟩
  by_contra bNaN
  have above : cmpPlaces (floatPlace a) (-3, 0, 0) = .gt :=
    OrientedCmp.gt_of_lt (place_above_nan (f := a.toModel.unpack) h)
  rw [floatPlace_nan (eq_true_of_ne_false bNaN), above] at equal
  cases equal

mutual

theorem consistent_of_nanFree : ∀ key : IDBKey, key.nanFree = true → key.Consistent
  | .array as, h => fun other => by
    cases other with
    | array bs => exact elements_of_nanFree as h bs
    | _ => exact ⟨nofun, nofun⟩
  | .string x, _ => fun other => by
    cases other with
    | string y =>
      show compare x y = .eq ↔ (x == y) = true
      rw [LawfulEqCmp.compare_eq_iff_eq, beq_iff_eq]
    | _ => exact ⟨nofun, nofun⟩
  | .date x, h => fun other => by
    cases other with
    | date y => exact cmpFloat_eq_iff (by simpa [nanFree] using h) y
    | _ => exact ⟨nofun, nofun⟩
  | .number x, h => fun other => by
    cases other with
    | number y => exact cmpFloat_eq_iff (by simpa [nanFree] using h) y
    | _ => exact ⟨nofun, nofun⟩
  | .binary x, _ => fun other => by
    cases other with
    | binary y =>
      show compare x y = .eq ↔ (x == y) = true
      rw [LawfulEqCmp.compare_eq_iff_eq, beq_iff_eq]
    | _ => exact ⟨nofun, nofun⟩

theorem elements_of_nanFree : ∀ as : List IDBKey, elementsNanFree as = true →
    ∀ bs, cmpElements as bs = .eq ↔ beqElements as bs = true
  | [], _, bs => by cases bs <;> simp [cmpElements, beqElements]
  | a :: as, h, bs => by
    obtain ⟨first, rest⟩ := (Bool.and_eq_true _ _).mp h
    cases bs with
    | nil => simp [cmpElements, beqElements]
    | cons b bs =>
      have here : cmp a b = .eq ↔ beq a b = true := consistent_of_nanFree a first b
      simp only [cmpElements, beqElements, Bool.and_eq_true, ← here]
      cases cmp a b with
      | eq => simpa using elements_of_nanFree as rest bs
      | lt => exact ⟨nofun, fun both => nomatch both.1⟩
      | gt => exact ⟨nofun, fun both => nomatch both.1⟩

end

mutual

theorem nanFree_of_beq_self : ∀ key : IDBKey, beq key key = true → key.nanFree = true
  | .array as, h => elementsNanFree_of_beq_self as h
  | .string _, _ => rfl
  | .date x, h => by
    show (!x.isNaN) = true
    rw [((FloatOrder.beq_iff x x).mp h).1]
    rfl
  | .number x, h => by
    show (!x.isNaN) = true
    rw [((FloatOrder.beq_iff x x).mp h).1]
    rfl
  | .binary _, _ => rfl

theorem elementsNanFree_of_beq_self : ∀ as : List IDBKey, beqElements as as = true →
    elementsNanFree as = true
  | [], _ => rfl
  | a :: as, h => by
    obtain ⟨first, rest⟩ := (Bool.and_eq_true _ _).mp h
    exact (Bool.and_eq_true _ _).mpr
      ⟨nanFree_of_beq_self a first, elementsNanFree_of_beq_self as rest⟩

end

/-- The comparison is a total order; it agrees with `==` on exactly the keys without NaN. -/
theorem consistent_iff (key : IDBKey) : key.Consistent ↔ key.nanFree = true := by
  constructor
  · intro consistent
    exact nanFree_of_beq_self key ((consistent key).mp ReflCmp.compare_self)
  · exact consistent_of_nanFree key

end IDBKey

/-! ## The records of a store -/

variable {records : List IDBRecord}

/-- A key that `==` does not find becomes one more record. -/
theorem insertRecord_perm {key : IDBKey}
    (new : ∀ record ∈ records, (record.key == key) = false) (value : String) :
    (IDBObjectStore.insertRecord records key value).Perm (records ++ [⟨key, value⟩]) := by
  have absent : (records.findIdx? fun record => record.key == key) = none :=
    findIdx?_eq_none_iff.mpr new
  unfold IDBObjectStore.insertRecord
  rw [absent]
  exact mergeSort_perm _ _

/-- The records stand in the order of their keys, no two with the same key. -/
structure Ordered (records : List IDBRecord) : Prop where
  sorted : records.Pairwise fun a b => IDBKey.cmp a.key b.key = .lt
  distinct : records.Pairwise fun a b => (a.key == b.key) = false

/-- What an object store keeps as long as no key has a NaN. -/
structure Records (records : List IDBRecord) : Prop where
  sorted : records.Pairwise fun a b => IDBKey.cmp a.key b.key = .lt
  nanFree : ∀ record ∈ records, record.key.nanFree = true

theorem Records.ordered (kept : Records records) : Ordered records where
  sorted := kept.sorted
  distinct := by
    refine kept.sorted.imp_of_mem fun {a b} inRecords _ less => ?_
    rw [← Bool.not_eq_true]
    intro same
    have equal := (IDBKey.consistent_of_nanFree a.key (kept.nanFree a inRecords) b.key).mpr same
    rw [less] at equal
    cases equal

theorem Records.sublist {fewer : List IDBRecord} (kept : Records records)
    (sub : fewer.Sublist records) : Records fewer where
  sorted := kept.sorted.sublist sub
  nanFree record member := kept.nanFree record (sub.subset member)

theorem records_modify (kept : Records records) (position : Nat) (value : String) :
    Records (records.modify position fun record => { record with value := value }) := by
  have keys : (records.modify position fun record => { record with value := value }).map
      IDBRecord.key = records.map IDBRecord.key := by
    refine ext_getElem? fun i => ?_
    rw [List.getElem?_map, List.getElem?_map, List.getElem?_modify]
    cases records[i]? with
    | none => rfl
    | some record => by_cases here : position = i <;> simp [here]
  have sorted : ((records.map IDBRecord.key).Pairwise fun a b => IDBKey.cmp a b = .lt) :=
    pairwise_map.mpr kept.sorted
  have free : ∀ key ∈ records.map IDBRecord.key, key.nanFree = true := by
    intro key member
    obtain ⟨record, inRecords, rfl⟩ := mem_map.mp member
    exact kept.nanFree record inRecords
  rw [← keys] at sorted free
  exact ⟨pairwise_map.mp sorted, fun record member => free _ (mem_map_of_mem member)⟩

theorem records_insertRecord (kept : Records records) {key : IDBKey}
    (free : key.nanFree = true) (value : String) : Records (IDBObjectStore.insertRecord records key value) := by
  unfold IDBObjectStore.insertRecord
  cases found : records.findIdx? fun record => record.key == key with
  | some position => exact records_modify kept position value
  | none =>
    dsimp only
    have new : ∀ record ∈ records, IDBKey.cmp record.key key ≠ .eq := by
      intro record member equal
      have same := (IDBKey.consistent_of_nanFree _ (kept.nanFree record member) key).mp equal
      have differs := findIdx?_eq_none_iff.mp found record member
      rw [same] at differs
      cases differs
    have apart : (records ++ [IDBRecord.mk key value]).Pairwise fun a b =>
        IDBKey.cmp a.key b.key ≠ .eq := by
      refine pairwise_append.mpr ⟨kept.sorted.imp fun less equal => ?_,
        pairwise_singleton _ _, fun record member last isLast => ?_⟩
      · rw [less] at equal
        cases equal
      · rw [mem_singleton.mp isLast]
        exact new record member
    have perm := mergeSort_perm (records ++ [IDBRecord.mk key value]) fun a b =>
      !(IDBKey.cmp a.key b.key).isGT
    constructor
    · have ordered := @pairwise_mergeSort _
        (fun a b : IDBRecord => !(IDBKey.cmp a.key b.key).isGT) ?_ ?_
        (records ++ [IDBRecord.mk key value])
      · have differ := (perm.pairwise_iff fun {a b} h equal => h (OrientedCmp.eq_comm.mp equal)).mpr apart
        refine (ordered.and differ).imp fun {a b} both => ?_
        cases order : IDBKey.cmp a.key b.key with
        | lt => rfl
        | eq => exact absurd order both.2
        | gt => rw [order] at both; exact absurd both.1 (by decide)
      · intro a b c ab bc
        rw [Ordering.not_isGT_eq_isLE] at ab bc ⊢
        exact TransCmp.isLE_trans ab bc
      · intro a b
        rw [IDBKey.cmp_swap a.key b.key]
        cases IDBKey.cmp a.key b.key <;> rfl
    · intro record member
      rcases mem_append.mp (perm.mem_iff.mp member) with old | isNew
      · exact kept.nanFree record old
      · rw [mem_singleton.mp isNew]
        exact free

/-! ## The writes to a store -/

/-- The key that is generated at a value of the counter. -/
def generatedKey (counter : Nat) : IDBKey := .number counter.toUInt64.toFloat

/-- The key of a record that is put. -/
def IDBObjectStore.keyFor (store : IDBObjectStore) (key : Option IDBKey) : IDBKey :=
  key.getD (generatedKey store.autoIncrementCounter)

/-- No key given to the write has a NaN. -/
def StoreWrite.NanFree : StoreWrite → Prop
  | .put key _ => ∀ given ∈ key, given.nanFree = true
  | .add key _ => ∀ given ∈ key, given.nanFree = true
  | _ => True

instance : DecidablePred StoreWrite.NanFree
  | .put key _ => inferInstanceAs (Decidable (∀ given ∈ key, given.nanFree = true))
  | .add key _ => inferInstanceAs (Decidable (∀ given ∈ key, given.nanFree = true))
  | .delete _ => inferInstanceAs (Decidable True)
  | .clear => inferInstanceAs (Decidable True)
  | .createIndex _ => inferInstanceAs (Decidable True)
  | .deleteIndex _ => inferInstanceAs (Decidable True)

def StoreWrite.usedKey (store : IDBObjectStore) : StoreWrite → Option IDBKey
  | .put key _ | .add key _ => some (store.keyFor key)
  | _ => none

theorem nanFree_usedKey {store : IDBObjectStore} {write : StoreWrite} (free : write.NanFree) :
    ∀ key ∈ write.usedKey store, key.nanFree = true := by
  have generated : (generatedKey store.autoIncrementCounter).nanFree = true := by
    rw [generatedKey, IDBKey.nanFree, isNaN_toFloat]
    rfl
  rintro key used
  rcases write with ⟨_ | given, _⟩ | ⟨_ | given, _⟩ | _ | _ | _ | _ <;> cases used
  · exact generated
  · exact free given rfl
  · exact generated
  · exact free given rfl

section

variable [JsonReader]

namespace IDBObjectStore

variable (store : IDBObjectStore)

theorem putAt_cases (key : IDBKey) (value : String) :
    (∃ error, store.putAt key value = (.error error, store)) ∨
      store.putAt key value =
        (.ok key, { store with records := insertRecord store.records key value }) := by
  unfold putAt
  split
  · exact .inl ⟨_, rfl⟩
  · dsimp only
    split
    · exact .inl ⟨_, rfl⟩
    · split
      · exact .inl ⟨_, rfl⟩
      · split
        · exact .inl ⟨_, rfl⟩
        · exact .inr rfl

/-- A write within the budgets of a store without indexes. -/
theorem put_unindexed {store : IDBObjectStore} (unindexed : store.indexes = ∅) {key : IDBKey}
    {bytes : Nat} (fits : key.validateKeyBudget 0 = .ok bytes) {value : String}
    (small : value.utf8ByteSize ≤ maxRecordValueBytes)
    (room : (store.records.map fun record => record.value.utf8ByteSize).sum + value.utf8ByteSize ≤
      maxObjectStoreValueBytes) (few : store.records.length < maxRecordsPerOrigin) :
    (store.put (some key) value).2 =
      { store with records := insertRecord store.records key value } := by
  have valid : store.validateIndexes key value = .ok () := by
    rw [validateIndexes, unindexed, Std.ExtTreeMap.toList_eq_nil_iff.mpr rfl]
    rfl
  unfold put
  rw [if_neg (Nat.not_lt.mpr small)]
  dsimp only
  unfold putAt
  rw [fits]
  dsimp only
  rw [if_neg (Nat.not_lt.mpr ((Nat.add_le_add_right (Nat.sub_le _ _) _).trans room)),
    if_neg fun full => Nat.not_le.mpr few full.2, valid]

/-- The first write to a store. -/
theorem put_first {key : IDBKey} {bytes : Nat} (fits : key.validateKeyBudget 0 = .ok bytes)
    {value : String} (small : value.utf8ByteSize ≤ maxRecordValueBytes) (name : String)
    (keyPath : Option String) (autoIncrement : Bool) :
    ((IDBObjectStore.new name keyPath autoIncrement).put (some key) value).2 =
      { IDBObjectStore.new name keyPath autoIncrement with records := [⟨key, value⟩] } := by
  have inserted : (insertRecord [] key value).Perm [⟨key, value⟩] :=
    insertRecord_perm (fun _ member => absurd member not_mem_nil) value
  have room : ((IDBObjectStore.new name keyPath autoIncrement).records.map fun record =>
      record.value.utf8ByteSize).sum + value.utf8ByteSize ≤ maxObjectStoreValueBytes :=
    (Nat.zero_add _).le.trans (small.trans (by decide))
  have few : 0 < maxRecordsPerOrigin := by decide
  rw [put_unindexed rfl fits small room few, ← inserted.eq_singleton]
  rfl

theorem records_put (key : Option IDBKey) (value : String) :
    (store.put key value).2.records = store.records ∨
      (store.put key value).2.records = insertRecord store.records (store.keyFor key) value := by
  have atKey (counter : Nat) (key : IDBKey) :
      (putAt { store with autoIncrementCounter := counter } key value).2.records = store.records ∨
        (putAt { store with autoIncrementCounter := counter } key value).2.records =
          insertRecord store.records key value := by
    rcases putAt_cases { store with autoIncrementCounter := counter } key value with
      ⟨error, failed⟩ | done
    · rw [failed]
      exact .inl rfl
    · rw [done]
      exact .inr rfl
  unfold put
  split
  · exact .inl rfl
  · cases key with
    | some key => exact atKey store.autoIncrementCounter key
    | none =>
      dsimp only
      split
      · exact atKey (store.autoIncrementCounter + 1) _
      · exact .inl rfl

theorem add_cases (key : Option IDBKey) (value : String) :
    (∃ error, store.add key value = (.error error, store)) ∨
      store.add key value = store.put key value := by
  unfold add
  dsimp only
  split
  · exact .inl ⟨_, rfl⟩
  · split
    · exact .inl ⟨_, rfl⟩
    · exact .inr rfl

theorem records_createIndex (config : IDBIndexConfig) :
    (store.createIndex config).2.records = store.records := by
  unfold createIndex
  split
  · rfl
  · split
    · rfl
    · split
      · rfl
      · split <;> rfl

end IDBObjectStore

/-- What an insertion and any removal keep, a write keeps. -/
theorem StoreWrite.keeps {store : IDBObjectStore} {write : StoreWrite} {P : List IDBRecord → Prop}
    (inserts : ∀ key ∈ write.usedKey store, ∀ value,
      P (IDBObjectStore.insertRecord store.records key value))
    (removes : ∀ fewer, fewer.Sublist store.records → P fewer) : P (write.apply store).records := by
  have kept : P store.records := removes _ (Sublist.refl _)
  have putKeeps (key : Option IDBKey) (value : String)
      (inserts : P (IDBObjectStore.insertRecord store.records (store.keyFor key) value)) :
      P (store.put key value).2.records := by
    rcases store.records_put key value with same | inserted
    · rwa [same]
    · rwa [inserted]
  cases write with
  | put key value => exact putKeeps key value (inserts _ rfl value)
  | add key value =>
    rw [StoreWrite.apply]
    rcases store.add_cases key value with ⟨error, failed⟩ | puts
    · rwa [failed]
    · rw [puts]
      exact putKeeps key value (inserts _ rfl value)
  | delete key => exact removes _ eraseP_sublist
  | clear => exact removes _ (nil_sublist _)
  | createIndex config =>
    rw [StoreWrite.apply, IDBObjectStore.records_createIndex]
    exact kept
  | deleteIndex name => exact kept

theorem records_apply {store : IDBObjectStore} {write : StoreWrite} (free : write.NanFree)
    (kept : Records store.records) : Records (write.apply store).records :=
  StoreWrite.keeps (fun _ used => records_insertRecord kept (nanFree_usedKey free _ used))
    fun _ sub => kept.sublist sub

def storeAfterWrites (name : String) (keyPath : Option String) (autoIncrement : Bool)
    (writes : List StoreWrite) : IDBObjectStore :=
  History.run StoreWrite.apply (IDBObjectStore.new name keyPath autoIncrement) writes

/-- The comparison is a total order that agrees with `==` on the keys without NaN and on no
others; a store that is only given such keys is strictly sorted, all its keys different. -/
theorem records_sorted (name : String) (keyPath : Option String) (autoIncrement : Bool)
    (writes : List StoreWrite) (free : ∀ write ∈ writes, write.NanFree) :
    TransCmp IDBKey.cmp ∧ (∀ key : IDBKey, key.Consistent ↔ key.nanFree = true) ∧
      Ordered (storeAfterWrites name keyPath autoIncrement writes).records := by
  refine ⟨inferInstance, IDBKey.consistent_iff, Records.ordered ?_⟩
  refine History.run_keeps (P := fun store : IDBObjectStore => Records store.records) _
    ⟨List.Pairwise.nil, nofun⟩ fun moment inHistory kept => ?_
  exact records_apply (free _ (History.mem_of_mem_history _ inHistory)) kept

end

/-- A reader of JSON that takes nothing. -/
@[reducible] def noReader : JsonReader where
  fromStr _ := .error "expected value at line 1 column 1"

theorem records_sorted_twice :
    TransCmp IDBKey.cmp ∧ (∀ key : IDBKey, key.Consistent ↔ key.nanFree = true) ∧
      Ordered (@storeAfterWrites noReader "visits" none true
        [.put (some (.array [.number 1, .string "a"])) "1", .add none "2", .delete (.number 1)]).records :=
  @records_sorted noReader "visits" none true _ (by decide)

def nanKey : IDBKey := .number (Float.ofBits 0x7FF8000000000000)

theorem nanKey_ne : (nanKey == nanKey) = false := by decide

/-- Two records under NaN. -/
theorem nan_stored_twice :
    ¬Ordered (@storeAfterWrites noReader "visits" none true
      [.put (some nanKey) "1", .put (some nanKey) "2"]).records := by
  intro ordered
  let reader := noReader
  have once : ((IDBObjectStore.new "visits" none true).put (some nanKey) "1").2 =
      { IDBObjectStore.new "visits" none true with records := [⟨nanKey, "1"⟩] } :=
    IDBObjectStore.put_first rfl (by decide) _ _ _
  have twice : (storeAfterWrites "visits" none true
      [.put (some nanKey) "1", .put (some nanKey) "2"]).records.Perm
        [⟨nanKey, "1"⟩, ⟨nanKey, "2"⟩] := by
    show (((IDBObjectStore.new "visits" none true).put (some nanKey) "1").2.put
      (some nanKey) "2").2.records.Perm _
    rw [once, IDBObjectStore.put_unindexed rfl rfl (by decide) (by decide) (by decide)]
    show (IDBObjectStore.insertRecord [⟨nanKey, "1"⟩] nanKey "2").Perm _
    refine insertRecord_perm (fun record member => ?_) "2"
    rw [mem_singleton.mp member]
    exact nanKey_ne
  have same : IDBKey.cmp nanKey nanKey = .eq := ReflCmp.compare_self
  have keys : ∀ record ∈ [IDBRecord.mk nanKey "1", IDBRecord.mk nanKey "2"], record.key = nanKey := by
    simp
  obtain ⟨first, second, two⟩ := length_eq_two.mp twice.length_eq
  have less := rel_of_pairwise_cons (two ▸ ordered.sorted) (mem_singleton_self _)
  rw [two] at twice
  rw [keys first (twice.mem_iff.mp (mem_cons_self ..)),
    keys second (twice.mem_iff.mp (mem_cons_of_mem _ (mem_singleton_self _))),
    same] at less
  cases less

end GhitaBrowser.Storage
