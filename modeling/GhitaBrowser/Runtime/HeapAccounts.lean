import GhitaBrowser.Runtime.Heap

/-!
# The accounts of the heap

The two counters and the free list agree with the slots after every call, whatever the
call did and whether it succeeded.
-/

namespace GhitaBrowser.Runtime

open List

variable {heap : BoundedHeap} {result : Unit}

namespace BoundedHeap

def slotCost (slot : HeapSlot) : Nat :=
  match slot.object with
  | none => 0
  | some object => objectBaseBytes + OrdMap.total propertyCost object.properties

def isOccupied (slot : HeapSlot) : Bool := slot.object.isSome

/-- The slot at an index is there and empty. -/
def EmptyAt (slots : List HeapSlot) (index : Nat) : Prop :=
  ∃ slot, slots[index]? = some slot ∧ slot.object = none

structure FreeList (slots : List HeapSlot) (freeSlots : List UInt32) : Prop where
  nodup : freeSlots.Nodup
  mem : ∀ index : Nat, index ∈ freeSlots.map UInt32.toNat ↔ EmptyAt slots index

structure Balanced (heap : BoundedHeap) : Prop where
  bytes : ∀ slot ∈ heap.slots, slot.bytes = slotCost slot
  used : heap.usedBytes = (heap.slots.map HeapSlot.bytes).sum
  live : heap.liveObjects = heap.slots.countP isOccupied
  used_le : heap.usedBytes ≤ heap.limits.maxHeapBytes
  live_le : heap.liveObjects ≤ heap.limits.maxObjects
  length_le : heap.slots.length ≤ UInt32.size
  free : FreeList heap.slots heap.freeSlots

theorem balanced_new (limits : RuntimeLimits) : Balanced (new limits) where
  bytes := by simp [new]
  used := rfl
  live := rfl
  used_le := Nat.zero_le _
  live_le := Nat.zero_le _
  length_le := Nat.zero_le _
  free := ⟨nodup_nil, by simp [new, EmptyAt]⟩

/-! ## Replacing one slot -/

section

variable {slots : List HeapSlot} {i : Nat} {slot new : HeapSlot}

theorem bytes_set (h : ∀ slot ∈ slots, slot.bytes = slotCost slot)
    (hnew : new.bytes = slotCost new) : ∀ slot ∈ slots.set i new, slot.bytes = slotCost slot := by
  intro other hmem
  rcases mem_or_eq_of_mem_set hmem with hold | rfl
  · exact h other hold
  · exact hnew

theorem countP_set_occupied (h : slots[i]? = some slot) (hnew : isOccupied new = isOccupied slot) :
    (slots.set i new).countP isOccupied = slots.countP isOccupied := by
  obtain ⟨hi, rfl⟩ := List.getElem?_eq_some_iff.mp h
  rw [countP_set hi, hnew]
  split
  · next hoccupied =>
    have hpos : 0 < slots.countP isOccupied :=
      countP_pos_iff.mpr ⟨_, getElem_mem hi, hoccupied⟩
    omega
  · omega

theorem emptyAt_set (h : slots[i]? = some slot) {index : Nat} :
    EmptyAt (slots.set i new) index ↔
      if index = i then new.object = none else EmptyAt slots index := by
  obtain ⟨hi, -⟩ := List.getElem?_eq_some_iff.mp h
  unfold EmptyAt
  by_cases hindex : index = i
  · subst hindex
    simp [hi]
  · simp [List.getElem?_set_ne (Ne.symm hindex), hindex]

theorem FreeList.set {freeSlots : List UInt32} (hfree : FreeList slots freeSlots)
    (h : slots[i]? = some slot) (hnew : isOccupied new = isOccupied slot) :
    FreeList (slots.set i new) freeSlots := by
  refine ⟨hfree.nodup, fun index => ?_⟩
  rw [hfree.mem, emptyAt_set h]
  by_cases hindex : index = i
  · subst hindex
    have hnone : new.object = none ↔ slot.object = none := by
      rw [← Option.isNone_iff_eq_none, ← Option.isNone_iff_eq_none, ← Option.not_isSome,
        ← Option.not_isSome]
      exact iff_of_eq (congrArg (fun occupied => (!occupied) = true) hnew)
    simp [EmptyAt, h, hnone]
  · simp [hindex]

end

theorem Balanced.write (hbalanced : Balanced heap) {i : Nat} {slot new : HeapSlot} {used : Nat}
    (h : heap.slots[i]? = some slot) (hnew : isOccupied new = isOccupied slot)
    (hbytes : new.bytes = slotCost new) (hused : used + slot.bytes = heap.usedBytes + new.bytes)
    (hle : used ≤ heap.limits.maxHeapBytes) :
    Balanced { heap with slots := heap.slots.set i new, usedBytes := used } where
  bytes := bytes_set hbalanced.bytes hbytes
  used := by
    have hset := sum_map_set HeapSlot.bytes h new
    rw [← hbalanced.used] at hset
    show used = ((heap.slots.set i new).map HeapSlot.bytes).sum
    omega
  live := by
    rw [countP_set_occupied h hnew]
    exact hbalanced.live
  used_le := hle
  live_le := hbalanced.live_le
  length_le := by
    rw [length_set]
    exact hbalanced.length_le
  free := hbalanced.free.set h hnew

variable {handle : HeapHandle}

variable {slots : List HeapSlot}

theorem slotOf_eq {slot : HeapSlot}
    (h : slotOf slots handle = some slot) :
    slots[handle.slot.toNat]? = some slot ∧ slot.generation = handle.generation := by
  unfold slotOf at h
  split at h
  · cases h
  · next found hfound =>
    split at h
    · next hgeneration =>
      obtain rfl := Option.some.inj h
      exact ⟨hfound, hgeneration⟩
    · cases h

theorem Balanced.bytes_eq (hbalanced : Balanced heap) {i : Nat}
    {slot : HeapSlot} (h : heap.slots[i]? = some slot) : slot.bytes = slotCost slot :=
  hbalanced.bytes slot (mem_of_getElem? h)

theorem Balanced.bytes_le (hbalanced : Balanced heap) {i : Nat}
    {slot : HeapSlot} (h : heap.slots[i]? = some slot) : slot.bytes ≤ heap.usedBytes := by
  rw [hbalanced.used]
  exact le_sum_map HeapSlot.bytes h

/-! ## The calls -/

variable {after : BoundedHeap}

/-- What `allocate` can do: fill the slot on top of the free list, or append one. -/
theorem allocate_cases {kind : HostObjectKind}
    (h : heap.allocate kind = .ok (handle, after)) :
    heap.liveObjects < heap.limits.maxObjects ∧
    heap.usedBytes + objectBaseBytes ≤ heap.limits.maxHeapBytes ∧
    ((∃ slotIndex freeSlots slot, heap.freeSlots = slotIndex :: freeSlots ∧
        heap.slots[slotIndex.toNat]? = some slot ∧
        after = { heap with
          freeSlots := freeSlots
          slots := heap.slots.set slotIndex.toNat
            { slot with marked := false, bytes := objectBaseBytes, object := some (emptyObject kind) }
          usedBytes := heap.usedBytes + objectBaseBytes
          liveObjects := heap.liveObjects + 1 }) ∨
      (heap.freeSlots = [] ∧ heap.slots.length < UInt32.size ∧
        after = { heap with
          slots := heap.slots ++
            [{ generation := 0, marked := false, bytes := objectBaseBytes,
               object := some (emptyObject kind) }]
          usedBytes := heap.usedBytes + objectBaseBytes
          liveObjects := heap.liveObjects + 1 })) := by
  unfold allocate at h
  split at h
  · cases h
  · next hobjects =>
    split at h
    · cases h
    · next hbytes =>
      refine ⟨Nat.lt_of_not_le hobjects, Nat.le_of_not_lt hbytes, ?_⟩
      split at h
      · next slotIndex freeSlots hfree =>
        split at h
        · cases h
        · next slot hslot =>
          obtain ⟨-, rfl⟩ := Prod.mk.inj (Except.ok.inj h)
          exact .inl ⟨slotIndex, freeSlots, slot, hfree, hslot, rfl⟩
      · next hfree =>
        split at h
        · cases h
        · next hlength =>
          obtain ⟨-, rfl⟩ := Prod.mk.inj (Except.ok.inj h)
          exact .inr ⟨hfree, Nat.lt_of_not_le hlength, rfl⟩

theorem slotCost_emptyObject (slot : HeapSlot) (kind : HostObjectKind) :
    slotCost { slot with object := some (emptyObject kind) } = objectBaseBytes := by
  simp [slotCost, emptyObject, OrdMap.total_empty]

theorem balanced_allocate {kind : HostObjectKind}
    (hbalanced : Balanced heap) (h : heap.allocate kind = .ok (handle, after)) : Balanced after := by
  obtain ⟨hobjects, hbytes, hcases⟩ := allocate_cases h
  rcases hcases with ⟨slotIndex, freeSlots, slot, hfree, hslot, rfl⟩ | ⟨hfree, hlength, rfl⟩
  · -- the slot on top of the free list is empty, so it is in no sum
    have hempty : slot.object = none := by
      obtain ⟨other, hother, hnone⟩ := (hbalanced.free.mem slotIndex.toNat).mp (by simp [hfree])
      obtain rfl := Option.some.inj (hslot.symm.trans hother)
      exact hnone
    have hzero : slot.bytes = 0 := by
      rw [hbalanced.bytes_eq hslot]
      simp [slotCost, hempty]
    have hnodup := hbalanced.free.nodup
    rw [hfree, nodup_cons] at hnodup
    constructor
    · exact bytes_set hbalanced.bytes (slotCost_emptyObject { slot with marked := false, bytes := _ } kind).symm
    · have hset := sum_map_set HeapSlot.bytes hslot
        { slot with marked := false, bytes := objectBaseBytes, object := some (emptyObject kind) }
      have hused := hbalanced.used
      simp only at hset ⊢
      omega
    · obtain ⟨hi, rfl⟩ := List.getElem?_eq_some_iff.mp hslot
      have hlive := hbalanced.live
      simp only [countP_set hi, isOccupied, hempty, Option.isSome_none, Bool.false_eq_true,
        if_false, Option.isSome_some, if_true, Nat.sub_zero]
      exact congrArg (· + 1) hlive
    · exact hbytes
    · exact hobjects
    · rw [length_set]
      exact hbalanced.length_le
    · refine ⟨hnodup.2, fun index => ?_⟩
      rw [emptyAt_set hslot]
      have hmem := hbalanced.free.mem index
      rw [hfree, map_cons, mem_cons] at hmem
      by_cases hindex : index = slotIndex.toNat
      · subst hindex
        simp only [if_true, reduceCtorEq, iff_false, mem_map, not_exists, not_and]
        intro other hother heq
        exact hnodup.1 (UInt32.toNat_inj.mp heq ▸ hother)
      · rw [if_neg hindex, ← hmem]
        simp [hindex]
  · constructor
    · intro slot hmem
      rcases mem_append.mp hmem with hold | hnew
      · exact hbalanced.bytes slot hold
      · obtain rfl := mem_singleton.mp hnew
        exact (slotCost_emptyObject ⟨0, false, objectBaseBytes, none⟩ kind).symm
    · simp [hbalanced.used]
    · simp [hbalanced.live, isOccupied]
    · exact hbytes
    · exact hobjects
    · rw [length_append]
      exact hlength
    · refine ⟨hbalanced.free.nodup, fun index => ?_⟩
      rw [hbalanced.free.mem]
      unfold EmptyAt
      constructor
      · rintro ⟨slot, hslot, hnone⟩
        exact ⟨slot, by rw [List.getElem?_append_left (List.getElem?_eq_some_iff.mp hslot).1, hslot],
          hnone⟩
      · rintro ⟨slot, hslot, hnone⟩
        rw [List.getElem?_append] at hslot
        split at hslot
        · exact ⟨slot, hslot, hnone⟩
        · obtain rfl := mem_singleton.mp (mem_of_getElem? hslot)
          cases hnone

theorem Balanced.writeObject (hbalanced : Balanced heap)
    {slot : HeapSlot} {old object : HeapObject} {bytes used : Nat}
    (hslot : heap.slots[handle.slot.toNat]? = some slot) (hold : slot.object = some old)
    (hbytes : bytes = objectBaseBytes + OrdMap.total propertyCost object.properties)
    (hused : used + slot.bytes = heap.usedBytes + bytes) (hle : used ≤ heap.limits.maxHeapBytes) :
    Balanced { heap.writeObject handle slot bytes object with usedBytes := used } :=
  hbalanced.write hslot (by simp [isOccupied, hold]) (by simp [slotCost, hbytes]) hused hle

/-- What `set_prototype` can do. -/
theorem setPrototype_cases
    {prototype : Option HeapHandle} (h : heap.setPrototype handle prototype = .ok (result, after)) :
    ∃ slot object, slotOf heap.slots handle = some slot ∧ slot.object = some object ∧
      after = heap.writeObject handle slot slot.bytes { object with prototype := prototype } := by
  unfold setPrototype at h
  split at h
  · cases h
  · split at h
    · cases h
    · next slot hslot =>
      split at h
      · cases h
      · next object hobject =>
        obtain ⟨-, rfl⟩ := Prod.mk.inj (Except.ok.inj h)
        exact ⟨slot, object, hslot, hobject, rfl⟩

theorem balanced_setPrototype {prototype : Option HeapHandle} (hbalanced : Balanced heap)
    (h : heap.setPrototype handle prototype = .ok (result, after)) : Balanced after := by
  obtain ⟨slot, object, hslot, hobject, rfl⟩ := setPrototype_cases h
  obtain ⟨hslot, -⟩ := slotOf_eq hslot
  have hbytes := hbalanced.bytes_eq hslot
  simp only [slotCost, hobject] at hbytes
  have hwritten : Balanced { heap.writeObject handle slot slot.bytes { object with prototype } with
      usedBytes := heap.usedBytes } :=
    hbalanced.writeObject hslot hobject hbytes rfl hbalanced.used_le
  exact hwritten

/-- What `set_property` can do. -/
theorem setProperty_cases {name : String}
    {value : RuntimeValue} (h : heap.setProperty handle name value = .ok (result, after)) :
    ∃ slot object, slotOf heap.slots handle = some slot ∧ slot.object = some object ∧
      heap.usedBytes - (object.properties[name]?.map (propertyCost name)).getD 0
        + propertyCost name value ≤ heap.limits.maxHeapBytes ∧
      after =
        { heap.writeObject handle slot
            (slot.bytes - (object.properties[name]?.map (propertyCost name)).getD 0
              + propertyCost name value)
            { object with properties := object.properties.insert name value } with
          usedBytes := heap.usedBytes - (object.properties[name]?.map (propertyCost name)).getD 0
            + propertyCost name value } := by
  unfold setProperty at h
  split at h
  · cases h
  · split at h
    · cases h
    · split at h
      · cases h
      · next slot hslot =>
        split at h
        · cases h
        · next object hobject =>
          dsimp only at h
          split at h
          · cases h
          · split at h
            · cases h
            · next hprojected =>
              obtain ⟨-, rfl⟩ := Prod.mk.inj (Except.ok.inj h)
              exact ⟨slot, object, hslot, hobject, Nat.le_of_not_lt hprojected, rfl⟩

theorem total_eq_getD (properties : Properties) (name : String) :
    OrdMap.total propertyCost properties =
      (properties[name]?.map (propertyCost name)).getD 0
        + OrdMap.total propertyCost (properties.erase name) := by
  cases h : properties[name]? with
  | none => rw [OrdMap.erase_of_absent h, Option.map_none, Option.getD_none, Nat.zero_add]
  | some old => rw [OrdMap.total_eq propertyCost h, Option.map_some, Option.getD_some]

theorem balanced_setProperty {name : String}
    {value : RuntimeValue} (hbalanced : Balanced heap)
    (h : heap.setProperty handle name value = .ok (result, after)) : Balanced after := by
  obtain ⟨slot, object, hslot, hobject, hprojected, rfl⟩ := setProperty_cases h
  obtain ⟨hslot, -⟩ := slotOf_eq hslot
  have hbytes := hbalanced.bytes_eq hslot
  have hle := hbalanced.bytes_le hslot
  have htotal := total_eq_getD object.properties name
  have hinsert := OrdMap.total_insert propertyCost object.properties name value
  simp only [slotCost, hobject] at hbytes
  refine hbalanced.writeObject hslot hobject ?_ ?_ hprojected
  · rw [hinsert]
    omega
  · omega

/-- What `remove_property` can do: nothing, or take an entry out. -/
theorem removeProperty_cases {name : String}
    {result : Option RuntimeValue} (h : heap.removeProperty handle name = .ok (result, after)) :
    after = heap ∨
      ∃ slot object value, slotOf heap.slots handle = some slot ∧ slot.object = some object ∧
        object.properties[name]? = some value ∧
        after =
          { heap.writeObject handle slot (slot.bytes - propertyCost name value)
              { object with properties := object.properties.erase name } with
            usedBytes := heap.usedBytes - propertyCost name value } := by
  unfold removeProperty at h
  split at h
  · cases h
  · next slot hslot =>
    split at h
    · cases h
    · next object hobject =>
      split at h
      · obtain ⟨-, rfl⟩ := Prod.mk.inj (Except.ok.inj h)
        exact .inl rfl
      · next value hvalue =>
        obtain ⟨-, rfl⟩ := Prod.mk.inj (Except.ok.inj h)
        exact .inr ⟨slot, object, value, hslot, hobject, hvalue, rfl⟩

theorem balanced_removeProperty {name : String}
    {result : Option RuntimeValue} (hbalanced : Balanced heap)
    (h : heap.removeProperty handle name = .ok (result, after)) : Balanced after := by
  rcases removeProperty_cases h with rfl | ⟨slot, object, value, hslot, hobject, hvalue, rfl⟩
  · exact hbalanced
  · obtain ⟨hslot, -⟩ := slotOf_eq hslot
    have hbytes := hbalanced.bytes_eq hslot
    have hle := hbalanced.bytes_le hslot
    have hlimit := hbalanced.used_le
    have htotal := OrdMap.total_eq propertyCost hvalue
    simp only [slotCost, hobject] at hbytes
    refine hbalanced.writeObject hslot hobject ?_ ?_ ?_
    · show _ = objectBaseBytes + OrdMap.total propertyCost (object.properties.erase name)
      omega
    · omega
    · omega

/-! ## Garbage collection -/

theorem set_unmark {i : Nat} {slot : HeapSlot} (h : slots[i]? = some slot) :
    (slots.set i { slot with marked := true }).map unmark = slots.map unmark := by
  obtain ⟨hi, rfl⟩ := List.getElem?_eq_some_iff.mp h
  rw [map_set]
  refine ext_getElem (by simp) fun n hn hn' => ?_
  rw [getElem_set]
  split
  · next heq =>
    subst heq
    rw [getElem_map]
    rfl
  · rfl

theorem mark_unmark (slots : List HeapSlot) (pending : List HeapHandle) :
    (mark slots pending).map unmark = slots.map unmark := by
  induction slots, pending using mark.induct with
  | case1 slots => rw [mark_nil]
  | case2 slots handle pending hslot ih => rw [mark_absent hslot, ih]
  | case3 slots handle pending slot hslot hskip ih => rw [mark_skip hslot hskip, ih]
  | case4 slots handle pending slot hslot hvisit hobject ih => rw [mark_empty hslot hobject, ih]
  | case5 slots handle pending slot hslot hvisit object hobject ih =>
    rw [mark_visit hslot hvisit hobject, ih, set_unmark hslot]

theorem Balanced.of_unmark (hbalanced : Balanced heap)
    (h : slots.map unmark = heap.slots.map unmark) :
    Balanced { heap with slots := slots } := by
  have hmap : ∀ {β : Type} (f : HeapSlot → β), (∀ slot, f (unmark slot) = f slot) →
      slots.map f = heap.slots.map f := by
    intro β f hf
    have hcongr := congrArg (List.map f) h
    rw [map_map, map_map] at hcongr
    have hcomp : f ∘ unmark = f := funext hf
    rwa [hcomp] at hcongr
  have hempty : ∀ index, EmptyAt slots index ↔ EmptyAt heap.slots index := by
    intro index
    have hobjects := congrArg (·[index]?) (hmap HeapSlot.object fun _ => rfl)
    simp only [List.getElem?_map] at hobjects
    have hempty : ∀ slots : List HeapSlot,
        EmptyAt slots index ↔ slots[index]?.map HeapSlot.object = some none := by
      intro slots
      simp [EmptyAt]
    rw [hempty, hempty, hobjects]
  have hcount := congrArg (countP id) (hmap isOccupied fun _ => rfl)
  rw [countP_map, countP_map] at hcount
  constructor
  · have hbytes : (slots.map fun slot => (slot.bytes, slotCost slot))
        = heap.slots.map fun slot => (slot.bytes, slotCost slot) := hmap _ fun _ => rfl
    intro slot hmem
    have hpair := mem_map_of_mem (f := fun slot => (slot.bytes, slotCost slot)) hmem
    rw [hbytes] at hpair
    obtain ⟨other, hother, heq⟩ := mem_map.mp hpair
    obtain ⟨hleft, hright⟩ := Prod.mk.inj heq
    rw [← hleft, ← hright, hbalanced.bytes other hother]
  · rw [hmap HeapSlot.bytes fun _ => rfl]
    exact hbalanced.used
  · exact hbalanced.live.trans hcount.symm
  · exact hbalanced.used_le
  · exact hbalanced.live_le
  · have hlength := congrArg List.length h
    rw [length_map, length_map] at hlength
    rw [hlength]
    exact hbalanced.length_le
  · exact ⟨hbalanced.free.nodup, fun index => (hbalanced.free.mem index).trans (hempty index).symm⟩

/-- An occupied slot that is not marked. -/
def isDoomed (slot : HeapSlot) : Bool := slot.object.isSome && !slot.marked

def sweepSlot (slot : HeapSlot) : HeapSlot :=
  if isDoomed slot then
    { slot with object := none, bytes := 0, generation := slot.generation + 1 }
  else slot

def doomedBytes (slots : List HeapSlot) : Nat := ((slots.filter isDoomed).map HeapSlot.bytes).sum

/-- The indices the sweep loop pushes, the last pushed first. -/
def freed (index : Nat) : List HeapSlot → List UInt32
  | [] => []
  | slot :: slots =>
    if isDoomed slot then freed (index + 1) slots ++ [UInt32.ofNat index] else freed (index + 1) slots

/-- The sweep loop as a whole. -/
theorem sweep_eq {index : Nat} {state : Sweep}
    (hindex : index + slots.length ≤ UInt32.size) :
    sweep index slots state =
      (slots.map sweepSlot,
        { usedBytes := state.usedBytes - doomedBytes slots
          liveObjects := state.liveObjects - slots.countP isDoomed
          freeSlots := freed index slots ++ state.freeSlots
          reclaimed := state.reclaimed + doomedBytes slots }) := by
  induction slots generalizing index state with
  | nil => simp [sweep, doomedBytes, freed]
  | cons slot slots ih =>
    rw [length_cons] at hindex
    have hnext : index + 1 + slots.length ≤ UInt32.size := by omega
    by_cases hdoomed : isDoomed slot
    · have hcond : slot.object.isSome ∧ slot.marked = false := by simpa [isDoomed] using hdoomed
      rw [sweep, if_pos hcond, ih hnext, if_pos (by omega)]
      simp only [map_cons, sweepSlot, hdoomed, if_true, doomedBytes, filter_cons,
        sum_cons, countP_cons, freed, Nat.add_assoc, Nat.sub_sub,
        append_assoc, singleton_append, Nat.add_comm 1]
    · have hcond : ¬ (slot.object.isSome ∧ slot.marked = false) := by simpa [isDoomed] using hdoomed
      rw [sweep, if_neg hcond, ih hnext]
      simp only [map_cons, sweepSlot, hdoomed, doomedBytes, filter_cons,
        countP_cons, freed, Bool.false_eq_true, if_false, Nat.add_zero]

theorem mem_freed {index : Nat} (hindex : index + slots.length ≤ UInt32.size)
    {n : Nat} :
    n ∈ (freed index slots).map UInt32.toNat ↔
      ∃ k slot, slots[k]? = some slot ∧ isDoomed slot = true ∧ n = index + k := by
  induction slots generalizing index with
  | nil => simp [freed]
  | cons slot slots ih =>
    rw [length_cons] at hindex
    have hnext := @ih (index + 1) (by omega)
    have hself : (UInt32.ofNat index).toNat = index := UInt32.toNat_ofNat_of_lt (by omega)
    have hrest : (∃ k other, (slot :: slots)[k]? = some other ∧ isDoomed other = true ∧ n = index + k) ↔
        (isDoomed slot = true ∧ n = index) ∨
          ∃ k other, slots[k]? = some other ∧ isDoomed other = true ∧ n = index + 1 + k := by
      constructor
      · rintro ⟨k, other, hother, hdoomed, rfl⟩
        cases k with
        | zero =>
          obtain rfl := Option.some.inj hother
          exact .inl ⟨hdoomed, rfl⟩
        | succ k => exact .inr ⟨k, other, hother, hdoomed, by omega⟩
      · rintro (⟨hdoomed, rfl⟩ | ⟨k, other, hother, hdoomed, rfl⟩)
        · exact ⟨0, slot, rfl, hdoomed, rfl⟩
        · exact ⟨k + 1, other, hother, hdoomed, by omega⟩
    rw [hrest, freed]
    by_cases hdoomed : isDoomed slot
    · rw [if_pos hdoomed, map_append, mem_append, hnext]
      simp [hself, hdoomed, or_comm]
    · rw [if_neg hdoomed, hnext]
      simp [hdoomed]

theorem freed_nodup {index : Nat}
    (hindex : index + slots.length ≤ UInt32.size) : (freed index slots).Nodup := by
  induction slots generalizing index with
  | nil => exact nodup_nil
  | cons slot slots ih =>
    rw [length_cons] at hindex
    have hbound : index + 1 + slots.length ≤ UInt32.size := by omega
    rw [freed]
    split
    · refine nodup_append.mpr ⟨ih hbound, by simp, ?_⟩
      intro a ha b hb heq
      obtain rfl := mem_singleton.mp hb
      subst heq
      obtain ⟨k, -, -, -, hk⟩ := (mem_freed hbound).mp (mem_map_of_mem ha)
      have hself : (UInt32.ofNat index).toNat = index := UInt32.toNat_ofNat_of_lt (by omega)
      omega
    · exact ih hbound

theorem sum_sweepSlot (slots : List HeapSlot) :
    ((slots.map sweepSlot).map HeapSlot.bytes).sum + doomedBytes slots
      = (slots.map HeapSlot.bytes).sum := by
  induction slots with
  | nil => rfl
  | cons slot slots ih =>
    by_cases hdoomed : isDoomed slot
    · simp only [doomedBytes, map_cons, sum_cons, filter_cons, sweepSlot, hdoomed,
        if_true] at ih ⊢
      omega
    · simp only [doomedBytes, map_cons, sum_cons, filter_cons, sweepSlot, hdoomed,
        Bool.false_eq_true, if_false] at ih ⊢
      omega

theorem countP_sweepSlot (slots : List HeapSlot) :
    (slots.map sweepSlot).countP isOccupied + slots.countP isDoomed = slots.countP isOccupied := by
  induction slots with
  | nil => rfl
  | cons slot slots ih =>
    by_cases hdoomed : isDoomed slot
    · have hoccupied : isOccupied slot := by
        simp only [isDoomed, Bool.and_eq_true] at hdoomed
        exact hdoomed.1
      simp only [map_cons, countP_cons, sweepSlot, hdoomed, if_true, hoccupied] at ih ⊢
      simp only [isOccupied, Option.isSome_none, Bool.false_eq_true, if_false] at ih ⊢
      omega
    · simp only [map_cons, countP_cons, sweepSlot, hdoomed, Bool.false_eq_true,
        if_false] at ih ⊢
      omega

theorem emptyAt_sweepSlot {index : Nat} :
    EmptyAt (slots.map sweepSlot) index ↔
      EmptyAt slots index ∨ ∃ slot, slots[index]? = some slot ∧ isDoomed slot = true := by
  unfold EmptyAt
  rw [List.getElem?_map]
  cases hslot : slots[index]? with
  | none => simp
  | some slot =>
    by_cases hdoomed : isDoomed slot
    · simp [sweepSlot, hdoomed]
    · simp [sweepSlot, hdoomed]

/-- The sweep over a heap whose counters agree. -/
def swept (heap : BoundedHeap) : BoundedHeap :=
  { heap with
    slots := heap.slots.map sweepSlot
    usedBytes := heap.usedBytes - doomedBytes heap.slots
    liveObjects := heap.liveObjects - heap.slots.countP isDoomed
    freeSlots := freed 0 heap.slots ++ heap.freeSlots }

theorem balanced_swept (hbalanced : Balanced heap) : Balanced (swept heap) := by
  have hlength := hbalanced.length_le
  constructor
  · intro slot hmem
    obtain ⟨old, hold, rfl⟩ := mem_map.mp hmem
    unfold sweepSlot
    split
    · rfl
    · exact hbalanced.bytes old hold
  · have hsum := sum_sweepSlot heap.slots
    have hused := hbalanced.used
    simp only [swept]
    omega
  · have hcount := countP_sweepSlot heap.slots
    have hlive := hbalanced.live
    simp only [swept]
    omega
  · exact (Nat.sub_le _ _).trans hbalanced.used_le
  · exact (Nat.sub_le _ _).trans hbalanced.live_le
  · simpa [swept] using hlength
  · refine ⟨nodup_append.mpr ⟨freed_nodup (by omega), hbalanced.free.nodup, ?_⟩, fun index => ?_⟩
    · -- a slot that was empty is not doomed
      rintro a ha b hb rfl
      obtain ⟨k, slot, hslot, hdoomed, hk⟩ := (mem_freed (by omega)).mp (mem_map_of_mem ha)
      obtain ⟨other, hother, hnone⟩ := (hbalanced.free.mem _).mp (mem_map_of_mem hb)
      rw [hk, Nat.zero_add] at hother
      obtain rfl := Option.some.inj (hslot.symm.trans hother)
      simp [isDoomed, hnone] at hdoomed
    · simp only [swept]
      rw [map_append, mem_append, mem_freed (by omega), hbalanced.free.mem,
        emptyAt_sweepSlot, or_comm]
      simp

/-- The slots the sweep loop starts from. -/
def markedFrom (heap : BoundedHeap) (roots : List HeapHandle) : List HeapSlot :=
  mark (heap.slots.map unmark) roots.reverse

theorem markedFrom_unmark (heap : BoundedHeap) (roots : List HeapHandle) :
    (markedFrom heap roots).map unmark = heap.slots.map unmark := by
  unfold markedFrom
  rw [mark_unmark, map_map]
  rfl

theorem collectGarbage_eq (hbalanced : Balanced heap) (roots : List HeapHandle) :
    heap.collectGarbage roots =
      (doomedBytes (markedFrom heap roots), swept { heap with slots := markedFrom heap roots }) := by
  have hmarked := hbalanced.of_unmark (markedFrom_unmark heap roots)
  have hlength : 0 + (markedFrom heap roots).length ≤ UInt32.size := by
    rw [Nat.zero_add]
    exact hmarked.length_le
  unfold collectGarbage
  simp only [← markedFrom.eq_def, sweep_eq hlength, swept, Nat.zero_add]

theorem balanced_collectGarbage (hbalanced : Balanced heap)
    (roots : List HeapHandle) : Balanced (heap.collectGarbage roots).2 := by
  rw [collectGarbage_eq hbalanced]
  exact balanced_swept (hbalanced.of_unmark (markedFrom_unmark heap roots))

theorem heapAfter_keeps {α : Type} (hbalanced : Balanced heap)
    {call : Except String (α × BoundedHeap)}
    (h : ∀ result after, call = .ok (result, after) → Balanced after) :
    Balanced (heapAfter heap call) := by
  cases call with
  | ok pair => exact h pair.1 pair.2 rfl
  | error failure => exact hbalanced

theorem balanced_run (hbalanced : Balanced heap) (operation : HeapOperation) :
    Balanced (operation.run heap) := by
  cases operation with
  | allocate kind => exact heapAfter_keeps hbalanced fun _ _ => balanced_allocate hbalanced
  | setProperty handle name value =>
    exact heapAfter_keeps hbalanced fun _ _ => balanced_setProperty hbalanced
  | removeProperty handle name =>
    exact heapAfter_keeps hbalanced fun _ _ => balanced_removeProperty hbalanced
  | setPrototype handle prototype =>
    exact heapAfter_keeps hbalanced fun _ _ => balanced_setPrototype hbalanced
  | collectGarbage roots => exact balanced_collectGarbage hbalanced roots

theorem balanced_heapRun (limits : RuntimeLimits) (operations : List HeapOperation) :
    Balanced (heapRun limits operations) := by
  have hfold : ∀ heap, Balanced heap → Balanced (operations.foldl HeapOperation.run heap) := by
    induction operations with
    | nil => exact fun heap h => h
    | cons operation operations ih => exact fun heap h => ih _ (balanced_run h operation)
  exact hfold _ (balanced_new limits)

theorem sum_occupied (h : ∀ slot ∈ slots, slot.bytes = slotCost slot) :
    (slots.map HeapSlot.bytes).sum = ((slots.filter isOccupied).map HeapSlot.bytes).sum := by
  induction slots with
  | nil => rfl
  | cons slot slots ih =>
    have htail := ih fun other hmem => h other (mem_cons_of_mem _ hmem)
    rw [map_cons, sum_cons, htail, filter_cons]
    split
    · rw [map_cons, sum_cons]
    · next hempty =>
      have hzero : slot.bytes = 0 := by
        rw [h slot mem_cons_self]
        cases hobject : slot.object with
        | none => simp [slotCost, hobject]
        | some object => simp [isOccupied, hobject] at hempty
      rw [hzero, Nat.zero_add]

/-! ## The limits -/

theorem heapAfter_limits {α : Type} {call : Except String (α × BoundedHeap)}
    (h : ∀ result after, call = .ok (result, after) → after.limits = heap.limits) :
    (heapAfter heap call).limits = heap.limits := by
  cases call with
  | ok pair => exact h pair.1 pair.2 rfl
  | error failure => rfl

end BoundedHeap

open BoundedHeap in
theorem run_limits (heap : BoundedHeap) (operation : HeapOperation) :
    (operation.run heap).limits = heap.limits := by
  cases operation with
  | allocate kind =>
    refine heapAfter_limits fun handle after h => ?_
    rcases (allocate_cases h).2.2 with ⟨_, _, _, -, -, rfl⟩ | ⟨-, -, rfl⟩
    · rfl
    · rfl
  | setProperty handle name value =>
    refine heapAfter_limits fun result after h => ?_
    obtain ⟨_, _, -, -, -, rfl⟩ := setProperty_cases h
    rfl
  | removeProperty handle name =>
    refine heapAfter_limits fun result after h => ?_
    rcases removeProperty_cases h with rfl | ⟨_, _, _, -, -, -, rfl⟩
    · rfl
    · rfl
  | setPrototype handle prototype =>
    refine heapAfter_limits fun result after h => ?_
    obtain ⟨_, _, -, -, rfl⟩ := setPrototype_cases h
    rfl
  | collectGarbage roots => rfl

theorem heapRun_limits (limits : RuntimeLimits) (operations : List HeapOperation) :
    (heapRun limits operations).limits = limits := by
  have hfold : ∀ heap, (operations.foldl HeapOperation.run heap).limits = heap.limits := by
    induction operations with
    | nil => exact fun heap => rfl
    | cons operation operations ih =>
      intro heap
      rw [foldl_cons, ih, run_limits]
  exact hfold _

/-- The accounts of a heap with some limits. -/
structure Accounted (limits : RuntimeLimits) (heap : BoundedHeap) : Prop where
  used_bytes : heap.usedBytes =
    ((heap.slots.filter BoundedHeap.isOccupied).map HeapSlot.bytes).sum
  slot_bytes : ∀ slot ∈ heap.slots, ∀ object, slot.object = some object →
    slot.bytes = objectBaseBytes + OrdMap.total propertyCost object.properties
  live_objects : heap.liveObjects = (heap.slots.filter BoundedHeap.isOccupied).length
  used_le : heap.usedBytes ≤ limits.maxHeapBytes
  live_le : heap.liveObjects ≤ limits.maxObjects
  free_nodup : heap.freeSlots.Nodup
  free_slots : ∀ index : Nat, index ∈ heap.freeSlots.map UInt32.toNat ↔
    ∃ slot, heap.slots[index]? = some slot ∧ slot.object = none

/-- Whatever calls are made on a heap, succeeding or failing, its accounts are right. -/
theorem heap_is_accounted (limits : RuntimeLimits) (operations : List HeapOperation) :
    Accounted limits (heapRun limits operations) := by
  have hbalanced := BoundedHeap.balanced_heapRun limits operations
  have hlimits := heapRun_limits limits operations
  constructor
  · rw [hbalanced.used, BoundedHeap.sum_occupied hbalanced.bytes]
  · intro slot hmem object hobject
    rw [hbalanced.bytes slot hmem, BoundedHeap.slotCost, hobject]
  · rw [hbalanced.live, countP_eq_length_filter]
  · have hle := hbalanced.used_le
    rwa [hlimits] at hle
  · have hle := hbalanced.live_le
    rwa [hlimits] at hle
  · exact hbalanced.free.nodup
  · exact hbalanced.free.mem

end GhitaBrowser.Runtime
