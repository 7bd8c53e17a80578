import GhitaBrowser.Lib.OrdMap
import Mathlib.Data.Prod.Lex

/-!
# The bounded heap of a runtime realm

Slots with generation-checked handles, a stack of empty slots and two counters. The
counters count bytes and objects that are stored, so their sums are exact numbers here;
`saturating_sub` is the truncated subtraction of `Nat`.
-/

namespace GhitaBrowser.Runtime

def objectBaseBytes : Nat := 64
def propertyBaseBytes : Nat := 32
def maxPropertyNameBytes : Nat := 256
def maxDomStringBytes : Nat := 1024 * 1024

/-- `size_of::<RuntimeValue>()` on a 64-bit target: the three words of the `String`
variant, the tag sits in the spare values of its capacity. -/
def runtimeValueBytes : Nat := 24

/-- The limits the heap reads. -/
structure RuntimeLimits where
  maxHeapBytes : Nat
  maxObjects : Nat
  maxPropertiesPerObject : Nat

structure HeapHandle where
  slot : UInt32
  generation : UInt32
deriving DecidableEq

inductive HostObjectKind where
  | ordinary
  | global
  | document
  | element
  | promise
  | mediaElement
  | mediaSource
  | sourceBuffer
deriving DecidableEq

inductive RuntimeValue where
  | undefined
  | null
  | boolean (value : Bool)
  | number (value : Float)
  | string (text : String)
  | object (reference : HeapHandle)

abbrev Properties := Std.ExtTreeMap String RuntimeValue compare

structure HeapObject where
  kind : HostObjectKind
  prototype : Option HeapHandle
  properties : Properties

structure HeapSlot where
  generation : UInt32
  marked : Bool
  bytes : Nat
  object : Option HeapObject

structure BoundedHeap where
  limits : RuntimeLimits
  slots : List HeapSlot
  /-- The slot that was pushed last comes first. -/
  freeSlots : List UInt32
  usedBytes : Nat
  liveObjects : Nat

def propertyCost (name : String) (value : RuntimeValue) : Nat :=
  propertyBaseBytes + name.utf8ByteSize +
    match value with
    | .string text => text.utf8ByteSize
    | _ => runtimeValueBytes

def RuntimeValue.isLongString : RuntimeValue → Bool
  | .string text => decide (text.utf8ByteSize > maxDomStringBytes)
  | _ => false

/-- What a property holds when it refers to another object. -/
def RuntimeValue.reference? : RuntimeValue → Option HeapHandle
  | .object reference => some reference
  | _ => none

namespace BoundedHeap

def new (limits : RuntimeLimits) : BoundedHeap where
  limits := limits
  slots := []
  freeSlots := []
  usedBytes := 0
  liveObjects := 0

/-- The slot a handle names, when its generation is the handle's. -/
def slotOf (slots : List HeapSlot) (handle : HeapHandle) : Option HeapSlot :=
  match slots[handle.slot.toNat]? with
  | none => none
  | some slot => if slot.generation = handle.generation then some slot else none

def get (heap : BoundedHeap) (handle : HeapHandle) : Option HeapObject :=
  match slotOf heap.slots handle with
  | none => none
  | some slot => slot.object

def emptyObject (kind : HostObjectKind) : HeapObject where
  kind := kind
  prototype := none
  properties := ∅

def allocate (heap : BoundedHeap) (kind : HostObjectKind) :
    Except String (HeapHandle × BoundedHeap) :=
  if heap.liveObjects ≥ heap.limits.maxObjects then
    .error "Runtime object budget exceeded"
  else if heap.usedBytes + objectBaseBytes > heap.limits.maxHeapBytes then
    .error "Runtime heap byte budget exceeded"
  else
    match heap.freeSlots with
    | slotIndex :: freeSlots =>
      match heap.slots[slotIndex.toNat]? with
      | none => .error "index out of bounds"
      | some slot =>
        .ok (⟨slotIndex, slot.generation⟩,
          { heap with
            freeSlots := freeSlots
            slots := heap.slots.set slotIndex.toNat
              { slot with marked := false, bytes := objectBaseBytes, object := some (emptyObject kind) }
            usedBytes := heap.usedBytes + objectBaseBytes
            liveObjects := heap.liveObjects + 1 })
    | [] =>
      if heap.slots.length ≥ UInt32.size then
        .error "Runtime heap handle space exhausted"
      else
        .ok (⟨UInt32.ofNat heap.slots.length, 0⟩,
          { heap with
            slots := heap.slots ++
              [{ generation := 0, marked := false, bytes := objectBaseBytes,
                 object := some (emptyObject kind) }]
            usedBytes := heap.usedBytes + objectBaseBytes
            liveObjects := heap.liveObjects + 1 })

/-- `get_mut` followed by a write of the object. -/
def writeObject (heap : BoundedHeap) (handle : HeapHandle) (slot : HeapSlot) (bytes : Nat)
    (object : HeapObject) : BoundedHeap :=
  { heap with
    slots := heap.slots.set handle.slot.toNat { slot with bytes := bytes, object := some object } }

def setPrototype (heap : BoundedHeap) (handle : HeapHandle) (prototype : Option HeapHandle) :
    Except String (Unit × BoundedHeap) :=
  if prototype.any fun candidate => (heap.get candidate).isNone then
    .error "Prototype handle is stale"
  else
    match slotOf heap.slots handle with
    | none => .error "Object handle is stale"
    | some slot =>
      match slot.object with
      | none => .error "Object handle is stale"
      | some object =>
        .ok ((), heap.writeObject handle slot slot.bytes { object with prototype := prototype })

def setProperty (heap : BoundedHeap) (handle : HeapHandle) (name : String) (value : RuntimeValue) :
    Except String (Unit × BoundedHeap) :=
  if name = "" ∨ name.utf8ByteSize > maxPropertyNameBytes then
    .error "Invalid runtime property name"
  else if value.isLongString then
    .error "Runtime string exceeds 1 MB"
  else
    match slotOf heap.slots handle with
    | none => .error "Object handle is stale"
    | some slot =>
      match slot.object with
      | none => .error "Object handle is stale"
      | some object =>
        let oldCost := (object.properties[name]?.map (propertyCost name)).getD 0
        let newCost := propertyCost name value
        let projected := heap.usedBytes - oldCost + newCost
        if ¬ object.properties.contains name
            ∧ object.properties.size ≥ heap.limits.maxPropertiesPerObject then
          .error "Runtime property budget exceeded"
        else if projected > heap.limits.maxHeapBytes then
          .error "Runtime heap byte budget exceeded"
        else
          .ok ((),
            { heap.writeObject handle slot (slot.bytes - oldCost + newCost)
                { object with properties := object.properties.insert name value } with
              usedBytes := projected })

def removeProperty (heap : BoundedHeap) (handle : HeapHandle) (name : String) :
    Except String (Option RuntimeValue × BoundedHeap) :=
  match slotOf heap.slots handle with
  | none => .error "Object handle is stale"
  | some slot =>
    match slot.object with
    | none => .error "Object handle is stale"
    | some object =>
      match object.properties[name]? with
      | none => .ok (none, heap)
      | some value =>
        .ok (some value,
          { heap.writeObject handle slot (slot.bytes - propertyCost name value)
              { object with properties := object.properties.erase name } with
            usedBytes := heap.usedBytes - propertyCost name value })

/-! ## Garbage collection -/

/-- What `collect_garbage` pushes for an object, the last pushed handle first. -/
def references (object : HeapObject) : List HeapHandle :=
  (object.properties.toList.filterMap fun entry => entry.2.reference?).reverse
    ++ object.prototype.toList

def unmarked (slots : List HeapSlot) : Nat := slots.countP fun slot => !slot.marked

theorem unmarked_set_lt {slots : List HeapSlot} {i : Nat} {slot : HeapSlot}
    (h : slots[i]? = some slot) (hslot : slot.marked = false) :
    unmarked (slots.set i { slot with marked := true }) < unmarked slots := by
  obtain ⟨hi, rfl⟩ := List.getElem?_eq_some_iff.mp h
  have hpos : 0 < unmarked slots :=
    List.countP_pos_iff.mpr ⟨slots[i], List.getElem_mem hi, by simp [hslot]⟩
  unfold unmarked at *
  rw [List.countP_set hi]
  simp only [hslot, Bool.not_false, Bool.not_true, if_true, Bool.false_eq_true, if_false]
  omega

/-- The mark loop, the handle that is popped next first. -/
def mark (slots : List HeapSlot) : List HeapHandle → List HeapSlot
  | [] => slots
  | handle :: pending =>
    match _hslot : slots[handle.slot.toNat]? with
    | none => mark slots pending
    | some slot =>
      if _hskip : slot.generation ≠ handle.generation ∨ slot.marked = true then
        mark slots pending
      else
        match slot.object with
        | none => mark slots pending
        | some object =>
          mark (slots.set handle.slot.toNat { slot with marked := true })
            (references object ++ pending)
termination_by pending => (unmarked slots, pending.length)
decreasing_by
  · exact Prod.Lex.right _ (Nat.lt_succ_self _)
  · exact Prod.Lex.right _ (Nat.lt_succ_self _)
  · exact Prod.Lex.right _ (Nat.lt_succ_self _)
  · exact Prod.Lex.left _ _ (unmarked_set_lt _hslot (by simpa using fun h => _hskip (.inr h)))

section

variable {slots : List HeapSlot} {handle : HeapHandle} {slot : HeapSlot} {object : HeapObject}
  {pending : List HeapHandle}

theorem mark_nil : mark slots [] = slots := by rw [mark]

theorem mark_absent (h : slots[handle.slot.toNat]? = none) :
    mark slots (handle :: pending) = mark slots pending := by
  rw [mark]
  split
  · rfl
  · next found => rw [h] at found; cases found

theorem mark_cons (h : slots[handle.slot.toNat]? = some slot) :
    mark slots (handle :: pending) =
      if slot.generation ≠ handle.generation ∨ slot.marked = true then mark slots pending
      else
        match slot.object with
        | none => mark slots pending
        | some object =>
          mark (slots.set handle.slot.toNat { slot with marked := true })
            (references object ++ pending) := by
  rw [mark]
  split
  · next found => rw [h] at found; cases found
  · next found =>
    rw [h] at found
    obtain rfl := Option.some.inj found
    rfl

theorem mark_skip (h : slots[handle.slot.toNat]? = some slot)
    (hskip : slot.generation ≠ handle.generation ∨ slot.marked = true) :
    mark slots (handle :: pending) = mark slots pending := by
  rw [mark_cons h, if_pos hskip]

theorem mark_empty (h : slots[handle.slot.toNat]? = some slot) (hobject : slot.object = none) :
    mark slots (handle :: pending) = mark slots pending := by
  rw [mark_cons h, hobject]
  split <;> rfl

theorem mark_visit (h : slots[handle.slot.toNat]? = some slot)
    (hvisit : ¬ (slot.generation ≠ handle.generation ∨ slot.marked = true))
    (hobject : slot.object = some object) :
    mark slots (handle :: pending) =
      mark (slots.set handle.slot.toNat { slot with marked := true })
        (references object ++ pending) := by
  rw [mark_cons h, if_neg hvisit, hobject]

end

/-- What the sweep loop changes besides the slots. -/
structure Sweep where
  usedBytes : Nat
  liveObjects : Nat
  freeSlots : List UInt32
  reclaimed : Nat

def sweep (index : Nat) : List HeapSlot → Sweep → List HeapSlot × Sweep
  | [], state => ([], state)
  | slot :: slots, state =>
    if slot.object.isSome ∧ slot.marked = false then
      let swept := sweep (index + 1) slots
        { reclaimed := state.reclaimed + slot.bytes
          usedBytes := state.usedBytes - slot.bytes
          liveObjects := state.liveObjects - 1
          freeSlots :=
            if index < UInt32.size then UInt32.ofNat index :: state.freeSlots else state.freeSlots }
      ({ slot with object := none, bytes := 0, generation := slot.generation + 1 } :: swept.1, swept.2)
    else
      let swept := sweep (index + 1) slots state
      (slot :: swept.1, swept.2)

def unmark (slot : HeapSlot) : HeapSlot := { slot with marked := false }

def collectGarbage (heap : BoundedHeap) (roots : List HeapHandle) : Nat × BoundedHeap :=
  let slots := mark (heap.slots.map unmark) roots.reverse
  let swept := sweep 0 slots ⟨heap.usedBytes, heap.liveObjects, heap.freeSlots, 0⟩
  (swept.2.reclaimed,
    { heap with
      slots := swept.1
      usedBytes := swept.2.usedBytes
      liveObjects := swept.2.liveObjects
      freeSlots := swept.2.freeSlots })

end BoundedHeap

/-! ## Runs -/

inductive HeapOperation where
  | allocate (kind : HostObjectKind)
  | setProperty (handle : HeapHandle) (name : String) (value : RuntimeValue)
  | removeProperty (handle : HeapHandle) (name : String)
  | setPrototype (handle : HeapHandle) (prototype : Option HeapHandle)
  | collectGarbage (roots : List HeapHandle)

/-- The heap after a call. A call that fails has not written anything. -/
def heapAfter {α : Type} (heap : BoundedHeap) : Except String (α × BoundedHeap) → BoundedHeap
  | .ok (_, heap) => heap
  | .error _ => heap

def HeapOperation.run (heap : BoundedHeap) : HeapOperation → BoundedHeap
  | .allocate kind => heapAfter heap (heap.allocate kind)
  | .setProperty handle name value => heapAfter heap (heap.setProperty handle name value)
  | .removeProperty handle name => heapAfter heap (heap.removeProperty handle name)
  | .setPrototype handle prototype => heapAfter heap (heap.setPrototype handle prototype)
  | .collectGarbage roots => (heap.collectGarbage roots).2

/-- The heap after a sequence of calls on a new heap, failing calls included. -/
def heapRun (limits : RuntimeLimits) (operations : List HeapOperation) : BoundedHeap :=
  operations.foldl HeapOperation.run (BoundedHeap.new limits)

end GhitaBrowser.Runtime
