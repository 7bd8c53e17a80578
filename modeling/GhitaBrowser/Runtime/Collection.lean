import GhitaBrowser.Runtime.HeapAccounts

/-!
# What a collection keeps

The mark loop marks the objects that are reachable from the live roots and no others,
whatever cycles and stale references the heap has. The sweep takes out the rest and
writes to nothing it keeps.
-/

namespace GhitaBrowser.Runtime

open Relation List

/-! ## Objects and references -/

def Live (heap : BoundedHeap) (handle : HeapHandle) : Prop := ∃ object, heap.get handle = some object

/-- The object of `source` refers to `target` as its prototype or in a property. -/
def Refers (heap : BoundedHeap) (source target : HeapHandle) : Prop :=
  ∃ object, heap.get source = some object ∧
    (object.prototype = some target ∨
      ∃ name : String, object.properties[name]? = some (.object target))

def ReachableFrom (heap : BoundedHeap) (roots : List HeapHandle) (handle : HeapHandle) : Prop :=
  ∃ root ∈ roots, Live heap root ∧ ReflTransGen (Refers heap) root handle

namespace BoundedHeap

theorem mem_references {object : HeapObject} {target : HeapHandle} :
    target ∈ references object ↔
      object.prototype = some target ∨ ∃ name : String, object.properties[name]? = some (.object target) := by
  unfold references
  rw [mem_append, mem_reverse, mem_filterMap, Option.mem_toList, or_comm]
  refine or_congr Iff.rfl ⟨?_, ?_⟩
  · rintro ⟨⟨name, value⟩, hmem, hvalue⟩
    rw [Std.ExtTreeMap.mem_toList_iff_getElem?_eq_some] at hmem
    cases value with
    | object reference =>
      obtain rfl := Option.some.inj hvalue
      exact ⟨name, hmem⟩
    | _ => cases hvalue
  · rintro ⟨name, hname⟩
    exact ⟨(name, .object target), Std.ExtTreeMap.mem_toList_iff_getElem?_eq_some.mpr hname, rfl⟩

/-- The object a handle names among some slots. -/
def objectAt (slots : List HeapSlot) (handle : HeapHandle) : Option HeapObject :=
  (slotOf slots handle).bind HeapSlot.object

def IsMarked (slots : List HeapSlot) (handle : HeapHandle) : Prop :=
  ∃ slot, slotOf slots handle = some slot ∧ slot.object.isSome = true ∧ slot.marked = true

theorem get_eq (heap : BoundedHeap) (handle : HeapHandle) :
    heap.get handle = objectAt heap.slots handle := by
  unfold get objectAt
  cases slotOf heap.slots handle <;> rfl

variable {slots : List HeapSlot}

variable {handle : HeapHandle}

theorem slotOf_of {slot : HeapSlot}
    (h : slots[handle.slot.toNat]? = some slot) (hgeneration : slot.generation = handle.generation) :
    slotOf slots handle = some slot := by
  unfold slotOf
  rw [h]
  exact if_pos hgeneration

theorem slotOf_map {f : HeapSlot → HeapSlot}
    (hf : ∀ slot, (f slot).generation = slot.generation) (handle : HeapHandle) :
    slotOf (slots.map f) handle = (slotOf slots handle).map f := by
  unfold slotOf
  rw [List.getElem?_map]
  cases slots[handle.slot.toNat]? with
  | none => rfl
  | some slot =>
    simp only [Option.map_some, hf]
    split <;> rfl

theorem objectAt_unmark (slots : List HeapSlot) (handle : HeapHandle) :
    objectAt (slots.map unmark) handle = objectAt slots handle := by
  unfold objectAt
  rw [slotOf_map (f := unmark) fun _ => rfl]
  cases slotOf slots handle <;> rfl

theorem objectAt_congr {slots others : List HeapSlot} (h : others.map unmark = slots.map unmark)
    (handle : HeapHandle) : objectAt others handle = objectAt slots handle := by
  rw [← objectAt_unmark others, h, objectAt_unmark]

/-! ## The mark loop -/

section

variable {slots : List HeapSlot} {handle : HeapHandle} {slot : HeapSlot} {object : HeapObject}

theorem isMarked_visit (hslot : slots[handle.slot.toNat]? = some slot)
    (hgeneration : slot.generation = handle.generation) (hobject : slot.object = some object)
    {other : HeapHandle} :
    IsMarked (slots.set handle.slot.toNat { slot with marked := true }) other ↔
      IsMarked slots other ∨ other = handle := by
  obtain ⟨hi, -⟩ := List.getElem?_eq_some_iff.mp hslot
  by_cases hindex : handle.slot.toNat = other.slot.toNat
  · have hslots : handle.slot = other.slot := UInt32.toNat_inj.mp hindex
    constructor
    · rintro ⟨found, hfound, -, -⟩
      obtain ⟨hfound, hsame⟩ := slotOf_eq hfound
      rw [← hindex, List.getElem?_set_self hi] at hfound
      obtain rfl := Option.some.inj hfound
      right
      cases handle
      cases other
      simp_all
    · intro hor
      have hsame : other = handle := by
        rcases hor with ⟨found, hfound, -, -⟩ | heq
        · obtain ⟨hfound, hsame⟩ := slotOf_eq hfound
          rw [← hindex, hslot] at hfound
          obtain rfl := Option.some.inj hfound
          cases handle
          cases other
          simp_all
        · exact heq
      subst hsame
      refine ⟨{ slot with marked := true }, slotOf_of ?_ hgeneration, ?_, rfl⟩
      · rw [List.getElem?_set_self hi]
      · simp [hobject]
  · have hne : other ≠ handle := fun heq => hindex (by rw [heq])
    have hsame : slotOf (slots.set handle.slot.toNat { slot with marked := true }) other
        = slotOf slots other := by
      unfold slotOf
      rw [List.getElem?_set_ne hindex]
    unfold IsMarked
    rw [hsame]
    simp [hne]

/-- A live handle is skipped only because it carries a mark. -/
theorem isMarked_skipped (hslot : slots[handle.slot.toNat]? = some slot)
    (hskip : slot.generation ≠ handle.generation ∨ slot.marked = true)
    (hlive : (objectAt slots handle).isSome = true) : IsMarked slots handle := by
  by_cases hgeneration : slot.generation = handle.generation
  · have hslotOf := slotOf_of hslot hgeneration
    rw [objectAt, hslotOf] at hlive
    exact ⟨slot, hslotOf, hlive, hskip.resolve_left (not_not.mpr hgeneration)⟩
  · simp [objectAt, slotOf, hslot, hgeneration] at hlive

end

/-- One handle of the mark loop: it is passed over, or its object is marked and what that
refers to is pushed. -/
theorem mark_rule {motive : List HeapSlot → List HeapHandle → Prop}
    (nil : ∀ slots, motive slots [])
    (passed : ∀ slots first pending, mark slots (first :: pending) = mark slots pending →
      ((objectAt slots first).isSome = true → IsMarked slots first) →
      motive slots pending → motive slots (first :: pending))
    (visited : ∀ slots others first pending object,
      mark slots (first :: pending) = mark others (references object ++ pending) →
      objectAt slots first = some object → (∀ handle, objectAt others handle = objectAt slots handle) →
      (∀ {handle}, IsMarked others handle ↔ IsMarked slots handle ∨ handle = first) →
      motive others (references object ++ pending) → motive slots (first :: pending))
    (slots : List HeapSlot) (pending : List HeapHandle) : motive slots pending := by
  induction slots, pending using mark.induct with
  | case1 slots => exact nil slots
  | case2 slots first pending hslot ih =>
    exact passed slots first pending (mark_absent hslot) (by simp [objectAt, slotOf, hslot]) ih
  | case3 slots first pending slot hslot hskip ih =>
    exact passed slots first pending (mark_skip hslot hskip) (isMarked_skipped hslot hskip) ih
  | case4 slots first pending slot hslot hvisit hobject ih =>
    rw [not_or, not_not] at hvisit
    refine passed slots first pending (mark_empty hslot hobject) (fun hlive => ?_) ih
    simp [objectAt, slotOf_of hslot hvisit.1, hobject] at hlive
  | case5 slots first pending slot hslot hvisit object hobject ih =>
    have hmark : mark slots (first :: pending) = _ := mark_visit hslot hvisit hobject
    rw [not_or, not_not] at hvisit
    have hfirst : objectAt slots first = some object := by
      unfold objectAt
      rw [slotOf_of hslot hvisit.1]
      exact hobject
    exact visited slots _ first pending object hmark hfirst (objectAt_congr (set_unmark hslot))
      (isMarked_visit hslot hvisit.1 hobject) ih

variable {pending : List HeapHandle}

theorem mark_mono (h : IsMarked slots handle) : IsMarked (mark slots pending) handle := by
  induction slots, pending using mark_rule with
  | nil slots => rwa [mark_nil]
  | passed slots first pending hmark _ ih => rw [hmark]; exact ih h
  | visited slots others first pending object hmark _ _ hmarked ih =>
    rw [hmark]
    exact ih (hmarked.mpr (.inl h))

/-- The references among some slots. -/
def RefersIn (slots : List HeapSlot) (source target : HeapHandle) : Prop :=
  ∃ object, objectAt slots source = some object ∧ target ∈ references object

theorem RefersIn.of_same {slots others : List HeapSlot} {source target : HeapHandle}
    (h : ∀ handle, objectAt others handle = objectAt slots handle)
    (hrefers : RefersIn others source target) : RefersIn slots source target := by
  obtain ⟨object, hobject, hreference⟩ := hrefers
  exact ⟨object, h source ▸ hobject, hreference⟩

theorem mark_sound (h : IsMarked (mark slots pending) handle) :
    IsMarked slots handle ∨
      ∃ root ∈ pending, (objectAt slots root).isSome = true ∧ ReflTransGen (RefersIn slots) root handle := by
  induction slots, pending using mark_rule with
  | nil slots =>
    rw [mark_nil] at h
    exact .inl h
  | passed slots first pending hmark _ ih =>
    rw [hmark] at h
    refine (ih h).imp_right fun ⟨root, hroot, hpath⟩ => ⟨root, mem_cons_of_mem _ hroot, hpath⟩
  | visited slots others first pending object hmark hfirst hsame hmarked ih =>
    rw [hmark] at h
    rcases ih h with hmark | ⟨root, hroot, hlive, hpath⟩
    · refine (hmarked.mp hmark).imp_right ?_
      rintro rfl
      exact ⟨handle, mem_cons_self, by simp [hfirst], .refl⟩
    · replace hpath := ReflTransGen.mono (fun _ _ => RefersIn.of_same hsame) _ _ hpath
      rw [hsame] at hlive
      rcases mem_append.mp hroot with hreference | hpending
      · exact .inr ⟨first, mem_cons_self, by simp [hfirst], .head ⟨object, hfirst, hreference⟩ hpath⟩
      · exact .inr ⟨root, mem_cons_of_mem _ hpending, hlive, hpath⟩

theorem mark_pending (h : handle ∈ pending) (hlive : (objectAt slots handle).isSome = true) :
    IsMarked (mark slots pending) handle := by
  induction slots, pending using mark_rule with
  | nil slots => cases h
  | passed slots first pending hmark hskipped ih =>
    rw [hmark]
    rcases mem_cons.mp h with rfl | hrest
    · exact mark_mono (hskipped hlive)
    · exact ih hrest hlive
  | visited slots others first pending object hmark _ hsame hmarked ih =>
    rw [hmark]
    rcases mem_cons.mp h with rfl | hrest
    · exact mark_mono (hmarked.mpr (.inr rfl))
    · exact ih (mem_append_right _ hrest) (by rwa [hsame])

/-- What a marked object refers to is marked or still to be visited. -/
def ClosedUpTo (slots : List HeapSlot) (pending : List HeapHandle) : Prop :=
  ∀ source target, IsMarked slots source → RefersIn slots source target →
    (objectAt slots target).isSome = true → IsMarked slots target ∨ target ∈ pending

theorem mark_closed (h : ClosedUpTo slots pending) : ClosedUpTo (mark slots pending) [] := by
  induction slots, pending using mark_rule with
  | nil slots => rwa [mark_nil]
  | passed slots first pending hmark hskipped ih =>
    rw [hmark]
    refine ih fun source target hmarked hrefers hlive => ?_
    rcases h source target hmarked hrefers hlive with hmarked | hmem
    · exact .inl hmarked
    · rcases mem_cons.mp hmem with rfl | hrest
      · exact .inl (hskipped hlive)
      · exact .inr hrest
  | visited slots others first pending object hmark hfirst hsame hmarked ih =>
    rw [hmark]
    refine ih fun source target hsource hrefers hlive => ?_
    rw [hmarked] at hsource ⊢
    replace hrefers := hrefers.of_same hsame
    rw [hsame] at hlive
    rcases hsource with hold | rfl
    · rcases h source target hold hrefers hlive with hmarked | hmem
      · exact .inl (.inl hmarked)
      · rcases mem_cons.mp hmem with rfl | hrest
        · exact .inl (.inr rfl)
        · exact .inr (mem_append_right _ hrest)
    · -- the references of the visited object have just been pushed
      obtain ⟨found, hfound, hreference⟩ := hrefers
      obtain rfl := Option.some.inj (hfirst.symm.trans hfound)
      exact .inr (mem_append_left _ hreference)

/-! ## The sweep -/

theorem objectAt_sweepSlot {object : HeapObject} :
    objectAt (slots.map sweepSlot) handle = some object ↔
      objectAt slots handle = some object ∧ IsMarked slots handle := by
  unfold objectAt IsMarked slotOf
  rw [List.getElem?_map]
  cases slots[handle.slot.toNat]? with
  | none => simp
  | some slot =>
    by_cases hdoomed : isDoomed slot
    · have hunmarked : slot.marked = false := by
        simp only [isDoomed, Bool.and_eq_true, Bool.not_eq_true'] at hdoomed
        exact hdoomed.2
      simp only [Option.map_some, sweepSlot, hdoomed, if_true]
      constructor
      · intro h
        split at h
        · cases h
        · cases h
      · rintro ⟨-, found, hfound, -, hmarked⟩
        split at hfound
        · obtain rfl := Option.some.inj hfound
          rw [hunmarked] at hmarked
          cases hmarked
        · cases hfound
    · have hkept : sweepSlot slot = slot := if_neg hdoomed
      simp only [Option.map_some, hkept]
      refine ⟨fun h => ⟨h, ?_⟩, And.left⟩
      split at h
      · next hgeneration =>
        refine ⟨slot, if_pos hgeneration, ?_, ?_⟩
        · rw [show slot.object = some object from h]
          rfl
        · have hobject : slot.object = some object := h
          simpa [isDoomed, hobject] using hdoomed
      · cases h

theorem not_isMarked_unmark :
    ¬ IsMarked (slots.map unmark) handle := by
  rintro ⟨slot, hslot, -, hmarked⟩
  rw [slotOf_map (f := unmark) fun _ => rfl, Option.map_eq_some_iff] at hslot
  obtain ⟨old, -, rfl⟩ := hslot
  cases hmarked

theorem isMarked_markedFrom {heap : BoundedHeap} {roots : List HeapHandle}
    (hlive : Live heap handle) :
    IsMarked (markedFrom heap roots) handle ↔ ReachableFrom heap roots handle := by
  have hobjects : ∀ handle, objectAt (heap.slots.map unmark) handle = heap.get handle := by
    intro handle
    rw [objectAt_unmark, get_eq]
  have hrefers : RefersIn (heap.slots.map unmark) = Refers heap := by
    funext source target
    simp only [RefersIn, Refers, hobjects, mem_references]
  constructor
  · intro hmarked
    rcases mark_sound hmarked with hold | ⟨root, hroot, hrootLive, hpath⟩
    · exact absurd hold not_isMarked_unmark
    · rw [hobjects] at hrootLive
      exact ⟨root, mem_reverse.mp hroot, Option.isSome_iff_exists.mp hrootLive, hrefers ▸ hpath⟩
  · rintro ⟨root, hroot, ⟨rootObject, hrootObject⟩, hpath⟩
    have hclosed : ClosedUpTo (markedFrom heap roots) [] :=
      mark_closed fun _ _ hmarked => absurd hmarked not_isMarked_unmark
    have hsame := objectAt_congr (mark_unmark (heap.slots.map unmark) roots.reverse)
    -- along the path: every object that is left is live, since it refers to the next one
    induction hpath with
    | refl =>
      refine mark_pending (mem_reverse.mpr hroot) ?_
      rw [hobjects, hrootObject]
      rfl
    | tail hfirst hlast ih =>
      obtain ⟨source, hsource, hreference⟩ := hlast
      obtain ⟨target, htarget⟩ := hlive
      have hmarked := ih ⟨source, hsource⟩
      refine (hclosed _ _ hmarked ⟨source, ?_, mem_references.mpr hreference⟩ ?_).resolve_right
        not_mem_nil
      · rw [markedFrom, hsame, hobjects, hsource]
      · rw [markedFrom, hsame, hobjects, htarget]
        rfl

theorem get_collectGarbage {heap : BoundedHeap} (hbalanced : Balanced heap)
    {roots : List HeapHandle} {object : HeapObject} :
    (heap.collectGarbage roots).2.get handle = some object ↔
      heap.get handle = some object ∧ IsMarked (markedFrom heap roots) handle := by
  rw [collectGarbage_eq hbalanced, get_eq, get_eq]
  show objectAt ((markedFrom heap roots).map sweepSlot) handle = some object ↔ _
  rw [objectAt_sweepSlot, objectAt_congr (markedFrom_unmark heap roots)]

end BoundedHeap

/-- What a collection from some roots does to a heap. -/
structure Collected (heap : BoundedHeap) (roots : List HeapHandle) (reclaimed : Nat)
    (after : BoundedHeap) : Prop where
  live_iff : ∀ handle, Live heap handle → (Live after handle ↔ ReachableFrom heap roots handle)
  unchanged : ∀ handle object, after.get handle = some object → heap.get handle = some object
  used_le : after.usedBytes ≤ heap.usedBytes
  reclaimed_eq : reclaimed = heap.usedBytes - after.usedBytes

/-- In every heap, for every list of roots. -/
theorem collection_keeps_the_reachable (limits : RuntimeLimits) (operations : List HeapOperation)
    (roots : List HeapHandle) :
    Collected (heapRun limits operations) roots
      ((heapRun limits operations).collectGarbage roots).1
      ((heapRun limits operations).collectGarbage roots).2 := by
  have hbalanced := BoundedHeap.balanced_heapRun limits operations
  constructor
  · intro handle hlive
    rw [← BoundedHeap.isMarked_markedFrom hlive]
    obtain ⟨object, hobject⟩ := hlive
    constructor
    · rintro ⟨kept, hkept⟩
      exact ((BoundedHeap.get_collectGarbage hbalanced).mp hkept).2
    · intro hmarked
      exact ⟨object, (BoundedHeap.get_collectGarbage hbalanced).mpr ⟨hobject, hmarked⟩⟩
  · intro handle object hobject
    exact ((BoundedHeap.get_collectGarbage hbalanced).mp hobject).1
  · rw [BoundedHeap.collectGarbage_eq hbalanced]
    exact Nat.sub_le _ _
  · rw [BoundedHeap.collectGarbage_eq hbalanced]
    have hmarked := hbalanced.of_unmark (BoundedHeap.markedFrom_unmark (heapRun limits operations) roots)
    have hsum := BoundedHeap.sum_sweepSlot (BoundedHeap.markedFrom (heapRun limits operations) roots)
    have hused : (heapRun limits operations).usedBytes =
        ((BoundedHeap.markedFrom (heapRun limits operations) roots).map HeapSlot.bytes).sum :=
      hmarked.used
    simp only [BoundedHeap.swept]
    omega

end GhitaBrowser.Runtime
