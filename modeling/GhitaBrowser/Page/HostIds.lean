import GhitaBrowser.Page.HostObjects

/-!
# Host object ids are unambiguous

Elements and platform objects count from 32, above the reserved ids; events, form data,
canvas contexts and observers each count from 0. So ids stay unambiguous as long as at
most one object gets its id from the counters that start at 0, no form data is made
(`call` looks for it under the reserved id), and the handles stay below the flag bits.
-/

namespace GhitaBrowser.Page

open List

namespace HostObjects

def reservedIds : List Nat := List.range' 1 15

/-- A table has the object with this serial under the id. -/
def Holds (s : HostObjects) (serial id : Nat) : Prop :=
  ∃ t entry, (s.table t)[id]? = some entry ∧ entry.serial = serial

/-- The step makes an event, an observer or a new canvas context. -/
def countsFromZero (s : HostObjects) : HostStep → Bool
  | .elementFor _ _ _ => false
  | .call object method =>
    match s.callTarget object method.name, method with
    | .reserved id, .event | .reserved id, .customEvent | .reserved id, .mutationObserver
    | .reserved id, .resizeObserver | .reserved id, .intersectionObserver => id == hostWindow
    | .object .elements canvas, .getContext =>
      !(s.table .canvasContexts).toList.any fun entry => entry.2.belongsTo == canvas.belongsTo
    | _, _ => false

def makesFormData (s : HostObjects) : HostStep → Bool
  | .elementFor _ _ _ => false
  | .call object method =>
    match s.callTarget object method.name, method with
    | .reserved id, .formData _ _ => id == hostWindow
    | _, _ => false

/-- The step makes no form data, none of the counters that start at 0 has given an id when
it takes one from them, and the handles it can take are below the flag bits. -/
structure Clear (s : HostObjects) (step : HostStep) : Prop where
  below : s.nextElementId + 1 < hostClasslistBit
  form : s.makesFormData step = false
  first : s.countsFromZero step = true →
    s.nextEventId = 0 ∧ s.nextContextId = 0 ∧ s.nextObserverId = 0

/-- Every step of a run from a state is clear. -/
def ClearRun (s : HostObjects) : List HostStep → Prop
  | [] => True
  | step :: steps => s.Clear step ∧ (s.step step).ClearRun steps

/-! ## Flag bits -/

theorem hasBit_two_pow (k n : Nat) : hasBit (2 ^ k) n = n.testBit k := by
  rw [hasBit]
  by_cases hbit : n.testBit k
  · rw [hbit, bne_iff_ne]
    intro hzero
    have hand : (n &&& 2 ^ k).testBit k = true := by
      rw [Nat.testBit_and, hbit, Nat.testBit_two_pow_self]
      rfl
    rw [hzero, Nat.zero_testBit] at hand
    cases hand
  · have hzero : n &&& 2 ^ k = 0 := by
      apply Nat.eq_of_testBit_eq
      intro i
      rw [Nat.testBit_and, Nat.testBit_two_pow, Nat.zero_testBit]
      by_cases hi : k = i
      · rw [← hi, Bool.eq_false_of_not_eq_true hbit, Bool.false_and]
      · rw [decide_eq_false hi, Bool.and_false]
    rw [hzero, Bool.eq_false_of_not_eq_true hbit]
    rfl

theorem hasBit_of_lt {k n : Nat} (hk : 60 ≤ k) (hn : n < 2 ^ 60) : hasBit (2 ^ k) n = false := by
  rw [hasBit_two_pow]
  exact Nat.testBit_lt_two_pow (Nat.lt_of_lt_of_le hn (Nat.pow_le_pow_right (by decide) hk))

/-- Where the ids come from. -/
structure Numbered (s : HostObjects) : Prop where
  atLeast : 32 ≤ s.nextElementId
  below : s.nextElementId ≤ hostClasslistBit
  once : s.nextEventId + s.nextContextId + s.nextObserverId ≤ 1
  given : ∀ id ∈ s.issued, (id = 0 ∧ 0 < s.nextEventId + s.nextContextId + s.nextObserverId) ∨
    (32 ≤ id ∧ id < s.nextElementId)

/-- How the tables relate to the ids handed out. -/
structure Stored (s : HostObjects) : Prop where
  distinct : s.issued.Nodup
  live : ∀ t id (entry : HostEntry), (s.table t)[id]? = some entry →
    s.issued[entry.serial]? = some id
  form : ∀ id : Nat, (s.table .formData)[id]? = none
  kept : ∀ (serial : Nat) id, s.issued[serial]? = some id → id ∉ s.closed → s.Holds serial id

structure Sound (s : HostObjects) : Prop where
  numbered : s.Numbered
  stored : s.Stored

theorem new_sound : new.Sound where
  numbered := ⟨Nat.le_refl 32, by decide, Nat.zero_le 1, nofun⟩
  stored := ⟨nodup_nil, fun t id entry h => by simp [new] at h, fun id => by simp [new], nofun⟩

section Steps

variable {s : HostObjects}

theorem getElem?_insert (t other : HostTable) (id key : Nat) (entry : HostEntry) :
    ((s.insert t id entry).table other)[key]? =
      if other = t ∧ key = id then some entry else (s.table other)[key]? := by
  rw [insert]
  by_cases ht : other = t
  · subst ht
    simp only [if_true, true_and, IdMap.getElem?_insert]
  · simp only [false_and, if_false, ht]

/-- Entries are taken out of the tables, and their ids are closed. -/
theorem Stored.lessen {after : HostObjects} (stored : s.Stored) (hissued : after.issued = s.issued)
    (hless : ∀ (t : HostTable) (id : Nat) (entry : HostEntry),
      (after.table t)[id]? = some entry → (s.table t)[id]? = some entry)
    (hclosed : s.closed ⊆ after.closed)
    (hkeeps : ∀ (t : HostTable) (id : Nat) (entry : HostEntry), id ∉ after.closed →
      (s.table t)[id]? = some entry → (after.table t)[id]? = some entry) : after.Stored where
  distinct := hissued ▸ stored.distinct
  live t id entry h := hissued ▸ stored.live t id entry (hless t id entry h)
  form id := by
    cases h : (after.table .formData)[id]? with
    | none => rfl
    | some entry => exact absurd (hless _ _ _ h) (by simp [stored.form])
  kept serial id h hopen := by
    obtain ⟨t, entry, hentry, hserial⟩ :=
      stored.kept serial id (hissued ▸ h) fun hmem => hopen (hclosed hmem)
    exact ⟨t, entry, hkeeps t id entry hopen hentry, hserial⟩

theorem Stored.remove (t : HostTable) (id : Nat) (stored : s.Stored) : (s.remove t id).Stored := by
  refine stored.lessen rfl (fun other key entry h => ?_) (subset_cons_self _ _)
    fun other key entry hopen h => ?_
  · simp only [HostObjects.remove] at h
    split at h
    · next heq =>
      rw [IdMap.getElem?_erase] at h
      split at h
      · cases h
      · exact heq ▸ h
    · exact h
  · have hne : key ≠ id := fun heq => hopen (heq ▸ mem_cons_self)
    simp only [HostObjects.remove]
    split
    · next heq => rw [IdMap.getElem?_erase, if_neg hne, ← heq, h]
    · exact h

theorem Stored.retain (t : HostTable) (keep : List String → Bool) (stored : s.Stored) :
    (s.retain t keep).Stored := by
  refine stored.lessen rfl (fun other key entry h => ?_) (subset_append_right _ _)
    fun other key entry hopen h => ?_
  · simp only [HostObjects.retain] at h
    split at h
    · next heq =>
      rw [Std.ExtTreeMap.getElem?_filter, Option.pfilter_eq_some_iff] at h
      exact heq ▸ h.1
    · exact h
  · simp only [HostObjects.retain]
    split
    · next heq =>
      subst heq
      rw [Std.ExtTreeMap.getElem?_filter, Option.pfilter_eq_some_iff]
      refine ⟨h, ?_⟩
      by_contra hkeep
      refine hopen (mem_append_left _ (Std.ExtTreeMap.mem_keys.2 ?_))
      rw [Std.ExtTreeMap.mem_iff_isSome_getElem?, Std.ExtTreeMap.getElem?_filter, h]
      simpa using hkeep
    · exact h

variable {entry : HostEntry} {t : HostTable} {id : Nat}

theorem Stored.serial_eq (stored : s.Stored) {i j : Nat} (hi : s.issued[i]? = some id)
    (hj : s.issued[j]? = some id) : i = j :=
  (List.getElem?_inj (List.getElem?_eq_some_iff.mp hi).1 stored.distinct).mp (hi.trans hj.symm)

theorem Stored.insert (ht : t ≠ .formData)
    (hserial : s.issued[entry.serial]? = some id) (stored : s.Stored) :
    (s.insert t id entry).Stored := by
  refine ⟨stored.distinct, fun other key e h => ?_, fun key => ?_, fun serial key h hopen => ?_⟩
  · rw [getElem?_insert] at h
    split at h
    · next heq =>
      cases h
      exact heq.2 ▸ hserial
    · exact stored.live other key e h
  · rw [getElem?_insert, if_neg fun h => ht h.1.symm]
    exact stored.form key
  · obtain ⟨other, old, hold, heq⟩ := stored.kept serial key h hopen
    by_cases hsame : other = t ∧ key = id
    · rw [hsame.2] at h
      exact ⟨t, entry, by rw [getElem?_insert, if_pos ⟨rfl, hsame.2⟩], stored.serial_eq hserial h⟩
    · exact ⟨other, old, by rw [getElem?_insert, if_neg hsame, hold], heq⟩

variable (names : List String)

theorem Stored.create (belongsTo : Nat)
    (ht : t ≠ .formData) (hnew : id ∉ s.issued) (stored : s.Stored) :
    (s.create t id names belongsTo).Stored := by
  let entry : HostEntry := ⟨s.issued.length, names, belongsTo⟩
  have htable : ∀ (other : HostTable) (key : Nat),
      ((s.create t id names belongsTo).table other)[key]? =
        if other = t ∧ key = id then some entry else (s.table other)[key]? :=
    fun other key => getElem?_insert t other id key entry
  refine ⟨?_, fun other key old h => ?_, fun key => ?_, fun serial key h hopen => ?_⟩
  · refine nodup_append.2 ⟨stored.distinct, pairwise_singleton _ id, fun a ha b hb hab => ?_⟩
    exact hnew (mem_singleton.mp hb ▸ hab ▸ ha)
  · rw [htable] at h
    split at h
    · next heq =>
      cases h
      exact heq.2 ▸ List.getElem?_concat_length
    · have hlive := stored.live other key old h
      exact (List.getElem?_append_left (List.getElem?_eq_some_iff.mp hlive).1).trans hlive
  · rw [htable, if_neg fun h => ht h.1.symm]
    exact stored.form key
  · have h : (s.issued ++ [id])[serial]? = some key := h
    rw [List.getElem?_append] at h
    split at h
    · obtain ⟨other, old, hold, heq⟩ := stored.kept serial key h hopen
      have hne : ¬(other = t ∧ key = id) := fun hsame => hnew (hsame.2 ▸ mem_of_getElem? h)
      exact ⟨other, old, by rw [htable, if_neg hne, hold], heq⟩
    · next hlength =>
      obtain ⟨hzero, hkey⟩ := List.getElem?_eq_some_iff.1 h
      have hserial : s.issued.length = serial := by
        rw [length_singleton] at hzero
        omega
      have heq : id = key := by simpa using hkey
      exact ⟨t, entry, by rw [htable, if_pos ⟨rfl, heq.symm⟩], hserial⟩

theorem Numbered.create (belongsTo : Nat)
    (hid : (id = 0 ∧ 0 < s.nextEventId + s.nextContextId + s.nextObserverId) ∨
      (32 ≤ id ∧ id < s.nextElementId)) (numbered : s.Numbered) :
    (s.create t id names belongsTo).Numbered := by
  refine ⟨numbered.atLeast, numbered.below, numbered.once, fun other hother => ?_⟩
  rcases mem_append.mp hother with h | h
  · exact numbered.given other h
  · exact mem_singleton.mp h ▸ hid

/-- A handle was taken from the counter: its id has not been handed out. -/
structure Taken (s : HostObjects) (id : Nat) (after : HostObjects) : Prop where
  sound : after.Sound
  fresh : id ∉ after.issued
  next : id = s.nextElementId
  counter : after.nextElementId = s.nextElementId + 1
  issued : after.issued = s.issued

theorem Taken.range {after : HostObjects} (taken : s.Taken id after) (sound : s.Sound) :
    32 ≤ id ∧ id < after.nextElementId := by
  rw [taken.counter, taken.next]
  exact ⟨sound.numbered.atLeast, Nat.lt_succ_self _⟩

theorem Sound.nextHostId {after : HostObjects} (sound : s.Sound)
    (hbelow : s.nextElementId < hostClasslistBit) (h : s.nextHostId = some (id, after)) :
    s.Taken id after := by
  rw [HostObjects.nextHostId] at h
  split at h
  · cases h
  cases h
  refine ⟨⟨⟨Nat.le_succ_of_le sound.numbered.atLeast, hbelow, sound.numbered.once,
    fun other hother => ?_⟩, ⟨sound.stored.1, sound.stored.2, sound.stored.3, sound.stored.4⟩⟩, fun hmem => ?_,
    rfl, rfl, rfl⟩
  · exact (sound.numbered.given other hother).imp_right fun h => ⟨h.1, Nat.lt_succ_of_lt h.2⟩
  · rcases sound.numbered.given _ hmem with ⟨hzero, -⟩ | ⟨-, hlt⟩
    · have := sound.numbered.atLeast
      omega
    · exact Nat.lt_irrefl _ hlt

theorem Sound.openHandle (belongsTo : Nat)
    (ht : t ≠ .formData) (hbelow : s.nextElementId < hostClasslistBit) (sound : s.Sound) :
    (s.openHandle t names belongsTo).Sound := by
  rw [HostObjects.openHandle]
  split
  · exact sound
  · next h =>
    have taken := sound.nextHostId hbelow h
    exact ⟨taken.sound.numbered.create names belongsTo (.inr (taken.range sound)),
      taken.sound.stored.create names belongsTo ht taken.fresh⟩

theorem Sound.openHeapHandle (belongsTo : Nat) (heap : Bool)
    (ht : t ≠ .formData) (hbelow : s.nextElementId < hostClasslistBit) (sound : s.Sound) :
    (s.openHeapHandle t belongsTo heap).Sound := by
  rw [HostObjects.openHeapHandle]
  split
  · exact sound
  · next h =>
    have taken := sound.nextHostId hbelow h
    split
    · exact ⟨taken.sound.numbered.create [] belongsTo (.inr (taken.range sound)),
        taken.sound.stored.create [] belongsTo ht taken.fresh⟩
    · exact taken.sound

theorem Sound.elementFor (node : Nat) (media heap : Bool)
    (hbelow : s.nextElementId < hostClasslistBit) (sound : s.Sound) :
    (s.elementFor node media heap).Sound := by
  rw [HostObjects.elementFor]
  split
  · exact sound
  split
  · exact sound
  · next id after h =>
    have taken := sound.nextHostId hbelow h
    split
    · have hnumbered := taken.sound.numbered.create (t := .elements) [] node
        (.inr (taken.range sound))
      have hstored := taken.sound.stored.create (t := .elements) [] node nofun taken.fresh
      have hboth : ({ after.create .elements id [] node with
          handles := after.handles.insert node id } : HostObjects).Sound :=
        ⟨⟨hnumbered.1, hnumbered.2, hnumbered.3, hnumbered.4⟩,
          ⟨hstored.1, hstored.2, hstored.3, hstored.4⟩⟩
      simp only
      split
      · refine ⟨⟨hboth.1.1, hboth.1.2, hboth.1.3, hboth.1.4⟩, hboth.stored.insert nofun ?_⟩
        simp [HostObjects.create]
      · exact hboth
    · exact taken.sound

theorem Sound.tee (hbelow : s.nextElementId + 1 < hostClasslistBit) (sound : s.Sound) :
    s.tee.Sound := by
  rw [HostObjects.tee]
  split
  · exact sound
  split
  · exact sound
  · next first afterFirst h =>
    have one := sound.nextHostId (Nat.lt_of_succ_lt hbelow) h
    split
    · exact one.sound
    · next second afterSecond h' =>
      have two := one.sound.nextHostId (one.counter ▸ hbelow) h'
      have hfirst : first ∉ afterSecond.issued := two.issued ▸ one.fresh
      have hrange := one.range sound
      have hsecond := two.range one.sound
      have hlt : first < second := by rw [two.next, one.counter, one.next]; exact Nat.lt_succ_self _
      have hinserted := two.sound.stored.create (t := .readableStreams) [] 0 nofun hfirst
      refine ⟨(two.sound.numbered.create [] 0 (.inr ⟨hrange.1, Nat.lt_trans hlt hsecond.2⟩)).create
        [] 0 (.inr hsecond), hinserted.create [] 0 nofun ?_⟩
      intro hmem
      rcases mem_append.mp hmem with hmem | hmem
      · exact two.fresh hmem
      · exact Nat.ne_of_gt hlt (mem_singleton.mp hmem)

/-! The counters that start at 0. -/

theorem Sound.evictOldest (t : HostTable) (sound : s.Sound) : (s.evictOldest t).Sound := by
  rw [HostObjects.evictOldest]
  split
  · split
    · exact ⟨⟨sound.1.1, sound.1.2, sound.1.3, sound.1.4⟩, sound.stored.remove t _⟩
    · exact sound
  · exact sound

/-- The counters that start at 0 have given no id yet. -/
def Untouched (s : HostObjects) : Prop :=
  s.nextEventId = 0 ∧ s.nextContextId = 0 ∧ s.nextObserverId = 0

theorem Sound.zero_not_mem (sound : s.Sound) (first : s.Untouched) : 0 ∉ s.issued := by
  intro hmem
  obtain ⟨hevent, hcontext, hobserver⟩ := first
  rcases sound.numbered.given 0 hmem with ⟨-, hpos⟩ | ⟨hlt, -⟩
  · omega
  · omega

theorem Sound.allocateEvent (first : s.Untouched) (sound : s.Sound) : s.allocateEvent.Sound := by
  have hevict := sound.evictOldest .events
  have hcounters : (s.evictOldest .events).Untouched := by
    rw [HostObjects.evictOldest]
    split
    · split <;> exact first
    · exact first
  rw [HostObjects.allocateEvent]
  generalize s.evictOldest .events = s at hevict hcounters
  obtain ⟨hevent, hcontext, hobserver⟩ := hcounters
  split
  · exact hevict
  · have hzero := hevict.zero_not_mem ⟨hevent, hcontext, hobserver⟩
    have hstored : ({ s with nextEventId := s.nextEventId + 1 } : HostObjects).Stored :=
      ⟨hevict.2.1, hevict.2.2, hevict.2.3, hevict.2.4⟩
    have hnumbered : ({ s with nextEventId := s.nextEventId + 1 } : HostObjects).Numbered :=
      ⟨hevict.1.1, hevict.1.2, by simp only; omega, fun id hid => (hevict.1.4 id hid).imp_left
        fun h => ⟨h.1, by simp only; omega⟩⟩
    exact ⟨hnumbered.create [] 0 (.inl ⟨hevent, by simp only; omega⟩),
      hstored.create [] 0 nofun (hevent ▸ hzero)⟩

theorem Sound.allocateObserver (first : s.Untouched) (sound : s.Sound) :
    s.allocateObserver.Sound := by
  have hzero := sound.zero_not_mem first
  obtain ⟨hevent, hcontext, hobserver⟩ := first
  rw [HostObjects.allocateObserver]
  split
  · exact sound
  split
  · exact sound
  · have hstored : ({ s with nextObserverId := s.nextObserverId + 1 } : HostObjects).Stored :=
      ⟨sound.2.1, sound.2.2, sound.2.3, sound.2.4⟩
    have hnumbered : ({ s with nextObserverId := s.nextObserverId + 1 } : HostObjects).Numbered :=
      ⟨sound.1.1, sound.1.2, by simp only; omega, fun id hid => (sound.1.4 id hid).imp_left
        fun h => ⟨h.1, by simp only; omega⟩⟩
    exact ⟨hnumbered.create [] 0 (.inl ⟨hobserver, by simp only; omega⟩),
      hstored.create [] 0 nofun (hobserver ▸ hzero)⟩

theorem Sound.getContext (canvas : Nat)
    (first : ((s.table .canvasContexts).toList.any fun entry => entry.2.belongsTo == canvas) = false →
      s.Untouched) (sound : s.Sound) : (s.getContext canvas).Sound := by
  rw [HostObjects.getContext]
  split
  · exact sound
  · next hany =>
    have hfirst := first (Bool.eq_false_of_not_eq_true hany)
    have hzero := sound.zero_not_mem hfirst
    obtain ⟨hevent, hcontext, hobserver⟩ := hfirst
    split
    · exact sound
    split
    · exact sound
    · have hstored : ({ s with nextContextId := s.nextContextId + 1 } : HostObjects).Stored :=
        ⟨sound.2.1, sound.2.2, sound.2.3, sound.2.4⟩
      have hnumbered : ({ s with nextContextId := s.nextContextId + 1 } : HostObjects).Numbered :=
        ⟨sound.1.1, sound.1.2, by simp only; omega, fun id hid => (sound.1.4 id hid).imp_left
          fun h => ⟨h.1, by simp only; omega⟩⟩
      exact ⟨hnumbered.create [] canvas (.inl ⟨hcontext, by simp only; omega⟩),
        hstored.create [] canvas nofun (hcontext ▸ hzero)⟩

theorem Sound.remove (t : HostTable) (id : Nat) (sound : s.Sound) : (s.remove t id).Sound :=
  ⟨⟨sound.1.1, sound.1.2, sound.1.3, sound.1.4⟩, sound.stored.remove t id⟩

theorem Sound.retain (t : HostTable) (keep : List String → Bool) (sound : s.Sound) :
    (s.retain t keep).Sound :=
  ⟨⟨sound.1.1, sound.1.2, sound.1.3, sound.1.4⟩, sound.stored.retain t keep⟩

/-! ## Calls -/

theorem Sound.callReserved (object : Nat) (method : HostMethod)
    (hbelow : s.nextElementId < hostClasslistBit)
    (form : ∀ form fits, method = .formData form fits → object ≠ hostWindow)
    (first : object = hostWindow → method ∈ [.event, .customEvent, .mutationObserver,
      .resizeObserver, .intersectionObserver] → s.Untouched) (sound : s.Sound) :
    (s.callReserved object method).Sound := by
  unfold HostObjects.callReserved
  split
  · next hwindow =>
    have first := first hwindow
    split
    · exact sound.allocateEvent (first (by simp))
    · exact sound.allocateEvent (first (by simp))
    · exact absurd hwindow (form _ _ rfl)
    · exact sound.allocateObserver (first (by simp))
    · exact sound.allocateObserver (first (by simp))
    · exact sound.allocateObserver (first (by simp))
    · split
      · exact sound
      · exact sound.openHandle _ _ nofun hbelow
    · exact sound.openHandle _ _ nofun hbelow
    · exact sound.openHandle _ _ nofun hbelow
    · exact sound.openHandle _ _ nofun hbelow
    · exact sound.openHeapHandle _ _ nofun hbelow
    · exact sound
  split
  · split
    · exact sound.openHandle _ _ nofun hbelow
    · exact (sound.retain _ _).retain _ _
    · exact sound
  split
  · split
    · exact sound.openHandle _ _ nofun hbelow
    · exact sound.retain _ _
    · exact sound
  split
  · split
    · exact sound.openHandle _ _ nofun hbelow
    · exact sound.openHandle _ _ nofun hbelow
    · exact sound
  · exact sound

theorem Sound.callObject (t : HostTable) (object : Nat) (entry : HostEntry) (method : HostMethod)
    (hbelow : s.nextElementId + 1 < hostClasslistBit)
    (first : t = .elements → method = .getContext →
      ((s.table .canvasContexts).toList.any fun e => e.2.belongsTo == entry.belongsTo) = false →
        s.Untouched) (sound : s.Sound) :
    (s.callObject t object entry method).Sound := by
  have hlt : s.nextElementId < hostClasslistBit := Nat.lt_of_succ_lt hbelow
  unfold HostObjects.callObject
  split
  case h_2 => exact sound.tee hbelow
  case h_4 =>
    split
    · exact sound
    · exact sound.remove _ _
  case h_17 => exact sound.getContext _ (first rfl rfl)
  all_goals first
    | exact sound
    | exact sound.openHandle _ _ nofun hlt
    | exact sound.openHeapHandle _ _ nofun hlt
    | exact sound.remove _ _
    | exact sound.retain _ _
    | exact (sound.retain _ _).retain _ _
    | exact ((sound.remove _ _).retain _ _).retain _ _

theorem Sound.step (step : HostStep) (clear : s.Clear step) (sound : s.Sound) :
    (s.step step).Sound := by
  have hlt : s.nextElementId < hostClasslistBit := Nat.lt_of_succ_lt clear.below
  cases step with
  | elementFor node media heap => exact sound.elementFor node media heap hlt
  | call object method =>
    have form := clear.form
    have first := clear.first
    simp only [makesFormData, countsFromZero] at form first
    simp only [HostObjects.step, HostObjects.call]
    split
    · next t entry htarget =>
      rw [htarget] at form first
      refine sound.callObject t object entry method clear.below fun ht hmethod hany => ?_
      subst ht hmethod
      exact first (by simp [hany])
    · next id htarget =>
      rw [htarget] at form first
      refine sound.callReserved id method hlt (fun form fits hmethod hid => ?_) fun hid hmethod => ?_
      · subst hmethod hid
        cases form
      · subst hid
        simp only [mem_cons, not_mem_nil, or_false] at hmethod
        rcases hmethod with rfl | rfl | rfl | rfl | rfl
        all_goals exact first rfl
    · exact sound
    · exact sound

theorem Sound.run (steps : List HostStep) (clear : s.ClearRun steps) (sound : s.Sound) :
    (steps.foldl HostObjects.step s).Sound := by
  induction steps generalizing s with
  | nil => exact sound
  | cons step steps ih => exact ih clear.2 (sound.step step clear.1)

end Steps

/-! ## What an id is taken for -/

/-- An id without flag bits that is not reserved. -/
structure Plain (id : Nat) : Prop where
  below : id < 2 ^ 60
  notReserved : id ∉ reservedIds

section Lookup

variable {s : HostObjects} {id : Nat} {entry : HostEntry}

theorem Sound.plain (sound : s.Sound) (hid : id ∈ s.issued) : Plain id := by
  have hbelow : s.nextElementId ≤ 2 ^ 60 := sound.numbered.below
  rcases sound.numbered.given id hid with ⟨rfl, -⟩ | ⟨hge, hlt⟩
  · exact ⟨by decide, by decide⟩
  · refine ⟨Nat.lt_of_lt_of_le hlt hbelow, fun hmem => ?_⟩
    obtain ⟨i, hi, rfl⟩ := mem_range'.mp hmem
    omega

variable {tables : List HostTable}

theorem search_eq_none {object : Nat} :
    s.search object tables = none ↔ ∀ t ∈ tables, (s.table t)[object]? = none := by
  simp [search, findSome?_eq_none_iff]

variable {serial : Nat}

theorem Plain.tests (plain : Plain id) :
    (∀ bit ∈ [hostClasslistBit, hostDatasetBit, hostStyleBit], hasBit bit id = false) ∧
      id ∉ getReserved ∧ id ∉ setReserved ∧ id ≠ hostDocument ∧ id ≠ hostWindow ∧
      id ≠ hostLocation ∧ id ≠ hostIndexedDb ∧ id ≠ hostCacheStorage ∧ id ≠ hostServiceWorker := by
  have hmem : ∀ list : List Nat, list ⊆ reservedIds → id ∉ list :=
    fun list hsub hid => plain.notReserved (hsub hid)
  have hne : ∀ other ∈ reservedIds, id ≠ other := fun other hother heq =>
    plain.notReserved (heq ▸ hother)
  refine ⟨fun bit hbit => ?_, hmem _ (by decide), hmem _ (by decide), hne _ (by decide),
    hne _ (by decide), hne _ (by decide), hne _ (by decide), hne _ (by decide), hne _ (by decide)⟩
  simp only [mem_cons, not_mem_nil, or_false] at hbit
  rcases hbit with rfl | rfl | rfl
  · exact hasBit_of_lt (k := 60) (by decide) plain.below
  · exact hasBit_of_lt (k := 61) (by decide) plain.below
  · exact hasBit_of_lt (k := 62) (by decide) plain.below

theorem Plain.methods (plain : Plain id) :
    earlyMethods id = [] ∧ reservedMethods id = [] ∧ lateMethods id = [] := by
  have hne : ∀ other ∈ reservedIds, id ≠ other := fun other hother heq =>
    plain.notReserved (heq ▸ hother)
  refine ⟨?_, ?_, ?_⟩
  · rw [earlyMethods, if_neg (hne _ (by decide))]
  · simp only [reservedMethods, if_neg (hne _ (by decide : hostDocument ∈ reservedIds)),
      if_neg (hne _ (by decide : hostLocalStorage ∈ reservedIds)),
      if_neg (hne _ (by decide : hostWindow ∈ reservedIds)),
      if_neg (hne _ (by decide : hostCrypto ∈ reservedIds)),
      if_neg (hne _ (by decide : hostPerformance ∈ reservedIds)),
      if_neg (hne _ (by decide : hostCss ∈ reservedIds)),
      if_neg (hne _ (by decide : hostFormData ∈ reservedIds)),
      if_neg (hne _ (by decide : hostHistory ∈ reservedIds)),
      if_neg (hne _ (by decide : hostLocation ∈ reservedIds)),
      if_neg (hne _ (by decide : hostEvent ∈ reservedIds))]
  · rw [lateMethods, if_neg (hne _ (by decide)), if_neg (hne _ (by decide))]

theorem Plain.getPropertyTarget (plain : Plain id) :
    s.getPropertyTarget id = (s.search id getTables).getD (s.locator id) := by
  obtain ⟨hbits, hget, -⟩ := plain.tests
  rw [HostObjects.getPropertyTarget]
  simp [hbits, hget]

theorem Plain.setPropertyTarget (plain : Plain id) (property : String) :
    s.setPropertyTarget id property =
      (s.search id setTables).getD ((s.search id readOnlyTables).getD (s.locator id)) := by
  obtain ⟨hbits, -, hset, hdocument, -, hlocation, -⟩ := plain.tests
  rw [HostObjects.setPropertyTarget]
  simp [hbits, hset, hdocument, hlocation]

theorem Plain.callTarget (plain : Plain id) (method : String) :
    s.callTarget id method =
      ((s.search id [.mutationObservers, .readableStreams, .streamReaders]).getD <|
      (s.search id [.broadcastChannels, .webSockets, .eventSources]).getD <|
      (s.search id [.idbDatabases, .idbStores, .idbIndexes, .idbCursors]).getD <|
      (s.search id [.cacheHandles]).getD <|
      (s.search id [.serviceWorkerRegistrations]).getD <|
      (s.search id [.mediaElements, .mediaSources, .sourceBuffers]).getD <|
      if method ∈ elementMethods then s.locator id
      else
        (s.search id [.canvasContexts]).getD <|
        if method ∈ lateElementMethods then s.locator id else .unknown) := by
  obtain ⟨hbits, -, -, -, hwindow, -, hdb, hcache, hworker⟩ := plain.tests
  obtain ⟨hearly, hreserved, hlate⟩ := plain.methods
  rw [HostObjects.callTarget]
  simp only [hbits _ mem_cons_self, hwindow, hdb, hcache, hworker, hearly, hreserved, hlate,
    not_mem_nil, if_false, false_and, Bool.false_eq_true]

/-! Live objects are reached. -/

theorem Sound.search_eq_none (sound : s.Sound) (hid : id ∉ s.issued) (tables : List HostTable) :
    s.search id tables = none := by
  rw [HostObjects.search_eq_none]
  intro t _
  cases h : (s.table t)[id]? with
  | none => rfl
  | some entry => exact absurd (mem_of_getElem? (sound.stored.live t id entry h)) hid

/-- A test for a reserved id takes the id for the reserved object. -/
def IsReserved (id : Nat) (target : HostTarget) : Prop := target = .reserved id ∨ target = .unknown

theorem isReserved_ite {p : Prop} [Decidable p] {rest : HostTarget} (h : IsReserved id rest) :
    IsReserved id (if p then .reserved id else rest) := by
  split
  · exact .inl rfl
  · exact h

theorem reserved_hasBit (hid : id ∈ reservedIds) :
    ∀ bit ∈ [hostClasslistBit, hostDatasetBit, hostStyleBit], hasBit bit id = false := by
  have hall : ∀ other ∈ reservedIds, ∀ bit ∈ [hostClasslistBit, hostDatasetBit, hostStyleBit],
      hasBit bit other = false := by decide
  exact hall id hid

theorem Sound.locator_reserved (sound : s.Sound) (hid : id ∉ s.issued) :
    s.locator id = .unknown := by
  rw [locator]
  split
  · next entry hentry =>
    exact absurd (mem_of_getElem? (sound.stored.live _ id entry hentry)) hid
  · rfl

theorem Sound.reserved_not_issued (sound : s.Sound) (hid : id ∈ reservedIds) : id ∉ s.issued :=
  fun hmem => (sound.plain hmem).notReserved hid

theorem Sound.getReserved (sound : s.Sound) (hid : id ∈ reservedIds) :
    IsReserved id (s.getPropertyTarget id) := by
  have hnot := sound.reserved_not_issued hid
  have hbits := reserved_hasBit hid
  rw [HostObjects.getPropertyTarget, sound.search_eq_none hnot, sound.locator_reserved hnot]
  simp only [Option.getD_none, hbits hostClasslistBit (by simp), hbits hostDatasetBit (by simp),
    hbits hostStyleBit (by simp), Bool.false_eq_true, if_false]
  exact isReserved_ite (.inr rfl)

theorem Sound.setReserved (sound : s.Sound) (property : String) (hid : id ∈ reservedIds) :
    IsReserved id (s.setPropertyTarget id property) := by
  have hnot := sound.reserved_not_issued hid
  have hbits := reserved_hasBit hid
  rw [HostObjects.setPropertyTarget, sound.search_eq_none hnot, sound.search_eq_none hnot,
    sound.locator_reserved hnot]
  simp only [Option.getD_none, hbits hostDatasetBit (by simp), hbits hostStyleBit (by simp),
    Bool.false_eq_true, if_false]
  exact isReserved_ite (isReserved_ite (isReserved_ite (.inr rfl)))

end Lookup

/-! ## Runs -/

end HostObjects

end GhitaBrowser.Page
