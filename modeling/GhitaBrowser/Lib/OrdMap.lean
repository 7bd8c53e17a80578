import Mathlib.Algebra.Order.Ring.Int
import Mathlib.Tactic.Common
import Mathlib.Algebra.Order.BigOperators.Group.List
import Mathlib.Tactic.Ring

/-!
# Ordered maps

`BTreeMap<u64, _>` as an extensional tree map: two maps are equal when they have the
same entries, and the entries are listed by ascending key.
-/

namespace GhitaBrowser

abbrev IdMap (β : Type) := Std.ExtTreeMap Nat β compare

namespace IdMap

variable {β : Type}

variable (m : IdMap β)

theorem getElem?_insert (k a : Nat) (v : β) :
    (Std.ExtTreeMap.insert m k v)[a]? = if a = k then some v else m[a]? := by
  rw [Std.ExtTreeMap.getElem?_insert]
  simp [@eq_comm _ a k]

theorem getElem?_erase (k a : Nat) :
    (Std.ExtTreeMap.erase m k)[a]? = if a = k then none else m[a]? := by
  rw [Std.ExtTreeMap.getElem?_erase]
  simp [@eq_comm _ a k]

theorem getElem?_modify (k a : Nat) (f : β → β) :
    (Std.ExtTreeMap.modify m k f)[a]? = if a = k then m[k]?.map f else m[a]? := by
  rw [Std.ExtTreeMap.getElem?_modify]
  simp [@eq_comm _ a k]

theorem getElem?_map {γ : Type} (f : Nat → β → γ) (a : Nat) :
    (Std.ExtTreeMap.map f m)[a]? = m[a]?.map (f a) := Std.ExtTreeMap.getElem?_map

theorem mem_toList (k : Nat) (v : β) :
    (k, v) ∈ Std.ExtTreeMap.toList m ↔ m[k]? = some v :=
  Std.ExtTreeMap.mem_toList_iff_getElem?_eq_some

theorem contains_iff (k : Nat) : m.contains k = true ↔ (m[k]?).isSome := by
  rw [Std.ExtTreeMap.contains_eq_isSome_getElem?]

end IdMap

end GhitaBrowser

/-!
## Sums over tables

What a counter over a list or an ordered map comes to when one entry is replaced: the
sum changes by the entry's own share only.
-/

namespace GhitaBrowser

open List

variable {α β : Type}

/-! ## Lists -/

theorem sum_map_set (f : α → Nat) {l : List α} {i : Nat} {old : α} (h : l[i]? = some old)
    (new : α) : ((l.set i new).map f).sum + f old = (l.map f).sum + f new := by
  induction l generalizing i with
  | nil => simp at h
  | cons head tail ih =>
    cases i with
    | zero =>
      obtain rfl : head = old := by simpa using h
      simp only [set_cons_zero, map_cons, sum_cons]
      ring
    | succ i =>
      have hset := ih (by simpa using h)
      simp only [set_cons_succ, map_cons, sum_cons]
      calc f head + ((tail.set i new).map f).sum + f old
          = f head + (((tail.set i new).map f).sum + f old) := by ring
        _ = f head + ((tail.map f).sum + f new) := by rw [hset]
        _ = f head + (tail.map f).sum + f new := by ring

theorem le_sum_map (f : α → Nat) {l : List α} {i : Nat} {x : α} (h : l[i]? = some x) :
    f x ≤ (l.map f).sum :=
  le_sum_of_mem (mem_map_of_mem (mem_of_getElem? h))

/-! ## Ordered maps -/

namespace OrdMap

variable {cmp : α → α → Ordering}

def total (f : α → β → Nat) (m : Std.ExtTreeMap α β cmp) [Std.TransCmp cmp] : Nat :=
  (m.toList.map fun entry => f entry.1 entry.2).sum

variable (f : α → β → Nat)

theorem total_empty [Std.TransCmp cmp] :
    total f (∅ : Std.ExtTreeMap α β cmp) = 0 := by
  unfold total
  rw [Std.ExtTreeMap.toList_eq_nil_iff.mpr rfl, map_nil, sum_nil]

variable [Std.TransCmp cmp] [Std.LawfulEqCmp cmp]

theorem toList_nodup (m : Std.ExtTreeMap α β cmp) : m.toList.Nodup := by
  refine List.Pairwise.imp ?_ (Std.ExtTreeMap.distinct_keys_toList (t := m))
  intro first second hne heq
  subst heq
  exact hne Std.ReflCmp.compare_self

variable {m : Std.ExtTreeMap α β cmp}

theorem toList_perm {k : α} {v : β} (h : m[k]? = some v) :
    m.toList.Perm ((k, v) :: (m.erase k).toList) := by
  refine (perm_ext_iff_of_nodup (toList_nodup m) ?_).mpr ?_
  · refine nodup_cons.mpr ⟨?_, toList_nodup _⟩
    intro hmem
    rw [Std.ExtTreeMap.mem_toList_iff_getElem?_eq_some, Std.ExtTreeMap.getElem?_erase_self] at hmem
    cases hmem
  · rintro ⟨key, value⟩
    rw [mem_cons, Std.ExtTreeMap.mem_toList_iff_getElem?_eq_some,
      Std.ExtTreeMap.mem_toList_iff_getElem?_eq_some, Std.ExtTreeMap.getElem?_erase]
    by_cases hkey : key = k
    · subst hkey
      simp [h, Std.ReflCmp.compare_self, eq_comm]
    · simp [hkey, Std.LawfulEqCmp.compare_eq_iff_eq, Ne.symm hkey]

theorem total_eq {k : α} {v : β}
    (h : m[k]? = some v) : total f m = f k v + total f (m.erase k) := by
  unfold total
  rw [((toList_perm h).map _).sum_eq, map_cons, sum_cons]

theorem erase_insert (m : Std.ExtTreeMap α β cmp) (k : α) (v : β) :
    (m.insert k v).erase k = m.erase k := by
  refine Std.ExtTreeMap.ext_getElem? fun key => ?_
  simp only [Std.ExtTreeMap.getElem?_erase, Std.ExtTreeMap.getElem?_insert]
  split <;> rfl

theorem erase_of_absent {k : α} (h : m[k]? = none) :
    m.erase k = m := by
  refine Std.ExtTreeMap.ext_getElem? fun key => ?_
  rw [Std.ExtTreeMap.getElem?_erase]
  split
  · next hkey => rw [← Std.LawfulEqCmp.eq_of_compare hkey, h]
  · rfl

theorem total_insert (m : Std.ExtTreeMap α β cmp) (k : α) (v : β) :
    total f (m.insert k v) = f k v + total f (m.erase k) := by
  rw [total_eq f (Std.ExtTreeMap.getElem?_insert_self (t := m)), erase_insert]

end OrdMap

end GhitaBrowser
