import Mathlib.Data.List.Perm.Basic

/-!
# Lists that start with the elements of a class

A list in which all elements of a class come before the others. Where the boundary lies
is the number of elements of the class, so an insertion keeps the order exactly when it
is on the right side of that number.
-/

namespace GhitaBrowser

open List

/-- The elements of the class come first. -/
def Leading {α : Type} (p : α → Bool) (l : List α) : Prop := l.Pairwise fun a b => p b → p a

namespace Leading

variable {α : Type} {p q : α → Bool} {l : List α}

theorem nil : Leading p [] := List.Pairwise.nil

theorem cons {a : α} (h : Leading p (a :: l)) : (∀ b ∈ l, p b → p a) ∧ Leading p l :=
  pairwise_cons.mp h

theorem sublist {l' : List α} (h : Leading p l) (sub : l'.Sublist l) : Leading p l' :=
  List.Pairwise.sublist sub h

theorem congr (h : Leading p l) (same : ∀ a ∈ l, p a = q a) : Leading q l := by
  refine List.Pairwise.imp_of_mem ?_ h
  intro a b ha hb first inB
  rw [← same a ha]
  exact first (same b hb ▸ inB)

theorem countP_eq_zero {a : α} (h : Leading p (a :: l)) (outside : ¬p a) :
    (a :: l).countP p = 0 := by
  rw [List.countP_eq_zero]
  intro b hb
  rcases mem_cons.mp hb with rfl | inTail
  · exact outside
  · exact fun inB => outside (h.cons.1 b inTail inB)

theorem getElem_iff (h : Leading p l) {i : Nat} (hi : i < l.length) :
    p l[i] ↔ i < l.countP p := by
  induction l generalizing i with
  | nil => cases hi
  | cons a l ih =>
    by_cases first : p a
    · rw [countP_cons_of_pos first]
      cases i with
      | zero => exact ⟨fun _ => Nat.succ_pos _, fun _ => first⟩
      | succ i => exact (ih h.cons.2 _).trans Nat.succ_lt_succ_iff.symm
    · have none' := List.countP_eq_zero.mp (h.countP_eq_zero first)
      rw [h.countP_eq_zero first]
      exact ⟨fun inI => absurd inI (none' _ (getElem_mem hi)), fun lt => absurd lt (Nat.not_lt_zero i)⟩

theorem insertIdx (h : Leading p l) {x : α} {i : Nat} (inside : p x → i ≤ l.countP p)
    (outside : ¬p x → l.countP p ≤ i) : Leading p (l.insertIdx i x) := by
  induction l generalizing i with
  | nil =>
    cases i with
    | zero => exact pairwise_singleton _ _
    | succ i => exact .nil
  | cons a l ih =>
    cases i with
    | zero =>
      rw [insertIdx_zero]
      refine pairwise_cons.mpr ⟨?_, h⟩
      intro b hb inB
      by_contra notX
      have none' := Nat.le_zero.mp (outside notX)
      exact List.countP_eq_zero.mp none' b hb inB
    | succ i =>
      rw [insertIdx_succ_cons]
      have first : ¬p a → ¬p x := by
        intro notA inX
        have bound := inside inX
        rw [h.countP_eq_zero notA] at bound
        exact absurd bound (Nat.not_succ_le_zero i)
      refine pairwise_cons.mpr ⟨?_, ih h.cons.2 ?_ ?_⟩
      · intro b hb inB
        rcases eq_or_mem_of_mem_insertIdx hb with rfl | old
        · by_contra notA
          exact first notA inB
        · exact h.cons.1 b old inB
      · intro inX
        have inA : p a := by
          by_contra notA
          exact first notA inX
        have bound := inside inX
        rw [countP_cons_of_pos inA] at bound
        exact Nat.le_of_succ_le_succ bound
      · intro notX
        have bound := outside notX
        by_cases inA : p a
        · rw [countP_cons_of_pos inA] at bound
          exact Nat.le_of_succ_le_succ bound
        · have none' := h.countP_eq_zero inA
          rw [countP_cons_of_neg inA] at none'
          rw [none']
          exact Nat.zero_le i

theorem move (h : Leading p l) {i j : Nat} (hi : i < l.length) (hj : j < l.length)
    (same : p l[i] = p l[j]) : Leading p ((l.eraseIdx i).insertIdx j l[i]) := by
  have count := (getElem_cons_eraseIdx_perm hi).countP_eq p
  have target := h.getElem_iff hj
  rw [← same] at target
  refine (h.sublist (eraseIdx_sublist l i)).insertIdx ?_ ?_
  · intro inside
    rw [countP_cons_of_pos inside] at count
    have inFront := target.mp inside
    rw [← count] at inFront
    exact Nat.lt_succ_iff.mp inFront
  · intro outside
    rw [countP_cons_of_neg outside] at count
    rw [count]
    exact Nat.le_of_not_lt fun lt => outside (target.mpr lt)

end Leading

end GhitaBrowser
