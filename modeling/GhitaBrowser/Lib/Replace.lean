import Mathlib.Data.List.Infix
import Mathlib.Data.List.Pairwise

/-!
# Lists in which a new entry replaces old ones

`push` puts an entry at the end of a list and drops the entries it does not keep.
Pushing several entries has a closed form: of the old list stays what all of them
keep, and behind it stands what is `live` of the new ones. It is used to say when
cutting the list back to its old length restores it.
-/

namespace GhitaBrowser.Replace

open List

variable {α : Type} (keeps : α → α → Bool)

/-- The entries that the new one keeps, and the new one behind them. -/
def push (stored : List α) (new : α) : List α := stored.filter (keeps · new) ++ [new]

def pushAll (stored news : List α) : List α := news.foldl (push keeps) stored

/-- The entries that every new one keeps. -/
def kept (stored news : List α) : List α := stored.filter fun old => news.all (keeps old)

/-- What is left of the new entries when each has replaced those before it. -/
def live (news : List α) : List α := pushAll keeps [] news

@[simp] theorem pushAll_nil (stored : List α) : pushAll keeps stored [] = stored := rfl

@[simp] theorem pushAll_cons (stored news : List α) (new : α) :
    pushAll keeps stored (new :: news) = pushAll keeps (push keeps stored new) news := rfl

theorem kept_cons (stored news : List α) (new : α) :
    kept keeps stored (new :: news) = kept keeps (stored.filter (keeps · new)) news := by
  simp [kept, filter_filter, Bool.and_comm]

theorem pushAll_append (stored more news : List α) :
    pushAll keeps (stored ++ more) news = kept keeps stored news ++ pushAll keeps more news := by
  induction news generalizing stored more with
  | nil => simp [kept]
  | cons new news ih =>
    simp only [pushAll_cons, push, filter_append, append_assoc]
    rw [ih, kept_cons]

theorem pushAll_eq (stored news : List α) :
    pushAll keeps stored news = kept keeps stored news ++ live keeps news := by
  simpa [live] using pushAll_append keeps stored [] news

variable {keeps}

theorem pairwise_push {R : α → α → Prop} {stored : List α} {new : α} (h : stored.Pairwise R)
    (apart : ∀ old ∈ stored, keeps old new → R old new) : (push keeps stored new).Pairwise R := by
  refine pairwise_append.mpr ⟨h.filter _, pairwise_singleton R new, ?_⟩
  intro old among other here
  rw [mem_singleton.mp here]
  exact apart old (mem_filter.mp among).1 (mem_filter.mp among).2

/-- Cutting a list back to its old length restores it exactly when what was dropped is a tail
of it and the entries behind what stayed begin with that tail. -/
theorem take_filter_append_iff {p : α → Bool} {old new : List α} :
    (old.filter p ++ new).take old.length = old ↔
      ∃ k, (∀ entry ∈ old.take k, p entry) ∧ (∀ entry ∈ old.drop k, ¬p entry) ∧
        old.drop k <+: new := by
  constructor
  · intro restored
    have whole : old <+: old.filter p ++ new := by
      conv => lhs; rw [← restored]
      exact take_prefix _ _
    have front : old.filter p <+: old :=
      prefix_of_prefix_length_le (prefix_append _ _) whole (length_filter_le _ _)
    have takes := prefix_iff_eq_take.mp front
    have split : old.filter p ++ old.drop (old.filter p).length = old := by
      conv => lhs; lhs; rw [takes]
      exact take_append_drop _ old
    -- what the list has behind its filtered front cannot pass the filter
    have dropped : (old.drop (old.filter p).length).filter p = [] := by
      have twice := congrArg (List.filter p) split
      rw [filter_append, filter_filter] at twice
      simp only [Bool.and_self] at twice
      exact append_right_eq_self.mp twice
    refine ⟨(old.filter p).length, ?_, filter_eq_nil_iff.mp dropped, ?_⟩
    · rw [← takes]
      exact fun entry among => (mem_filter.mp among).2
    · refine (prefix_append_right_inj (old.filter p)).mp ?_
      rw [split]
      exact whole
  · rintro ⟨k, stay, go, back⟩
    have filtered : old.filter p = old.take k := by
      conv => lhs; rw [← take_append_drop k old]
      rw [filter_append, filter_eq_self.mpr stay, filter_eq_nil_iff.mpr go,
        append_nil]
    have whole : old <+: old.filter p ++ new := by
      rw [filtered]
      conv => lhs; rw [← take_append_drop k old]
      exact (prefix_append_right_inj _).mpr back
    exact (prefix_iff_eq_take.mp whole).symm

end GhitaBrowser.Replace
