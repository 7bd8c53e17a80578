import Mathlib.Tactic.Common

/-!
# Turns that can stop the ones after them

A plan lists turns, each at a place. A turn that is taken can stop the event, which leaves
only the turns at its own place, or halt it, which leaves none. `InOrder` says that a log
took the turns of a plan under this rule.
-/

namespace GhitaBrowser

open List

/-- How the entries `ι` of a log relate to the turns `τ` of a plan at places `π`. -/
structure Propagation (τ ι π : Type) where
  turn : ι → τ
  place : τ → π
  Stops : ι → Prop
  Halts : ι → Prop

namespace Propagation

variable {τ ι π : Type} (rule : Propagation τ ι π)

/-- Once the entry is there, the turn must not be taken. -/
def ShutsOut (i : ι) (t : τ) : Prop :=
  rule.Halts i ∨ rule.Stops i ∧ rule.place t ≠ rule.place (rule.turn i)

structure InOrder (plan : List τ) (log : List ι) : Prop where
  order : (log.map rule.turn).Sublist plan
  served : ∀ before t after, plan = before ++ t :: after →
    t ∈ log.map rule.turn ∨ ∃ i ∈ log, rule.turn i ∈ before ∧ rule.ShutsOut i t
  halted : log.Pairwise fun i _ => ¬ rule.Halts i
  stopped : log.Pairwise fun i j => rule.Stops i → rule.place (rule.turn j) = rule.place (rule.turn i)

/-- The turns of one place are taken until one of them halts. -/
structure Segment (plan : List τ) (log : List ι) : Prop where
  started : log.map rule.turn <+: plan
  full : log.map rule.turn = plan ∨ ∃ i ∈ log, rule.Halts i
  halted : log.Pairwise fun i _ => ¬ rule.Halts i

namespace Segment

variable {rule} {plan plan' : List τ} {log log' : List ι}

theorem nil : rule.Segment [] [] := ⟨prefix_rfl, .inl rfl, .nil⟩

theorem cons {i : ι} (hnot : ¬ rule.Halts i) (h : rule.Segment plan log) :
    rule.Segment (rule.turn i :: plan) (i :: log) where
  started := cons_prefix_cons.mpr ⟨rfl, h.started⟩
  full := by
    rcases h.full with hfull | ⟨j, hj, hhalts⟩
    · exact .inl (congrArg _ hfull)
    · exact .inr ⟨j, mem_cons_of_mem _ hj, hhalts⟩
  halted := pairwise_cons.mpr ⟨fun _ _ => hnot, h.halted⟩

theorem halt {i : ι} (h : rule.Halts i) (plan : List τ) :
    rule.Segment (rule.turn i :: plan) [i] where
  started := cons_prefix_cons.mpr ⟨rfl, nil_prefix⟩
  full := .inr ⟨i, mem_singleton_self i, h⟩
  halted := pairwise_singleton _ _

theorem append (h : rule.Segment plan log) (h' : rule.Segment plan' log')
    (hnot : ∀ i ∈ log, ¬ rule.Halts i) : rule.Segment (plan ++ plan') (log ++ log') := by
  have hfull : log.map rule.turn = plan := by
    rcases h.full with hfull | ⟨i, hi, hhalts⟩
    · exact hfull
    · exact absurd hhalts (hnot i hi)
  refine ⟨?_, ?_, ?_⟩
  · rw [map_append, hfull]
    exact (prefix_append_right_inj plan).mpr h'.started
  · rcases h'.full with hfull' | ⟨i, hi, hhalts⟩
    · left
      rw [map_append, hfull, hfull']
    · exact .inr ⟨i, mem_append_right _ hi, hhalts⟩
  · exact pairwise_append.mpr ⟨h.halted, h'.halted, fun i hi _ _ => hnot i hi⟩

theorem eq_of_quiet (h : rule.Segment plan log) (hnot : ∀ i ∈ log, ¬ rule.Halts i) :
    log.map rule.turn = plan := by
  rcases h.full with hfull | ⟨i, hi, hhalts⟩
  · exact hfull
  · exact absurd hhalts (hnot i hi)

theorem inOrder (h : rule.Segment plan log) {p : π} (hplace : ∀ t ∈ plan, rule.place t = p) :
    rule.InOrder plan log where
  order := h.started.sublist
  served before t after hplan := by
    rcases h.full with hfull | ⟨i, hi, hhalts⟩
    · left
      rw [hfull, hplan]
      exact mem_append_right _ mem_cons_self
    · have hbefore : before <+: plan := hplan ▸ prefix_append _ _
      rcases Nat.lt_or_ge before.length (log.map rule.turn).length with hlt | hle
      · have hnext : before ++ [t] <+: plan :=
          ⟨after, by rw [hplan, append_assoc, singleton_append]⟩
        have htaken := prefix_of_prefix_length_le hnext h.started
          (by rw [length_append, length_singleton]; exact hlt)
        exact .inl (htaken.subset (mem_append_right _ (mem_singleton_self t)))
      · have hall := prefix_of_prefix_length_le h.started hbefore hle
        exact .inr ⟨i, hi, hall.subset (mem_map_of_mem hi), .inl hhalts⟩
  halted := h.halted
  stopped := by
    have htaken (i : ι) (hi : i ∈ log) : rule.place (rule.turn i) = p :=
      hplace _ (h.started.subset (mem_map_of_mem hi))
    exact pairwise_of_forall_mem_list fun i hi j hj _ => (htaken j hj).trans (htaken i hi).symm

end Segment

namespace InOrder

variable {rule} {plan plan' : List τ} {log log' : List ι}

theorem of_quiet (hfull : log.map rule.turn = plan) (hstops : ∀ i ∈ log, ¬ rule.Stops i)
    (hhalts : ∀ i ∈ log, ¬ rule.Halts i) : rule.InOrder plan log where
  order := hfull ▸ List.Sublist.refl _
  served before t after hplan := by
    left
    rw [hfull, hplan]
    exact mem_append_right _ mem_cons_self
  halted := pairwise_of_forall_mem_list fun i hi _ _ => hhalts i hi
  stopped := pairwise_of_forall_mem_list fun i hi _ _ h => absurd h (hstops i hi)

theorem append (h : rule.InOrder plan log) (h' : rule.InOrder plan' log')
    (hstops : ∀ i ∈ log, ¬ rule.Stops i) (hhalts : ∀ i ∈ log, ¬ rule.Halts i) :
    rule.InOrder (plan ++ plan') (log ++ log') where
  order := by
    rw [map_append]
    exact h.order.append h'.order
  served before t after hplan := by
    rw [map_append]
    rcases append_eq_append_iff.mp hplan with ⟨mid, hbefore, hplan'⟩ | ⟨mid, hfirst, hmid⟩
    · rcases h'.served mid t after hplan' with hmem | ⟨i, hi, hmem, hshuts⟩
      · exact .inl (mem_append_right _ hmem)
      · exact .inr ⟨i, mem_append_right _ hi, hbefore ▸ mem_append_right _ hmem, hshuts⟩
    · cases mid with
      | nil =>
        rcases h'.served [] t after hmid.symm with hmem | ⟨i, hi, hmem, hshuts⟩
        · exact .inl (mem_append_right _ hmem)
        · cases hmem
      | cons first mid =>
        obtain ⟨rfl, rfl⟩ := List.cons.inj hmid
        rcases h.served before t mid hfirst with hmem | ⟨i, hi, hmem, hshuts⟩
        · exact .inl (mem_append_left _ hmem)
        · exact .inr ⟨i, mem_append_left _ hi, hmem, hshuts⟩
  halted := pairwise_append.mpr ⟨h.halted, h'.halted, fun i hi _ _ => hhalts i hi⟩
  stopped := pairwise_append.mpr
    ⟨h.stopped, h'.stopped, fun i hi _ _ hi' => absurd hi' (hstops i hi)⟩

theorem append_shut (h : rule.InOrder plan log) {i : ι} (hi : i ∈ log) (hstops : rule.Stops i)
    (hplace : ∀ t ∈ plan', rule.place t ≠ rule.place (rule.turn i)) :
    rule.InOrder (plan ++ plan') log where
  order := h.order.trans (sublist_append_left _ _)
  served before t after hplan := by
    rcases append_eq_append_iff.mp hplan with ⟨mid, hbefore, hplan'⟩ | ⟨mid, hfirst, hmid⟩
    · refine .inr ⟨i, hi, ?_, .inr ⟨hstops, hplace t ?_⟩⟩
      · rw [hbefore]
        exact mem_append_left _ (h.order.subset (mem_map_of_mem hi))
      · rw [hplan']
        exact mem_append_right _ mem_cons_self
    · cases mid with
      | nil =>
        rw [append_nil] at hfirst
        rw [nil_append] at hmid
        refine .inr ⟨i, hi, ?_, .inr ⟨hstops, hplace t ?_⟩⟩
        · rw [← hfirst]
          exact h.order.subset (mem_map_of_mem hi)
        · rw [← hmid]
          exact mem_cons_self
      | cons first mid =>
        obtain ⟨rfl, rfl⟩ := List.cons.inj hmid
        exact h.served before t mid hfirst
  halted := h.halted
  stopped := h.stopped

end InOrder

end Propagation

end GhitaBrowser
