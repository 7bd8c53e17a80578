import GhitaBrowser.Lib.Outcome

/-!
# Deterministic machines

A machine is a function from a state to its next state or to the result it halts
with. The run from a state is then unique: two halting states reached from the
same state are the same state, and every state reached lies on the way to the
halting one. Runs are `Relation.ReflTransGen` of the step relation.
-/

namespace GhitaBrowser

/-- What one step of a machine does. -/
inductive Status (σ ρ : Type) where
  | running (state : σ)
  | halted (result : ρ)
deriving DecidableEq

namespace Machine

variable {σ ρ : Type} (next : σ → Status σ ρ)

def Step (a b : σ) : Prop := next a = .running b

/-- `b` is a state of the run that starts at `a`. -/
def Steps : σ → σ → Prop := Relation.ReflTransGen (Step next)

/-- The run from `a` ends in state `b` with `result`. -/
def HaltsAt (a b : σ) (result : ρ) : Prop := Steps next a b ∧ next b = .halted result

variable {next}

theorem Steps.refl (a : σ) : Steps next a a := Relation.ReflTransGen.refl

theorem Steps.head {a b c : σ} (h : next a = .running b) (hs : Steps next b c) :
    Steps next a c := Relation.ReflTransGen.head h hs

theorem Steps.trans {a b c : σ} (h₁ : Steps next a b) (h₂ : Steps next b c) :
    Steps next a c := Relation.ReflTransGen.trans h₁ h₂

theorem Steps.cases {a c : σ} (h : Steps next a c) :
    a = c ∨ ∃ b, next a = .running b ∧ Steps next b c := by
  cases Relation.ReflTransGen.cases_head h with
  | inl h => exact .inl h
  | inr h => exact .inr h

theorem Steps.cases_running {a b c : σ} (running : next a = .running b) (h : Steps next a c) :
    c = a ∨ Steps next b c := by
  rcases h.cases with rfl | ⟨b', running', rest⟩
  · exact .inl rfl
  · cases running.symm.trans running'
    exact .inr rest

theorem Steps.eq_of_halted {a b : σ} {result : ρ} (ha : next a = .halted result)
    (h : Steps next a b) : a = b := by
  rcases h.cases with rfl | ⟨c, hc, _⟩
  · rfl
  · rw [ha] at hc
    cases hc

/-- Every state of a halting run lies on the way to its last state. -/
theorem HaltsAt.reaches {a b c : σ} {result : ρ} (h : HaltsAt next a c result)
    (hb : Steps next a b) : Steps next b c := by
  obtain ⟨hac, hc⟩ := h
  induction hb using Relation.ReflTransGen.head_induction_on with
  | refl => exact hac
  | head hstep _ ih =>
    refine ih ?_
    rcases hac.cases with rfl | ⟨d, hd, hdc⟩
    · rw [show next _ = _ from hstep] at hc
      cases hc
    · rw [show next _ = _ from hstep] at hd
      cases hd
      exact hdc

/-- The run from a state ends in at most one way. -/
theorem HaltsAt.unique {a b b' : σ} {result result' : ρ} (h : HaltsAt next a b result)
    (h' : HaltsAt next a b' result') : b = b' ∧ result = result' := by
  have hb : b = b' := Steps.eq_of_halted h.2 (h'.reaches h.1)
  subst hb
  have he := h.2.symm.trans h'.2
  cases he
  exact ⟨rfl, rfl⟩

/-- A property that holds at the start and is kept by every step holds all along the run. -/
theorem Steps.invariant {P : σ → Prop} {a b : σ} (h : Steps next a b) (ha : P a)
    (hstep : ∀ s s', P s → next s = .running s' → P s') : P b := by
  induction h with
  | refl => exact ha
  | tail _ hbc ih => exact hstep _ _ ih hbc

/-- A run that halts leaves the states of `P` first, or halts within them. -/
theorem Steps.exit {P : σ → Prop} {a b : σ} {result : ρ} (h : HaltsAt next a b result) (ha : P a) :
    ∃ last, Relation.ReflTransGen (fun s t => next s = .running t ∧ P s) a last ∧ P last ∧
      ((∃ after, next last = .running after ∧ ¬P after) ∨ last = b) := by
  obtain ⟨run, halted⟩ := h
  induction run using Relation.ReflTransGen.head_induction_on with
  | refl => exact ⟨b, .refl, ha, .inr rfl⟩
  | @head a c step _ ih =>
    by_cases inside : P c
    · obtain ⟨last, rest, held, ends⟩ := ih inside
      exact ⟨last, .head ⟨step, ha⟩ rest, held, ends⟩
    · exact ⟨a, .refl, ha, .inl ⟨c, step, inside⟩⟩

variable (next) in
/-- `b` is the state after `count` steps from `a`. -/
def StepsIn : Nat → σ → σ → Prop
  | 0, a, b => a = b
  | count + 1, a, b => ∃ c, next a = .running c ∧ StepsIn count c b

theorem StepsIn.steps {count : Nat} {a b : σ} (h : StepsIn next count a b) : Steps next a b := by
  induction count generalizing a with
  | zero =>
    cases h
    exact .refl _
  | succ count ih =>
    obtain ⟨c, step, rest⟩ := h
    exact .head step (ih rest)

end Machine

end GhitaBrowser
