import Mathlib.Tactic.Common

/-!
# Recursion that may not end

A recursive program is a step that asks for the answers of its calls. `unroll` lets the
calls nest a number of times and answers `bottom` below. A program whose calls are well
founded gives an answer, and more room does not change it.
-/

namespace GhitaBrowser

section Unroll

variable {ι α : Type} (bottom : α) (step : (ι → α) → ι → α)

def unroll : Nat → ι → α
  | 0, _ => bottom
  | turns + 1, i => step (unroll turns) i

/-- `y` is the answer that `x` has not given yet. -/
def Approximates (x y : α) : Prop := x = bottom ∨ x = y

/-- A step that turns better answers of its calls into a better answer. -/
def Steady : Prop :=
  ∀ self self' : ι → α, (∀ i, Approximates bottom (self i) (self' i)) →
    ∀ i, Approximates bottom (step self i) (step self' i)

/-- The program ends with `answer`. -/
structure Answers (i : ι) (answer : α) : Prop where
  ended : answer ≠ bottom
  settled : ∃ turns, ∀ more, turns ≤ more → unroll bottom step more i = answer

variable {bottom step}

theorem Approximates.eq {x y : α} (h : Approximates bottom x y) (hx : x ≠ bottom) : x = y :=
  h.resolve_left hx

theorem unroll_succ (hsteady : Steady bottom step) (turns : Nat) (i : ι) :
    Approximates bottom (unroll bottom step turns i) (unroll bottom step (turns + 1) i) := by
  induction turns generalizing i with
  | zero => exact .inl rfl
  | succ turns ih => exact hsteady _ _ ih i

theorem unroll_eq (hsteady : Steady bottom step) {turns more : Nat} (hle : turns ≤ more) {i : ι}
    (h : unroll bottom step turns i ≠ bottom) :
    unroll bottom step more i = unroll bottom step turns i := by
  induction hle with
  | refl => rfl
  | @step more _ ih =>
    have hsucc := unroll_succ hsteady more i
    rw [ih] at hsucc
    exact (hsucc.eq h).symm

theorem unroll_bound (hsteady : Steady bottom step) (calls : List ι)
    (h : ∀ j ∈ calls, ∃ turns, unroll bottom step turns j ≠ bottom) :
    ∃ turns, ∀ j ∈ calls, unroll bottom step turns j ≠ bottom := by
  induction calls with
  | nil => exact ⟨0, nofun⟩
  | cons first rest ih =>
    obtain ⟨turns, hfirst⟩ := h first List.mem_cons_self
    obtain ⟨more, hrest⟩ := ih fun j hj => h j (List.mem_cons_of_mem first hj)
    refine ⟨max turns more, fun j hj => ?_⟩
    rcases List.mem_cons.mp hj with rfl | hj
    · rw [unroll_eq hsteady (Nat.le_max_left turns more) hfirst]
      exact hfirst
    · rw [unroll_eq hsteady (Nat.le_max_right turns more) (hrest j hj)]
      exact hrest j hj

theorem answers_of_acc (hsteady : Steady bottom step) {calls : ι → List ι}
    (hstep : ∀ self i, (∀ j ∈ calls i, self j ≠ bottom) → step self i ≠ bottom) {i : ι}
    (h : Acc (fun j i => j ∈ calls i) i) : ∃ answer, Answers bottom step i answer := by
  have hends : ∃ turns, unroll bottom step turns i ≠ bottom := by
    induction h with
    | intro i _ ih =>
      obtain ⟨turns, hcalls⟩ := unroll_bound hsteady (calls i) ih
      exact ⟨turns + 1, hstep _ i hcalls⟩
  obtain ⟨turns, hturns⟩ := hends
  exact ⟨_, hturns, turns, fun _ hmore => unroll_eq hsteady hmore hturns⟩

/-- What the step keeps of the answers holds of every answer. -/
theorem unroll_keeps {P : ι → α → Prop} (hbottom : ∀ i, P i bottom)
    (hstep : ∀ self, (∀ j, P j (self j)) → ∀ i, P i (step self i)) (turns : Nat) (i : ι) :
    P i (unroll bottom step turns i) := by
  induction turns generalizing i with
  | zero => exact hbottom i
  | succ turns ih => exact hstep _ ih i

theorem Answers.keeps {P : ι → α → Prop} (hbottom : ∀ i, P i bottom)
    (hstep : ∀ self, (∀ j, P j (self j)) → ∀ i, P i (step self i)) {i : ι} {answer : α}
    (h : Answers bottom step i answer) : P i answer := by
  obtain ⟨-, turns, hturns⟩ := h
  rw [← hturns turns (Nat.le_refl turns)]
  exact unroll_keeps hbottom hstep turns i

theorem unroll_diverges {C : ι → Prop}
    (hstep : ∀ self, (∀ j, C j → self j = bottom) → ∀ i, C i → step self i = bottom)
    (turns : Nat) {i : ι} (hi : C i) : unroll bottom step turns i = bottom := by
  induction turns generalizing i with
  | zero => rfl
  | succ turns ih => exact hstep _ (fun _ => ih) i hi

end Unroll

end GhitaBrowser
