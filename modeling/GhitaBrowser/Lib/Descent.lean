import Mathlib.Order.WellFoundedSet

/-!
# Descent and greedy climbs

`Grounded r`: no infinite chain of `r` steps. A new step, or a new part, keeps a relation
grounded when it does not lead back.
-/

namespace GhitaBrowser

section Descent

variable {α : Type} {r s t : α → α → Prop}

def Grounded (r : α → α → Prop) : Prop := WellFounded fun y x => r x y

theorem closed_of_reaches {V : α → Prop} (hclosed : ∀ x y, V x → r x y → V y) {x y : α} (hx : V x)
    (h : Relation.ReflTransGen r x y) : V y := by
  induction h with
  | refl => exact hx
  | tail _ hstep ih => exact hclosed _ _ ih hstep

theorem Grounded.mono (h : Grounded r) (hsub : ∀ x y, t x y → r x y) : Grounded t :=
  Subrelation.wf (fun {y x} hstep => hsub x y hstep) h

/-- A relation with finitely many targets and no loop. -/
theorem grounded_of_acyclic (hfinite : {y | ∃ x, r x y}.Finite)
    (hacyclic : ∀ x, ¬ Relation.TransGen r x x) : Grounded r := by
  have horder : IsStrictOrder α fun y x => Relation.TransGen r x y :=
    { irrefl := hacyclic, trans := fun _ _ _ h h' => h'.trans h }
  have hwf := hfinite.wellFoundedOn (r := fun y x => Relation.TransGen r x y)
  have htargets (y : α) (hy : ∃ x, r x y) : Acc (fun y x => r x y) y :=
    hwf.induction hy fun y _ ih => .intro y fun z hz => ih z ⟨y, hz⟩ (.single hz)
  exact ⟨fun x => .intro x fun y hy => htargets y ⟨x, hy⟩⟩

/-- One more step, to a point that does not lead back. -/
theorem Grounded.link (h : Grounded r) {p q : α} (hback : ¬ Relation.ReflTransGen r q p)
    (hstep : ∀ x y, t x y → r x y ∨ x = p ∧ y = q) : Grounded t := by
  have haway (x : α) (hx : ¬ Relation.ReflTransGen r x p) : Acc (fun y x => t x y) x := by
    induction x using h.induction with
    | _ x ih =>
      refine .intro x fun y hy => ?_
      rcases hstep x y hy with hold | ⟨rfl, -⟩
      · exact ih y hold fun hreach => hx (.head hold hreach)
      · exact absurd .refl hx
  refine ⟨fun x => ?_⟩
  induction x using h.induction with
  | _ x ih =>
    refine .intro x fun y hy => ?_
    rcases hstep x y hy with hold | ⟨-, rfl⟩
    · exact ih y hold
    · exact haway y hback

theorem Grounded.grow (h : Grounded r) (hnew : Grounded s) (old : α → Prop)
    (hold : ∀ x y, old x → t x y → r x y ∨ ¬ old y)
    (hfresh : ∀ x y, ¬ old x → t x y → ¬ old y ∧ s x y) : Grounded t := by
  have hpart (x : α) (hx : ¬ old x) : Acc (fun y x => t x y) x := by
    induction x using hnew.induction with
    | _ x ih =>
      refine .intro x fun y hy => ?_
      obtain ⟨hy', hs⟩ := hfresh x y hx hy
      exact ih y hs hy'
  refine ⟨fun x => ?_⟩
  induction x using h.induction with
  | _ x ih =>
    by_cases hx : old x
    · refine .intro x fun y hy => ?_
      by_cases hy' : old y
      · exact ih y ((hold x y hx hy).resolve_right (not_not_intro hy'))
      · exact hpart y hy'
    · exact hpart x hx

end Descent

end GhitaBrowser

/-!
## Greedy climbs

A climb along `up` looks for a point for each of a list of tests, in order, and takes the first
that passes. Nothing is lost by that: where some chain of points passes, the greedy one does.
-/

namespace GhitaBrowser

section Greedy

variable {α : Type} {up : α → Option α} {tests : List (α → Bool)} {x y : α}

/-- One or more steps lead from `x` to `y`. -/
def Above (up : α → Option α) : α → α → Prop := Relation.TransGen fun x y => up x = some y

/-- The climb, with `turns` left. -/
def greedy (up : α → Option α) : Nat → List (α → Bool) → Option α → Option Bool
  | _, [], _ => some true
  | 0, _ :: _, _ => none
  | _ + 1, _ :: _, none => some false
  | turns + 1, test :: tests, some candidate =>
    if test candidate then greedy up turns tests (up candidate)
    else greedy up turns (test :: tests) (up candidate)

/-- A strictly ascending chain above `x`, one point for each test. -/
def Climbable (up : α → Option α) (tests : List (α → Bool)) (x : α) : Prop :=
  ∃ chain, (x :: chain).IsChain (Above up) ∧
    List.Forall₂ (fun test point => test point = true) tests chain

theorem above_cases (h : Above up x y) : ∃ next, up x = some next ∧ (next = y ∨ Above up next y) := by
  rcases Relation.TransGen.head'_iff.mp h with ⟨next, first, rest⟩
  exact ⟨next, first, (Relation.reflTransGen_iff_eq_or_transGen.mp rest).imp_left Eq.symm⟩

theorem climbable_nil : Climbable up [] x := ⟨[], .singleton x, .nil⟩

/-- A chain above `y` is one above whatever is below `y`. -/
theorem Climbable.lower (h : Climbable up tests y) (below : Above up x y) : Climbable up tests x := by
  obtain ⟨chain, ascends, passes⟩ := h
  refine ⟨chain, ?_, passes⟩
  cases chain with
  | nil => exact .singleton x
  | cons first chain =>
    obtain ⟨step, rest⟩ := List.isChain_cons_cons.mp ascends
    exact List.isChain_cons_cons.mpr ⟨below.trans step, rest⟩

variable {test : α → Bool}

theorem climbable_cons :
    Climbable up (test :: tests) x ↔ ∃ y, Above up x y ∧ test y = true ∧ Climbable up tests y := by
  constructor
  · rintro ⟨chain, ascends, passes⟩
    cases passes with
    | cons pass passes =>
      obtain ⟨step, rest⟩ := List.isChain_cons_cons.mp ascends
      exact ⟨_, step, pass, _, rest, passes⟩
  · rintro ⟨y, step, pass, chain, ascends, passes⟩
    exact ⟨y :: chain, List.isChain_cons_cons.mpr ⟨step, ascends⟩, .cons pass passes⟩

theorem not_climbable_top (top : up x = none) : ¬Climbable up (test :: tests) x := by
  intro h
  obtain ⟨y, above, -⟩ := climbable_cons.mp h
  obtain ⟨next, first, -⟩ := above_cases above
  cases top.symm.trans first

theorem climbable_of_pass (first : up x = some y) (pass : test y = true) :
    Climbable up (test :: tests) x ↔ Climbable up tests y := by
  rw [climbable_cons]
  constructor
  · rintro ⟨taken, above, -, rest⟩
    obtain ⟨next, step, same | above⟩ := above_cases above
    · cases first.symm.trans step
      exact same ▸ rest
    · cases first.symm.trans step
      exact rest.lower above
  · exact fun rest => ⟨y, .single first, pass, rest⟩

theorem climbable_of_fail (first : up x = some y) (fails : ¬test y = true) :
    Climbable up (test :: tests) x ↔ Climbable up (test :: tests) y := by
  refine ⟨fun h => ?_, fun h => h.lower (.single first)⟩
  obtain ⟨taken, above, pass, rest⟩ := climbable_cons.mp h
  obtain ⟨next, step, same | above⟩ := above_cases above
  · cases first.symm.trans step
    exact absurd (same ▸ pass) fails
  · cases first.symm.trans step
    exact climbable_cons.mpr ⟨taken, above, pass, rest⟩

theorem greedy_ends (grounded : Grounded fun x y => up x = some y) (tests : List (α → Bool))
    (x : α) : ∃ answer enough, (∀ turns, enough ≤ turns → greedy up turns tests (up x) = some answer) ∧
      (answer = true ↔ Climbable up tests x) := by
  induction x using grounded.induction generalizing tests with
  | _ x ih =>
    cases tests with
    | nil => exact ⟨true, 0, fun turns _ => by rw [greedy], iff_of_true rfl climbable_nil⟩
    | cons test tests =>
      cases first : up x with
      | none =>
        refine ⟨false, 1, fun turns h => ?_, iff_of_false Bool.false_ne_true (not_climbable_top first)⟩
        obtain ⟨turns, rfl⟩ := Nat.exists_eq_add_of_le' h
        rfl
      | some y =>
        -- the candidate is taken, or left
        by_cases pass : test y = true
        · obtain ⟨answer, enough, ends, finds⟩ := ih y first tests
          refine ⟨answer, enough + 1, fun turns h => ?_, finds.trans (climbable_of_pass first pass).symm⟩
          obtain ⟨turns, rfl⟩ := Nat.exists_eq_add_of_le' (Nat.le_of_add_left_le h)
          rw [greedy, if_pos pass]
          exact ends turns (Nat.le_of_succ_le_succ h)
        · obtain ⟨answer, enough, ends, finds⟩ := ih y first (test :: tests)
          refine ⟨answer, enough + 1, fun turns h => ?_, finds.trans (climbable_of_fail first pass).symm⟩
          obtain ⟨turns, rfl⟩ := Nat.exists_eq_add_of_le' (Nat.le_of_add_left_le h)
          rw [greedy, if_neg pass]
          exact ends turns (Nat.le_of_succ_le_succ h)

end Greedy

end GhitaBrowser
