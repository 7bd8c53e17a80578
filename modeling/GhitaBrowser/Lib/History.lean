import Mathlib.Algebra.Order.Ring.Int
import Mathlib.Data.List.Induction

/-!
# Histories of a machine with inputs

A machine takes one action after another. Its history lists the actions, each with the state
that it found, and what is observed of a run is read off its history.
-/

namespace GhitaBrowser.History

open List

variable {σ α β : Type} (step : σ → α → σ)

def run (start : σ) (actions : List α) : σ := actions.foldl step start

def history : σ → List α → List (σ × α)
  | _, [] => []
  | state, action :: actions => (state, action) :: history (step state action) actions

/-- What `observe` sees along a run. -/
def observed (observe : σ → α → Option β) (start : σ) (actions : List α) : List β :=
  (history step start actions).filterMap fun moment => observe moment.1 moment.2

@[simp] theorem run_nil (start : σ) : run step start [] = start := rfl

theorem run_concat (start : σ) (actions : List α) (action : α) :
    run step start (actions ++ [action]) = step (run step start actions) action := by
  simp [run]

variable {start : σ} {actions : List α}

theorem mem_of_mem_history {moment : σ × α}
    (h : moment ∈ history step start actions) : moment.2 ∈ actions := by
  induction actions generalizing start with
  | nil => cases h
  | cons first actions ih =>
    obtain rfl | later := mem_cons.1 h
    · exact mem_cons_self ..
    · exact mem_cons_of_mem _ (ih later)

theorem history_concat (start : σ) (actions : List α) (action : α) :
    history step start (actions ++ [action]) =
      history step start actions ++ [(run step start actions, action)] := by
  induction actions generalizing start with
  | nil => rfl
  | cons first actions ih => rw [cons_append, history, ih, history, cons_append]; rfl

theorem observed_concat (observe : σ → α → Option β) (start : σ) (actions : List α) (action : α) :
    observed step observe start (actions ++ [action]) =
      observed step observe start actions ++ (observe (run step start actions) action).toList := by
  rw [observed, history_concat, filterMap_append, observed]
  cases hseen : observe (run step start actions) action <;> simp [hseen]

/-- The states of a run, its first and its last among them. -/
def visited : σ → List α → List σ
  | state, [] => [state]
  | state, action :: actions => state :: visited (step state action) actions

theorem start_mem_visited (start : σ) (actions : List α) : start ∈ visited step start actions := by
  cases actions <;> exact mem_cons_self ..

theorem run_mem_visited_append (start : σ) (actions more : List α) :
    run step start actions ∈ visited step start (actions ++ more) := by
  induction actions generalizing start with
  | nil => exact start_mem_visited step start more
  | cons action actions ih => exact mem_cons_of_mem _ (ih _)

theorem run_mem_visited (start : σ) (actions : List α) :
    run step start actions ∈ visited step start actions := by
  have h := run_mem_visited_append step start actions []
  rwa [append_nil] at h

/-- A quantity that no action of a run lowers only grows along the run. -/
theorem visited_sorted (measure : σ → Nat) (start : σ) (actions : List α) :
    (visited step start actions).Pairwise (measure · ≤ measure ·) ↔
      ∀ moment ∈ history step start actions,
        measure moment.1 ≤ measure (step moment.1 moment.2) := by
  induction actions generalizing start with
  | nil => simp [visited, history]
  | cons action actions ih =>
    have hfirst := start_mem_visited step (step start action) actions
    rw [visited, history, pairwise_cons, forall_mem_cons, ih]
    refine and_congr_left fun hlater => ⟨fun hall => hall _ hfirst, fun hstep state hmem => ?_⟩
    -- the first state of the rest is below all others there
    refine Nat.le_trans hstep ?_
    cases actions with
    | nil => exact Nat.le_of_eq (congrArg measure (mem_singleton.1 hmem).symm)
    | cons next actions =>
      obtain rfl | hmem := mem_cons.1 hmem
      · exact Nat.le_refl _
      · exact (pairwise_cons.1 ((ih _).2 hlater)).1 state hmem

variable {P : σ → Prop}

/-- A run has a property in all its states when each of its actions does what keeps it. -/
theorem visited_iff {I : σ → Prop} {Keeping : σ → α → Prop}
    (hinv : ∀ state action, I state → I (step state action))
    (hstep : ∀ state action, I state → P state → (P (step state action) ↔ Keeping state action))
    (hstart : I start) (hP : P start) (actions : List α) :
    (∀ state ∈ visited step start actions, P state) ↔
      ∀ moment ∈ history step start actions, Keeping moment.1 moment.2 := by
  induction actions generalizing start with
  | nil => simpa [visited, history] using hP
  | cons action actions ih =>
    have hfirst := start_mem_visited step (step start action) actions
    rw [visited, history, forall_mem_cons, forall_mem_cons]
    constructor
    · rintro ⟨-, hall⟩
      have hnext := hall _ hfirst
      exact ⟨(hstep _ _ hstart hP).1 hnext, (ih (hinv _ _ hstart) hnext).1 hall⟩
    · rintro ⟨hkeeping, hall⟩
      have hnext := (hstep _ _ hstart hP).2 hkeeping
      exact ⟨hP, (ih (hinv _ _ hstart) hnext).2 hall⟩

/-- A property that every action of a run keeps holds at its end. -/
theorem run_keeps (hstart : P start)
    (hstep : ∀ moment ∈ history step start actions, P moment.1 → P (step moment.1 moment.2)) :
    P (run step start actions) := by
  induction actions using reverseRecOn with
  | nil => exact hstart
  | append_singleton actions action ih =>
    rw [run_concat]
    rw [history_concat] at hstep
    exact hstep _ (mem_append_right _ (mem_singleton_self _))
      (ih fun moment hmem => hstep moment (mem_append_left _ hmem))

theorem history_keeps (hstart : P start)
    (hstep : ∀ moment ∈ history step start actions, P moment.1 → P (step moment.1 moment.2)) :
    ∀ moment ∈ history step start actions, P moment.1 := by
  induction actions generalizing start with
  | nil => exact fun _ hmem => nomatch hmem
  | cons action actions ih =>
    rw [history, forall_mem_cons] at hstep ⊢
    exact ⟨hstart, ih (hstep.1 hstart) hstep.2⟩

/-- It holds in every state of the run. -/
theorem visited_keeps (hstart : P start)
    (hstep : ∀ moment ∈ history step start actions, P moment.1 → P (step moment.1 moment.2)) :
    ∀ state ∈ visited step start actions, P state := by
  induction actions generalizing start with
  | nil => exact fun state hmem => mem_singleton.1 hmem ▸ hstart
  | cons action actions ih =>
    rw [history, forall_mem_cons] at hstep
    rw [visited, forall_mem_cons]
    exact ⟨hstart, ih (hstep.1 hstart) hstep.2⟩

/-- An invariant of every action holds at the end of every run. -/
theorem run_invariant (hstart : P start)
    (hstep : ∀ state action, P state → P (step state action)) (actions : List α) :
    P (run step start actions) :=
  run_keeps step hstart fun moment _ => hstep moment.1 moment.2

end GhitaBrowser.History
