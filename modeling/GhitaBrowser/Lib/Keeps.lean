import Mathlib.Tactic.Common

/-!
# Contracts of programs with a state and errors

`Meets P program Q E`: from a state with `P` the program ends well with `Q`, or fails in
a state with `E`. A program keeps a property when it meets it as all three.
-/

namespace GhitaBrowser

section

variable {ε σ α β : Type} {P : σ → Prop} {Q : α → σ → Prop} {E : σ → Prop}

def Meets (P : σ → Prop) (program : EStateM ε σ α) (Q : α → σ → Prop) (E : σ → Prop) : Prop :=
  ∀ s, P s →
    match program s with
    | .ok value after => Q value after
    | .error _ after => E after

def Keeps (P : σ → Prop) (program : EStateM ε σ α) : Prop := Meets P program (fun _ => P) P

/-- The state a program ends in, also when it fails. -/
def endState (program : EStateM ε σ α) (s : σ) : σ :=
  match program s with
  | .ok _ s => s
  | .error _ s => s

/-! ## Evaluation -/

variable {program : EStateM ε σ α} {next : α → EStateM ε σ β}

theorem bind_ok {s after : σ} {value : α}
    (h : program s = .ok value after) : (program >>= next) s = next value after := by
  show EStateM.bind program next s = _
  unfold EStateM.bind
  rw [h]

theorem bind_error {s after : σ} {failure : ε}
    (h : program s = .error failure after) : (program >>= next) s = .error failure after := by
  show EStateM.bind program next s = _
  unfold EStateM.bind
  rw [h]

theorem bind_get {next : σ → EStateM ε σ β} {s : σ} :
    ((get : EStateM ε σ σ) >>= next) s = next s s := rfl

theorem endState_bind_ok {s after : σ} {value : α} (h : program s = .ok value after) :
    endState (program >>= next) s = endState (next value) after := by
  unfold endState
  rw [bind_ok h]

theorem endState_bind_error {s after : σ} {failure : ε} (h : program s = .error failure after) :
    endState (program >>= next) s = after := by
  unfold endState
  rw [bind_error h]

theorem endState_bind_pure {f : α → β} {s : σ} :
    endState (program >>= fun value => pure (f value)) s = endState program s := by
  cases h : program s with
  | ok value after =>
    rw [endState_bind_ok h]
    unfold endState
    rw [h]
    rfl
  | error failure after =>
    rw [endState_bind_error h]
    unfold endState
    rw [h]

/-! ## Contracts -/

namespace Meets

theorem throw {failure : ε} : Meets E (throw failure : EStateM ε σ α) Q E := fun _ h => h

theorem get : Meets P (get : EStateM ε σ σ) (fun value s => P s ∧ value = s) E :=
  fun _ h => ⟨h, rfl⟩

theorem get_bind {start : σ} {next : σ → EStateM ε σ α}
    (h : Meets (fun s => s = start) (next start) Q E) :
    Meets (fun s => s = start) (MonadState.get >>= next) Q E := by
  rintro s rfl
  exact h s rfl

theorem modify {f : σ → σ} {Q : PUnit → σ → Prop} :
    Meets (fun s => Q () (f s)) (modify f : EStateM ε σ PUnit) Q E := fun _ h => h

theorem bind {R : β → σ → Prop}
    (h : Meets P program Q E) (hnext : ∀ value, Meets (Q value) (next value) R E) :
    Meets P (program >>= next) R E := by
  intro s hs
  have hmiddle := h s hs
  show match EStateM.bind program next s with
    | .ok value after => R value after
    | .error _ after => E after
  unfold EStateM.bind
  cases hprogram : program s with
  | ok value after =>
    rw [hprogram] at hmiddle
    exact hnext value after hmiddle
  | error failure after =>
    rw [hprogram] at hmiddle
    exact hmiddle

theorem tryCatch {handler : ε → EStateM ε σ α} {R : σ → Prop}
    (h : Meets P program Q R) (hhandler : ∀ failure, Meets R (handler failure) Q E) :
    Meets P (tryCatch program handler) Q E := by
  intro s hs
  have hmiddle := h s hs
  show match EStateM.tryCatch program handler s with
    | .ok value after => Q value after
    | .error _ after => E after
  unfold EStateM.tryCatch
  cases hprogram : program s with
  | ok value after =>
    rw [hprogram] at hmiddle
    exact hmiddle
  | error failure after =>
    rw [hprogram] at hmiddle
    exact hhandler failure after hmiddle

theorem ite {c : Prop} [Decidable c] {first second : EStateM ε σ α}
    (h : c → Meets P first Q E) (h' : ¬ c → Meets P second Q E) :
    Meets P (if c then first else second) Q E := by
  split
  · next hc => exact h hc
  · next hc => exact h' hc

theorem fact {c : Prop} (h : ∀ s, P s → c) :
    Meets P program (fun _ _ => c) fun _ => True := by
  intro s hs
  cases program s with
  | ok value after => exact h s hs
  | error failure after => exact True.intro

theorem any : Meets P program (fun _ _ => True) fun _ => True := by
  intro s _
  cases program s <;> exact True.intro

theorem endState {Q : σ → Prop} (h : Meets P program (fun _ => Q) E) {s : σ}
    (hs : P s) : Q (GhitaBrowser.endState program s) ∨ E (GhitaBrowser.endState program s) := by
  have hmeets := h s hs
  unfold GhitaBrowser.endState
  revert hmeets
  cases program s with
  | ok value after => exact .inl
  | error failure after => exact .inr

theorem and {Q' : α → σ → Prop} {E' : σ → Prop} (h : Meets P program Q E)
    (h' : Meets P program Q' E') :
    Meets P program (fun value s => Q value s ∧ Q' value s) fun s => E s ∧ E' s := by
  intro s hs
  have hfirst := h s hs
  have hsecond := h' s hs
  revert hfirst hsecond
  cases program s with
  | ok value after => exact And.intro
  | error failure after => exact And.intro

theorem mono {A : σ → Prop} {Q' : α → σ → Prop} {E' : σ → Prop}
    (h : Meets P program Q E) (hP : ∀ s, A s → P s) (hQ : ∀ value s, Q value s → Q' value s)
    (hE : ∀ s, E s → E' s) : Meets A program Q' E' := by
  intro s hs
  have hmeets := h s (hP s hs)
  revert hmeets
  cases program s with
  | ok value after => exact hQ value after
  | error failure after => exact hE after

theorem weaken {Q' : α → σ → Prop} {E' : σ → Prop} (h : Meets P program Q E)
    (hQ : ∀ value s, Q value s → Q' value s) (hE : ∀ s, E s → E' s) : Meets P program Q' E' :=
  h.mono (fun _ hs => hs) hQ hE

theorem onError {E' : σ → Prop} (h : Meets P program Q E) (hE : ∀ s, E s → E' s) :
    Meets P program Q E' := h.mono (fun _ hs => hs) (fun _ _ hs => hs) hE

end Meets

namespace Keeps

theorem endState (h : Keeps P program) {s : σ} (hs : P s) :
    P (GhitaBrowser.endState program s) := by
  have hmeets := h s hs
  unfold GhitaBrowser.endState
  cases hprogram : program s with
  | ok value after =>
    rw [hprogram] at hmeets
    exact hmeets
  | error failure after =>
    rw [hprogram] at hmeets
    exact hmeets

/-- What a program keeps, from a state that has it. -/
theorem meets (h : Keeps P program) {s : σ} (hs : P s) :
    Meets (fun t => t = s) program (fun _ => P) P := by
  rintro _ rfl
  exact h _ hs

theorem of_endState (h : ∀ s, P s → P (GhitaBrowser.endState program s)) : Keeps P program := by
  intro s hs
  have hend := h s hs
  unfold GhitaBrowser.endState at hend
  revert hend
  cases program s with
  | ok value after => exact id
  | error failure after => exact id

theorem pure (value : α) : Keeps P (Pure.pure value : EStateM ε σ α) := fun _ h => h

theorem throw (failure : ε) : Keeps P (throw failure : EStateM ε σ α) := Meets.throw

theorem get : Keeps P (get : EStateM ε σ σ) := fun _ h => h

theorem modify {f : σ → σ} (hf : ∀ s, P s → P (f s)) :
    Keeps P (modify f : EStateM ε σ PUnit) := hf

theorem bind (h : Keeps P program)
    (hnext : ∀ value, Keeps P (next value)) : Keeps P (program >>= next) := Meets.bind h hnext

theorem ite {c : Prop} [Decidable c] {first second : EStateM ε σ α} (h : Keeps P first)
    (h' : Keeps P second) : Keeps P (if c then first else second) :=
  Meets.ite (fun _ => h) fun _ => h'

end Keeps

end

end GhitaBrowser

/-!
## Programs that end well exactly under a condition

`Decides E start program C Q`: from `start` the program ends well exactly when `C` holds, and
then with `Q`. Where it fails, it fails with a failure in `E`.
-/

namespace GhitaBrowser

section

variable {ε σ α β : Type} {E : ε → Prop} {start : σ} {C D : Prop} {Q : α → σ → Prop}

def Decides (E : ε → Prop) (start : σ) (program : EStateM ε σ α) (C : Prop) (Q : α → σ → Prop) :
    Prop :=
  match program start with
  | .ok value after => C ∧ Q value after
  | .error failure _ => ¬ C ∧ E failure

namespace Decides

theorem pure {value : α} (h : Q value start) :
    Decides E start (Pure.pure value : EStateM ε σ α) True Q := ⟨trivial, h⟩

theorem throw {failure : ε} (h : E failure) :
    Decides E start (throw failure : EStateM ε σ α) False Q := ⟨id, h⟩

theorem get_bind {f : σ → EStateM ε σ α} (h : Decides E start (f start) C Q) :
    Decides E start (MonadState.get >>= f) C Q := h

variable {program : EStateM ε σ α}

theorem bind {f : α → EStateM ε σ β} {R : β → σ → Prop} (h : Decides E start program C Q)
    (hnext : ∀ value middle, Q value middle → Decides E middle (f value) D R) :
    Decides E start (program >>= f) (C ∧ D) R := by
  show match EStateM.bind program f start with
    | .ok value after => (C ∧ D) ∧ R value after
    | .error failure _ => ¬ (C ∧ D) ∧ E failure
  unfold EStateM.bind
  unfold Decides at h
  cases hprogram : program start with
  | error failure after =>
    rw [hprogram] at h
    exact ⟨fun both => h.1 both.1, h.2⟩
  | ok value middle =>
    rw [hprogram] at h
    have rest := hnext value middle h.2
    unfold Decides at rest
    revert rest
    dsimp only
    cases f value middle with
    | ok value after => exact fun rest => ⟨⟨h.1, rest.1⟩, rest.2⟩
    | error failure after => exact fun rest => ⟨fun both => rest.1 both.2, rest.2⟩

theorem ite {c : Prop} [Decidable c] {first second : EStateM ε σ α}
    (h : c → Decides E start first C Q) (h' : ¬ c → Decides E start second C Q) :
    Decides E start (if c then first else second) C Q := by
  split
  · next hc => exact h hc
  · next hc => exact h' hc

theorem congr (h : Decides E start program C Q) (same : C ↔ D) :
    Decides E start program D Q := by
  unfold Decides at h ⊢
  revert h
  cases program start with
  | ok value after => exact fun h => ⟨same.mp h.1, h.2⟩
  | error failure after => exact fun h => ⟨fun hD => h.1 (same.mpr hD), h.2⟩

theorem mono {R : α → σ → Prop} (h : Decides E start program C Q)
    (hQ : ∀ value after, Q value after → R value after) : Decides E start program C R := by
  unfold Decides at h ⊢
  revert h
  cases program start with
  | ok value after => exact fun h => ⟨h.1, hQ value after h.2⟩
  | error failure after => exact id

theorem known (h : Decides E start program C Q) :
    Decides E start program C fun value after => C ∧ Q value after := by
  unfold Decides at h ⊢
  revert h
  cases program start with
  | ok value after => exact fun h => ⟨h.1, h⟩
  | error failure after => exact id

theorem and {Q' : α → σ → Prop} {R : σ → Prop}
    (h : Decides E start program C Q) (h' : Meets (· = start) program Q' R) :
    Decides E start program C fun value after => Q value after ∧ Q' value after := by
  have hmeets := h' start rfl
  unfold Decides at h ⊢
  revert h hmeets
  cases program start with
  | ok value after => exact fun h hmeets => ⟨h.1, h.2, hmeets⟩
  | error failure after => exact fun h _ => h

theorem meets (h : Decides E start program C Q) :
    Meets (· = start) program (fun value after => C ∧ Q value after) fun _ => ¬ C := by
  rintro _ rfl
  unfold Decides at h
  revert h
  cases program _ with
  | ok value after => exact id
  | error failure after => exact And.left

theorem not_of_error (h : Decides E start program C Q) {failure : ε}
    {after : σ} (hprogram : program start = .error failure after) : ¬ C := by
  unfold Decides at h
  rw [hprogram] at h
  exact h.1

theorem error_of_not (h : Decides E start program C Q) (hC : ¬ C) :
    ∃ failure after, program start = .error failure after ∧ E failure := by
  unfold Decides at h
  cases hprogram : program start with
  | ok value after =>
    rw [hprogram] at h
    exact absurd h.1 hC
  | error failure after =>
    rw [hprogram] at h
    exact ⟨failure, after, rfl, h.2⟩

end Decides

end

end GhitaBrowser
