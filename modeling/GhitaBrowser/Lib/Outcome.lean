import Mathlib.Algebra.Order.Ring.Int
import Mathlib.Logic.Relation

/-!
# Outcomes of a computation that may panic

A Rust function that returns `Result<T, String>` has a third way to end: an
operation inside it (a slice, a `split_off`, a shift) can panic. `Outcome` keeps
the two failures apart, so that "never panics" is a statement about a value.
`timeout` is the model's own: it is what a fuelled recursion returns when the
fuel is gone, and every use of it comes with a lemma that says how much fuel
rules it out.
-/

namespace GhitaBrowser

inductive Outcome (α : Type) where
  | ok (value : α)
  | err (message : String)
  | panic
  | timeout
deriving DecidableEq, Repr

/-- The text of a byte under `0x{:02X}`. -/
def hexByte (byte : UInt8) : String :=
  "0x" ++ String.ofList ((if byte.toNat < 16 then ['0'] else []) ++
    (Nat.toDigits 16 byte.toNat).map Char.toUpper)

namespace Outcome

variable {α β : Type}

def bind (x : Outcome α) (f : α → Outcome β) : Outcome β :=
  match x with
  | ok value => f value
  | err message => err message
  | panic => panic
  | timeout => timeout

instance : Monad Outcome where
  pure := ok
  bind := bind

instance : LawfulMonad Outcome :=
  .mk' Outcome (fun x => by cases x <;> rfl) (fun _ _ => rfl) (fun x _ _ => by cases x <;> rfl)

/-- `Option::ok_or_else`. -/
def okOr (message : String) : Option α → Outcome α
  | some value => ok value
  | none => err message

/-- The ways a Rust caller can see the call end. -/
def Returns (x : Outcome α) : Prop :=
  (∃ value, x = ok value) ∨ ∃ message, x = err message

def Succeeds (x : Outcome α) : Prop := ∃ value, x = ok value

/-- Every value the computation returns satisfies `P`. -/
def Ensures (x : Outcome α) (P : α → Prop) : Prop := ∀ value, x = ok value → P value

variable (message : String)

@[simp] theorem pure_eq (value : α) : (pure value : Outcome α) = ok value := rfl
@[simp] theorem ok_bind (value : α) (f : α → Outcome β) : (ok value >>= f) = f value := rfl
@[simp] theorem err_bind (f : α → Outcome β) :
    (err message >>= f) = err message := rfl
@[simp] theorem panic_bind (f : α → Outcome β) : ((panic : Outcome α) >>= f) = panic := rfl
@[simp] theorem timeout_bind (f : α → Outcome β) :
    ((timeout : Outcome α) >>= f) = timeout := rfl
@[simp] theorem okOr_some (value : α) :
    okOr message (some value) = ok value := rfl
@[simp] theorem okOr_none : okOr message (none : Option α) = err message := rfl

variable {x : Outcome α} {f : α → Outcome β}

theorem bind_eq_ok {value : β} :
    (x >>= f) = ok value ↔ ∃ middle, x = ok middle ∧ f middle = ok value := by
  cases x <;> simp

theorem okOr_eq_ok {message : String} {x : Option α} {value : α} :
    okOr message x = ok value ↔ x = some value := by
  cases x <;> simp

@[simp] theorem ok_returns (value : α) : (ok value).Returns := .inl ⟨value, rfl⟩

@[simp] theorem err_returns : (err message : Outcome α).Returns :=
  .inr ⟨message, rfl⟩

theorem Returns.bind (hx : x.Returns)
    (hf : ∀ value, x = ok value → (f value).Returns) : (x >>= f).Returns := by
  rcases hx with ⟨value, rfl⟩ | ⟨message, rfl⟩
  · exact hf value rfl
  · exact err_returns message

theorem Returns.ite {p : Prop} [Decidable p] {y : Outcome α} (hx : p → x.Returns)
    (hy : ¬p → y.Returns) : (if p then x else y).Returns := by
  split
  · exact hx ‹_›
  · exact hy ‹_›

@[simp] theorem okOr_returns (x : Option α) : (okOr message x).Returns := by
  cases x <;> simp

@[simp] theorem succeeds_ok (value : α) : (ok value).Succeeds := ⟨value, rfl⟩

theorem Succeeds.bind (hx : x.Succeeds)
    (hf : ∀ value, x = ok value → (f value).Succeeds) : (x >>= f).Succeeds := by
  obtain ⟨value, rfl⟩ := hx
  exact hf value rfl

theorem Succeeds.ite {p : Prop} [Decidable p] {y : Outcome α} (hx : p → x.Succeeds)
    (hy : ¬p → y.Succeeds) : (if p then x else y).Succeeds := by
  split
  · exact hx ‹_›
  · exact hy ‹_›

theorem succeeds_bind :
    (x >>= f).Succeeds ↔ ∃ value, x = ok value ∧ (f value).Succeeds := by
  constructor
  · rintro ⟨result, h⟩
    obtain ⟨value, hx, hf⟩ := bind_eq_ok.mp h
    exact ⟨value, hx, result, hf⟩
  · rintro ⟨value, rfl, h⟩
    exact h

/-- A fold whose step always succeeds. -/
theorem succeeds_foldlM {f : β → α → Outcome β} (h : ∀ state value, (f state value).Succeeds)
    (values : List α) (state : β) : (values.foldlM f state).Succeeds := by
  induction values generalizing state with
  | nil => exact ⟨state, rfl⟩
  | cons value values ih =>
    rw [List.foldlM_cons]
    exact (h state value).bind fun next _ => ih next

theorem ensures_ok {P : α → Prop} {value : α} (h : P value) : (ok value).Ensures P := by
  rintro _ ⟨⟩
  exact h

theorem Ensures.bind {P : β → Prop}
    (h : ∀ value, x = ok value → (f value).Ensures P) : (x >>= f).Ensures P := by
  intro result returned
  obtain ⟨value, first, second⟩ := bind_eq_ok.mp returned
  exact h value first result second

theorem Ensures.ite {P : α → Prop} {p : Prop} [Decidable p] {y : Outcome α}
    (hx : p → x.Ensures P) (hy : ¬p → y.Ensures P) : (if p then x else y).Ensures P := by
  split
  · exact hx ‹_›
  · exact hy ‹_›

theorem Ensures.mono {P Q : α → Prop} (hx : x.Ensures P)
    (h : ∀ value, P value → Q value) : x.Ensures Q := fun value returned =>
  h value (hx value returned)

theorem eq_panic (notReturns : ¬x.Returns) (notTimeout : x ≠ timeout) :
    x = panic := by
  cases x with
  | ok value => exact absurd (ok_returns value) notReturns
  | err message => exact absurd (err_returns message) notReturns
  | panic => rfl
  | timeout => exact absurd rfl notTimeout

end Outcome

end GhitaBrowser
