import GhitaBrowser.Lib.Outcome
import Mathlib.Data.List.Infix

/-!
# Checked arithmetic, slices and what a computation ends with

The operations of Rust's integers and slices that can fail, in their two forms:
`checked_add`, `try_from` and `get` give an `Option`, and `+`, `-`, `/`, `[i]`
panic in a build with overflow checks. `Ends x P` is the rule they are reasoned
with: the computation returns, and a value it returns satisfies `P`.
-/

namespace GhitaBrowser

namespace Checked

variable {α : Type}

/-! ## The operations -/

/-- The result of an operation on an unsigned type of `bits` bits. -/
def unsigned (bits value : Nat) : Option Nat :=
  if value < 2 ^ bits then some value else none

/-- The result of an operation on a signed type of `bits` bits. -/
def signed (bits : Nat) (value : Int) : Option Int :=
  if -2 ^ (bits - 1) ≤ value ∧ value < 2 ^ (bits - 1) then some value else none

/-- What the operators do where the `checked_` functions return `None`. -/
def orPanic : Option α → Outcome α
  | some value => .ok value
  | none => .panic

/-- `a + b` of two `usize`. -/
def add (a b : Nat) : Outcome Nat := orPanic (unsigned 64 (a + b))

/-- `a - b` of two `usize`. -/
def sub (a b : Nat) : Outcome Nat := if b ≤ a then .ok (a - b) else .panic

def saturatingAdd (a b : Nat) : Nat := min (a + b) (2 ^ 64 - 1)

/-- `a / b` of two `u64`. -/
def divide (a b : Nat) : Outcome Nat := if b = 0 then .panic else .ok (a / b)

/-- `a / b` of two `i128`, which rounds towards zero. -/
def divideSigned (a b : Int) : Outcome Int :=
  if b = 0 then .panic else orPanic (signed 128 (a.tdiv b))

/-- `values[i]`. -/
def index (values : List α) (i : Nat) : Outcome α := orPanic values[i]?

/-- `&values[start..]`. -/
def from? (values : List α) (start : Nat) : Outcome (List α) :=
  if start ≤ values.length then .ok (values.drop start) else .panic

/-- `values.get(start..stop)`. -/
def range? (values : List α) (start stop : Nat) : Option (List α) :=
  if start ≤ stop ∧ stop ≤ values.length then some ((values.take stop).drop start) else none

theorem unsigned_eq_some {bits value result : Nat} :
    unsigned bits value = some result ↔ value < 2 ^ bits ∧ result = value := by
  unfold unsigned
  split <;> grind

theorem signed_eq_some {bits : Nat} {value result : Int} :
    signed bits value = some result ↔
      (-2 ^ (bits - 1) ≤ value ∧ value < 2 ^ (bits - 1)) ∧ result = value := by
  unfold signed
  split <;> grind

theorem add_eq {a b : Nat} (h : a + b < 2 ^ 64) : add a b = .ok (a + b) := by
  unfold add
  rw [unsigned_eq_some.mpr ⟨h, rfl⟩]
  rfl

theorem sub_eq {a b : Nat} (h : b ≤ a) : sub a b = .ok (a - b) := if_pos h

theorem divide_eq {a b : Nat} (h : b ≠ 0) : divide a b = .ok (a / b) := if_neg h

variable {values : List α}

theorem index_eq {i : Nat} (h : i < values.length) :
    index values i = .ok values[i] := by
  unfold index
  rw [List.getElem?_eq_getElem h]
  rfl

theorem from?_eq {start : Nat} (h : start ≤ values.length) :
    from? values start = .ok (values.drop start) := if_pos h

theorem range?_eq_some {part : List α} {start stop : Nat} :
    range? values start stop = some part ↔
      (start ≤ stop ∧ stop ≤ values.length) ∧ part = (values.take stop).drop start := by
  unfold range?
  split <;> grind

/-- The quotient by a positive number has the sign of the dividend and is no further from
zero, so it fits where the dividend does. -/
theorem divideSigned_eq {a b : Int} (positive : 0 < b) (low : -2 ^ 127 ≤ a)
    (high : a < 2 ^ 127) : divideSigned a b = .ok (a.tdiv b) := by
  have near := Int.natAbs_tdiv_le_natAbs a b
  have fits : -2 ^ 127 ≤ a.tdiv b ∧ a.tdiv b < 2 ^ 127 := by
    rcases Int.le_total 0 a with nonneg | nonpos
    · have := Int.tdiv_nonneg nonneg (Int.le_of_lt positive)
      omega
    · have : a.tdiv b ≤ Int.tdiv 0 b := Int.tdiv_le_tdiv positive nonpos
      rw [Int.zero_tdiv] at this
      omega
  unfold divideSigned
  rw [if_neg (Int.ne_of_gt positive), signed_eq_some.mpr ⟨fits, rfl⟩]
  rfl

theorem length_of_range? {part : List α} {start stop : Nat}
    (h : range? values start stop = some part) : part.length = stop - start := by
  obtain ⟨⟨-, fits⟩, rfl⟩ := range?_eq_some.mp h
  simp [Nat.min_eq_left fits]

theorem infix_of_range? {part : List α} {start stop : Nat}
    (h : range? values start stop = some part) : part <:+: values := by
  obtain ⟨-, rfl⟩ := range?_eq_some.mp h
  exact (List.drop_suffix _ _).isInfix.trans (List.take_prefix _ _).isInfix

theorem take_append_range? {part : List α} {start stop : Nat}
    (h : range? values start stop = some part) :
    values.take start ++ part = values.take stop := by
  obtain ⟨⟨order, -⟩, rfl⟩ := range?_eq_some.mp h
  have covered : values.take start = (values.take stop).take start := by
    rw [List.take_take, Nat.min_eq_left order]
  rw [covered, List.take_append_drop]

end Checked

namespace Outcome

variable {α β : Type}

/-! ## Returning with a property -/

/-- The computation returns, and a value it returns satisfies `P`. -/
def Ends (x : Outcome α) (P : α → Prop) : Prop := x.Returns ∧ x.Ensures P

variable {P : α → Prop}

theorem ends_ok {value : α} (h : P value) : (ok value).Ends P :=
  ⟨ok_returns value, ensures_ok h⟩

@[simp] theorem ends_err (message : String) : (err message : Outcome α).Ends P :=
  ⟨err_returns message, fun _ impossible => by cases impossible⟩

variable {x : Outcome α}

theorem Ends.bind {Q : β → Prop} {f : α → Outcome β}
    (hx : x.Ends P) (hf : ∀ value, P value → (f value).Ends Q) : (x >>= f).Ends Q :=
  ⟨hx.1.bind fun value returned => (hf value (hx.2 value returned)).1,
    .bind fun value returned => (hf value (hx.2 value returned)).2⟩

theorem Ends.mono {Q : α → Prop} (hx : x.Ends P)
    (h : ∀ value, P value → Q value) : x.Ends Q := ⟨hx.1, hx.2.mono h⟩

/-- A later step may need which computation the value came from. -/
theorem Ends.known (hx : x.Ends P) :
    x.Ends fun value => P value ∧ x = ok value :=
  ⟨hx.1, fun value returned => ⟨hx.2 value returned, returned⟩⟩

theorem Ends.ite {p : Prop} [Decidable p] {y : Outcome α} (hx : p → x.Ends P)
    (hy : ¬p → y.Ends P) : (if p then x else y).Ends P := by
  split
  · exact hx ‹_›
  · exact hy ‹_›

/-- A guard of the source: `if p { return Err(message) }`. -/
theorem Ends.guard {p : Prop} [Decidable p] {message : String}
    (hx : ¬p → x.Ends P) : (if p then err message else x).Ends P :=
  .ite (fun _ => ends_err message) hx

theorem ends_okOr {message : String} {x : Option α}
    (h : ∀ value, x = some value → P value) : (okOr message x).Ends P := by
  cases x with
  | none => exact ends_err message
  | some value => exact ends_ok (h value rfl)

theorem ends_of_eq {value : α} (hx : x = ok value) (h : P value) :
    x.Ends P := hx ▸ ends_ok h

/-- A loop whose every step keeps the invariant. -/
theorem ends_foldlM {P : β → Prop} {f : β → α → Outcome β} {values : List α}
    (step : ∀ value ∈ values, ∀ state, P state → (f state value).Ends P) (state : β)
    (start : P state) : (values.foldlM f state).Ends P := by
  induction values generalizing state with
  | nil => exact ends_ok start
  | cons value values ih =>
    rw [List.foldlM_cons]
    refine (step value List.mem_cons_self state start).bind fun next kept => ?_
    exact ih (fun later among => step later (List.mem_cons_of_mem _ among)) next kept

end Outcome

end GhitaBrowser
