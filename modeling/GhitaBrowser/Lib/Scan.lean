import GhitaBrowser.Lib.Outcome
import Mathlib.Data.List.Basic

/-!
# Scanning text by position

A scanner keeps an index into a vector of characters and cuts slices out of it. An
access `chars[pos]` behind its guard `pos < len` is the lookup `chars[pos]?`; a slice
panics when its bounds are out of order, and a byte offset off a character boundary
panics too.
-/

namespace GhitaBrowser

/-- The characters of a Rust string. -/
abbrev Text := List Char

section Slices

variable {α : Type}

/-- `chars[start..stop]`. -/
def slice (chars : List α) (start stop : Nat) : Outcome (List α) :=
  if start ≤ stop ∧ stop ≤ chars.length then .ok ((chars.drop start).take (stop - start))
  else .panic

theorem slice_ok {chars : List α} {start stop : Nat} (hstart : start ≤ stop)
    (hstop : stop ≤ chars.length) :
    slice chars start stop = .ok ((chars.drop start).take (stop - start)) :=
  if_pos ⟨hstart, hstop⟩

/-- `while pos < len && p(chars[pos]) { pos += 1 }`. -/
def skipWhile (p : α → Bool) (chars : List α) (pos : Nat) : Nat :=
  pos + ((chars.drop pos).takeWhile p).length

theorem le_skipWhile (p : α → Bool) (chars : List α) (pos : Nat) :
    pos ≤ skipWhile p chars pos := Nat.le_add_right _ _

theorem skipWhile_le (p : α → Bool) {chars : List α} {pos : Nat} (h : pos ≤ chars.length) :
    skipWhile p chars pos ≤ chars.length := by
  have hlength := (List.takeWhile_prefix p (l := chars.drop pos)).length_le
  rw [List.length_drop] at hlength
  unfold skipWhile
  omega

theorem lt_skipWhile {p : α → Bool} {chars : List α} {pos : Nat} {c : α}
    (hc : chars[pos]? = some c) (h : p c) : pos < skipWhile p chars pos := by
  obtain ⟨hlt, rfl⟩ := List.getElem?_eq_some_iff.mp hc
  rw [skipWhile, List.drop_eq_getElem_cons hlt, List.takeWhile_cons_of_pos h]
  simp

theorem takeWhile_stops {p : α → Bool} {chars : List α} {c : α}
    (hc : chars[(chars.takeWhile p).length]? = some c) : p c = false := by
  induction chars with
  | nil => cases hc
  | cons d rest ih =>
    cases hd : p d with
    | true =>
      rw [List.takeWhile_cons_of_pos hd] at hc
      exact ih hc
    | false =>
      rw [List.takeWhile_cons_of_neg (by simp [hd])] at hc
      cases hc
      exact hd

theorem skipWhile_stops {p : α → Bool} {chars : List α} {pos : Nat} {c : α}
    (hc : chars[skipWhile p chars pos]? = some c) : p c = false := by
  rw [skipWhile, ← List.getElem?_drop] at hc
  exact takeWhile_stops hc

theorem skipWhile_eq {p : α → Bool} {chars : List α} {pos : Nat} {c : α}
    (hc : chars[pos]? = some c) (h : p c = false) : skipWhile p chars pos = pos := by
  obtain ⟨hlt, rfl⟩ := List.getElem?_eq_some_iff.mp hc
  rw [skipWhile, List.drop_eq_getElem_cons hlt, List.takeWhile_cons_of_neg (by simp [h])]
  rfl

/-- Steps to the first suffix where `stop` holds, or to the end. -/
def stepsUntil (stop : List α → Bool) : List α → Nat
  | [] => 0
  | c :: rest => if stop (c :: rest) then 0 else stepsUntil stop rest + 1

/-- `while pos < len && !stop(&chars[pos..]) { pos += 1 }`. -/
def seek (stop : List α → Bool) (chars : List α) (pos : Nat) : Nat :=
  pos + stepsUntil stop (chars.drop pos)

theorem stepsUntil_le (stop : List α → Bool) (chars : List α) :
    stepsUntil stop chars ≤ chars.length := by
  induction chars with
  | nil => exact Nat.le_refl _
  | cons c rest ih =>
    unfold stepsUntil
    split
    · exact Nat.zero_le _
    · exact Nat.succ_le_succ ih

theorem le_seek (stop : List α → Bool) (chars : List α) (pos : Nat) :
    pos ≤ seek stop chars pos := Nat.le_add_right _ _

theorem seek_le (stop : List α → Bool) {chars : List α} {pos : Nat} (h : pos ≤ chars.length) :
    seek stop chars pos ≤ chars.length := by
  have hsteps := stepsUntil_le stop (chars.drop pos)
  rw [List.length_drop] at hsteps
  unfold seek
  omega

end Slices

section Bytes

/-- `str::len`: the bytes of the UTF-8 form. -/
def byteLen (text : Text) : Nat := (text.map Char.utf8Size).sum

def isCharBoundary : Text → Nat → Bool
  | _, 0 => true
  | [], _ + 1 => false
  | c :: rest, bytes => c.utf8Size ≤ bytes && isCharBoundary rest (bytes - c.utf8Size)

/-- `&text[..bytes]`. -/
def takeBytes : Text → Nat → Outcome Text
  | _, 0 => .ok []
  | [], _ + 1 => .panic
  | c :: rest, bytes =>
    if c.utf8Size ≤ bytes then do return c :: (← takeBytes rest (bytes - c.utf8Size)) else .panic

/-- `String::truncate`: a length past the end leaves the text alone. -/
def truncate (text : Text) (bytes : Nat) : Outcome Text :=
  if byteLen text < bytes then .ok text else takeBytes text bytes

theorem takeBytes_spec (text : Text) (bytes : Nat) :
    (isCharBoundary text bytes = true ∧ ∃ kept rest, text = kept ++ rest ∧ byteLen kept = bytes ∧
      takeBytes text bytes = .ok kept) ∨
    (isCharBoundary text bytes = false ∧ takeBytes text bytes = .panic) := by
  induction text generalizing bytes with
  | nil =>
    cases bytes with
    | zero => exact .inl ⟨rfl, [], [], rfl, rfl, rfl⟩
    | succ bytes => exact .inr ⟨rfl, rfl⟩
  | cons c rest ih =>
    cases bytes with
    | zero => exact .inl ⟨rfl, [], c :: rest, rfl, rfl, rfl⟩
    | succ bytes =>
      rw [isCharBoundary, takeBytes]
      by_cases hsize : c.utf8Size ≤ bytes + 1
      · obtain ⟨hbound, kept, left, rfl, hlen, htake⟩ | ⟨hbound, htake⟩ := ih (bytes + 1 - c.utf8Size)
        · refine .inl ⟨by simp [hsize, hbound], c :: kept, left, rfl, ?_, by simp [hsize, htake]⟩
          rw [byteLen, List.map_cons, List.sum_cons, ← byteLen, hlen]
          omega
        · exact .inr ⟨by simp [hbound], by simp [hsize, htake]⟩
      · exact .inr ⟨by simp [hsize], by simp [hsize]⟩
      all_goals nofun

theorem truncate_spec {text : Text} {bytes : Nat} (hlong : bytes < byteLen text) :
    (isCharBoundary text bytes = true ∧ ∃ kept, truncate text bytes = .ok kept) ∨
      (isCharBoundary text bytes = false ∧ truncate text bytes = .panic) := by
  rw [truncate, if_neg (by omega)]
  obtain ⟨hbound, kept, -, -, -, hkept⟩ | hpanic := takeBytes_spec text bytes
  · exact .inl ⟨hbound, kept, hkept⟩
  · exact .inr hpanic

end Bytes

section Loops

variable {σ β : Type}

/-- A loop whose body goes on with a new state or leaves with a value. -/
def loop (body : σ → Outcome (σ ⊕ β)) : Nat → σ → Outcome β
  | 0, _ => .timeout
  | turns + 1, state => do
    match ← body state with
    | .inl next => loop body turns next
    | .inr value => return value

/-- A loop that makes progress ends, and what every turn ensures holds of its value. -/
theorem loop_spec {body : σ → Outcome (σ ⊕ β)} (inv : σ → Prop) (left : σ → Nat) (post : β → Prop)
    (hbody : ∀ state, inv state → ∃ next, body state = .ok next ∧
      Sum.elim (fun state' => inv state' ∧ left state' < left state) post next)
    {turns : Nat} {state : σ} (hinv : inv state) (hturns : left state < turns) :
    ∃ value, loop body turns state = .ok value ∧ post value := by
  induction turns generalizing state with
  | zero => exact absurd hturns (Nat.not_lt_zero _)
  | succ turns ih =>
    obtain ⟨next, hnext, hgood⟩ := hbody state hinv
    rw [loop, hnext]
    cases next with
    | inl state' => exact ih hgood.1 (by have := hgood.2; omega)
    | inr value => exact ⟨value, rfl, hgood⟩

end Loops

end GhitaBrowser
