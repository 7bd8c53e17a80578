import GhitaBrowser.Lib.Scan

/-!
# Text in parentheses

A scanner counts the open parentheses, never below none, and looks for characters outside of
all of them. `Skips` says that a scan runs over a text without finding any, and `nest` is the
largest number of open parentheses that it counts.
-/

namespace GhitaBrowser.Nesting

open List

/-- A text is decided by its own characters, not by all that there are. -/
instance (priority := 1100) decidableText (p : Char → Prop) [DecidablePred p] (text : Text) :
    Decidable (∀ c ∈ text, p c) := decidableBAll p text

/-! ## Scanners -/

/-- The text up to each character outside of all parentheses that passes, and the rest behind the
last one. -/
def splitTop (p : Char → Bool) : Nat → Text → Text × List (Char × Text)
  | _, [] => ([], [])
  | depth, c :: rest =>
    if c == '(' then
      let (first, more) := splitTop p (depth + 1) rest
      (c :: first, more)
    else if c == ')' then
      let (first, more) := splitTop p (depth - 1) rest
      (c :: first, more)
    else if depth == 0 && p c then
      let (first, more) := splitTop p 0 rest
      ([], (c, first) :: more)
    else
      let (first, more) := splitTop p depth rest
      (c :: first, more)

/-- The texts before and after the first character outside of all parentheses that passes. -/
def cutTop (p : Char → Bool) : Nat → Text → Option (Text × Text)
  | _, [] => none
  | depth, c :: rest =>
    if c == '(' then (cutTop p (depth + 1) rest).map fun (before, after) => (c :: before, after)
    else if c == ')' then
      (cutTop p (depth - 1) rest).map fun (before, after) => (c :: before, after)
    else if depth == 0 && p c then some ([], rest)
    else (cutTop p depth rest).map fun (before, after) => (c :: before, after)

/-- The largest number of open parentheses, with `depth` of them open at first. -/
def nest : Nat → Text → Nat
  | depth, [] => depth
  | depth, c :: rest =>
    if c == '(' then nest (depth + 1) rest
    else if c == ')' then max depth (nest (depth - 1) rest)
    else nest depth rest

/-! ## How deep the pieces are -/

section Nest

variable {p : Char → Bool}

theorem nest_append_plain {front : Text} (h : ∀ c ∈ front, c ≠ '(' ∧ c ≠ ')') (depth : Nat)
    (text : Text) : nest depth (front ++ text) = nest depth text := by
  induction front with
  | nil => rfl
  | cons c rest ih =>
    obtain ⟨⟨notOpen, notClose⟩, later⟩ := forall_mem_cons.mp h
    rw [cons_append, nest, if_neg (by simpa using notOpen), if_neg (by simpa using notClose),
      ih later]

theorem nest_append_closing (depth : Nat) (text : Text) {tail : Text}
    (h : ∀ c ∈ tail, c ≠ '(') : nest depth (text ++ tail) = nest depth text := by
  induction text generalizing depth with
  | nil =>
    rw [nil_append]
    induction tail generalizing depth with
    | nil => rfl
    | cons c rest ih =>
      obtain ⟨notOpen, later⟩ := forall_mem_cons.mp h
      show nest depth (c :: rest) = depth
      rw [nest, if_neg (by simpa using notOpen)]
      split
      · rw [ih later]
        exact Nat.max_eq_left (Nat.sub_le depth 1)
      · exact ih later depth
  | cons c rest ih =>
    rw [cons_append, nest, nest, ih, ih, ih]

end Nest

/-! ## Texts that a scan runs over -/

/-- From `depth` open parentheses the scan runs over the text to `depth'` of them, and finds no
character that passes. -/
inductive Skips (p : Char → Bool) : Nat → Text → Nat → Prop
  | nil (depth : Nat) : Skips p depth [] depth
  | plain {depth depth' : Nat} {c : Char} {rest : Text} (notOpen : c ≠ '(') (notClose : c ≠ ')')
      (passed : depth = 0 → p c = false) : Skips p depth rest depth' →
      Skips p depth (c :: rest) depth'
  | opens {depth depth' : Nat} {rest : Text} : Skips p (depth + 1) rest depth' →
      Skips p depth ('(' :: rest) depth'
  | closes {depth depth' : Nat} {rest : Text} : Skips p depth rest depth' →
      Skips p (depth + 1) (')' :: rest) depth'

section Skips

variable {p : Char → Bool} {depth middle last : Nat} {front text : Text}

theorem Skips.append (h : Skips p depth front middle) (h' : Skips p middle text last) :
    Skips p depth (front ++ text) last := by
  induction h with
  | nil => exact h'
  | plain notOpen notClose passed _ ih => exact .plain notOpen notClose passed (ih h')
  | opens _ ih => exact .opens (ih h')
  | closes _ ih => exact .closes (ih h')

theorem Skips.of_plain (h : ∀ c ∈ text, c ≠ '(' ∧ c ≠ ')' ∧ p c = false) :
    Skips p depth text depth := by
  induction text with
  | nil => exact .nil depth
  | cons c rest ih =>
    obtain ⟨⟨notOpen, notClose, passed⟩, later⟩ := forall_mem_cons.mp h
    exact .plain notOpen notClose (fun _ => passed) (ih later)

theorem Skips.inside {q : Char → Bool} (h : Skips q depth text last) (inner : Nat) :
    Skips p (depth + (inner + 1)) text (last + (inner + 1)) := by
  induction h with
  | nil => exact .nil _
  | plain notOpen notClose _ _ ih => exact .plain notOpen notClose (fun none => nomatch none) ih
  | @opens depth depth' rest _ ih =>
    refine .opens ?_
    rw [Nat.add_right_comm] at ih
    exact ih
  | @closes depth depth' rest _ ih =>
    rw [Nat.add_right_comm]
    exact .closes ih

theorem Skips.paren {q : Char → Bool} (h : Skips q 0 text 0) :
    Skips p depth ('(' :: (text ++ [')'])) depth := by
  have inner := h.inside (p := p) depth
  rw [Nat.zero_add] at inner
  exact .opens (inner.append (.closes (.nil depth)))

theorem splitTop_skips (h : Skips p depth front middle) (text : Text) :
    splitTop p depth (front ++ text) =
      (front ++ (splitTop p middle text).1, (splitTop p middle text).2) := by
  induction h with
  | nil => rfl
  | @plain depth depth' c rest notOpen notClose passed _ ih =>
    rw [cons_append, splitTop, if_neg (by simpa using notOpen),
      if_neg (by simpa using notClose), if_neg, ih]
    · rfl
    · intro found
      obtain ⟨here, passes⟩ := Bool.and_eq_true_iff.mp found
      rw [passed (eq_of_beq here)] at passes
      cases passes
  | opens _ ih =>
    rw [cons_append, splitTop, if_pos (beq_self_eq_true _), ih]
    rfl
  | closes _ ih =>
    rw [cons_append, splitTop, if_neg (by decide), if_pos (beq_self_eq_true _), Nat.add_sub_cancel, ih]
    rfl

theorem cutTop_skips (h : Skips p depth front middle) (text : Text) :
    cutTop p depth (front ++ text) =
      (cutTop p middle text).map fun (before, after) => (front ++ before, after) := by
  induction h with
  | nil => exact Option.map_id'.symm
  | @plain depth depth' c rest notOpen notClose passed _ ih =>
    rw [cons_append, cutTop, if_neg (by simpa using notOpen),
      if_neg (by simpa using notClose), if_neg, ih, Option.map_map]
    · rfl
    · intro found
      obtain ⟨here, passes⟩ := Bool.and_eq_true_iff.mp found
      rw [passed (eq_of_beq here)] at passes
      cases passes
  | opens _ ih =>
    rw [cons_append, cutTop, if_pos (beq_self_eq_true _), ih, Option.map_map]
    rfl
  | closes _ ih =>
    rw [cons_append, cutTop, if_neg (by decide), if_pos (beq_self_eq_true _), Nat.add_sub_cancel, ih,
      Option.map_map]
    rfl

/-- A text that is run over to its end has no cut. -/
theorem cutTop_none (h : Skips p depth text last) : cutTop p depth text = none := by
  have whole := cutTop_skips h []
  rwa [append_nil] at whole

theorem splitTop_whole (h : Skips p depth text last) : splitTop p depth text = (text, []) := by
  have whole := splitTop_skips h []
  rwa [append_nil, splitTop, append_nil] at whole

/-- A cut behind a text that is run over. -/
theorem cutTop_at {c : Char} (h : Skips p depth front 0) (notOpen : c ≠ '(') (notClose : c ≠ ')')
    (passes : p c = true) (text : Text) :
    cutTop p depth (front ++ c :: text) = some (front, text) := by
  have here : cutTop p 0 (c :: text) = some ([], text) := by
    rw [cutTop, if_neg (by simpa using notOpen), if_neg (by simpa using notClose), passes]
    rfl
  rw [cutTop_skips h, here]
  exact congrArg (fun before => some (before, text)) (append_nil front)

theorem splitTop_at {c : Char} (h : Skips p depth front 0) (notOpen : c ≠ '(') (notClose : c ≠ ')')
    (passes : p c = true) (text : Text) :
    splitTop p depth (front ++ c :: text) =
      (front, (c, (splitTop p 0 text).1) :: (splitTop p 0 text).2) := by
  have here : splitTop p 0 (c :: text) =
      ([], (c, (splitTop p 0 text).1) :: (splitTop p 0 text).2) := by
    rw [splitTop, if_neg (by simpa using notOpen), if_neg (by simpa using notClose), passes]
    rfl
  rw [splitTop_skips h, here, append_nil]

end Skips

end GhitaBrowser.Nesting
