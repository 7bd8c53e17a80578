import GhitaBrowser.Lib.Nesting
import GhitaBrowser.Lib.Str
import Mathlib.Data.List.TakeWhile

/-!
# Trimming

What `trim` takes away from a text, and how it goes with concatenation and with scans that count
parentheses.
-/

namespace GhitaBrowser.Str

open Nesting (Skips)

/-- Nothing but blanks. -/
def Blanks (text : Text) : Prop := ∀ c ∈ text, isWhitespace c = true

variable (text : Text)

theorem trimStart_parts : ∃ front, Blanks front ∧ text = front ++ trimStart text :=
  ⟨text.takeWhile isWhitespace, fun _ => List.mem_takeWhile_imp,
    (List.takeWhile_append_dropWhile (p := isWhitespace) (l := text)).symm⟩

theorem trimEnd_parts : ∃ back, Blanks back ∧ text = trimEnd text ++ back := by
  refine ⟨(text.reverse.takeWhile isWhitespace).reverse,
    fun c among => List.mem_takeWhile_imp (List.mem_reverse.mp among), ?_⟩
  show text = (text.reverse.dropWhile isWhitespace).reverse ++ _
  rw [← List.reverse_append, List.takeWhile_append_dropWhile, List.reverse_reverse]

theorem trim_parts : ∃ front back, Blanks front ∧ Blanks back ∧
    text = front ++ trim text ++ back := by
  obtain ⟨front, hfront, start⟩ := trimStart_parts text
  obtain ⟨back, hback, stop⟩ := trimEnd_parts (trimStart text)
  refine ⟨front, back, hfront, hback, ?_⟩
  show text = front ++ trimEnd (trimStart text) ++ back
  rw [List.append_assoc, ← stop]
  exact start

theorem dropWhile_blanks {front : Text} (h : Blanks front) (text : Text) :
    (front ++ text).dropWhile isWhitespace = text.dropWhile isWhitespace := by
  induction front with
  | nil => rfl
  | cons c rest ih =>
    obtain ⟨blank, later⟩ := List.forall_mem_cons.mp h
    rw [List.cons_append, List.dropWhile_cons_of_pos blank]
    exact ih later

variable {mark : Char}

theorem dropWhile_mark (h : isWhitespace mark = false) (front text : Text) :
    (front ++ mark :: text).dropWhile isWhitespace = front.dropWhile isWhitespace ++ mark :: text := by
  induction front with
  | nil => exact List.dropWhile_cons_of_neg (by simp [h])
  | cons c rest ih =>
    rw [List.cons_append, List.dropWhile_cons, List.dropWhile_cons]
    split
    · exact ih
    · rfl

theorem trimEnd_blanks {back : Text} (h : Blanks back) (text : Text) :
    trimEnd (text ++ back) = trimEnd text := by
  unfold trimEnd
  rw [List.reverse_append, dropWhile_blanks fun c among => h c (List.mem_reverse.mp among)]

theorem trimStart_mark (h : isWhitespace mark = false) (front text : Text) :
    trimStart (front ++ mark :: text) = trimStart front ++ mark :: text :=
  dropWhile_mark h front text

theorem trimEnd_mark (h : isWhitespace mark = false) (front text : Text) :
    trimEnd (front ++ mark :: text) = front ++ mark :: trimEnd text := by
  unfold trimEnd
  rw [List.reverse_append, List.reverse_cons, List.append_assoc, List.singleton_append,
    dropWhile_mark h, List.reverse_append, List.reverse_cons, List.reverse_reverse,
    List.append_assoc]
  rfl

theorem trim_mark (h : isWhitespace mark = false) (front text : Text) :
    trim (front ++ mark :: text) = trimStart front ++ mark :: trimEnd text := by
  unfold trim
  rw [trimStart_mark h, trimEnd_mark h]

theorem trim_blanks {text : Text} (h : Blanks text) : trim text = [] := by
  have start : trimStart text = [] := by
    have dropped := dropWhile_blanks h []
    rwa [List.append_nil] at dropped
  unfold trim
  rw [start]
  rfl

/-- Blanks around a text are nothing to `trim`. -/
theorem trim_pad {front back : Text} (hfront : Blanks front) (hback : Blanks back) (text : Text) :
    trim (front ++ text ++ back) = trim text := by
  unfold trim
  rw [List.append_assoc]
  show trimEnd ((front ++ (text ++ back)).dropWhile isWhitespace) = _
  rw [dropWhile_blanks hfront]
  by_cases blank : Blanks text
  · have all : Blanks (text ++ back) := List.forall_mem_append.mpr ⟨blank, hback⟩
    have left := trim_blanks all
    have right := trim_blanks blank
    unfold trim trimStart at left right
    unfold trimStart
    rw [left, right]
  · -- a character that is no blank keeps both ends apart
    unfold Blanks at blank
    push Not at blank
    obtain ⟨mark, among, h⟩ := blank
    have h := Bool.eq_false_iff.mpr h
    obtain ⟨left, right, rfl⟩ := List.append_of_mem among
    show trimEnd (trimStart (left ++ mark :: right ++ back)) = trimEnd (trimStart (left ++ mark :: right))
    rw [List.append_assoc, List.cons_append, trimStart_mark h, trimStart_mark h, trimEnd_mark h,
      trimEnd_mark h, trimEnd_blanks hback]

theorem blanks_nil : Blanks [] := fun _ among => nomatch among

theorem trim_trim : trim (trim text) = trim text := by
  obtain ⟨front, back, hfront, hback, split⟩ := trim_parts text
  conv_rhs => rw [split, trim_pad hfront hback]

theorem trim_trimStart : trim (trimStart text) = trim text := by
  obtain ⟨front, hfront, split⟩ := trimStart_parts text
  have padded := trim_pad hfront blanks_nil (trimStart text)
  rw [List.append_nil, ← split] at padded
  exact padded.symm

theorem trim_trimEnd : trim (trimEnd text) = trim text := by
  obtain ⟨back, hback, split⟩ := trimEnd_parts text
  have padded := trim_pad blanks_nil hback (trimEnd text)
  rw [List.nil_append, ← split] at padded
  exact padded.symm

/-! ## Scans -/

theorem Blanks.noParens {text : Text} (h : Blanks text) : ∀ c ∈ text, c ≠ '(' ∧ c ≠ ')' := by
  intro c among
  have blank := h c among
  constructor <;> (rintro rfl; exact absurd blank (by decide))

end Str

namespace Nesting

variable {p : Char → Bool} {depth last : Nat} {mark : Char}

theorem Skips.drop {front text : Text} (h : Skips p depth (front ++ text) last)
    (plain : ∀ c ∈ front, c ≠ '(' ∧ c ≠ ')') : Skips p depth text last := by
  induction front with
  | nil => exact h
  | cons c rest ih =>
    obtain ⟨⟨notOpen, notClose⟩, later⟩ := List.forall_mem_cons.mp plain
    rw [List.cons_append] at h
    cases h with
    | plain _ _ _ h => exact ih h later
    | opens => exact absurd rfl notOpen
    | closes => exact absurd rfl notClose

theorem Skips.take {text back : Text} (h : Skips p depth (text ++ back) last)
    (plain : ∀ c ∈ back, c ≠ '(' ∧ c ≠ ')') : Skips p depth text last := by
  induction text generalizing depth with
  | nil =>
    rw [List.nil_append] at h
    induction back with
    | nil => exact h
    | cons c rest ih =>
      obtain ⟨⟨notOpen, notClose⟩, later⟩ := List.forall_mem_cons.mp plain
      cases h with
      | plain _ _ _ h => exact ih later h
      | opens => exact absurd rfl notOpen
      | closes => exact absurd rfl notClose
  | cons c rest ih =>
    rw [List.cons_append] at h
    cases h with
    | plain notOpen notClose passed h => exact .plain notOpen notClose passed (ih h)
    | opens h => exact .opens (ih h)
    | closes h => exact .closes (ih h)

theorem Skips.trimStart {text : Text} (h : Skips p depth text last) :
    Skips p depth (Str.trimStart text) last := by
  obtain ⟨front, hfront, split⟩ := Str.trimStart_parts text
  rw [split] at h
  exact h.drop hfront.noParens

theorem Skips.trim {text : Text} (h : Skips p depth text last) :
    Skips p depth (Str.trim text) last := by
  obtain ⟨back, hback, split⟩ := Str.trimEnd_parts (Str.trimStart text)
  have start := h.trimStart
  rw [split] at start
  exact start.take hback.noParens

theorem cutTop_trim {front : Text} (h : Skips p 0 front 0) (notOpen : mark ≠ '(')
    (notClose : mark ≠ ')') (passes : p mark = true) (solid : isWhitespace mark = false)
    (text : Text) :
    cutTop p 0 (Str.trim (front ++ mark :: text)) = some (Str.trimStart front, Str.trimEnd text) := by
  rw [Str.trim_mark solid]
  exact cutTop_at h.trimStart notOpen notClose passes _

/-! ### Pieces -/

/-- The pieces of a text, trimmed, with `mark` for the first of them. -/
def trimmedPieces (p : Char → Bool) (mark : Char) (text : Text) : List (Char × Text) :=
  ((mark, (splitTop p 0 text).1) :: (splitTop p 0 text).2).map fun (c, piece) => (c, Str.trim piece)

/-- The text behind the last piece. -/
def padLast (back : Text) : Text → List (Char × Text) → Text × List (Char × Text)
  | first, [] => (first ++ back, [])
  | first, (c, piece) :: more =>
    let (piece, more) := padLast back piece more
    (first, (c, piece) :: more)

theorem padLast_cons (back : Text) (c : Char) (first : Text) (more : List (Char × Text)) :
    padLast back (c :: first) more = (c :: (padLast back first more).1, (padLast back first more).2) := by
  cases more <;> rfl

theorem splitTop_append {back : Text} (plain : ∀ c ∈ back, c ≠ '(' ∧ c ≠ ')' ∧ p c = false)
    (depth : Nat) (text : Text) :
    splitTop p depth (text ++ back) =
      padLast back (splitTop p depth text).1 (splitTop p depth text).2 := by
  induction text generalizing depth with
  | nil => exact splitTop_whole (.of_plain plain)
  | cons c rest ih =>
    rw [List.cons_append, splitTop, splitTop]
    split
    · rw [ih]
      exact (padLast_cons ..).symm
    · split
      · rw [ih]
        exact (padLast_cons ..).symm
      · split
        · rw [ih]
          rfl
        · rw [ih]
          exact (padLast_cons ..).symm

theorem trim_padLast {back : Text} (h : Str.Blanks back) (mark : Char) (first : Text)
    (more : List (Char × Text)) :
    (((mark, (padLast back first more).1) :: (padLast back first more).2).map
      fun (c, piece) => (c, Str.trim piece)) =
      ((mark, first) :: more).map fun (c, piece) => (c, Str.trim piece) := by
  induction more generalizing mark first with
  | nil =>
    have padded := Str.trim_pad Str.blanks_nil h first
    exact congrArg (fun piece => [(mark, piece)]) padded
  | cons piece more ih =>
    have later := ih piece.1 piece.2
    rw [List.map_cons, List.map_cons]
    exact congrArg ((mark, Str.trim first) :: ·) later

theorem trimmedPieces_trim (solid : ∀ c, isWhitespace c = true → p c = false) (mark : Char)
    (text : Text) : trimmedPieces p mark (Str.trim text) = trimmedPieces p mark text := by
  obtain ⟨front, back, hfront, hback, split⟩ := Str.trim_parts text
  have plain : ∀ {blank : Text}, Str.Blanks blank → ∀ c ∈ blank, c ≠ '(' ∧ c ≠ ')' ∧ p c = false :=
    fun h c among => ⟨(h.noParens c among).1, (h.noParens c among).2, solid c (h c among)⟩
  conv_rhs => rw [split]
  unfold trimmedPieces
  rw [splitTop_append (plain hback), trim_padLast hback, splitTop_skips (.of_plain (plain hfront)),
    List.map_cons, List.map_cons]
  have padded := Str.trim_pad hfront Str.blanks_nil (splitTop p 0 (Str.trim text)).1
  rw [List.append_nil] at padded
  exact congrArg (fun first => (mark, first) :: _) padded.symm

end GhitaBrowser.Nesting
