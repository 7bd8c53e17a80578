import GhitaBrowser.Css.MathLiteral

/-!
# Terms and sums

What the evaluators of a `calc()` come to on the text of a product and of a sum, from what they come to
on the parts. `Settles` leaves open how many calls that takes.
-/

namespace GhitaBrowser.Css

open List

open Nesting (Skips)

/-! ## What a call comes to -/

section Settles

variable {sizes : Sizes}

/-- Where enough calls may be open there is an answer, which is `value` if that is one. -/
def Settles (sizes : Sizes) (run : (MathCall → Reply) → Reply) (value : Option ℚ) : Prop :=
  ∃ reply turns, (∀ frames, turns ≤ frames → run (runMath sizes frames) = some reply) ∧
    ∀ v, value = some v → reply = some v

theorem Settles.const (value : Option ℚ) : Settles sizes (fun _ => some value) value :=
  ⟨value, 0, fun _ _ => rfl, fun _ same => same⟩

variable {value : Option ℚ} {run : (MathCall → Reply) → Reply}

theorem Settles.congr {run' : (MathCall → Reply) → Reply}
    (h : Settles sizes run value) (same : ∀ self, run' self = run self) :
    Settles sizes run' value := by
  obtain ⟨reply, turns, answered, right⟩ := h
  exact ⟨reply, turns, fun frames enough => (same _).trans (answered frames enough), right⟩

theorem Settles.bind {next : ℚ → (MathCall → Reply) → Reply} {nextValue : ℚ → Option ℚ}
    (first : Settles sizes run value) (later : ∀ v, Settles sizes (next v) (nextValue v)) :
    Settles sizes (fun self =>
      match run self with
      | some (some v) => next v self
      | reply => reply) (value.bind nextValue) := by
  obtain ⟨reply, turns, answered, right⟩ := first
  cases reply with
  | none =>
    refine ⟨none, turns, fun frames enough => ?_, fun v found => ?_⟩
    · dsimp only
      rw [answered frames enough]
    · obtain ⟨w, has, -⟩ := Option.bind_eq_some_iff.mp found
      cases right w has
  | some v =>
    obtain ⟨reply, turns', answered', right'⟩ := later v
    refine ⟨reply, max turns turns', fun frames enough => ?_, fun w found => ?_⟩
    · dsimp only
      rw [answered frames (Nat.le_trans (Nat.le_max_left ..) enough)]
      exact answered' frames (Nat.le_trans (Nat.le_max_right ..) enough)
    · obtain ⟨u, has, next⟩ := Option.bind_eq_some_iff.mp found
      obtain rfl : v = u := Option.some.inj (right u has)
      exact right' w next

theorem Settles.map (h : Settles sizes run value) (change : ℚ → ℚ) : Settles sizes (fun self =>
      match run self with
      | some (some v) => some (some (change v))
      | reply => reply) (value.map change) := by
  rw [Option.map_eq_bind]
  exact h.bind fun v => .const (some (change v))

theorem Settles.call {call : MathCall}
    (h : Settles sizes (fun self => mathStep sizes self call) value) :
    Settles sizes (fun self => self call) value := by
  obtain ⟨reply, turns, answered, right⟩ := h
  refine ⟨reply, turns + 1, fun frames enough => ?_, right⟩
  cases frames with
  | zero => cases enough
  | succ frames => exact answered frames (Nat.le_of_succ_le_succ enough)

theorem Settles.pixels {expr : Text}
    (h : Settles sizes (fun self => self (.expression expr (fun _ => none) 0)) value) :
    Settles sizes (fun self => (pixelsOf sizes self (.calc expr)).map some) value := by
  obtain ⟨reply, turns, answered, right⟩ := h
  refine ⟨some (reply.getD 0), turns, fun frames enough => ?_, fun v found => ?_⟩
  · have here : runMath sizes frames (.expression expr (fun _ => none) 0) = some reply :=
      answered frames enough
    show ((runMath sizes frames _).map (·.getD 0)).map some = _
    rw [here]
    rfl
  · rw [right v found]
    rfl

/-! ## Terms -/

/-- A term, at any depth that leaves it its levels. -/
def TermSettles (sizes : Sizes) (depth : Nat) (text : Text) (value : Option ℚ) : Prop :=
  ∀ term, Str.trim term = Str.trim text →
    Settles sizes (fun self => self (.singleCalcTerm term depth)) value

variable {depth : Nat}

theorem evalSides_settles {left right left' right' : Text} {l r : Option ℚ}
    (combine : ℚ → ℚ → Option ℚ) (hleft : TermSettles sizes depth left l)
    (hright : TermSettles sizes depth right r) (sameLeft : Str.trim left' = Str.trim left)
    (sameRight : Str.trim right' = Str.trim right) :
    Settles sizes (fun self => evalSides self left' right' depth combine)
      (l.bind fun l => r.bind fun r => combine l r) := by
  refine (hleft (Str.trim left') ?_).bind fun l => (hright (Str.trim right') ?_).bind fun r =>
    .const (combine l r)
  · rw [Str.trim_trim, sameLeft]
  · rw [Str.trim_trim, sameRight]

theorem trim_mark_filled {mark : Char} (solid : isWhitespace mark = false) (front back : Text) :
    (Str.trim (front ++ mark :: back)).isEmpty = false := by
  rw [Str.trim_mark solid]
  cases Str.trimStart front <;> rfl

theorem term_times {left right : Text} {l r : Option ℚ}
    (room : depth ≤ maxMathDepth) (skips : Skips (· == '*') 0 left 0)
    (hleft : TermSettles sizes (depth + 1) left l) (hright : TermSettles sizes (depth + 1) right r) :
    TermSettles sizes depth (left ++ '*' :: right) (l.bind fun l => r.bind fun r => some (l * r)) := by
  intro term same
  refine Settles.call ((evalSides_settles _ hleft hright (Str.trim_trimStart left)
    (Str.trim_trimEnd right)).congr fun self => ?_)
  show evalSingleCalcTerm sizes self term depth = _
  unfold evalSingleCalcTerm
  rw [if_neg (Nat.not_lt.mpr room), same]
  dsimp only
  rw [trim_mark_filled (by decide), if_neg (by decide),
    Nesting.cutTop_trim skips (by decide) (by decide) (beq_self_eq_true _) (by decide)]

theorem term_divides {left right : Text} {l r : Option ℚ}
    (room : depth ≤ maxMathDepth) (noTimes : Skips (· == '*') 0 (left ++ '/' :: right) 0)
    (skips : Skips (· == '/') 0 left 0) (hleft : TermSettles sizes (depth + 1) left l)
    (hright : TermSettles sizes (depth + 1) right r) :
    TermSettles sizes depth (left ++ '/' :: right)
      (l.bind fun l => r.bind fun r => MulOp.divides.apply l r) := by
  intro term same
  refine Settles.call ((evalSides_settles _ hleft hright (Str.trim_trimStart left)
    (Str.trim_trimEnd right)).congr fun self => ?_)
  show evalSingleCalcTerm sizes self term depth = _
  unfold evalSingleCalcTerm
  rw [if_neg (Nat.not_lt.mpr room), same]
  dsimp only
  rw [trim_mark_filled (by decide), if_neg (by decide), Nesting.cutTop_none noTimes.trim,
    Nesting.cutTop_trim skips (by decide) (by decide) (beq_self_eq_true _) (by decide)]
  rfl

variable {self : MathCall → Reply}

theorem evalSingle_plain {term text : Text}
    (room : depth ≤ maxMathDepth) (same : Str.trim term = text) (filled : text.isEmpty = false)
    (noTimes : Skips (· == '*') 0 text 0) (noDivides : Skips (· == '/') 0 text 0) :
    evalSingleCalcTerm sizes self term depth =
      match stripFunction ['('] text with
      | some inner => self (.calcTerms inner (depth + 1))
      | none => lengthOf sizes self text := by
  unfold evalSingleCalcTerm
  rw [if_neg (Nat.not_lt.mpr room), same]
  dsimp only
  rewrite [filled, if_neg (by decide), Nesting.cutTop_none noTimes, Nesting.cutTop_none noDivides]
  rfl

/-! ### Factors -/

theorem trim_parens {name : Text} (h : Str.trimStart name = name) (inner : Text) :
    Str.trim (name ++ '(' :: (inner ++ [')'])) = name ++ '(' :: (inner ++ [')']) := by
  have stop : Str.trimEnd (inner ++ [')']) = inner ++ [')'] :=
    Str.trimEnd_mark (by decide) inner []
  rw [Str.trim_mark (by decide), h, stop]

theorem trim_call (function : Call) : Str.trim function.text = function.text := by
  have names : ∀ name ∈ ["calc".toList, "min".toList, "max".toList, "clamp".toList],
      Str.trimStart name = name := by decide
  rw [function.text_eq, trim_parens (names _ function.name_listed)]

variable (factor : Factor)

theorem Factor.trim_text : Str.trim factor.text = factor.core := by
  obtain ⟨before, after, split⟩ := factor.text_eq
  rw [split, Str.trim_pad before.2 after.2]
  match factor with
  | .literal before sign number after =>
    refine trim_solid (forall_mem_append.mpr ⟨?_, number.solid⟩)
    rcases sign with _ | _ | _ <;> decide
  | .paren before inner after => exact trim_parens (show Str.trimStart [] = [] from rfl) inner.text
  | .call before function after => exact trim_call function

theorem Factor.core_filled : factor.core.isEmpty = false := by
  match factor with
  | .literal before none number after =>
    obtain ⟨c, rest, split, -⟩ := number.numeric_head
    show (number.magnitude).isEmpty = false
    rw [split]
    rfl
  | .literal before (some sign) number after => rfl
  | .paren before inner after => rfl
  | .call before function after =>
    show function.text.isEmpty = false
    cases function <;> rfl

theorem Factor.skips_core {mark : Char} (listed : mark ∈ ['*', '/', ',']) :
    Skips (· == mark) 0 factor.core 0 := by
  rw [← factor.trim_text]
  exact (factor.skips_op listed).trim

theorem evalSingle_factor {term : Text}
    (room : depth ≤ maxMathDepth) (same : Str.trim term = Str.trim factor.text) :
    evalSingleCalcTerm sizes self term depth =
      match stripFunction ['('] factor.core with
      | some inner => self (.calcTerms inner (depth + 1))
      | none => lengthOf sizes self factor.core :=
  evalSingle_plain room (same.trans factor.trim_text) factor.core_filled
    (factor.skips_core (by decide)) (factor.skips_core (by decide))

theorem term_literal (room : depth ≤ maxMathDepth) (before : Blank) (number : Literal)
    (after : Blank) : TermSettles sizes depth (Factor.literal before none number after).text
      ((Factor.literal before none number after).value sizes) := by
  intro term same
  refine Settles.call ((Settles.const _).congr fun self => ?_)
  show evalSingleCalcTerm sizes self term depth = _
  rw [evalSingle_factor _ room same]
  obtain ⟨c, rest, split, isNumeric⟩ := number.numeric_head
  have plain : stripFunction ['('] number.magnitude = none := by
    have notOpen : c ≠ '(' := by
      rintro rfl
      exact absurd isNumeric (by decide)
    rw [split]
    unfold stripFunction Str.stripStart Str.startsWith
    rw [if_neg]
    · rfl
    · intro starts
      obtain ⟨tail, same⟩ := isPrefixOf_iff_prefix.mp starts
      exact notOpen (List.cons.inj same).1.symm
  show (match stripFunction ['('] number.magnitude with
    | some inner => self (.calcTerms inner (depth + 1))
    | none => lengthOf sizes self number.magnitude) = _
  rw [plain]
  exact lengthOf_literal sizes number self none

theorem stripFunction_append (name inner : Text) :
    stripFunction name (name ++ (inner ++ [')'])) = some inner := by
  unfold stripFunction Str.stripStart Str.startsWith
  have begins := isPrefixOf_iff_prefix.mpr (prefix_append name (inner ++ [')']))
  rw [if_pos begins, drop_left]
  show Str.stripEnd [')'] (inner ++ [')']) = some inner
  unfold Str.stripEnd Str.endsWith
  rw [if_pos (isSuffixOf_iff_suffix.mpr (suffix_append ..)), length_append,
    Nat.add_sub_cancel, take_left]

theorem term_paren (room : depth ≤ maxMathDepth) (before : Blank) (inner : Sum) (after : Blank)
    (h : Settles sizes (fun self => self (.calcTerms inner.text (depth + 1))) value) :
    TermSettles sizes depth (Factor.paren before inner after).text value := by
  intro term same
  refine Settles.call (h.congr fun self => ?_)
  show evalSingleCalcTerm sizes self term depth = _
  rw [evalSingle_factor _ room same]
  show (match stripFunction ['('] (['('] ++ (inner.text ++ [')'])) with
    | some inner => self (.calcTerms inner (depth + 1))
    | none => lengthOf sizes self _) = _
  rw [stripFunction_append]

theorem parse_call (function : Call) :
    CssUnit.parse function.text = some (.calc function.text) := by
  have starts : startsMath function.text = true := by
    cases function <;> rfl
  have filled : function.text.isEmpty = false := by
    cases function <;> rfl
  have keyword : CssUnit.keywords.any (Str.eqIgnoreCase function.text) = false := by
    refine Bool.eq_false_iff.mpr fun found => ?_
    -- no keyword has a parenthesis
    refine (noParens_keyword found '(' ?_).1 rfl
    rw [function.text_eq]
    exact mem_append_right _ mem_cons_self
  unfold CssUnit.parse
  rw [trim_call]
  dsimp only
  rw [filled, if_neg (by decide), keyword, if_neg (by decide), starts, if_pos rfl]

theorem term_call (room : depth ≤ maxMathDepth) (before : Blank) (function : Call) (after : Blank)
    (h : Settles sizes (fun self => self (.expression function.text (fun _ => none) 0)) value) :
    TermSettles sizes depth (Factor.call before function after).text value := by
  intro term same
  refine Settles.call (h.pixels.congr fun self => ?_)
  show evalSingleCalcTerm sizes self term depth = _
  rw [evalSingle_factor _ room same]
  have plain : stripFunction ['('] function.text = none := by
    cases function <;> rfl
  show (match stripFunction ['('] function.text with
    | some inner => self (.calcTerms inner (depth + 1))
    | none => lengthOf sizes self function.text) = _
  rw [plain]
  show lengthOf sizes self function.text = _
  unfold lengthOf
  rw [parse_call]

/-! ### Sums -/

/-- The pieces of a product behind `op`: a sign of its own splits it. -/
def Product.pieces (op : Sign) (product : Product) : List (Char × Text) :=
  match product.sign with
  | none => [(op.char, product.text)]
  | some (before, sign) => [(op.char, before.1), (sign.char, product.unsigned.text)]

def Sum.pieces (op : Sign) : Sum → List (Char × Text)
  | .last product => product.pieces op
  | .cons product op' more => product.pieces op ++ more.pieces op'

theorem isSign_char (sign : Sign) : isSign sign.char = true := by
  cases sign <;> rfl

theorem char_no_parens (sign : Sign) : sign.char ≠ '(' ∧ sign.char ≠ ')' := by
  cases sign <;> decide

theorem Product.split {product : Product} {signed : Bool} (h : product.regular signed = true)
    (op : Sign) : ((op.char, (Nesting.splitTop isSign 0 product.text).1) ::
      (Nesting.splitTop isSign 0 product.text).2) = product.pieces op := by
  have skips := Product.skips_sign h
  unfold Product.pieces
  cases found : product.sign with
  | none =>
    rw [Product.unsigned_none found] at skips
    rw [Nesting.splitTop_whole skips]
  | some found' =>
    obtain ⟨before, sign⟩ := found'
    rw [Product.text_signed found, Nesting.splitTop_at (finds_sign.blank before)
      (char_no_parens sign).1 (char_no_parens sign).2 (isSign_char sign),
      Nesting.splitTop_whole skips]

theorem Product.split_cons {product : Product} {signed : Bool} (h : product.regular signed = true)
    (op op' : Sign) (text : Text) :
    ((op.char, (Nesting.splitTop isSign 0 (product.text ++ op'.char :: text)).1) ::
      (Nesting.splitTop isSign 0 (product.text ++ op'.char :: text)).2) =
      product.pieces op ++ (op'.char, (Nesting.splitTop isSign 0 text).1) ::
        (Nesting.splitTop isSign 0 text).2 := by
  have skips := Product.skips_sign h
  unfold Product.pieces
  cases found : product.sign with
  | none =>
    rw [Product.unsigned_none found] at skips
    rw [Nesting.splitTop_at skips (char_no_parens op').1 (char_no_parens op').2 (isSign_char op')]
    rfl
  | some found' =>
    obtain ⟨before, sign⟩ := found'
    rw [Product.text_signed found, append_assoc, cons_append,
      Nesting.splitTop_at (finds_sign.blank before) (char_no_parens sign).1 (char_no_parens sign).2
        (isSign_char sign),
      Nesting.splitTop_at skips (char_no_parens op').1 (char_no_parens op').2 (isSign_char op')]
    rfl

theorem Sum.split : {sum : Sum} → {signed : Bool} → sum.regular signed = true → (op : Sign) →
    ((op.char, (Nesting.splitTop isSign 0 sum.text).1) :: (Nesting.splitTop isSign 0 sum.text).2) =
      sum.pieces op
  | .last product, signed, h, op => Product.split h op
  | .cons product op' more, signed, h, op => by
    obtain ⟨first, later⟩ := Bool.and_eq_true_iff.mp h
    refine (Product.split_cons first op op' more.text).trans ?_
    exact congrArg (product.pieces op ++ ·) (Sum.split later op')

theorem addTerms_trimmed (pieces : List (Char × Text))
    (total : ℚ) : addTerms self depth total (pieces.map fun (c, piece) => (c, Str.trim piece)) =
      addTerms self depth total pieces := by
  induction pieces generalizing total with
  | nil => rfl
  | cons piece more ih =>
    rw [map_cons, addTerms, addTerms, Str.trim_trim, isEmpty_map]
    simp only [ih]

theorem evalCalcTerms_eq {sum : Sum} {text : Text} (h : sum.regular true = true)
    (room : depth ≤ maxMathDepth) (same : Str.trim text = Str.trim sum.text) :
    evalCalcTerms self text depth = addTerms self depth 0 (sum.pieces .plus) := by
  have solid : ∀ c, isWhitespace c = true → isSign c = false := by
    intro c white
    refine Bool.eq_false_iff.mpr fun found => ?_
    rcases Bool.or_eq_true_iff.mp found with plus | minus
    · rw [eq_of_beq plus] at white
      cases white
    · rw [eq_of_beq minus] at white
      cases white
  have trimmed : Nesting.trimmedPieces isSign '+' text = Nesting.trimmedPieces isSign '+' sum.text := by
    rw [← Nesting.trimmedPieces_trim solid, same, Nesting.trimmedPieces_trim solid]
  unfold evalCalcTerms
  rw [if_neg (Nat.not_lt.mpr room), ← Sum.split h .plus]
  show addTerms self depth 0 (('+', (Nesting.splitTop isSign 0 text).1) ::
    (Nesting.splitTop isSign 0 text).2) = _
  rw [← addTerms_trimmed, ← addTerms_trimmed (_ :: _)]
  exact congrArg (addTerms self depth 0) trimmed

theorem blank_term (room : depth ≤ maxMathDepth) (blank : Blank) :
    TermSettles sizes depth blank.1 (some 0) := by
  intro term same
  rw [Str.trim_blanks blank.2] at same
  refine Settles.call ((Settles.const _).congr fun self => ?_)
  show evalSingleCalcTerm sizes self term depth = _
  unfold evalSingleCalcTerm
  rw [if_neg (Nat.not_lt.mpr room), same]
  rfl

theorem addTerms_piece {text : Text} {more : List (Char × Text)} {next : ℚ → Option ℚ}
    (read : more ≠ [] ∨ (Str.trim text).isEmpty = false) (term : TermSettles sizes depth text value)
    (later : ∀ total, Settles sizes (fun self => addTerms self depth total more) (next total))
    (op : Sign) (total : ℚ) :
    Settles sizes (fun self => addTerms self depth total ((op.char, text) :: more))
      (value.bind fun v => next (op.apply total v)) := by
  refine ((term (Str.trim text) (Str.trim_trim text)).bind fun v => later (op.apply total v)).congr
    fun self => ?_
  have notLast : (more.isEmpty && (Str.trim text).isEmpty) = false := by
    rcases read with filled | filled
    · rw [isEmpty_eq_false_iff.mpr filled]
      rfl
    · rw [filled, Bool.and_false]
  rw [addTerms, notLast, if_neg (by decide)]
  cases op <;> rfl

theorem Product.filled (product : Product) : (Str.trim product.text).isEmpty = false := by
  cases product with
  | last factor =>
    show (Str.trim factor.text).isEmpty = false
    rw [factor.trim_text]
    exact factor.core_filled
  | cons factor op more => cases op <;> exact trim_mark_filled (by decide) _ _

theorem Product.adds {product : Product} {op : Sign} (room : depth ≤ maxMathDepth)
    (plus : product.sign ≠ none → op = .plus)
    (term : TermSettles sizes depth product.unsigned.text (product.unsigned.valueAfter sizes some))
    {more : List (Char × Text)} {next : ℚ → Option ℚ}
    (later : ∀ total, Settles sizes (fun self => addTerms self depth total more) (next total))
    (total : ℚ) : Settles sizes (fun self => addTerms self depth total (product.pieces op ++ more))
      ((product.valueAfter sizes some).bind fun v => next (op.apply total v)) := by
  unfold Product.pieces
  cases found : product.sign with
  | none =>
    rw [Product.unsigned_none found] at term
    exact addTerms_piece (.inr product.filled) term later op total
  | some found' =>
    obtain ⟨before, sign⟩ := found'
    obtain rfl := plus (by rw [found]; nofun)
    rw [Product.value_signed found]
    have unsigned := addTerms_piece (.inr product.unsigned.filled) term later sign
    have blank : TermSettles sizes depth before.1 (some 0) := blank_term room before
    have all := addTerms_piece (.inl (cons_ne_nil _ _)) blank unsigned .plus total
    -- nothing is added, and then the product with its sign
    have same : ((some 0).bind fun zero => (product.unsigned.valueAfter sizes some).bind fun v =>
        next (sign.apply (Sign.plus.apply total zero) v)) =
        ((product.unsigned.valueAfter sizes some).map (sign.factor * ·)).bind fun v =>
          next (Sign.plus.apply total v) := by
      rw [Option.bind_some, Option.bind_map]
      congr 1
      funext v
      have value : sign.apply (total + 0) v = total + sign.factor * v := by
        rw [Sign.apply_eq, add_zero]
      exact congrArg next value
    rw [same] at all
    exact all

end Settles

end GhitaBrowser.Css
