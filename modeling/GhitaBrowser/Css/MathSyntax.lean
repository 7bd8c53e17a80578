import GhitaBrowser.Css.MathBudget

/-!
# Well-formed math expressions

The syntax trees of `calc()`, `min()`, `max()` and `clamp()`, with the blanks of the text, their text
and their value: `*` and `/` bind more closely than `+` and `-`, all four group to the left, and only
a division by zero leaves an expression without a value.

`Call.Regular` are the trees that the splitting evaluators read as they are meant.
-/

namespace GhitaBrowser.Css

open List

open Nesting (Skips)

/-! ## Trees -/

inductive Sign where
  | plus
  | minus
  deriving DecidableEq

def Sign.char : Sign → Char
  | .plus => '+'
  | .minus => '-'

def Sign.apply (sign : Sign) (left right : ℚ) : ℚ :=
  match sign with
  | .plus => left + right
  | .minus => left - right

inductive MulOp where
  | times
  | divides
  deriving DecidableEq

def MulOp.char : MulOp → Char
  | .times => '*'
  | .divides => '/'

def MulOp.apply (op : MulOp) (left right : ℚ) : Option ℚ :=
  match op with
  | .times => some (left * right)
  | .divides => if right ≠ 0 then some (left / right) else none

/-- A number or a length without a sign. -/
structure Literal where
  magnitude : Text
  reads : (CssUnit.parseLength magnitude).isSome = true
  starts : ∃ first ∈ magnitude.head?, isDigit first = true ∨ first = '.'
  plain : ∀ c ∈ magnitude, isWhitespace c = false ∧ c ∉ ['(', ')', '*', '/', ',']

def Literal.unit (number : Literal) : CssUnit := (CssUnit.parseLength number.magnitude).get number.reads

def Literal.value (sizes : Sizes) (number : Literal) : ℚ :=
  (pixelsOf sizes (fun _ => none) number.unit).getD 0

abbrev Blank := { text : Text // ∀ c ∈ text, isWhitespace c = true }

mutual

inductive Factor where
  | literal (before : Blank) (sign : Option Sign) (number : Literal) (after : Blank)
  | paren (before : Blank) (inner : Sum) (after : Blank)
  | call (before : Blank) (function : Call) (after : Blank)

inductive Call where
  | calc (inner : Sum)
  | least (arguments : Arguments)
  | greatest (arguments : Arguments)
  | clamp (lower value upper : Sum)

inductive Product where
  | last (factor : Factor)
  | cons (factor : Factor) (op : MulOp) (more : Product)

inductive Sum where
  | last (product : Product)
  | cons (product : Product) (op : Sign) (more : Sum)

inductive Arguments where
  | last (argument : Sum)
  | cons (argument : Sum) (more : Arguments)

end

/-! ## Texts -/

mutual

def Factor.text : Factor → Text
  | .literal before sign number after =>
    before.1 ++ (sign.map Sign.char).toList ++ number.magnitude ++ after.1
  | .paren before inner after => before.1 ++ '(' :: (inner.text ++ [')']) ++ after.1
  | .call before function after => before.1 ++ function.text ++ after.1

def Call.text : Call → Text
  | .calc inner => "calc".toList ++ '(' :: (inner.text ++ [')'])
  | .least arguments => "min".toList ++ '(' :: (arguments.text ++ [')'])
  | .greatest arguments => "max".toList ++ '(' :: (arguments.text ++ [')'])
  | .clamp lower value upper =>
    "clamp".toList ++ '(' :: ((lower.text ++ ',' :: (value.text ++ ',' :: upper.text)) ++ [')'])

def Product.text : Product → Text
  | .last factor => factor.text
  | .cons factor op more => factor.text ++ op.char :: more.text

def Sum.text : Sum → Text
  | .last product => product.text
  | .cons product op more => product.text ++ op.char :: more.text

def Arguments.text : Arguments → Text
  | .last argument => argument.text
  | .cons argument more => argument.text ++ ',' :: more.text

end

/-! ### No variables, and parentheses in pairs -/

/-- No parenthesis opens behind an `r`. -/
def noVar : Char → Text → Bool
  | _, [] => true
  | previous, c :: rest => (c != '(' || previous != 'r') && noVar c rest

theorem noVar_plain {text : Text} (h : ∀ c ∈ text, c ≠ '(') (previous : Char) :
    noVar previous text = true := by
  induction text generalizing previous with
  | nil => rfl
  | cons c rest ih =>
    obtain ⟨notOpen, later⟩ := forall_mem_cons.mp h
    rw [noVar, ih later, bne_iff_ne.mpr notOpen]
    rfl

theorem noVar_mark {mark : Char} (notOpen : mark ≠ '(') (previous : Char) (front text : Text) :
    noVar previous (front ++ mark :: text) = (noVar previous front && noVar mark text) := by
  induction front generalizing previous with
  | nil =>
    show ((mark != '(' || _) && _) = _
    rw [bne_iff_ne.mpr notOpen]
    rfl
  | cons c rest ih => rw [cons_append, noVar, noVar, ih, Bool.and_assoc]

variable {text : Text}

theorem contains_var {previous : Char} (h : noVar previous text = true) :
    Str.contains "var(".toList text = false := by
  unfold Str.contains
  induction text generalizing previous with
  | nil => rfl
  | cons c rest ih =>
    have later := ih (Bool.and_eq_true_iff.mp h).2
    rw [Str.splitOnce]
    split
    · next starts =>
      obtain ⟨after, split⟩ := isPrefixOf_iff_prefix.mp starts
      rw [← split] at h
      have never : noVar previous ("var(".toList ++ after) = false := by
        show ((_ || _) && ((_ || _) && ((_ || _) && (('(' != '(' || 'r' != 'r') && _)))) = false
        simp
      rw [never] at h
      cases h
    · rw [Option.isSome_map]
      exact later

/-- What may stand in parentheses. -/
structure Closed (text : Text) : Prop where
  balanced : Skips (fun _ => false) 0 text 0
  noVar : ∀ previous, previous ≠ 'r' → noVar previous text = true

theorem Closed.of_plain (h : ∀ c ∈ text, c ≠ '(' ∧ c ≠ ')') : Closed text :=
  ⟨.of_plain fun c among => ⟨(h c among).1, (h c among).2, rfl⟩,
    fun previous _ => noVar_plain (fun c among => (h c among).1) previous⟩

theorem Closed.mark {front : Text} {mark : Char} (hfront : Closed front) (htext : Closed text)
    (notOpen : mark ≠ '(') (notClose : mark ≠ ')') (notR : mark ≠ 'r') :
    Closed (front ++ mark :: text) := by
  refine ⟨hfront.balanced.append (.plain notOpen notClose (fun _ => rfl) htext.balanced), ?_⟩
  intro previous fine
  rw [noVar_mark notOpen, hfront.noVar previous fine, htext.noVar mark notR]
  rfl

theorem Closed.comma {front : Text} (hfront : Closed front) (htext : Closed text) :
    Closed (front ++ ',' :: text) :=
  hfront.mark htext (by decide) (by decide) (by decide)

theorem Closed.paren (h : Closed text) : Closed ('(' :: (text ++ [')'])) := by
  refine ⟨h.balanced.paren, fun previous fine => ?_⟩
  show ((_ || previous != 'r') && Css.noVar '(' (text ++ [')'])) = true
  rw [noVar_mark (by decide), h.noVar '(' (by decide), bne_iff_ne.mpr fine, Bool.or_true]
  rfl

theorem Closed.append {front : Text} (plain : ∀ c ∈ front, c ≠ '(' ∧ c ≠ ')' ∧ c ≠ 'r')
    (h : Closed text) : Closed (front ++ text) := by
  induction front with
  | nil => exact h
  | cons c rest ih =>
    obtain ⟨⟨notOpen, notClose, notR⟩, later⟩ := forall_mem_cons.mp plain
    have empty : Closed [] := .of_plain fun _ among => nomatch among
    exact empty.mark (ih later) notOpen notClose notR

theorem blank_plain (blank : Blank) : ∀ c ∈ blank.1, c ≠ '(' ∧ c ≠ ')' ∧ c ≠ 'r' := by
  intro c among
  have white := blank.2 c among
  refine ⟨?_, ?_, ?_⟩ <;> (rintro rfl; exact absurd white (by decide))

theorem Closed.pad (h : Closed text) (before after : Blank) :
    Closed (before.1 ++ text ++ after.1) := by
  have front := h.append (blank_plain before)
  rcases after with ⟨_ | ⟨c, rest⟩, white⟩
  · rwa [append_nil]
  · have back : Closed rest := .of_plain fun c among =>
      Str.Blanks.noParens white c (mem_cons_of_mem _ among)
    obtain ⟨notOpen, notClose, notR⟩ := blank_plain ⟨c :: rest, white⟩ c mem_cons_self
    exact front.mark back notOpen notClose notR

theorem Literal.no_parens (number : Literal) : ∀ c ∈ number.magnitude, c ≠ '(' ∧ c ≠ ')' := by
  intro c among
  have outside := (number.plain c among).2
  constructor <;> (rintro rfl; exact outside (by decide))

theorem sign_plain (sign : Option Sign) : ∀ c ∈ (sign.map Sign.char).toList, c ≠ '(' ∧ c ≠ ')' := by
  rcases sign with _ | _ | _ <;> decide

mutual

theorem Factor.closed : (factor : Factor) → Closed factor.text
  | .literal before sign number after => by
    refine .of_plain (forall_mem_append.mpr ⟨forall_mem_append.mpr
      ⟨forall_mem_append.mpr ⟨?_, sign_plain sign⟩, number.no_parens⟩, ?_⟩)
    · exact Str.Blanks.noParens before.2
    · exact Str.Blanks.noParens after.2
  | .paren before inner after => inner.closed.paren.pad before after
  | .call before function after => function.closed.pad before after

theorem Call.closed : (function : Call) → Closed function.text
  | .calc inner => inner.closed.paren.append (by decide)
  | .least arguments => arguments.closed.paren.append (by decide)
  | .greatest arguments => arguments.closed.paren.append (by decide)
  | .clamp lower value upper =>
    (lower.closed.comma (value.closed.comma upper.closed)).paren.append (by decide)

theorem Product.closed : (product : Product) → Closed product.text
  | .last factor => factor.closed
  | .cons factor op more => by
    cases op <;> exact factor.closed.mark more.closed (by decide) (by decide) (by decide)

theorem Sum.closed : (sum : Sum) → Closed sum.text
  | .last product => product.closed
  | .cons product op more => by
    cases op <;> exact product.closed.mark more.closed (by decide) (by decide) (by decide)

theorem Arguments.closed : (arguments : Arguments) → Closed arguments.text
  | .last argument => argument.closed
  | .cons argument more => argument.closed.comma more.closed

end

/-! ### What is found outside of parentheses -/

/-- Only operators, signs and commas are looked for. -/
def Finds (p : Char → Bool) : Prop := ∀ c, p c = true → c ∈ ['+', '-', '*', '/', ',']

def Call.name : Call → Text
  | .calc _ => "calc".toList
  | .least _ => "min".toList
  | .greatest _ => "max".toList
  | .clamp .. => "clamp".toList

/-- What stands in the parentheses of a function. -/
def Call.inner : Call → Text
  | .calc inner => inner.text
  | .least arguments | .greatest arguments => arguments.text
  | .clamp lower value upper => lower.text ++ ',' :: (value.text ++ ',' :: upper.text)

theorem Call.text_eq (function : Call) :
    function.text = function.name ++ '(' :: (function.inner ++ [')']) := by
  cases function <;> rfl

theorem Call.name_listed (function : Call) :
    function.name ∈ ["calc".toList, "min".toList, "max".toList, "clamp".toList] := by
  cases function <;> simp [Call.name]

theorem Call.inner_closed (function : Call) : Closed function.inner := by
  match function with
  | .calc inner => exact inner.closed
  | .least arguments | .greatest arguments => exact arguments.closed
  | .clamp lower value upper => exact lower.closed.comma (value.closed.comma upper.closed)

/-- A factor without its blanks. -/
def Factor.core : Factor → Text
  | .literal _ sign number _ => (sign.map Sign.char).toList ++ number.magnitude
  | .paren _ inner _ => '(' :: (inner.text ++ [')'])
  | .call _ function _ => function.text

theorem Factor.text_eq (factor : Factor) :
    ∃ before after : Blank, factor.text = before.1 ++ factor.core ++ after.1 := by
  match factor with
  | .literal before sign number after =>
    refine ⟨before, after, ?_⟩
    show before.1 ++ _ ++ number.magnitude ++ after.1 = before.1 ++ (_ ++ number.magnitude) ++ after.1
    rw [append_assoc before.1]
  | .paren before inner after => exact ⟨before, after, rfl⟩
  | .call before function after => exact ⟨before, after, rfl⟩

section Finds

variable {p : Char → Bool}

theorem Finds.skips (finds : Finds p) (h : ∀ c ∈ text, c ≠ '(' ∧ c ≠ ')' ∧
    c ∉ ['+', '-', '*', '/', ',']) (depth : Nat) : Skips p depth text depth :=
  .of_plain fun c among => ⟨(h c among).1, (h c among).2.1,
    Bool.eq_false_iff.mpr fun found => (h c among).2.2 (finds c found)⟩

theorem Finds.blank (finds : Finds p) (blank : Blank) : Skips p 0 blank.1 0 := by
  refine finds.skips (fun c among => ?_) 0
  obtain ⟨notOpen, notClose, -⟩ := blank_plain blank c among
  refine ⟨notOpen, notClose, fun listed => ?_⟩
  have white := blank.2 c among
  have solid : ∀ c ∈ ['+', '-', '*', '/', ','], isWhitespace c = false := by decide
  rw [solid c listed] at white
  cases white

theorem Factor.skips (finds : Finds p) {factor : Factor}
    (h : ∀ before sign number after, factor = .literal before sign number after →
      ∀ c ∈ factor.core, p c = false) : Skips p 0 factor.text 0 := by
  obtain ⟨before, after, split⟩ := factor.text_eq
  rw [split]
  refine ((finds.blank before).append ?_).append (finds.blank after)
  match factor with
  | .literal before sign number after =>
    refine .of_plain fun c among => ?_
    have noParens := forall_mem_append.mpr ⟨sign_plain sign, number.no_parens⟩ c among
    exact ⟨noParens.1, noParens.2, h before sign number after rfl c among⟩
  | .paren before inner after => exact inner.closed.balanced.paren
  | .call before function after =>
    show Skips p 0 function.text 0
    rw [function.text_eq]
    have letters : ∀ name ∈ ["calc".toList, "min".toList, "max".toList, "clamp".toList],
        ∀ c ∈ name, c ≠ '(' ∧ c ≠ ')' ∧ c ∉ ['+', '-', '*', '/', ','] := by decide
    exact (finds.skips (letters _ function.name_listed) 0).append
      function.inner_closed.balanced.paren

theorem Factor.skips_op (factor : Factor) {mark : Char} (listed : mark ∈ ['*', '/', ',']) :
    Skips (· == mark) 0 factor.text 0 := by
  have finds : Finds (· == mark) := by
    intro c found
    rw [eq_of_beq found]
    exact mem_cons_of_mem _ (mem_cons_of_mem _ listed)
  refine Factor.skips finds fun before sign number after same c among => ?_
  subst same
  refine beq_eq_false_iff_ne.mpr ?_
  rintro rfl
  rcases mem_append.mp among with isSign | digit
  · have other : ∀ c ∈ (sign.map Sign.char).toList, c ∉ ['*', '/', ','] := by
      rcases sign with _ | _ | _ <;> decide
    exact other c isSign listed
  · exact (number.plain c digit).2 (by simp at listed ⊢; tauto)

theorem Product.skips_comma : (product : Product) → Skips (· == ',') 0 product.text 0
  | .last factor => factor.skips_op (by decide)
  | .cons factor op more => by
    refine (factor.skips_op (by decide)).append ?_
    cases op <;> exact .plain (by decide) (by decide) (fun _ => by decide) more.skips_comma

theorem Sum.skips_comma : (sum : Sum) → Skips (· == ',') 0 sum.text 0
  | .last product => product.skips_comma
  | .cons product op more => by
    refine product.skips_comma.append ?_
    cases op <;> exact .plain (by decide) (by decide) (fun _ => by decide) more.skips_comma

end Finds

/-! ## Values -/

section Values

variable (sizes : Sizes)

mutual

def Factor.value : Factor → Option ℚ
  | .literal _ sign number _ => some ((sign.getD .plus).apply 0 (number.value sizes))
  | .paren _ inner _ => inner.valueAfter id
  | .call _ function _ => function.value

def Call.value : Call → Option ℚ
  | .calc inner => inner.valueAfter id
  | .least arguments => arguments.value min
  | .greatest arguments => arguments.value max
  | .clamp lower value upper =>
    (lower.valueAfter id).bind fun lower =>
      (value.valueAfter id).bind fun value => (upper.valueAfter id).map (clampValue lower value ·)

/-- `combine` is what the operators on the left do with the value of the first factor. -/
def Product.valueAfter (combine : ℚ → Option ℚ) : Product → Option ℚ
  | .last factor => factor.value.bind combine
  | .cons factor op more =>
    (factor.value.bind combine).bind fun left => more.valueAfter (op.apply left)

def Sum.valueAfter (combine : ℚ → ℚ) : Sum → Option ℚ
  | .last product => (product.valueAfter some).map combine
  | .cons product op more =>
    ((product.valueAfter some).map combine).bind fun left => more.valueAfter (op.apply left)

def Arguments.value (pick : ℚ → ℚ → ℚ) : Arguments → Option ℚ
  | .last argument => argument.valueAfter id
  | .cons argument more =>
    (argument.valueAfter id).bind fun first => (more.value pick).map (pick first)

end

end Values

/-! ## What the evaluators count -/

mutual

/-- The levels below a factor, and so on; a function that is a factor is counted on its own. -/
def Factor.levels : Factor → Nat
  | .literal .. | .call .. => 0
  | .paren _ inner _ => inner.levels + 1

def Product.levels : Product → Nat
  | .last factor => factor.levels
  | .cons factor .times more => max factor.levels more.levels + 1
  | .cons factor .divides (.last divisor) => max factor.levels divisor.levels + 1
  -- such a quotient is the left side of a product
  | .cons factor .divides (.cons divisor _ more) =>
    max (max factor.levels divisor.levels + 1) more.levels + 1

def Sum.levels : Sum → Nat
  | .last product => product.levels
  | .cons product _ more => max product.levels more.levels

end

mutual

def Call.levels : Call → Nat
  | .calc inner => inner.levels + 1
  | .least arguments | .greatest arguments => arguments.callLevels + 1
  | .clamp lower value upper => max lower.callLevels (max value.callLevels upper.callLevels) + 1

/-- A function that is an argument is counted on. -/
def Sum.callLevels : Sum → Nat
  | .last (.last (.call _ function _)) => function.levels
  | _ => 0

def Arguments.callLevels : Arguments → Nat
  | .last argument => argument.callLevels
  | .cons argument more => max argument.callLevels more.callLevels

end

/-! ## Trees that are read as they are meant -/

/-- No sign in the exponent. -/
def Literal.unsigned (number : Literal) : Bool := number.magnitude.all (!isSign ·)

/-- The first operator is a division. -/
def Product.divides : Product → Bool
  | .cons _ .divides _ => true
  | _ => false

mutual

/-- A factor of a `calc()`; a sign is fine at the start of a sum and behind a `+`. -/
def Factor.regular (signed : Bool) : Factor → Bool
  | .literal _ sign number _ => (sign.isNone || signed) && number.unsigned
  | .paren _ inner _ => inner.regular true
  | .call _ function _ => function.regular && decide (function.levels ≤ maxMathDepth)

def Call.regular : Call → Bool
  | .calc inner => inner.regular true
  | .least arguments | .greatest arguments => arguments.regular
  | .clamp lower value upper => lower.bare && value.bare && upper.bare

/-- No division follows on a division. -/
def Product.regular (signed : Bool) : Product → Bool
  | .last factor => factor.regular signed
  | .cons factor op more =>
    factor.regular signed && more.regular false && !(op == .divides && more.divides)

def Sum.regular (signed : Bool) : Sum → Bool
  | .last product => product.regular signed
  | .cons product op more => product.regular signed && more.regular (op == .plus)

/-- A literal or a function, without an operator or parentheses around it. -/
def Sum.bare : Sum → Bool
  | .last (.last (.literal ..)) => true
  | .last (.last (.call _ function _)) => function.regular
  | _ => false

def Arguments.regular : Arguments → Bool
  | .last argument => argument.bare
  | .cons argument more => argument.bare && more.regular

end

end GhitaBrowser.Css
