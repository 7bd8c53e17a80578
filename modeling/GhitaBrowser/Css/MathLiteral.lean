import GhitaBrowser.Css.MathSyntax
import Mathlib.Tactic.FieldSimp
import Mathlib.Tactic.IntervalCases
import Mathlib.Tactic.Ring

/-!
# Literals and signs

A literal is read as it stands, with a sign in front as well. A sign at the start of a product can be
taken off its text, and the value of the product is that of the rest with the sign.
-/

namespace GhitaBrowser.Css

open List

open Nesting (Skips)

variable {c : Char} {product : Product} {before : Blank}

/-! ## Literals -/

def numeric : Text := "+-.0123456789".toList

theorem numeric_of_start (h : isDigit c = true ∨ c = '.') : c ∈ numeric := by
  rcases h with digit | rfl
  · obtain ⟨low, high⟩ := Bool.and_eq_true_iff.mp digit
    have low : 48 ≤ c.toNat := of_decide_eq_true low
    have high : c.toNat ≤ 57 := of_decide_eq_true high
    rw [← Char.ofNat_toNat c]
    generalize c.toNat = code at low high
    interval_cases code <;> decide
  · decide

theorem numeric_of_sign (sign : Sign) : sign.char ∈ numeric := by
  cases sign <;> decide

theorem not_keyword (h : c ∈ numeric) (rest : Text) :
    CssUnit.keywords.any (Str.eqIgnoreCase (c :: rest)) = false := by
  refine Bool.eq_false_iff.mpr fun found => ?_
  obtain ⟨keyword, listed, same⟩ := any_eq_true.mp found
  have letters : ∀ keyword ∈ CssUnit.keywords, ∀ c ∈ numeric,
      some c.toLower ≠ (Str.lowercase keyword).head? := by decide
  have lower : Str.lowercase (c :: rest) = Str.lowercase keyword := eq_of_beq same
  refine letters keyword listed c h ?_
  rw [← lower]
  rfl

theorem not_math (h : c ∈ numeric) (rest : Text) : startsMath (c :: rest) = false := by
  refine Bool.eq_false_iff.mpr fun found => ?_
  obtain ⟨name, listed, begins⟩ := any_eq_true.mp found
  obtain ⟨tail, split⟩ := isPrefixOf_iff_prefix.mp begins
  have letters : ∀ name ∈ mathNames, name ≠ [] ∧ ∀ c ∈ numeric, some c ≠ name.head? := by decide
  obtain ⟨filled, other⟩ := letters name listed
  refine other c h ?_
  rw [← @List.head?_append_of_ne_nil _ name tail filled, split]
  rfl

theorem trim_solid {text : Text} (h : ∀ c ∈ text, isWhitespace c = false) : Str.trim text = text := by
  obtain ⟨front, back, hfront, hback, split⟩ := Str.trim_parts text
  have empty : ∀ {blank : Text}, Str.Blanks blank → (∀ c ∈ blank, c ∈ text) → blank = [] := by
    intro blank white inside
    refine eq_nil_iff_forall_not_mem.mpr fun c among => ?_
    have solid := h c (inside c among)
    rw [white c among] at solid
    cases solid
  have front_nil := empty hfront fun c among => by
    rw [split]
    exact mem_append_left _ (mem_append_left _ among)
  have back_nil := empty hback fun c among => by
    rw [split]
    exact mem_append_right _ among
  rw [front_nil, back_nil, nil_append, append_nil] at split
  exact split.symm

theorem parse_numeric {rest : Text} (h : c ∈ numeric)
    (solid : ∀ d ∈ c :: rest, isWhitespace d = false) :
    CssUnit.parse (c :: rest) = CssUnit.parseLength (c :: rest) := by
  unfold CssUnit.parse
  rw [trim_solid solid]
  dsimp only
  rw [if_neg (by simp), not_keyword h, if_neg (by decide), not_math h, if_neg (by decide)]

theorem stripEnd_cons {suffix : Text} (h : c ∉ suffix) (text : Text) :
    Str.stripEnd suffix (c :: text) = (Str.stripEnd suffix text).map (c :: ·) := by
  have same : suffix <:+ c :: text ↔ suffix <:+ text := by
    rw [suffix_cons_iff]
    refine or_iff_right ?_
    rintro rfl
    exact h mem_cons_self
  unfold Str.stripEnd Str.endsWith
  by_cases ends : suffix <:+ text
  · rw [if_pos (isSuffixOf_iff_suffix.mpr (same.mpr ends)),
      if_pos (isSuffixOf_iff_suffix.mpr ends), length_cons,
      Nat.succ_sub ends.length_le]
    rfl
  · rw [if_neg fun found => ends (same.mp (isSuffixOf_iff_suffix.mp found)),
      if_neg fun found => ends (isSuffixOf_iff_suffix.mp found)]
    rfl

theorem units_scale (sizes : Sizes) : ∀ entry ∈ CssUnit.units, ∃ scale : ℚ, ∀ amount self,
    pixelsOf sizes self (entry.2 amount) = some (amount * scale) := by
  have of {make : ℚ → CssUnit} (scale : ℚ)
      (h : ∀ amount self, pixelsOf sizes self (make amount) = some (amount * scale)) :
      ∃ scale : ℚ, ∀ amount self, pixelsOf sizes self (make amount) = some (amount * scale) :=
    ⟨scale, h⟩
  simp only [CssUnit.units, mem_cons, not_mem_nil, or_false, forall_eq_or_imp, forall_eq]
  refine ⟨of 1 ?_, of (sizes.parentSize / 100) ?_, of sizes.rootSize ?_, of sizes.parentSize ?_,
    of (sizes.vw / 100) ?_, of (sizes.vw / 100) ?_, of (sizes.vw / 100) ?_, of (sizes.vh / 100) ?_,
    of (sizes.vh / 100) ?_, of (sizes.vh / 100) ?_, of (sizes.vw / 100) ?_, of (sizes.vh / 100) ?_,
    of (min sizes.vw sizes.vh / 100) ?_, of (max sizes.vw sizes.vh / 100) ?_, of (96 / 72) ?_⟩ <;>
  (intro amount self; simp only [pixelsOf, Option.some.injEq]; ring)

theorem parseNumber_sign (sign : Sign) (number : Text) :
    parseNumber (sign.char :: number) = (parseUnsigned number).map (sign.apply 0) := by
  cases sign with
  | plus =>
    show parseUnsigned number = _
    cases parseUnsigned number with
    | none => rfl
    | some value => exact congrArg some (zero_add value).symm
  | minus =>
    show (parseUnsigned number).map (-·) = _
    cases parseUnsigned number with
    | none => rfl
    | some value => exact congrArg some (zero_sub value).symm

theorem parseNumber_unsigned (h : isDigit c = true ∨ c = '.') (rest : Text) :
    parseNumber (c :: rest) = parseUnsigned (c :: rest) := by
  unfold parseNumber
  split
  · next same =>
    cases same
    exact absurd h (by decide)
  · next same =>
    cases same
    exact absurd h (by decide)
  · rfl

theorem Sign.apply_scaled (sign : Sign) (amount scale : ℚ) :
    sign.apply 0 amount * scale = sign.apply 0 (amount * scale) := by
  cases sign <;> simp only [Sign.apply] <;> ring

theorem findUnit_cons (text : Text) (units : List (Text × (ℚ → CssUnit)))
    (h : ∀ entry ∈ units, c ∉ entry.1) :
    (units.findSome? fun (suffix, unit) => (Str.stripEnd suffix (c :: text)).map fun number =>
      (number, unit)) =
      (units.findSome? fun (suffix, unit) => (Str.stripEnd suffix text).map fun number =>
        (number, unit)).map fun (number, unit) => (c :: number, unit) := by
  induction units with
  | nil => rfl
  | cons entry units ih =>
    obtain ⟨suffix, unit⟩ := entry
    obtain ⟨first, later⟩ := forall_mem_cons.mp h
    rw [findSome?_cons, findSome?_cons, ih later]
    dsimp only
    rw [stripEnd_cons first]
    cases Str.stripEnd suffix text <;> rfl

theorem parseLength_sign (sizes : Sizes) (sign : Sign) {magnitude : Text} {unit : CssUnit}
    (starts : ∃ first ∈ magnitude.head?, isDigit first = true ∨ first = '.')
    (solid : ∀ c ∈ magnitude, isWhitespace c = false)
    (reads : CssUnit.parseLength magnitude = some unit) : ∃ signed value,
      CssUnit.parseLength (sign.char :: magnitude) = some signed ∧
      (∀ self, pixelsOf sizes self unit = some value) ∧
      ∀ self, pixelsOf sizes self signed = some (sign.apply 0 value) := by
  obtain ⟨first, begins, digit⟩ := starts
  have signs : ∀ entry ∈ CssUnit.units, sign.char ∉ entry.1 := by
    have all : ∀ suffix ∈ CssUnit.units.map (·.1), '+' ∉ suffix ∧ '-' ∉ suffix := by decide
    intro entry listed
    cases sign with
    | plus => exact (all _ (mem_map_of_mem listed)).1
    | minus => exact (all _ (mem_map_of_mem listed)).2
  have solid' : isWhitespace sign.char = false := by
    cases sign <;> decide
  unfold CssUnit.parseLength at reads ⊢
  rw [findUnit_cons magnitude CssUnit.units signs]
  cases found : CssUnit.units.findSome? fun (suffix, unit) =>
      (Str.stripEnd suffix magnitude).map fun number => (number, unit) with
  | some entry =>
    obtain ⟨number, make⟩ := entry
    rw [found] at reads
    obtain ⟨amount, parsed, rfl⟩ := Option.map_eq_some_iff.mp reads
    obtain ⟨⟨suffix, other⟩, listed, cut⟩ := exists_of_findSome?_eq_some found
    obtain ⟨rest, stripped, same⟩ := Option.map_eq_some_iff.mp cut
    cases same
    obtain ⟨scale, scaled⟩ := units_scale sizes _ listed
    -- what stands before the suffix is solid, and begins as the whole does
    have split := stripEnd_eq_some stripped
    have inside : ∀ c ∈ number, isWhitespace c = false := fun c among =>
      solid c (split ▸ mem_append_left suffix among)
    rw [trim_solid inside] at parsed
    cases number with
    | nil => cases parsed
    | cons c rest =>
      have same : first = c := by
        rw [split] at begins
        exact (Option.some.inj begins).symm
      subst same
      rw [parseNumber_unsigned digit] at parsed
      refine ⟨make (sign.apply 0 amount), amount * scale, ?_, scaled amount, ?_⟩
      · show (parseNumber (Str.trim (sign.char :: first :: rest))).map make = _
        rw [trim_solid (forall_mem_cons.mpr ⟨solid', inside⟩), parseNumber_sign, parsed]
        rfl
      · intro self
        rw [scaled, sign.apply_scaled]
  | none =>
    rw [found] at reads
    obtain ⟨amount, parsed, rfl⟩ := Option.map_eq_some_iff.mp reads
    cases magnitude with
    | nil => cases begins
    | cons c rest =>
      obtain rfl : c = first := Option.some.inj begins
      rw [parseNumber_unsigned digit] at parsed
      refine ⟨.pixels (sign.apply 0 amount), amount, ?_, fun _ => rfl, fun _ => rfl⟩
      show (parseNumber (sign.char :: c :: rest)).map CssUnit.pixels = _
      rw [parseNumber_sign, parsed]
      rfl

section Literal

variable (sizes : Sizes) (number : Literal)

theorem Literal.reads_unit : CssUnit.parseLength number.magnitude = some number.unit :=
  (Option.some_get number.reads).symm

theorem Literal.pixels (self : MathCall → Reply) :
    pixelsOf sizes self number.unit = some (number.value sizes) := by
  obtain ⟨value, answered⟩ := @pixelsOf_length sizes _ (parseLength_ne_calc number.reads_unit)
  unfold Literal.value
  rw [answered, answered]
  rfl

theorem Literal.solid : ∀ c ∈ number.magnitude, isWhitespace c = false :=
  fun c among => (number.plain c among).1

theorem Literal.numeric_head : ∃ c rest, number.magnitude = c :: rest ∧ c ∈ numeric := by
  obtain ⟨first, begins, digit⟩ := number.starts
  obtain ⟨rest, split⟩ := List.head?_eq_some_iff.mp begins
  exact ⟨first, rest, split, numeric_of_start digit⟩

theorem lengthOf_literal (self : MathCall → Reply) (sign : Option Sign) :
    lengthOf sizes self ((sign.map Sign.char).toList ++ number.magnitude) =
      some (some ((sign.getD .plus).apply 0 (number.value sizes))) := by
  cases sign with
  | none =>
    obtain ⟨c, rest, split, isNumeric⟩ := number.numeric_head
    have reads := number.reads_unit
    have solid := number.solid
    show lengthOf sizes self number.magnitude = _
    rw [split] at reads solid ⊢
    rw [lengthOf, parse_numeric isNumeric solid, reads]
    dsimp only
    rw [number.pixels sizes self]
    exact congrArg (some ∘ some) (zero_add _).symm
  | some sign =>
    obtain ⟨signed, value, reads, plain, answered⟩ :=
      parseLength_sign sizes sign number.starts number.solid number.reads_unit
    have solid : ∀ d ∈ sign.char :: number.magnitude, isWhitespace d = false := by
      refine forall_mem_cons.mpr ⟨?_, number.solid⟩
      cases sign <;> decide
    have same : number.value sizes = value := by
      unfold Literal.value
      rw [plain]
      rfl
    show lengthOf sizes self (sign.char :: number.magnitude) = _
    rw [lengthOf, parse_numeric (numeric_of_sign sign) solid, reads]
    dsimp only
    rw [answered self, same]
    rfl

end Literal

/-! ## Signs -/

/-- A sign in front of the factor, and the blanks before it. -/
def Factor.sign : Factor → Option (Blank × Sign)
  | .literal before (some sign) _ _ => some (before, sign)
  | _ => none

def Factor.unsigned : Factor → Factor
  | .literal _ (some _) number after => .literal ⟨[], nofun⟩ none number after
  | factor => factor

def Product.sign : Product → Option (Blank × Sign)
  | .last factor | .cons factor _ _ => factor.sign

def Product.unsigned : Product → Product
  | .last factor => .last factor.unsigned
  | .cons factor op more => .cons factor.unsigned op more

theorem Factor.unsigned_none {factor : Factor} (h : factor.sign = none) : factor.unsigned = factor := by
  match factor with
  | .literal _ none _ _ | .paren .. | .call .. => rfl
  | .literal _ (some _) _ _ => cases h

theorem Product.unsigned_none (h : product.sign = none) :
    product.unsigned = product := by
  match product with
  | .last factor => exact congrArg Product.last (Factor.unsigned_none h)
  | .cons factor op more => exact congrArg (Product.cons · op more) (Factor.unsigned_none h)

theorem Factor.text_signed {factor : Factor} {sign : Sign} (h : factor.sign = some (before, sign)) :
    factor.text = before.1 ++ sign.char :: factor.unsigned.text := by
  match factor with
  | .literal before (some sign) number after =>
    cases h
    show before.1 ++ [sign.char] ++ number.magnitude ++ after.1 =
      before.1 ++ sign.char :: ([] ++ [] ++ number.magnitude ++ after.1)
    simp only [append_assoc, nil_append, cons_append]
  | .literal _ none _ _ | .paren .. | .call .. => cases h

theorem Product.text_signed {sign : Sign} (h : product.sign = some (before, sign)) :
    product.text = before.1 ++ sign.char :: product.unsigned.text := by
  match product with
  | .last factor => exact Factor.text_signed h
  | .cons factor op more =>
    show factor.text ++ op.char :: more.text = _
    rw [Factor.text_signed h, append_assoc]
    rfl

theorem Factor.regular_unsigned {factor : Factor} (h : factor.regular false = true) :
    factor.sign = none := by
  match factor with
  | .literal _ none _ _ | .paren .. | .call .. => rfl
  | .literal _ (some _) number _ => cases h

theorem Product.regular_unsigned (h : product.regular false = true) :
    product.unsigned = product := by
  refine Product.unsigned_none ?_
  match product with
  | .last factor => exact Factor.regular_unsigned h
  | .cons factor op more =>
    exact Factor.regular_unsigned (Bool.and_eq_true_iff.mp (Bool.and_eq_true_iff.mp h).1).1

theorem finds_sign : Finds isSign := by
  intro c found
  rcases Bool.or_eq_true_iff.mp found with plus | minus
  · rw [eq_of_beq plus]
    decide
  · rw [eq_of_beq minus]
    decide

theorem Factor.skips_sign {factor : Factor} {signed : Bool} (h : factor.regular signed = true) :
    Skips isSign 0 factor.unsigned.text 0 := by
  refine Factor.skips finds_sign fun before sign number after same c among => ?_
  have unsigned : number.unsigned = true ∧ sign = none := by
    match factor with
    | .literal _ none _ _ =>
      cases same
      exact ⟨h, rfl⟩
    | .literal _ (some _) _ _ =>
      cases same
      exact ⟨(Bool.and_eq_true_iff.mp h).2, rfl⟩
    | .paren .. | .call .. => cases same
  rw [same, unsigned.2] at among
  have plain := all_eq_true.mp unsigned.1 c among
  rwa [Bool.not_eq_true'] at plain

theorem Product.skips_sign : {product : Product} → {signed : Bool} →
    product.regular signed = true → Skips isSign 0 product.unsigned.text 0
  | .last factor, signed, h => Factor.skips_sign h
  | .cons factor op more, signed, h => by
    obtain ⟨both, -⟩ := Bool.and_eq_true_iff.mp h
    obtain ⟨first, later⟩ := Bool.and_eq_true_iff.mp both
    have rest := Product.skips_sign later
    rw [Product.regular_unsigned later] at rest
    refine (Factor.skips_sign first).append ?_
    cases op <;> exact .plain (by decide) (by decide) (fun _ => by decide) rest

section Signs

variable {sizes : Sizes}

theorem MulOp.apply_scaled (op : MulOp) (scale left right : ℚ) :
    op.apply (scale * left) right = (op.apply left right).map (scale * ·) := by
  cases op with
  | times => exact congrArg some (mul_assoc scale left right)
  | divides =>
    unfold MulOp.apply
    dsimp only
    split
    · exact congrArg some (mul_div_assoc scale left right)
    · rfl

theorem Product.valueAfter_scaled : (product : Product) → (scale : ℚ) → (combine : ℚ → Option ℚ) →
    product.valueAfter sizes (fun v => (combine v).map (scale * ·)) =
      (product.valueAfter sizes combine).map (scale * ·)
  | .last factor, scale, combine => by
    rw [Product.valueAfter, Product.valueAfter]
    cases factor.value sizes <;> rfl
  | .cons factor op more, scale, combine => by
    rw [Product.valueAfter, Product.valueAfter]
    cases factor.value sizes with
    | none => rfl
    | some value =>
      show ((combine value).map (scale * ·)).bind _ = ((combine value).bind _).map _
      cases combine value with
      | none => rfl
      | some left =>
        have scaled : op.apply (scale * left) = fun v => (op.apply left v).map (scale * ·) :=
          funext fun v => op.apply_scaled scale left v
        show more.valueAfter sizes (op.apply (scale * left)) = _
        rw [scaled]
        exact more.valueAfter_scaled scale (op.apply left)

def Sign.factor : Sign → ℚ
  | .plus => 1
  | .minus => -1

theorem Sign.apply_eq (sign : Sign) (left right : ℚ) : sign.apply left right = left + sign.factor * right := by
  cases sign with
  | plus => exact congrArg (left + ·) (one_mul right).symm
  | minus =>
    show left - right = left + -1 * right
    ring

theorem Factor.value_signed {factor : Factor} {sign : Sign}
    (h : factor.sign = some (before, sign)) :
    factor.value sizes = (factor.unsigned.value sizes).map (sign.factor * ·) := by
  match factor with
  | .literal before (some sign) number after =>
    cases h
    show some (sign.apply 0 (number.value sizes)) =
      some (sign.factor * (Sign.plus.apply 0 (number.value sizes)))
    rw [Sign.apply_eq, zero_add]
    exact congrArg (fun value => some (sign.factor * value)) (zero_add _).symm
  | .literal _ none _ _ | .paren .. | .call .. => cases h

theorem Product.value_signed {sign : Sign} (h : product.sign = some (before, sign)) :
    product.valueAfter sizes some = (product.unsigned.valueAfter sizes some).map (sign.factor * ·) := by
  match product with
  | .last factor =>
    show (factor.value sizes).bind some = ((factor.unsigned.value sizes).bind some).map _
    rw [Factor.value_signed h]
    cases factor.unsigned.value sizes <;> rfl
  | .cons factor op more =>
    show ((factor.value sizes).bind some).bind _ = (((factor.unsigned.value sizes).bind some).bind _).map _
    rw [Factor.value_signed h]
    cases factor.unsigned.value sizes with
    | none => rfl
    | some value =>
      have scaled : op.apply (sign.factor * value) =
          fun v => (op.apply value v).map (sign.factor * ·) :=
        funext fun v => op.apply_scaled sign.factor value v
      show more.valueAfter sizes (op.apply (sign.factor * value)) = _
      rw [scaled]
      exact more.valueAfter_scaled sign.factor (op.apply value)

end Signs

end GhitaBrowser.Css
