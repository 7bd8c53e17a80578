import GhitaBrowser.Css.MathTerms

/-!
# The value of a math expression

The evaluators do not build a tree: they split the text at the first operator that is not in
parentheses. For the regular trees that comes to the same (`returns_value`), and a chain of two
divisions is where it does not (`quotients_group_to_the_right`).
-/

namespace GhitaBrowser.Css

open Nesting (Skips)

/-! ## Functions -/

section Functions

variable {sizes : Sizes}

theorem resolved_plain {customs : Customs} {text : Text}
    (h : Str.contains "var(".toList text = false) : resolved customs text = Str.trim text := by
  unfold resolved resolveVarValue
  rw [h]
  rfl

variable {customs : Customs} {text : Text}

theorem closed_resolved (h : Closed text) :
    resolved customs text = Str.trim text :=
  resolved_plain (contains_var (h.noVar ' ' (by decide)))

theorem Factor.core_closed (factor : Factor) : Closed factor.core := by
  cases factor with
  | literal before sign number after =>
    exact .of_plain (List.forall_mem_append.mpr ⟨sign_plain sign, number.no_parens⟩)
  | paren before inner after => exact inner.closed.paren
  | call before function after => exact function.closed

/-- The pieces between the commas. -/
def Arguments.pieces : Arguments → List Text
  | .last argument => [argument.text]
  | .cons argument more => argument.text :: more.pieces

theorem Arguments.split (arguments : Arguments) :
    ((Nesting.splitTop (· == ',') 0 arguments.text).1 ::
      (Nesting.splitTop (· == ',') 0 arguments.text).2.map (·.2)) = arguments.pieces := by
  cases arguments with
  | last argument =>
    show ((Nesting.splitTop (· == ',') 0 argument.text).1 ::
      (Nesting.splitTop (· == ',') 0 argument.text).2.map _) = [argument.text]
    rw [Nesting.splitTop_whole argument.skips_comma]
    rfl
  | cons argument more =>
    show ((Nesting.splitTop (· == ',') 0 (argument.text ++ ',' :: more.text)).1 ::
      (Nesting.splitTop (· == ',') 0 (argument.text ++ ',' :: more.text)).2.map _) = _
    rw [Nesting.splitTop_at argument.skips_comma (by decide) (by decide) (beq_self_eq_true _)]
    exact congrArg (argument.text :: ·) more.split

theorem Sum.filled (sum : Sum) : (Str.trim sum.text).isEmpty = false := by
  cases sum with
  | last product => exact product.filled
  | cons product op more => cases op <;> exact trim_mark_filled (by decide) _ _

theorem Arguments.pieces_last (arguments : Arguments) :
    ∃ sum : Sum, arguments.pieces.getLast? = some sum.text := by
  cases arguments with
  | last argument => exact ⟨argument, rfl⟩
  | cons argument more =>
    obtain ⟨sum, found⟩ := more.pieces_last
    refine ⟨sum, ?_⟩
    show (argument.text :: more.pieces).getLast? = _
    rw [List.getLast?_cons, found]
    rfl

theorem splitMathArgs_text (arguments : Arguments) :
    splitMathArgs arguments.text = arguments.pieces.map Str.trim := by
  have filled : (((arguments.pieces.map Str.trim).getLast?.getD []).isEmpty) = false := by
    obtain ⟨sum, found⟩ := arguments.pieces_last
    rw [List.getLast?_map, found]
    exact sum.filled
  unfold splitMathArgs
  dsimp only
  rw [arguments.split, filled]
  rfl

def Call.form : Call → MathForm
  | .calc inner => .calc (Str.trim inner.text)
  | .least arguments => .least (arguments.pieces.map Str.trim)
  | .greatest arguments => .greatest (arguments.pieces.map Str.trim)
  | .clamp lower value upper =>
    .clamp [Str.trim lower.text, Str.trim value.text, Str.trim upper.text]

theorem mathForm_call (customs : Customs) (function : Call) :
    mathForm customs function.text = function.form := by
  unfold mathForm
  rw [closed_resolved function.closed, trim_call]
  rcases function with inner | arguments | arguments | ⟨lower, value, upper⟩
  · have strip := stripFunction_append "calc(".toList inner.text
    change stripFunction _ (Call.calc inner).text = _ at strip
    rw [formOf, strip]
    rfl
  · have strip := stripFunction_append "min(".toList arguments.text
    change stripFunction _ (Call.least arguments).text = _ at strip
    have notCalc : stripFunction "calc(".toList (Call.least arguments).text = none := rfl
    rw [formOf, notCalc, strip]
    exact congrArg MathForm.least (splitMathArgs_text arguments)
  · have strip := stripFunction_append "max(".toList arguments.text
    change stripFunction _ (Call.greatest arguments).text = _ at strip
    have notCalc : stripFunction "calc(".toList (Call.greatest arguments).text = none := rfl
    have notLeast : stripFunction "min(".toList (Call.greatest arguments).text = none := rfl
    rw [formOf, notCalc, notLeast, strip]
    exact congrArg MathForm.greatest (splitMathArgs_text arguments)
  · have strip := stripFunction_append "clamp(".toList
      (Arguments.cons lower (.cons value (.last upper))).text
    change stripFunction _ (Call.clamp lower value upper).text = _ at strip
    have notCalc : stripFunction "calc(".toList (Call.clamp lower value upper).text = none := rfl
    have notLeast : stripFunction "min(".toList (Call.clamp lower value upper).text = none := rfl
    have notGreatest : stripFunction "max(".toList (Call.clamp lower value upper).text = none := rfl
    rw [formOf, notCalc, notLeast, notGreatest, strip]
    exact congrArg MathForm.clamp (splitMathArgs_text (.cons lower (.cons value (.last upper))))

variable {depth : Nat}

theorem literal_argument (room : depth ≤ maxMathDepth)
    (before : Blank) (sign : Option Sign) (number : Literal) (after : Blank) :
    Settles sizes (fun self => self (.expression
        (Str.trim (Factor.literal before sign number after).text) customs depth))
      ((Factor.literal before sign number after).value sizes) := by
  refine Settles.call ((Settles.const _).congr fun self => ?_)
  show evalExpression sizes self _ customs depth = _
  rw [Factor.trim_text, evalExpression_eq, if_neg (Nat.not_lt.mpr room)]
  have starts : startsMath (Factor.literal before sign number after).core = false := by
    cases sign with
    | none =>
      obtain ⟨c, rest, split, isNumeric⟩ := number.numeric_head
      show startsMath number.magnitude = false
      rw [split]
      exact not_math isNumeric rest
    | some sign => exact not_math (numeric_of_sign sign) number.magnitude
  have form : mathForm customs (Factor.literal before sign number after).core =
      .other (Factor.literal before sign number after).core := by
    unfold mathForm
    rw [closed_resolved (Factor.core_closed _), ← Factor.trim_text, Str.trim_trim, Factor.trim_text]
    have no : ∀ name ∈ mathNames,
        stripFunction name (Factor.literal before sign number after).core = none := by
      intro name listed
      unfold stripFunction Str.stripStart
      rw [if_neg]
      · rfl
      · intro begins
        have found : startsMath (Factor.literal before sign number after).core = true :=
          List.any_eq_true.mpr ⟨name, listed, begins⟩
        rw [starts] at found
        cases found
    unfold formOf
    rw [no "calc(".toList (by decide), no "min(".toList (by decide), no "max(".toList (by decide),
      no "clamp(".toList (by decide)]
  rw [form]
  dsimp only [formValue]
  rw [starts]
  exact lengthOf_literal sizes number self sign

def pickAll (pick : ℚ → ℚ → ℚ) : List ℚ → Option ℚ
  | [] => none
  | [value] => some value
  | value :: more => (pickAll pick more).map (pick value)

theorem pickAll_cons {pick : ℚ → ℚ → ℚ} {more : List ℚ} {found : ℚ}
    (h : pickAll pick more = some found) (value : ℚ) :
    pickAll pick (value :: more) = some (pick value found) := by
  cases more with
  | nil => cases h
  | cons next more =>
    rw [pickAll, h]
    · rfl
    · nofun

theorem pickFrom {pick : ℚ → ℚ → ℚ} {better : ℚ → ℚ → Bool}
    (step : ∀ found v, (if better v found then v else found) = pick found v)
    (assoc : ∀ a b c, pick (pick a b) c = pick a (pick b c)) (values : List ℚ) (found : ℚ) :
    values.foldl (fun found v => if found.all (better v) then some v else found) (some found) =
      pickAll pick (found :: values) := by
  induction values generalizing found with
  | nil => rfl
  | cons value more ih =>
    have here : (if (some found).all (better value) then some value else some found) =
        some (pick found value) := by
      show (if better value found then some value else some found) = _
      rw [← step, apply_ite some]
    rw [List.foldl_cons, here, ih]
    cases more with
    | nil => rfl
    | cons next more =>
      show (pickAll pick (next :: more)).map _ = ((pickAll pick (next :: more)).map _).map _
      rw [Option.map_map]
      exact congrArg (Option.map · _) (funext fun v => assoc found value v)

theorem least_eq (values : List ℚ) : least values = pickAll min values := by
  have step : ∀ found v : ℚ, (if decide (v < found) then v else found) = min found v := by
    intro found v
    split
    · next less => exact (min_eq_right (le_of_lt (of_decide_eq_true less))).symm
    · next less => exact (min_eq_left (not_lt.mp fun lower => less (decide_eq_true lower))).symm
  cases values with
  | nil => rfl
  | cons value more => exact pickFrom step min_assoc more value

theorem greatest_eq (values : List ℚ) : greatest values = pickAll max values := by
  have step : ∀ found v : ℚ, (if decide (found < v) then v else found) = max found v := by
    intro found v
    split
    · next less => exact (max_eq_right (le_of_lt (of_decide_eq_true less))).symm
    · next less => exact (max_eq_left (not_lt.mp fun higher => less (decide_eq_true higher))).symm
  cases values with
  | nil => rfl
  | cons value more => exact pickFrom step max_assoc more value

/-- Arguments, of which those that have a value are kept. -/
def ArgumentsSettle (sizes : Sizes) (customs : Customs) (depth : Nat) (texts : List Text)
    (value : (ℚ → ℚ → ℚ) → Option ℚ) : Prop :=
  ∃ values turns, (∀ frames, turns ≤ frames →
      argumentValues (runMath sizes frames) customs depth texts = some values) ∧
    ∀ pick v, value pick = some v → pickAll pick values = some v

theorem argumentValues_cons {self : MathCall → Reply} {texts : List Text} {reply : Option ℚ}
    {values : List ℚ} (first : self (.expression text customs depth) = some reply)
    (later : argumentValues self customs depth texts = some values) :
    argumentValues self customs depth (text :: texts) = some (reply.toList ++ values) := by
  obtain ⟨replied, found, same⟩ := Option.map_eq_some_iff.mp later
  rw [argumentValues, List.map_cons, replies, first, found]
  show some ((reply :: replied).filterMap id) = _
  rw [← same]
  cases reply <;> rfl

theorem ArgumentsSettle.last {value : Option ℚ}
    (h : Settles sizes (fun self => self (.expression text customs depth)) value) :
    ArgumentsSettle sizes customs depth [text] fun _ => value := by
  obtain ⟨reply, turns, answered, right⟩ := h
  refine ⟨reply.toList ++ [], turns, fun frames enough =>
    argumentValues_cons (answered frames enough) rfl, fun pick v found => ?_⟩
  rw [right v found]
  rfl

theorem ArgumentsSettle.cons {texts : List Text} {first : Option ℚ} {more : (ℚ → ℚ → ℚ) → Option ℚ}
    (h : Settles sizes (fun self => self (.expression text customs depth)) first)
    (later : ArgumentsSettle sizes customs depth texts more) :
    ArgumentsSettle sizes customs depth (text :: texts) fun pick =>
      first.bind fun first => (more pick).map (pick first) := by
  obtain ⟨reply, turns, answered, right⟩ := h
  obtain ⟨values, turns', answered', right'⟩ := later
  refine ⟨reply.toList ++ values, max turns turns', fun frames enough => argumentValues_cons
    (answered frames (Nat.le_trans (Nat.le_max_left ..) enough))
    (answered' frames (Nat.le_trans (Nat.le_max_right ..) enough)), fun pick v found => ?_⟩
  obtain ⟨w, has, found⟩ := Option.bind_eq_some_iff.mp found
  obtain ⟨u, rest, rfl⟩ := Option.map_eq_some_iff.mp found
  rw [right w has]
  exact pickAll_cons (right' pick u rest) w

theorem ArgumentsSettle.picked {texts : List Text}
    {value : (ℚ → ℚ → ℚ) → Option ℚ} (h : ArgumentsSettle sizes customs depth texts value)
    (pick : ℚ → ℚ → ℚ) (choose : List ℚ → Option ℚ) (same : ∀ values, choose values = pickAll pick values) :
    Settles sizes (fun self => (argumentValues self customs depth texts).map choose) (value pick) := by
  obtain ⟨values, turns, answered, right⟩ := h
  refine ⟨choose values, turns, fun frames enough => ?_, fun v found => ?_⟩
  · exact congrArg (Option.map choose) (answered frames enough)
  · rw [same]
    exact right pick v found

/-! ## The induction over the tree -/

theorem expression_call {function : Call} {value : Option ℚ}
    (room : depth ≤ maxMathDepth)
    (h : Settles sizes (formValue sizes customs depth function.form) value) :
    Settles sizes (fun self => self (.expression function.text customs depth)) value := by
  refine Settles.call (h.congr fun self => ?_)
  show evalExpression sizes self function.text customs depth = _
  rewrite [evalExpression_eq, if_neg (Nat.not_lt.mpr room), mathForm_call]
  rfl

theorem sum_settles {sum : Sum} (h : sum.regular true = true)
    (room : depth ≤ maxMathDepth)
    (adds : Settles sizes (fun self => addTerms self depth 0 (sum.pieces .plus))
      (sum.valueAfter sizes (Sign.plus.apply 0)))
    (same : Str.trim text = Str.trim sum.text) :
    Settles sizes (fun self => self (.calcTerms text depth)) (sum.valueAfter sizes id) := by
  have plus : Sign.plus.apply 0 = id := funext zero_add
  rw [plus] at adds
  exact Settles.call (adds.congr fun self => evalCalcTerms_eq h room same)

/-- A sign of its own stands behind a `+` only. -/
theorem Product.plus_of_signed {product : Product} {op : Sign}
    (h : product.regular (op == .plus) = true) (signed : product.sign ≠ none) : op = .plus := by
  cases op with
  | plus => rfl
  | minus =>
    refine absurd ?_ signed
    match product with
    | .last factor => exact Factor.regular_unsigned h
    | .cons factor op more =>
      exact Factor.regular_unsigned (Bool.and_eq_true_iff.mp (Bool.and_eq_true_iff.mp h).1).1

theorem Product.value_scaled (product : Product) (scale : ℚ) :
    product.valueAfter sizes (MulOp.times.apply scale) =
      (product.valueAfter sizes some).bind fun v => some (scale * v) := by
  have scaled := @Product.valueAfter_scaled sizes product scale some
  rw [Option.map_eq_bind] at scaled
  exact scaled

theorem Product.value_times (factor : Factor) (more : Product) :
    (Product.cons factor .times more).valueAfter sizes some =
      (factor.value sizes).bind fun l => (more.valueAfter sizes some).bind fun r => some (l * r) := by
  show ((factor.value sizes).bind some).bind _ = _
  rw [Option.bind_fun_some]
  congr 1
  funext l
  exact more.value_scaled l

theorem Product.value_divides (factor divisor : Factor) :
    (Product.cons factor .divides (.last divisor)).valueAfter sizes some =
      (factor.value sizes).bind fun l => (divisor.value sizes).bind fun r =>
        MulOp.divides.apply l r := by
  show ((factor.value sizes).bind some).bind _ = _
  rw [Option.bind_fun_some]
  rfl

theorem Product.value_divides_times (factor divisor : Factor) (more : Product) :
    (Product.cons factor .divides (.cons divisor .times more)).valueAfter sizes some =
      ((factor.value sizes).bind fun l => (divisor.value sizes).bind fun r =>
        MulOp.divides.apply l r).bind fun l =>
          (more.valueAfter sizes some).bind fun r => some (l * r) := by
  show ((factor.value sizes).bind some).bind (fun l =>
    ((divisor.value sizes).bind (MulOp.divides.apply l)).bind fun left =>
      more.valueAfter sizes (MulOp.times.apply left)) = _
  rw [Option.bind_fun_some, Option.bind_assoc]
  congr 1
  funext l
  congr 1
  funext left
  exact more.value_scaled left

theorem quotient_settles {factor divisor : Factor} {l r : Option ℚ}
    (room : depth ≤ maxMathDepth) (hfactor : TermSettles sizes (depth + 1) factor.text l)
    (hdivisor : TermSettles sizes (depth + 1) divisor.text r) :
    TermSettles sizes depth (factor.text ++ '/' :: divisor.text)
      (l.bind fun l => r.bind fun r => MulOp.divides.apply l r) :=
  term_divides room ((factor.skips_op (by decide)).append
    (.plain (by decide) (by decide) (fun _ => by decide) (divisor.skips_op (by decide))))
    (factor.skips_op (by decide)) hfactor hdivisor

mutual

theorem Factor.settles : (factor : Factor) → {signed : Bool} → factor.regular signed = true →
    (depth : Nat) → depth + factor.levels ≤ maxMathDepth →
    TermSettles sizes depth factor.unsigned.text (factor.unsigned.value sizes)
  | .literal before none number after, _, _, depth, room => term_literal room before number after
  | .literal before (some sign) number after, _, _, depth, room =>
    term_literal room ⟨[], nofun⟩ number after
  | .paren before inner after, _, h, depth, room => by
    have room : depth + (inner.levels + 1) ≤ maxMathDepth := room
    refine term_paren (by omega) before inner after ?_
    have adds := inner.adds .plus h (depth + 1) (by omega) 0
    exact sum_settles h (by omega) adds rfl
  | .call before function after, _, h, depth, room => by
    obtain ⟨regular, levels⟩ := Bool.and_eq_true_iff.mp h
    refine term_call (Nat.le_trans (Nat.le_add_right ..) room) before function after ?_
    exact function.settles regular _ 0 (by rw [Nat.zero_add]; exact of_decide_eq_true levels)

theorem Call.settles : (function : Call) → function.regular = true → (customs : Customs) →
    (depth : Nat) → depth + function.levels ≤ maxMathDepth →
    Settles sizes (fun self => self (.expression function.text customs depth)) (function.value sizes)
  | .calc inner, h, customs, depth, room => by
    have room : depth + (inner.levels + 1) ≤ maxMathDepth := room
    have adds := inner.adds .plus h (depth + 1) (by omega) 0
    exact expression_call (by omega) (sum_settles h (by omega) adds (Str.trim_trim inner.text))
  | .least arguments, h, customs, depth, room => by
    have room : depth + (arguments.callLevels + 1) ≤ maxMathDepth := room
    have read := arguments.settles h customs (depth + 1) (by omega)
    exact expression_call (by omega) (read.picked min least least_eq)
  | .greatest arguments, h, customs, depth, room => by
    have room : depth + (arguments.callLevels + 1) ≤ maxMathDepth := room
    have read := arguments.settles h customs (depth + 1) (by omega)
    exact expression_call (by omega) (read.picked max greatest greatest_eq)
  | .clamp lower value upper, h, customs, depth, room => by
    have room : depth + (max lower.callLevels (max value.callLevels upper.callLevels) + 1) ≤
      maxMathDepth := room
    obtain ⟨both, last⟩ := Bool.and_eq_true_iff.mp h
    obtain ⟨first, second⟩ := Bool.and_eq_true_iff.mp both
    have hlower := lower.argument_settles first customs (depth + 1) (by omega)
    have hvalue := value.argument_settles second customs (depth + 1) (by omega)
    have hupper := upper.argument_settles last customs (depth + 1) (by omega)
    exact expression_call (by omega)
      (hlower.bind fun lower => hvalue.bind fun value => hupper.map (clampValue lower value))

theorem Product.settles : (product : Product) → {signed : Bool} → product.regular signed = true →
    (depth : Nat) → depth + product.levels ≤ maxMathDepth →
    TermSettles sizes depth product.unsigned.text (product.unsigned.valueAfter sizes some)
  | .last factor, _, h, depth, room => by
    have read := factor.settles h depth room
    show TermSettles sizes depth factor.unsigned.text ((factor.unsigned.value sizes).bind some)
    rw [Option.bind_fun_some]
    exact read
  | .cons factor .times more, _, h, depth, room => by
    have room : depth + (max factor.levels more.levels + 1) ≤ maxMathDepth := room
    obtain ⟨both, -⟩ := Bool.and_eq_true_iff.mp h
    obtain ⟨first, later⟩ := Bool.and_eq_true_iff.mp both
    have hfactor := factor.settles first (depth + 1) (by omega)
    have hmore := more.settles later (depth + 1) (by omega)
    rw [Product.regular_unsigned later] at hmore
    have term := term_times (by omega) (factor.unsigned.skips_op (by decide)) hfactor hmore
    rw [← Product.value_times] at term
    exact term
  | .cons factor .divides (.last divisor), _, h, depth, room => by
    have room : depth + (max factor.levels divisor.levels + 1) ≤ maxMathDepth := room
    obtain ⟨both, -⟩ := Bool.and_eq_true_iff.mp h
    obtain ⟨first, later⟩ := Bool.and_eq_true_iff.mp both
    have hfactor := factor.settles first (depth + 1) (by omega)
    have hdivisor := divisor.settles later (depth + 1) (by omega)
    rw [Factor.unsigned_none (Factor.regular_unsigned later)] at hdivisor
    have term := quotient_settles (by omega) hfactor hdivisor
    rw [← Product.value_divides] at term
    exact term
  | .cons factor .divides (.cons divisor op more), _, h, depth, room => by
    have room : depth + (max (max factor.levels divisor.levels + 1) more.levels + 1) ≤
      maxMathDepth := room
    obtain ⟨both, single⟩ := Bool.and_eq_true_iff.mp h
    obtain ⟨first, rest⟩ := Bool.and_eq_true_iff.mp both
    obtain ⟨both, -⟩ := Bool.and_eq_true_iff.mp rest
    obtain ⟨second, later⟩ := Bool.and_eq_true_iff.mp both
    cases op with
    | divides => cases single
    | times =>
      have hfactor := factor.settles first (depth + 2) (by omega)
      have hdivisor := divisor.settles second (depth + 2) (by omega)
      have hmore := more.settles later (depth + 1) (by omega)
      rw [Factor.unsigned_none (Factor.regular_unsigned second)] at hdivisor
      rw [Product.regular_unsigned later] at hmore
      have quotient := quotient_settles (by omega) hfactor hdivisor
      have skips : Skips (· == '*') 0 (factor.unsigned.text ++ '/' :: divisor.text) 0 :=
        (factor.unsigned.skips_op (by decide)).append
          (.plain (by decide) (by decide) (fun _ => by decide) (divisor.skips_op (by decide)))
      have term := term_times (by omega) skips quotient hmore
      rw [← Product.value_divides_times, List.append_assoc] at term
      exact term

theorem Sum.adds : (sum : Sum) → (op : Sign) → sum.regular (op == .plus) = true → (depth : Nat) →
    depth + sum.levels ≤ maxMathDepth → (total : ℚ) →
    Settles sizes (fun self => addTerms self depth total (sum.pieces op))
      (sum.valueAfter sizes (op.apply total))
  | .last product, op, h, depth, room, total => by
    have room : depth + product.levels ≤ maxMathDepth := room
    have none (total : ℚ) : Settles sizes (fun self => addTerms self depth total []) (some total) :=
      .const (some total)
    have adds := Product.adds (by omega) (Product.plus_of_signed h) (product.settles h depth room)
      none total
    rw [List.append_nil] at adds
    show Settles sizes _ ((product.valueAfter sizes some).map (op.apply total))
    rw [Option.map_eq_bind]
    exact adds
  | .cons product op' more, op, h, depth, room, total => by
    have room : depth + max product.levels more.levels ≤ maxMathDepth := room
    obtain ⟨first, later⟩ := Bool.and_eq_true_iff.mp h
    have adds := Product.adds (by omega) (Product.plus_of_signed first)
      (product.settles first depth (by omega))
      (fun total => more.adds op' later depth (by omega) total) total
    show Settles sizes _ (((product.valueAfter sizes some).map (op.apply total)).bind _)
    rw [Option.bind_map]
    exact adds

theorem Sum.argument_settles : (argument : Sum) → argument.bare = true → (customs : Customs) →
    (depth : Nat) → depth + argument.callLevels ≤ maxMathDepth →
    Settles sizes (fun self => self (.expression (Str.trim argument.text) customs depth))
      (argument.valueAfter sizes id)
  | .last (.last (.literal before sign number after)), _, customs, depth, room =>
    literal_argument (Nat.le_trans (Nat.le_add_right ..) room) before sign number after
  | .last (.last (.call before function after)), h, customs, depth, room => by
    have read := function.settles h customs depth room
    have same : Str.trim (Sum.last (.last (.call before function after))).text = function.text :=
      Factor.trim_text (.call before function after)
    have value : (Sum.last (.last (.call before function after))).valueAfter sizes id =
        function.value sizes := by
      show ((function.value sizes).bind some).map id = _
      rw [Option.bind_fun_some, Option.map_id]
      rfl
    rw [same, value]
    exact read

theorem Arguments.settles : (arguments : Arguments) → arguments.regular = true →
    (customs : Customs) → (depth : Nat) → depth + arguments.callLevels ≤ maxMathDepth →
    ArgumentsSettle sizes customs depth (arguments.pieces.map Str.trim) fun pick =>
      arguments.value sizes pick
  | .last argument, h, customs, depth, room =>
    .last (argument.argument_settles h customs depth room)
  | .cons argument more, h, customs, depth, room => by
    have room : depth + max argument.callLevels more.callLevels ≤ maxMathDepth := room
    obtain ⟨first, later⟩ := Bool.and_eq_true_iff.mp h
    exact .cons (argument.argument_settles first customs depth (by omega))
      (more.settles later customs depth (by omega))

end

end Functions

/-! ## The value that is returned -/

/-- With enough stack the value of the expression is returned, and nothing only where a division by
zero leaves it without one. -/
def ReturnsValue (sizes : Sizes) (customs : Customs) (function : Call) : Prop :=
  ∃ reply turns, (∀ frames, turns ≤ frames →
      evalMathExpression sizes frames function.text customs = some reply) ∧
    (∀ v, function.value sizes = some v → reply = some v) ∧
    (reply = none → function.value sizes = none)

/-- A regular function of few enough levels gives the value of its tree, and nothing only where
the tree has none. -/
theorem returns_value (sizes : Sizes) (customs : Customs) {function : Call}
    (regular : function.regular = true) (levels : function.levels ≤ maxMathDepth) :
    ReturnsValue sizes customs function := by
  have room : 0 + function.levels ≤ maxMathDepth := by rwa [Nat.zero_add]
  obtain ⟨reply, turns, answered, right⟩ := @Call.settles sizes function regular customs 0 room
  refine ⟨reply, turns, answered, right, fun none => ?_⟩
  by_contra found
  obtain ⟨v, has⟩ := Option.ne_none_iff_exists'.mp found
  rw [right v has] at none
  cases none

theorem blank_nil : ∀ c ∈ ([] : Text), isWhitespace c = true := List.forall_mem_nil _

def noBlank : Blank := ⟨[], blank_nil⟩

def space : Blank := ⟨[' '], by decide⟩

def threePixels : Literal :=
  { magnitude := "3px".toList
    reads := by decide
    starts := ⟨'3', rfl, by decide⟩
    plain := by decide }

def two : Literal :=
  { magnitude := "2".toList
    reads := by decide
    starts := ⟨'2', rfl, by decide⟩
    plain := by decide }

/-- `calc(-3px * 2 + min(-2, 3px))`. -/
def signedProduct : Call :=
  .calc (.cons
    (.cons (.literal noBlank (some .minus) threePixels space) .times
      (.last (.literal space none two space)))
    .plus (.last (.last (.call space
      (.least (.cons (.last (.last (.literal noBlank (some .minus) two noBlank)))
        (.last (.last (.last (.literal space none threePixels noBlank)))))) noBlank))))

theorem signed_product_returned :
    signedProduct.text = "calc(-3px * 2 + min(-2, 3px))".toList ∧
    signedProduct.value unitSizes = some (-8) ∧
    ReturnsValue unitSizes (fun _ => none) signedProduct :=
  ⟨by decide +kernel, by decide +kernel,
    returns_value unitSizes (fun _ => none) (by decide) (by decide)⟩

/-- `calc(3px / 2 / 2)`. -/
def quotients : Call :=
  .calc (.last (.cons (.literal noBlank none threePixels space) .divides
    (.cons (.literal space none two space) .divides (.last (.literal space none two noBlank)))))

/-- The first division is the last one that is carried out. -/
theorem quotients_group_to_the_right :
    quotients.text = "calc(3px / 2 / 2)".toList ∧ quotients.value unitSizes = some (3 / 4) ∧
    ¬∀ sizes customs function, ReturnsValue sizes customs function := by
  have value : quotients.value unitSizes = some (3 / 4) := by decide +kernel
  refine ⟨by decide, value, fun all => ?_⟩
  obtain ⟨reply, turns, answered, right, -⟩ := all unitSizes (fun _ => none) quotients
  have three : evalMathExpression unitSizes (turns + 5) quotients.text (fun _ => none) =
      some (some 3) := by
    with_unfolding_all rfl
  rw [answered (turns + 5) (Nat.le_add_right ..), right _ value] at three
  exact absurd three (by decide +kernel)

end GhitaBrowser.Css
