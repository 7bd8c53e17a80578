import GhitaBrowser.Css.Sheet
import GhitaBrowser.Lib.Nesting
import GhitaBrowser.Lib.Unroll
import Mathlib.Algebra.Order.Ring.Rat

/-!
# Lengths and math functions (`css_parser.rs`)

`eval_math_expression` reads `calc()`, `min()`, `max()` and `clamp()` from the text itself: it
splits at operators outside of parentheses and evaluates the pieces. Numbers are exact here.

The evaluators call each other, and the call from a term back to the first of them counts its
nesting from zero again. How many calls may be open at once is the number of turns of `unroll`.
-/

namespace GhitaBrowser.Css

/-! ## Variables -/

abbrev Customs := Text → Option Text

/-- The body of `var(` up to its closing parenthesis, and what follows. -/
def findVarClose : Nat → Text → Option (Text × Text)
  | _, [] => none
  | depth, c :: rest =>
    if c == '(' then (findVarClose (depth + 1) rest).map fun (body, after) => (c :: body, after)
    else if c == ')' then
      if depth == 0 then some ([], rest)
      else (findVarClose (depth - 1) rest).map fun (body, after) => (c :: body, after)
    else (findVarClose depth rest).map fun (body, after) => (c :: body, after)

/-- `split_first_comma_outside_parens`, trimmed: the name and the fallback. -/
def varParts (body : Text) : Text × Option Text :=
  match Nesting.cutTop (· == ',') 0 body with
  | some (name, fallback) => (Str.trim name, some (Str.trim fallback))
  | none => (Str.trim body, none)

/-- What a `var()` stands for; `resolve` is the recursion. -/
def expandVar (resolve : List Text → Text → Option Text) (customs : Customs)
    (visited : List Text) (body : Text) : Option Text :=
  let (name, fallback) := varParts body
  let expandFallback := fallback.bind (resolve visited)
  if !Str.startsWith "--".toList name then expandFallback
  else if visited.contains name then expandFallback
  else
    match customs name with
    | some value =>
      match resolve (name :: visited) value with
      | some expanded => some expanded
      | none => expandFallback
    | none => expandFallback

/-- The loop of `resolve_var_recursive`. -/
def resolveLoop (resolve : List Text → Text → Option Text) (customs : Customs)
    (visited : List Text) : Nat → Text → Text → Option Text
  | 0, output, remaining => some (output ++ remaining)
  | turns + 1, output, remaining =>
    match Str.splitOnce "var(".toList remaining with
    | none => some (output ++ remaining)
    | some (before, after) =>
      match findVarClose 0 after with
      -- what comes before has been written already
      | none => some (output ++ before ++ remaining)
      | some (body, rest) =>
        match expandVar resolve customs visited body with
        | none => none
        | some expanded =>
          let output := output ++ before ++ expanded
          if byteLen output > 65536 then none
          else resolveLoop resolve customs visited turns output rest

/-- `resolve_var_recursive`, with the levels that are left. -/
def resolveVarRecursive (customs : Customs) : Nat → List Text → Text → Option Text
  | 0, _, _ => none
  | levels + 1, visited, value =>
    if !Str.contains "var(".toList value then some value
    else resolveLoop (resolveVarRecursive customs levels) customs visited value.length [] value

def resolveVarValue (value : Text) (customs : Customs) : Option Text :=
  if !Str.contains "var(".toList value then none else resolveVarRecursive customs 17 [] value

/-! ## Lengths -/

def isDigit (c : Char) : Bool := '0' ≤ c && c ≤ '9'

def digits (text : Text) : Nat :=
  text.foldl (fun value c => 10 * value + (c.toNat - '0'.toNat)) 0

def parseExponent (text : Text) : Option Int :=
  let whole (text : Text) : Option Int :=
    if text.isEmpty || !text.all isDigit then none else some (digits text)
  match text with
  | '-' :: rest => (whole rest).map (-·)
  | '+' :: rest => whole rest
  | text => whole text

def scaleTen (value : ℚ) : Int → ℚ
  | .ofNat power => value * 10 ^ power
  | .negSucc power => value / 10 ^ (power + 1)

/-- A number without a sign: digits with at most one point, then perhaps an exponent. -/
def parseUnsigned (text : Text) : Option ℚ :=
  let isExponent (c : Char) : Bool := c == 'e' || c == 'E'
  let mantissa := text.takeWhile (!isExponent ·)
  let exponent := (text.dropWhile (!isExponent ·)).tail
  let hasExponent := !(text.dropWhile (!isExponent ·)).isEmpty
  let whole := mantissa.takeWhile (· != '.')
  let fraction := (mantissa.dropWhile (· != '.')).tail
  if whole.isEmpty && fraction.isEmpty || !whole.all isDigit || !fraction.all isDigit then none
  else
    let value : ℚ := digits (whole ++ fraction) / 10 ^ fraction.length
    if hasExponent then (parseExponent exponent).map (scaleTen value) else some value

/-- `parse::<f64>`, exactly; what is no number of the line is left out. -/
def parseNumber (text : Text) : Option ℚ :=
  match text with
  | '-' :: rest => (parseUnsigned rest).map (-·)
  | '+' :: rest => parseUnsigned rest
  | text => parseUnsigned text

inductive CssUnit where
  | pixels (px : ℚ)
  | percent (pct : ℚ)
  | em (em : ℚ)
  | rem (rem : ℚ)
  | vw (v : ℚ)
  | vh (v : ℚ)
  | vmin (v : ℚ)
  | vmax (v : ℚ)
  | pt (pt : ℚ)
  | auto
  | calc (expr : Text)

def mathNames : List Text :=
  ["calc(".toList, "min(".toList, "max(".toList, "clamp(".toList]

def startsMath (text : Text) : Bool := mathNames.any (Str.startsWith · text)

namespace CssUnit

/-- The units by their suffixes, in the order in which they are tried. -/
def units : List (Text × (ℚ → CssUnit)) :=
  [("px".toList, pixels), ("%".toList, percent), ("rem".toList, rem), ("em".toList, em),
   ("dvw".toList, vw), ("svw".toList, vw), ("lvw".toList, vw),
   ("dvh".toList, vh), ("svh".toList, vh), ("lvh".toList, vh),
   ("vw".toList, vw), ("vh".toList, vh), ("vmin".toList, vmin), ("vmax".toList, vmax),
   ("pt".toList, pt)]

/-- The first suffix that is there decides; without one the number is one of pixels. -/
def parseLength (value : Text) : Option CssUnit :=
  match units.findSome? fun (suffix, unit) => (Str.stripEnd suffix value).map fun number =>
      (number, unit) with
  | some (number, unit) => (parseNumber (Str.trim number)).map unit
  | none => (parseNumber value).map pixels

def keywords : List Text :=
  ["auto".toList, "inherit".toList, "initial".toList, "unset".toList]

def parse (value : Text) : Option CssUnit :=
  let value := Str.trim value
  if value.isEmpty then none
  else if keywords.any (Str.eqIgnoreCase value) then some auto
  else if startsMath value then some (.calc value)
  else parseLength value

end CssUnit

/-- What relative lengths are relative to. -/
structure Sizes where
  parentSize : ℚ
  rootSize : ℚ
  vw : ℚ
  vh : ℚ

/-! ## The evaluators -/

def splitMathArgs (text : Text) : List Text :=
  let (first, more) := Nesting.splitTop (· == ',') 0 text
  let pieces := (first :: more.map (·.2)).map Str.trim
  if (pieces.getLast?.getD []).isEmpty then pieces.dropLast else pieces

/-- `strip_prefix(name)` and `strip_suffix(')')`. -/
def stripFunction (name text : Text) : Option Text :=
  (Str.stripStart name text).bind (Str.stripEnd [')'])

def isSign (c : Char) : Bool := c == '+' || c == '-'

/-- A call of one of the three evaluators. -/
inductive MathCall where
  | expression (expr : Text) (customs : Customs) (depth : Nat)
  | calcTerms (inner : Text) (depth : Nat)
  | singleCalcTerm (term : Text) (depth : Nat)

/-- The answer of a call, if the calls that it makes are not nested too deeply for the stack. -/
abbrev Reply := Option (Option ℚ)

section Evaluators

variable (sizes : Sizes) (self : MathCall → Reply)

/-- `to_pixels_with_viewport`. A math function is evaluated from the start. -/
def pixelsOf : CssUnit → Option ℚ
  | .pixels px => some px
  | .percent pct => some (sizes.parentSize * pct / 100)
  | .em em => some (sizes.parentSize * em)
  | .rem rem => some (sizes.rootSize * rem)
  | .vw v => some (sizes.vw * v / 100)
  | .vh v => some (sizes.vh * v / 100)
  | .vmin v => some (min sizes.vw sizes.vh * v / 100)
  | .vmax v => some (max sizes.vw sizes.vh * v / 100)
  | .pt pt => some (pt * 96 / 72)
  | .auto => some 0
  | .calc expr => (self (.expression expr (fun _ => none) 0)).map (·.getD 0)

def lengthOf (text : Text) : Reply :=
  match CssUnit.parse text with
  | none => some none
  | some unit => (pixelsOf sizes self unit).map some

/-- The arguments one after the other; a call that has no answer ends it. -/
def replies : List MathCall → Option (List (Option ℚ))
  | [] => some []
  | call :: calls =>
    match self call with
    | none => none
    | some reply => (replies calls).map (reply :: ·)

/-- The smallest of the arguments that have a value. -/
def least (values : List ℚ) : Option ℚ :=
  values.foldl (fun found v => if found.all (v < ·) then some v else found) none

def greatest (values : List ℚ) : Option ℚ :=
  values.foldl (fun found v => if found.all (· < v) then some v else found) none

def clampValue (lower value upper : ℚ) : ℚ := max (min value upper) lower

/-- `clamp` with three arguments, each of which must have a value before the next is read. -/
def evalClamp (customs : Customs) (depth : Nat) (lower value upper : Text) : Reply :=
  match self (.expression lower customs depth) with
  | some (some lower) =>
    match self (.expression value customs depth) with
    | some (some value) =>
      match self (.expression upper customs depth) with
      | some (some upper) => some (some (clampValue lower value upper))
      | reply => reply
    | reply => reply
  | reply => reply

/-- `eval_math_expression_bounded`. -/
def evalExpression (expr : Text) (customs : Customs) (depth : Nat) : Reply :=
  if depth > maxMathDepth then some none
  else
    let trimmed := Str.trim ((resolveVarValue expr customs).getD expr)
    let arguments (inner : Text) :=
      (replies self ((splitMathArgs inner).map (.expression · customs (depth + 1)))).map
        (·.filterMap id)
    match stripFunction "calc(".toList trimmed with
    | some inner => self (.calcTerms (Str.trim inner) (depth + 1))
    | none =>
      match stripFunction "min(".toList trimmed with
      | some inner => (arguments inner).map least
      | none =>
        match stripFunction "max(".toList trimmed with
        | some inner => (arguments inner).map greatest
        | none =>
          match (stripFunction "clamp(".toList trimmed).map splitMathArgs with
          | some [lower, value, upper] => evalClamp self customs (depth + 1) lower value upper
          | _ => if startsMath trimmed then some none else lengthOf sizes self trimmed

/-- The terms after the first, each added or taken away; only a last one that is blank is not
evaluated. -/
def addTerms (depth : Nat) : ℚ → List (Char × Text) → Reply
  | total, [] => some (some total)
  | total, (op, term) :: more =>
    if more.isEmpty && (Str.trim term).isEmpty then some (some total)
    else
      match self (.singleCalcTerm (Str.trim term) depth) with
      | some (some value) =>
        addTerms depth (if op == '+' then total + value else total - value) more
      | reply => reply

def evalCalcTerms (inner : Text) (depth : Nat) : Reply :=
  if depth > maxMathDepth then some none
  else
    let (first, more) := Nesting.splitTop isSign 0 inner
    addTerms self depth 0 (('+', first) :: more)

/-- Both sides of an operator, one after the other. -/
def evalSides (left right : Text) (depth : Nat) (combine : ℚ → ℚ → Option ℚ) : Reply :=
  match self (.singleCalcTerm (Str.trim left) depth) with
  | some (some left) =>
    match self (.singleCalcTerm (Str.trim right) depth) with
    | some (some right) => some (combine left right)
    | reply => reply
  | reply => reply

def evalSingleCalcTerm (term : Text) (depth : Nat) : Reply :=
  if depth > maxMathDepth then some none
  else
    let term := Str.trim term
    if term.isEmpty then some (some 0)
    else
      match Nesting.cutTop (· == '*') 0 term with
      | some (left, right) => evalSides self left right (depth + 1) fun l r => some (l * r)
      | none =>
        match Nesting.cutTop (· == '/') 0 term with
        | some (left, right) =>
          evalSides self left right (depth + 1) fun l r => if r ≠ 0 then some (l / r) else none
        | none =>
          match stripFunction ['('] term with
          | some inner => self (.calcTerms inner (depth + 1))
          | none => lengthOf sizes self term

/-- One call, which makes calls of its own. -/
def mathStep : MathCall → Reply
  | .expression expr customs depth => evalExpression sizes self expr customs depth
  | .calcTerms inner depth => evalCalcTerms self inner depth
  | .singleCalcTerm term depth => evalSingleCalcTerm sizes self term depth

end Evaluators

/-- A call that may have `frames` calls open at once, itself among them. -/
def runMath (sizes : Sizes) (frames : Nat) (call : MathCall) : Reply :=
  unroll none (mathStep sizes) frames call

def evalMathExpression (sizes : Sizes) (frames : Nat) (expr : Text) (customs : Customs) : Reply :=
  runMath sizes frames (.expression expr customs 0)

end GhitaBrowser.Css
