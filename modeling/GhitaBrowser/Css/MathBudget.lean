import GhitaBrowser.Css.MathFunctions
import GhitaBrowser.Lib.Trim

/-!
# The nesting budget of math functions

The evaluators count how deeply they are nested and give up after 64 levels. Where a term of a
`calc()` is a math function again, the count starts from zero; and `min()` and `max()` pass over
an argument without a value.

The evaluators are watched with all levels counted, and answer nothing where one of these hides a
level beyond the budget. As long as they answer (`Counted`), they never need more than `mathFrames`
calls at once, and what is nested too deeply has no value (`stops_at_budget`). Otherwise 68 levels
can have a value (`nested_calc_runs_on`).
-/

namespace GhitaBrowser.Css

open List

open Nesting (nest)

/-! ## What an expression is read as -/

inductive MathForm where
  | calc (inner : Text)
  | least (arguments : List Text)
  | greatest (arguments : List Text)
  | clamp (arguments : List Text)
  | other (text : Text)

def MathForm.arguments : MathForm → List Text
  | .least arguments | .greatest arguments | .clamp arguments => arguments
  | .calc _ | .other _ => []

def formOf (trimmed : Text) : MathForm :=
  match stripFunction "calc(".toList trimmed with
  | some inner => .calc (Str.trim inner)
  | none =>
    match stripFunction "min(".toList trimmed with
    | some inner => .least (splitMathArgs inner)
    | none =>
      match stripFunction "max(".toList trimmed with
      | some inner => .greatest (splitMathArgs inner)
      | none =>
        match stripFunction "clamp(".toList trimmed with
        | some inner => .clamp (splitMathArgs inner)
        | none => .other trimmed

/-- An expression with its variables resolved. -/
def resolved (customs : Customs) (expr : Text) : Text :=
  Str.trim ((resolveVarValue expr customs).getD expr)

def mathForm (customs : Customs) (expr : Text) : MathForm := formOf (resolved customs expr)

section

variable {sizes : Sizes} {self : MathCall → Reply} {customs : Customs}

def argumentValues (self : MathCall → Reply) (customs : Customs) (depth : Nat)
    (arguments : List Text) : Option (List ℚ) :=
  (replies self (arguments.map (.expression · customs depth))).map (·.filterMap id)

theorem stripEnd_eq_some {suffix text number : Text} (h : Str.stripEnd suffix text = some number) :
    text = number ++ suffix := by
  unfold Str.stripEnd Str.endsWith at h
  split at h
  · next ends =>
    cases h
    obtain ⟨body, rfl⟩ := isSuffixOf_iff_suffix.mp ends
    rw [length_append, Nat.add_sub_cancel, take_left]
  · cases h

theorem stripFunction_eq_some {name text inner : Text} (h : stripFunction name text = some inner) :
    text = name ++ inner ++ [')'] := by
  obtain ⟨rest, start, stop⟩ := Option.bind_eq_some_iff.mp h
  unfold Str.stripStart Str.startsWith at start
  split at start
  · next begins =>
    cases start
    obtain ⟨tail, rfl⟩ := isPrefixOf_iff_prefix.mp begins
    rw [drop_left] at stop
    rw [stripEnd_eq_some stop, append_assoc]
  · cases start

/-- What a form at a depth asks for and makes of the answers. -/
def formValue (sizes : Sizes) (customs : Customs) (depth : Nat) (form : MathForm)
    (self : MathCall → Reply) : Reply :=
  match form with
  | .calc inner => self (.calcTerms inner (depth + 1))
  | .least arguments => (argumentValues self customs (depth + 1) arguments).map least
  | .greatest arguments => (argumentValues self customs (depth + 1) arguments).map greatest
  | .clamp [lower, value, upper] => evalClamp self customs (depth + 1) lower value upper
  | .clamp _ => some none
  | .other text => if startsMath text then some none else lengthOf sizes self text

theorem evalExpression_eq (expr : Text) (depth : Nat) :
    evalExpression sizes self expr customs depth =
      if depth > maxMathDepth then some none
      else formValue sizes customs depth (mathForm customs expr) self := by
  unfold evalExpression mathForm resolved formOf
  generalize Str.trim ((resolveVarValue expr customs).getD expr) = trimmed
  dsimp only
  split
  · rfl
  · cases stripFunction "calc(".toList trimmed with
    | some inner => rfl
    | none =>
      cases stripFunction "min(".toList trimmed with
      | some inner => rfl
      | none =>
        cases stripFunction "max(".toList trimmed with
        | some inner => rfl
        | none =>
          cases strip : stripFunction "clamp(".toList trimmed with
          | none => rfl
          | some inner =>
            have starts : startsMath trimmed = true := by
              rw [stripFunction_eq_some strip]
              rfl
            have refused : (if startsMath trimmed then some none else lengthOf sizes self trimmed) =
                some none := if_pos starts
            rw [Option.map_some]
            dsimp only
            generalize splitMathArgs inner = arguments
            rcases arguments with _ | ⟨lower, _ | ⟨value, _ | ⟨upper, _ | ⟨next, more⟩⟩⟩⟩
            · exact refused
            · exact refused
            · exact refused
            · rfl
            · exact refused

/-! ## Parentheses and lengths -/

def NoParens (text : Text) : Prop := ∀ c ∈ text, c ≠ '(' ∧ c ≠ ')'

theorem nest_trim (depth : Nat) (text : Text) : nest depth (Str.trim text) = nest depth text := by
  obtain ⟨front, back, hfront, hback, split⟩ := Str.trim_parts text
  conv_rhs => rw [split]
  rw [Nesting.nest_append_closing _ _ fun c among => (hback.noParens c among).1,
    Nesting.nest_append_plain hfront.noParens]

theorem noParens_keyword {value : Text} (h : CssUnit.keywords.any (Str.eqIgnoreCase value) = true) :
    NoParens value := by
  obtain ⟨keyword, listed, same⟩ := any_eq_true.mp h
  have plain : ∀ keyword ∈ CssUnit.keywords, NoParens (Str.lowercase keyword) := by
    have all : CssUnit.keywords.all (fun keyword =>
        (Str.lowercase keyword).all fun c => c != '(' && c != ')') = true := by decide
    intro keyword listed c among
    have here := all_eq_true.mp (all_eq_true.mp all _ listed) c among
    simpa using here
  have lower : Str.lowercase value = Str.lowercase keyword := eq_of_beq same
  intro c among
  have lowered := plain keyword listed c.toLower (lower ▸ mem_map_of_mem among)
  constructor
  · rintro rfl
    exact lowered.1 rfl
  · rintro rfl
    exact lowered.2 rfl

theorem parseLength_ne_calc {value : Text} {unit : CssUnit}
    (h : CssUnit.parseLength value = some unit) (expr : Text) : unit ≠ .calc expr := by
  have all : ∀ entry ∈ CssUnit.units, ∀ amount, entry.2 amount ≠ .calc expr := by
    simp [CssUnit.units]
  unfold CssUnit.parseLength at h
  split at h
  · next number make found =>
    obtain ⟨⟨suffix, other⟩, listed, cut⟩ := exists_of_findSome?_eq_some found
    obtain ⟨rest, -, same⟩ := Option.map_eq_some_iff.mp cut
    cases same
    obtain ⟨amount, -, rfl⟩ := Option.map_eq_some_iff.mp h
    exact all _ listed amount
  · obtain ⟨amount, -, rfl⟩ := Option.map_eq_some_iff.mp h
    exact nofun

theorem pixelsOf_length {unit : CssUnit} (length : ∀ expr, unit ≠ .calc expr) :
    ∃ value, ∀ self, pixelsOf sizes self unit = some value := by
  match unit with
  | .calc expr => exact absurd rfl (length expr)
  | .pixels _ | .percent _ | .em _ | .rem _ | .vw _ | .vh _ | .vmin _ | .vmax _ | .pt _ | .auto =>
    exact ⟨_, fun _ => rfl⟩

def MathCall.counter : MathCall → Nat
  | expression _ _ depth | calcTerms _ depth | singleCalcTerm _ depth => depth

def MathCall.text : MathCall → Text
  | expression expr customs _ => resolved customs expr
  | calcTerms inner _ => inner
  | singleCalcTerm term _ => term

/-- How many levels the counter of `child` leaves out: where it starts from zero, those of `call`
as well. -/
def forgotten (lost : Nat) (call child : MathCall) : Nat :=
  if child.counter = 0 then lost + call.counter else lost

/-- The counter lets a call through although the budget is used up by the levels that it leaves
out, or will be by a text for which it has just been started from zero. -/
def letThrough (lost : Nat) (call : MathCall) : Bool :=
  0 < lost && call.counter ≤ maxMathDepth && maxMathDepth < lost +
    match call with
    | .expression expr _ 0 => nest 0 expr
    | call => call.counter

/-- An argument of the function is nested beyond what is left of the budget. -/
def hasDeepArgument (lost : Nat) : MathCall → Bool
  | .expression expr customs depth => (mathForm customs expr).arguments.any fun argument =>
    maxMathDepth < lost + depth + 1 + nest 0 argument
  | _ => false

/-- The evaluators with an eye on all levels. There is no answer where the counter lets a call
through that is beyond the budget, or where a function passes over an argument beyond it. -/
def watchedStep (sizes : Sizes) (self : Nat × MathCall → Reply) (place : Nat × MathCall) : Reply :=
  if letThrough place.1 place.2 then none
  else
    match mathStep sizes (fun child => self (forgotten place.1 place.2 child, child)) place.2 with
    | some (some value) => if hasDeepArgument place.1 place.2 then none else some (some value)
    | reply => reply

def watched (sizes : Sizes) (frames : Nat) (place : Nat × MathCall) : Reply :=
  unroll none (watchedStep sizes) frames place

/-- In the evaluation of the text neither happens. -/
def Counted (sizes : Sizes) (customs : Customs) (text : Text) : Prop :=
  ∃ frames reply, watched sizes frames (0, .expression text customs 0) = some reply

/-! ## Better answers of the calls -/

section Answers

variable {self other : MathCall → Reply}

end Answers

/-! ## How many calls are open -/

/-- There is a value only if the text is within the budget at its level. -/
def Within (reply : Reply) (level : Nat) (text : Text) : Prop :=
  ∀ value, reply = some (some value) → level + nest 0 text ≤ maxMathDepth

section Values

variable {self : MathCall → Reply} {level depth : Nat}

theorem Within.trim {reply : Reply} {text : Text} (h : Within reply level (Str.trim text)) :
    Within reply level text := by
  unfold Within at h ⊢
  rwa [nest_trim] at h

end Values

/-! ## Watched evaluations -/

/-- A term is only evaluated at a level of its own. -/
def Placed (place : Nat × MathCall) : Prop :=
  match place.2 with
  | .expression .. => True
  | call => 0 < place.1 + call.counter

end

/-- `count` times the opening text, and as many parentheses to close it. -/
def nested (opening : Text) (count : Nat) (inner : Text) : Text :=
  (List.replicate count opening).flatten ++ inner ++ List.replicate count ')'

def unitSizes : Sizes := { parentSize := 100, rootSize := 16, vw := 800, vh := 600 }

end GhitaBrowser.Css
