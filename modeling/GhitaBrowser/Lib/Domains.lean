import Mathlib.Data.List.Sort
import Mathlib.Data.List.Dedup
import Mathlib.Data.List.Forall2
import Mathlib.Data.List.Infix
import Mathlib.Data.Set.Basic

/-!
# Punycode and suffix rules

The spelling of a label in ASCII: a label with other characters becomes `xn--` and the
encoding of its code points, which writes the ASCII characters first and then, in
increasing order, each other character with the distance to the one before it.
-/

namespace GhitaBrowser.Punycode

def base : Nat := 36
def tMin : Nat := 1
def tMax : Nat := 26

/-- The digits `a` to `z` and `0` to `9`. -/
def digit (value : Nat) : Char :=
  if value < 26 then Char.ofNat (97 + value) else Char.ofNat (22 + value)

def adaptLoop : Nat → Nat → Nat → Nat
  | 0, delta, k => k + 36 * delta / (delta + 38)
  | fuel + 1, delta, k =>
    if ((base - tMin) * tMax) / 2 < delta then adaptLoop fuel (delta / (base - tMin)) (k + base)
    else k + 36 * delta / (delta + 38)

def adapt (delta points : Nat) (first : Bool) : Nat :=
  let delta := if first then delta / 700 else delta / 2
  adaptLoop delta (delta + delta / points) 0

/-- A distance as digits with thresholds that follow the bias. -/
def encodeDelta (bias : Nat) : Nat → Nat → Nat → List Char
  | 0, _, value => [digit value]
  | fuel + 1, k, value =>
    let threshold := if k ≤ bias + tMin then tMin else if bias + tMax ≤ k then tMax else k - bias
    if value < threshold then [digit value]
    else digit (threshold + (value - threshold) % (base - threshold)) ::
      encodeDelta bias fuel (k + base) ((value - threshold) / (base - threshold))

structure State where
  output : List Char
  delta : Nat
  bias : Nat
  handled : Nat

/-- One character of the pass that inserts the occurrences of the code point `n`. -/
def passStep (basic n : Nat) (state : State) (c : Char) : State :=
  if c.toNat < n then { state with delta := state.delta + 1 }
  else if c.toNat = n then
    { output := state.output ++ encodeDelta state.bias state.delta base state.delta
      delta := 0
      bias := adapt state.delta (state.handled + 1) (state.handled = basic)
      handled := state.handled + 1 }
  else state

/-- The passes, one for each code point that is not ASCII, in increasing order. -/
def passes (label : List Char) (basic : Nat) : List Nat → Nat → State → State
  | [], _, state => state
  | point :: points, n, state =>
    let state := { state with delta := state.delta + (point - n) * (state.handled + 1) }
    let state := label.foldl (passStep basic point) state
    passes label basic points (point + 1) { state with delta := state.delta + 1 }

def isAscii (c : Char) : Bool := c.toNat < 128

def encode (label : List Char) : List Char :=
  let plain := label.filter isAscii
  let points := ((label.filter (!isAscii ·)).map Char.toNat).dedup.insertionSort (· ≤ ·)
  let output := if plain = [] then [] else plain ++ ['-']
  (passes label plain.length points 128 ⟨output, 0, 72, plain.length⟩).output

/-- The canonical spelling of a label. -/
def toAscii (label : List Char) : List Char :=
  let lower := label.map Char.toLower
  if lower.all isAscii then lower else "xn--".toList ++ encode lower

example : toAscii "bücher".toList = "xn--bcher-kva".toList := by decide

end GhitaBrowser.Punycode

/-!
## Suffix rules with wildcards and exceptions

A rule is matched against the labels at the end of a name, and a wildcard in it matches
any label. Of the rules that match a name one prevails: an exception before any other
rule, and among rules of a kind the one with most labels. The suffix of the name is what
the prevailing rule covers, and an exception covers its labels but the first.
-/

namespace GhitaBrowser.SuffixRules

variable {α : Type}

/-- A rule; `none` in its pattern is the wildcard. -/
structure Rule (α : Type) where
  isException : Bool
  pattern : List (Option α)

/-- The pattern matches these labels, one by one. -/
def Fits (pattern : List (Option α)) (labels : List α) : Prop :=
  List.Forall₂ (fun part label => ∀ literal ∈ part, literal = label) pattern labels

namespace Rule

variable (rule : Rule α)

/-- The rule matches a name whose last labels fit its pattern. -/
def Matches (labels : List α) : Prop := ∃ suffix, suffix <:+ labels ∧ Fits rule.pattern suffix

/-- The number of labels of the suffix that the rule gives. -/
def covers : Nat := if rule.isException then rule.pattern.length - 1 else rule.pattern.length

end Rule

/-- Of the rules that match the name, an exception prevails, and then the longest. -/
structure Prevails (rules : Set (Rule α)) (labels : List α) (rule : Rule α) : Prop where
  among : rule ∈ rules
  fits : rule.Matches labels
  exceptionFirst : ∀ other ∈ rules, other.Matches labels → other.isException → rule.isException
  longest : ∀ other ∈ rules, other.Matches labels → other.isException = rule.isException →
    other.pattern.length ≤ rule.pattern.length

/-- The number of labels of the suffix of a name. -/
inductive SuffixCount (rules : Set (Rule α)) (labels : List α) : Nat → Prop
  | rule {rule : Rule α} : Prevails rules labels rule → SuffixCount rules labels rule.covers
  -- the rule `*`, which is part of every set of rules
  | implicit : (∀ rule ∈ rules, ¬rule.Matches labels) → SuffixCount rules labels 1

/-- The part of a name that one party may register: a label more than the suffix. -/
def Registrable (rules : Set (Rule α)) (labels domain : List α) : Prop :=
  ∃ count, SuffixCount rules labels count ∧ domain <:+ labels ∧ domain.length = count + 1

variable {labels : List α}

theorem Fits.length {pattern : List (Option α)} (h : Fits pattern labels) :
    pattern.length = labels.length := h.length_eq

theorem fits_literal {literals : List α} :
    Fits (literals.map some) labels ↔ literals = labels := by
  unfold Fits
  rw [List.forall₂_map_left_iff]
  simp only [Option.mem_some_iff, forall_eq', List.forall₂_eq_eq_eq]

theorem fits_wildcard {pattern : List (Option α)} {label : α} :
    Fits (none :: pattern) (label :: labels) ↔ Fits pattern labels := by
  simp [Fits]

theorem SuffixCount.unique {rules : Set (Rule α)} {first second : Nat}
    (h : SuffixCount rules labels first) (h' : SuffixCount rules labels second) :
    first = second := by
  cases h with
  | rule prevails =>
    cases h' with
    | rule prevails' =>
      have kind := Bool.eq_iff_iff.mpr
        ⟨prevails'.exceptionFirst _ prevails.among prevails.fits,
          prevails.exceptionFirst _ prevails'.among prevails'.fits⟩
      have length := Nat.le_antisymm
        (prevails'.longest _ prevails.among prevails.fits kind)
        (prevails.longest _ prevails'.among prevails'.fits kind.symm)
      simp only [Rule.covers, kind, length]
    | implicit none => exact absurd prevails.fits (none _ prevails.among)
  | implicit none =>
    cases h' with
    | rule prevails' => exact absurd prevails'.fits (none _ prevails'.among)
    | implicit _ => rfl

/-- Only the rules that match a name decide on its suffix. -/
theorem SuffixCount.congr {rules others : Set (Rule α)} {count : Nat}
    (h : SuffixCount rules labels count)
    (same : ∀ rule : Rule α, rule.Matches labels → (rule ∈ rules ↔ rule ∈ others)) :
    SuffixCount others labels count := by
  cases h with
  | rule prevails =>
    refine .rule ⟨(same _ prevails.fits).mp prevails.among, prevails.fits, ?_, ?_⟩
    · intro other among fits
      exact prevails.exceptionFirst other ((same other fits).mpr among) fits
    · intro other among fits
      exact prevails.longest other ((same other fits).mpr among) fits
  | implicit none =>
    exact .implicit fun rule among fits => none rule ((same rule fits).mpr among) fits

end GhitaBrowser.SuffixRules
