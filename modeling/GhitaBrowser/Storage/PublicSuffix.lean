import GhitaBrowser.Html.Parser

/-!
# The public suffix list

The bundled list is a text with one rule a line. A rule names a suffix, a wildcard `*.base`
covers one label more than its base, and an exception `!name` takes a name out again.
-/

namespace GhitaBrowser.Storage

open Html

/-- The list that ships with the browser. -/
class PublicSuffixList where
  list : Text

structure Rules where
  exact : List Text
  /-- Bases of wildcard rules: `*.ck` stores `ck`. -/
  wildcardBases : List Text
  /-- Exception rules without the leading `!`. -/
  exceptions : List Text

def Rules.empty : Rules := { exact := [], wildcardBases := [], exceptions := [] }

/-- The word at the head of a trimmed line. -/
def firstWord (line : Text) : Text :=
  (line.dropWhile isWhitespace).takeWhile fun c => !isWhitespace c

def addRule (rules : Rules) (line : Text) : Rules :=
  let line := trimText line
  if line.isEmpty || "//".toList.isPrefixOf line then rules
  else match firstWord line with
    | [] => rules
    | '!' :: exception => { rules with exceptions := exception :: rules.exceptions }
    | '*' :: '.' :: base => { rules with wildcardBases := base :: rules.wildcardBases }
    | rule => { rules with exact := rule :: rules.exact }

def rules [PublicSuffixList] : Rules :=
  (PublicSuffixList.list.splitOn '\n').foldl addRule Rules.empty

def joinLabels (labels : List Text) : Text := ['.'].intercalate labels

/-- The first of the suffixes of `labels`, from the longest to the shortest, that `found` accepts,
with its number of labels. -/
def longestSuffix (found : List Text → Bool) : List Text → Option Nat
  | [] => none
  | label :: labels =>
    if found (label :: labels) then some (labels.length + 1) else longestSuffix found labels

/-- An exact rule, or a wildcard rule with one label above its base. -/
def matchesRule (rules : Rules) (labels : List Text) : Bool :=
  rules.exact.contains (joinLabels labels) ||
    (2 ≤ labels.length && rules.wildcardBases.contains (joinLabels labels.tail))

def publicSuffixLabelCount (rules : Rules) (labels : List Text) : Nat :=
  match longestSuffix (fun candidate => rules.exceptions.contains (joinLabels candidate)) labels with
  | some k => k - 1
  | none => (longestSuffix (matchesRule rules) labels).getD 1

def trimEndDots (text : Text) : Text := (text.reverse.dropWhile (· == '.')).reverse

/-- The labels of a host; an empty one invalidates the whole host. -/
def normalizedLabels (domain : Text) : Option (List Text) :=
  let domain := trimEndDots (trimText domain)
  if domain.isEmpty then none
  else
    let labels := (domain.splitOn '.').map trimText
    if labels.any List.isEmpty then none else some labels

/-- `str::to_ascii_lowercase`. -/
def lowercase (text : Text) : Text := text.map Char.toLower

@[simp] theorem lowercase_lowercase (text : Text) : lowercase (lowercase text) = lowercase text := by
  unfold lowercase
  rw [List.map_map]
  exact List.map_congr_left fun c _ => toLower_toLower c

section

variable [PublicSuffixList]

def isPublicSuffix (domain : Text) : Bool :=
  match normalizedLabels domain with
  | none => false
  | some labels =>
    publicSuffixLabelCount rules (labels.map lowercase) == labels.length

/-- The public suffix and one label more. -/
def registrableDomain (host : Text) : Option Text := do
  let labels ← normalizedLabels host
  let labels := labels.map lowercase
  let suffixLabels := publicSuffixLabelCount rules labels
  if labels.length ≤ suffixLabels then none
  else some (joinLabels (labels.drop (labels.length - suffixLabels - 1)))

end

/-! ## What a public suffix is -/

/-- The rule that prevails over `labels` covers all of them: no exception takes a part of the name
out, and the name matches a rule or is a top-level label. -/
def CoversAll (rules : Rules) (labels : List Text) : Prop :=
  (∀ candidate, candidate ≠ [] → candidate <:+ labels →
    joinLabels candidate ∉ rules.exceptions) ∧
  (matchesRule rules labels = true ∨ labels.length = 1)

variable {labels : List Text}

variable {found : List Text → Bool}

theorem longestSuffix_none :
    longestSuffix found labels = none ↔
      ∀ candidate, candidate ≠ [] → candidate <:+ labels → found candidate = false := by
  induction labels with
  | nil =>
    refine iff_of_true rfl fun candidate hne hsuffix => ?_
    exact absurd (List.eq_nil_of_suffix_nil hsuffix) hne
  | cons label labels ih =>
    rw [longestSuffix]
    split
    · next hfound =>
      refine iff_of_false nofun fun hall => ?_
      rw [hall _ (List.cons_ne_nil _ _) List.suffix_rfl] at hfound
      cases hfound
    · next hfound =>
      rw [ih]
      constructor
      · intro hall candidate hne hsuffix
        obtain rfl | hsuffix := List.suffix_cons_iff.mp hsuffix
        · simpa using hfound
        · exact hall candidate hne hsuffix
      · exact fun hall candidate hne hsuffix =>
          hall candidate hne (hsuffix.trans (List.suffix_cons _ _))

end GhitaBrowser.Storage
