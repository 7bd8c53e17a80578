import GhitaBrowser.Lib.Domains
import GhitaBrowser.Storage.PublicSuffix

/-!
# The published algorithm and the code's

The published algorithm compares the labels of rules and names in a canonical spelling,
and a wildcard may stand for any label of a rule. The code compares the rules as they
are written with the lower case of the name, and only a leading `*.` is a wildcard to
it. Otherwise it is the published algorithm: `count_written` shows it for the rules as they
are written, so the code is right about a name exactly when the spelling makes no
difference to it. What the code gives is a fixed point of it in any case.
-/

namespace GhitaBrowser.Storage

open Html SuffixRules Punycode List

/-! ## The published algorithm -/

/-- A line is read up to the first whitespace; blank lines and comments give no rule. -/
def ruleWord (line : Text) : Option Text :=
  let line := trimText line
  if line.isEmpty || "//".toList.isPrefixOf line then none
  else match firstWord line with
    | [] => none
    | word => some word

def ruleWords (list : Text) : List Text := (list.splitOn '\n').filterMap ruleWord

/-- The labels of a rule without the mark of an exception. -/
def ruleLabels : Text → List Text
  | '!' :: name => name.splitOn '.'
  | word => word.splitOn '.'

def isExceptionWord : Text → Bool
  | '!' :: _ => true
  | _ => false

def patternOf (canonical : Text → Text) (labels : List Text) : List (Option Text) :=
  labels.map fun label => if label = ['*'] then none else some (canonical label)

def ruleOf (canonical : Text → Text) (word : Text) : Rule Text :=
  ⟨isExceptionWord word, patternOf canonical (ruleLabels word)⟩

/-- The rules of a list, their labels in the canonical spelling. -/
def publishedRules (canonical : Text → Text) (list : Text) : Set (Rule Text) :=
  {rule | ∃ word ∈ ruleWords list, ruleOf canonical word = rule}

/-- The rule that the code reads: its labels are taken as they are, and only a leading `*.` is a
wildcard. -/
def writtenRule : Text → Rule Text
  | '!' :: name => ⟨true, (name.splitOn '.').map some⟩
  | '*' :: '.' :: base => ⟨false, none :: (base.splitOn '.').map some⟩
  | word => ⟨false, (word.splitOn '.').map some⟩

def writtenRules (list : Text) : Set (Rule Text) :=
  {rule | ∃ word ∈ ruleWords list, writtenRule word = rule}

/-! ## The rules the code has -/

/-- The three sets hold the words of the list, each under its kind. -/
structure Collected (rules : Rules) (words : List Text) : Prop where
  exceptions : ∀ name, name ∈ rules.exceptions ↔ '!' :: name ∈ words
  wildcards : ∀ base, base ∈ rules.wildcardBases ↔ '*' :: '.' :: base ∈ words
  exact : ∀ word, word ∈ rules.exact ↔
    word ∈ words ∧ isExceptionWord word = false ∧ ¬['*', '.'] <+: word

theorem addRule_collected {rules : Rules} {words : List Text} (h : Collected rules words)
    (line : Text) : Collected (addRule rules line) (words ++ (ruleWord line).toList) := by
  unfold addRule ruleWord
  dsimp only
  split
  · simpa using h
  cases first : firstWord (trimText line) with
  | nil => simpa using h
  | cons c rest =>
    by_cases mark : c = '!'
    · subst mark
      refine ⟨fun name => ?_, fun base => ?_, fun word => ?_⟩
      · simp [h.exceptions, or_comm]
      · simp [h.wildcards]
      · simp only [h.exact, Option.toList_some, mem_append, mem_singleton]
        refine ⟨fun ⟨old, kind⟩ => ⟨.inl old, kind⟩, ?_⟩
        rintro ⟨old | rfl, kind⟩
        · exact ⟨old, kind⟩
        · cases kind.1
    by_cases wild : c = '*' ∧ ∃ base, rest = '.' :: base
    · obtain ⟨rfl, base, rfl⟩ := wild
      refine ⟨fun name => ?_, fun other => ?_, fun word => ?_⟩
      · simp [h.exceptions]
      · simp [h.wildcards, or_comm]
      · simp only [h.exact, Option.toList_some, mem_append, mem_singleton]
        refine ⟨fun ⟨old, kind⟩ => ⟨.inl old, kind⟩, ?_⟩
        rintro ⟨old | rfl, kind⟩
        · exact ⟨old, kind⟩
        · exact absurd ⟨base, rfl⟩ kind.2
    · have plain : isExceptionWord (c :: rest) = false ∧ ¬['*', '.'] <+: c :: rest := by
        refine ⟨?_, fun ⟨base, same⟩ => wild ?_⟩
        · unfold isExceptionWord
          split
          · rename_i equal
            exact absurd (List.cons.inj equal).1 mark
          · rfl
        · cases same
          exact ⟨rfl, base, rfl⟩
      split
      · rename_i equal
        cases equal
      · rename_i equal
        exact absurd (List.cons.inj equal).1 mark
      · rename_i equal
        exact absurd ⟨(List.cons.inj equal).1, _, (List.cons.inj equal).2⟩ wild
      refine ⟨fun name => ?_, fun base => ?_, fun word => ?_⟩
      · simp only [h.exceptions, Option.toList_some, mem_append, mem_singleton]
        refine ⟨.inl, ?_⟩
        rintro (old | new)
        · exact old
        · exact absurd (List.cons.inj new).1.symm mark
      · simp only [h.wildcards, Option.toList_some, mem_append, mem_singleton]
        refine ⟨.inl, ?_⟩
        rintro (old | new)
        · exact old
        · exact absurd ⟨(List.cons.inj new).1.symm, base, (List.cons.inj new).2.symm⟩ wild
      · simp only [Option.toList_some, mem_append, mem_singleton]
        rw [mem_cons, h.exact]
        constructor
        · rintro (rfl | ⟨old, kind⟩)
          · exact ⟨.inr rfl, plain⟩
          · exact ⟨.inl old, kind⟩
        · rintro ⟨old | rfl, kind⟩
          · exact .inr ⟨old, kind⟩
          · exact .inl rfl

theorem rules_collected [PublicSuffixList] : Collected rules (ruleWords PublicSuffixList.list) := by
  have fold : ∀ (lines : List Text) (rules : Rules) (words : List Text), Collected rules words →
      Collected (lines.foldl addRule rules) (words ++ lines.filterMap ruleWord) := by
    intro lines
    induction lines with
    | nil => intro rules words h; simpa using h
    | cons line lines ih =>
      intro rules words h
      have next := ih _ _ (addRule_collected h line)
      rw [foldl_cons, filterMap_cons]
      cases word : ruleWord line <;> simpa [word] using next
  have empty : Collected .empty [] := ⟨by simp [Rules.empty], by simp [Rules.empty], by simp [Rules.empty]⟩
  exact fold _ _ _ empty

/-! ## Labels and their text -/

variable {text : Text}

theorem not_mem_of_mem_splitOn {separator : Char} {part : Text}
    (h : part ∈ text.splitOn separator) : separator ∉ part := by
  induction text generalizing part with
  | nil =>
    rw [mem_singleton.mp h]
    exact not_mem_nil
  | cons c text ih =>
    rw [splitOn_cons_eq_if_modifyHead] at h
    split at h
    · rcases mem_cons.mp h with rfl | later
      · exact not_mem_nil
      · exact ih later
    · rename_i other
      cases parts : text.splitOn separator with
      | nil => exact absurd parts (splitOn_ne_nil _ _)
      | cons first rest =>
        rw [parts] at h ih
        rcases mem_cons.mp h with rfl | later
        · intro among
          rcases mem_cons.mp among with rfl | inside
          · exact other (beq_self_eq_true _)
          · exact ih mem_cons_self inside
        · exact ih (mem_cons_of_mem _ later)

variable {labels : List Text}

theorem joinLabels_eq_iff (some : labels ≠ [])
    (dots : ∀ label ∈ labels, '.' ∉ label) :
    joinLabels labels = text ↔ text.splitOn '.' = labels := by
  constructor
  · rintro rfl
    exact splitOn_intercalate '.' dots some
  · rintro rfl
    exact intercalate_splitOn '.'

/-! ## Which rules match -/

theorem ne_nil_of_fits {list : Text} {rule : Rule Text} {candidate : List Text}
    (among : rule ∈ writtenRules list) (fits : Fits rule.pattern candidate) : candidate ≠ [] := by
  obtain ⟨word, -, rfl⟩ := among
  rintro rfl
  have none := length_eq_zero_iff.mp fits.length
  unfold writtenRule at none
  split at none
  · exact splitOn_ne_nil _ _ (map_eq_nil_iff.mp none)
  · cases none
  · exact splitOn_ne_nil _ _ (map_eq_nil_iff.mp none)

section

variable [PublicSuffixList] {candidate : List Text}

theorem exception_iff (some : candidate ≠ []) (dots : ∀ label ∈ candidate, '.' ∉ label) :
    rules.exceptions.contains (joinLabels candidate) = true ↔
      ∃ rule ∈ writtenRules PublicSuffixList.list, rule.isException ∧ Fits rule.pattern candidate := by
  rw [contains_iff_mem, rules_collected.exceptions]
  constructor
  · intro among
    exact ⟨_, ⟨_, among, rfl⟩, rfl, fits_literal.mpr ((joinLabels_eq_iff some dots).mp rfl)⟩
  · rintro ⟨_, ⟨word, among, rfl⟩, exception, fits⟩
    unfold writtenRule at exception fits
    split at exception
    · rename_i name
      have same : joinLabels candidate = name :=
        (joinLabels_eq_iff some dots).mpr (fits_literal.mp fits)
      rw [same]
      exact among
    · cases exception
    · cases exception

omit [PublicSuffixList] in
theorem writtenRule_plain {word : Text} (plain : isExceptionWord word = false)
    (literal : ¬['*', '.'] <+: word) : writtenRule word = ⟨false, (word.splitOn '.').map some⟩ := by
  unfold writtenRule
  split
  · cases plain
  · exact absurd ⟨_, rfl⟩ literal
  · rfl

theorem matchesRule_iff (some : candidate ≠ []) (dots : ∀ label ∈ candidate, '.' ∉ label) :
    matchesRule rules candidate = true ↔ ∃ rule ∈ writtenRules PublicSuffixList.list,
      rule.isException = false ∧ Fits rule.pattern candidate := by
  unfold matchesRule
  simp only [Bool.or_eq_true, Bool.and_eq_true, decide_eq_true_eq, contains_iff_mem]
  rw [rules_collected.exact, rules_collected.wildcards]
  constructor
  · rintro (⟨among, plain, literal⟩ | ⟨two, among⟩)
    · refine ⟨_, ⟨_, among, writtenRule_plain plain literal⟩, rfl, ?_⟩
      exact fits_literal.mpr ((joinLabels_eq_iff some dots).mp rfl)
    · obtain ⟨label, others, rfl⟩ := exists_cons_of_ne_nil some
      have othersSome : others ≠ [] := by
        rintro rfl
        simp at two
      have base := (joinLabels_eq_iff othersSome (forall_mem_cons.mp dots).2).mp rfl
      exact ⟨_, ⟨_, among, rfl⟩, rfl, fits_wildcard.mpr (fits_literal.mpr base)⟩
  · rintro ⟨_, ⟨word, among, rfl⟩, plain, fits⟩
    unfold writtenRule at plain fits
    split at fits
    · cases plain
    · rename_i base
      cases candidate with
      | nil => cases fits
      | cons label others =>
        have same : base.splitOn '.' = others := fits_literal.mp (fits_wildcard.mp fits)
        have othersSome : others ≠ [] := same ▸ splitOn_ne_nil _ _
        refine .inr ⟨Nat.succ_le_succ (length_pos_iff.mpr othersSome), ?_⟩
        rw [tail_cons, (joinLabels_eq_iff othersSome (forall_mem_cons.mp dots).2).mpr same]
        exact among
    · rename_i mark wild
      rw [(joinLabels_eq_iff some dots).mpr (fits_literal.mp fits)]
      refine .inl ⟨among, ?_, ?_⟩
      · unfold isExceptionWord
        split
        · exact absurd rfl (mark _)
        · rfl
      · rintro ⟨base, rfl⟩
        exact wild base rfl

end

/-! ## The count -/

theorem longestSuffix_some {found : List Text → Bool} {k : Nat}
    (h : longestSuffix found labels = some k) :
    (∃ candidate, candidate ≠ [] ∧ candidate <:+ labels ∧ candidate.length = k ∧
      found candidate = true) ∧
    ∀ other, other ≠ [] → other <:+ labels → found other = true → other.length ≤ k := by
  induction labels with
  | nil => cases h
  | cons label labels ih =>
    rw [longestSuffix] at h
    split at h
    · rename_i whole
      cases h
      refine ⟨⟨_, cons_ne_nil _ _, suffix_rfl, rfl, whole⟩, ?_⟩
      exact fun other _ suffix _ => suffix.length_le
    · rename_i missed
      obtain ⟨⟨candidate, some, suffix, length, here⟩, longest⟩ := ih h
      refine ⟨⟨candidate, some, suffix.trans (suffix_cons _ _), length, here⟩, ?_⟩
      intro other otherSome otherSuffix otherFound
      rcases suffix_cons_iff.mp otherSuffix with rfl | otherSuffix
      · exact absurd otherFound missed
      · exact longest other otherSome otherSuffix otherFound

section

variable [PublicSuffixList] {labels : List Text}

/-- The code is the published algorithm on the rules as they are written. -/
theorem count_written (dots : ∀ label ∈ labels, '.' ∉ label) :
    SuffixCount (writtenRules PublicSuffixList.list) labels
      (publicSuffixLabelCount rules labels) := by
  have dotsOf : ∀ {candidate}, candidate <:+ labels → ∀ label ∈ candidate, '.' ∉ label :=
    fun suffix label among => dots label (suffix.subset among)
  unfold publicSuffixLabelCount
  split
  · rename_i k exception
    obtain ⟨⟨candidate, some, suffix, length, found⟩, longest⟩ := longestSuffix_some exception
    obtain ⟨rule, among, kind, fits⟩ := (exception_iff some (dotsOf suffix)).mp found
    have prevails : Prevails (writtenRules PublicSuffixList.list) labels rule := by
      refine ⟨among, ⟨candidate, suffix, fits⟩, fun _ _ _ _ => kind, ?_⟩
      rintro other otherAmong ⟨part, partSuffix, otherFits⟩ sameKind
      have partSome := ne_nil_of_fits otherAmong otherFits
      have partFound := (exception_iff partSome (dotsOf partSuffix)).mpr
        ⟨other, otherAmong, sameKind.trans kind, otherFits⟩
      rw [otherFits.length, fits.length, length]
      exact longest part partSome partSuffix partFound
    have covers : rule.covers = k - 1 := by rw [Rule.covers, if_pos kind, fits.length, length]
    exact covers ▸ .rule prevails
  · rename_i noException
    -- no exception matches, so whatever matches is of the other kind
    have plainOf : ∀ rule ∈ writtenRules PublicSuffixList.list, rule.Matches labels →
        rule.isException = false := by
      rintro rule among ⟨candidate, suffix, fits⟩
      by_contra kind
      have some := ne_nil_of_fits among fits
      have found := (exception_iff some (dotsOf suffix)).mpr
        ⟨rule, among, Bool.eq_true_of_not_eq_false kind, fits⟩
      rw [longestSuffix_none.mp noException candidate some suffix] at found
      cases found
    cases found : longestSuffix (matchesRule rules) labels with
    | some k =>
      obtain ⟨⟨candidate, some, suffix, length, here⟩, longest⟩ := longestSuffix_some found
      obtain ⟨rule, among, plain, fits⟩ := (matchesRule_iff some (dotsOf suffix)).mp here
      have count : rule.pattern.length = k := fits.length.trans length
      have covers : rule.covers = k := by rw [Rule.covers, plain, if_neg Bool.false_ne_true, count]
      rw [Option.getD_some, ← covers]
      refine .rule ⟨among, ⟨candidate, suffix, fits⟩, ?_, ?_⟩
      · intro other otherAmong otherFits exception
        rw [plainOf other otherAmong otherFits] at exception
        cases exception
      · rintro other otherAmong ⟨part, partSuffix, otherFits⟩ -
        have partSome := ne_nil_of_fits otherAmong otherFits
        have kind := plainOf other otherAmong ⟨part, partSuffix, otherFits⟩
        rw [otherFits.length, count]
        exact longest part partSome partSuffix
          ((matchesRule_iff partSome (dotsOf partSuffix)).mpr ⟨other, otherAmong, kind, otherFits⟩)
    | none =>
      rw [Option.getD_none]
      refine .implicit fun rule among matched => ?_
      obtain ⟨candidate, suffix, fits⟩ := matched
      have some := ne_nil_of_fits among fits
      have here := (matchesRule_iff some (dotsOf suffix)).mpr
        ⟨rule, among, plainOf rule among ⟨candidate, suffix, fits⟩, fits⟩
      rw [longestSuffix_none.mp found candidate some suffix] at here
      cases here

end

/-! ## Hosts -/

theorem trimText_lowercase (text : Text) : trimText (lowercase text) = lowercase (trimText text) := by
  have same : isWhitespace ∘ Char.toLower = isWhitespace := funext isWhitespace_toLower
  unfold trimText lowercase
  rw [dropWhile_map, same, ← map_reverse, dropWhile_map, same, map_reverse]

/-- A text with no whitespace at either end. -/
def Trimmed (text : Text) : Prop :=
  (∀ c ∈ text.head?, isWhitespace c = false) ∧ ∀ c ∈ text.getLast?, isWhitespace c = false

theorem head?_dropWhile {p : Char → Bool} {c : Char}
    (h : c ∈ (text.dropWhile p).head?) : p c = false := by
  have kept := List.head?_dropWhile_not p text
  rw [Option.mem_def.mp h] at kept
  exact kept

theorem trimmed_trimText (text : Text) : Trimmed (trimText text) := by
  constructor
  · intro c first
    obtain ⟨rest, whole⟩ : trimText text <+: text.dropWhile isWhitespace :=
      reverse_suffix.mp (by simpa [trimText] using dropWhile_suffix _)
    have same : c ∈ (text.dropWhile isWhitespace).head? := by
      rw [← whole, List.head?_append, Option.mem_def.mp first]
      rfl
    exact head?_dropWhile same
  · intro c last
    rw [trimText, getLast?_reverse] at last
    exact head?_dropWhile last

theorem dropWhile_of_head? {p : Char → Bool} (h : ∀ c ∈ text.head?, p c = false) :
    text.dropWhile p = text := by
  cases text with
  | nil => rfl
  | cons c rest => exact dropWhile_cons_of_neg (by simp [h c rfl])

theorem Trimmed.trimText (h : Trimmed text) : trimText text = text := by
  have last : ∀ c ∈ text.reverse.head?, isWhitespace c = false := by
    rw [List.head?_reverse]
    exact h.2
  rw [Html.trimText, dropWhile_of_head? h.1, dropWhile_of_head? last, reverse_reverse]

/-- A label of a host as the code keeps it. -/
structure HostLabel (label : Text) : Prop where
  some : label ≠ []
  dots : '.' ∉ label
  trimmed : Trimmed label

theorem normalizedLabels_spec {host : Text}
    (h : normalizedLabels host = some labels) : ∀ label ∈ labels, HostLabel label := by
  unfold normalizedLabels at h
  dsimp only at h
  split at h
  · cases h
  split at h
  · cases h
  rename_i nonempty
  obtain rfl := Option.some.inj h
  intro label among
  refine ⟨?_, ?_, ?_⟩
  · rintro rfl
    exact nonempty (any_eq_true.mpr ⟨_, among, rfl⟩)
  · obtain ⟨part, part_among, rfl⟩ := mem_map.mp among
    intro dot
    have inside : '.' ∈ part := by
      unfold trimText at dot
      exact (dropWhile_suffix _).subset (mem_reverse.mp
        ((dropWhile_suffix _).subset (mem_reverse.mp dot)))
    exact not_mem_of_mem_splitOn part_among inside
  · obtain ⟨part, -, rfl⟩ := mem_map.mp among
    exact trimmed_trimText part

theorem HostLabel.lowercase {label : Text} (h : HostLabel label) : HostLabel (lowercase label) := by
  refine ⟨fun none => h.some (map_eq_nil_iff.mp none), fun dot => ?_, ?_⟩
  · obtain ⟨c, among, lower⟩ := mem_map.mp dot
    rcases toLower_cases c with same | ⟨low, high, moved⟩
    · exact h.dots (same.symm.trans lower ▸ among)
    · rw [lower] at moved
      simp at moved
      omega
  · have trimmed := trimmed_trimText (Storage.lowercase label)
    rwa [trimText_lowercase, h.trimmed.trimText] at trimmed

theorem joinLabels_cons_cons (label second : Text) (labels : List Text) :
    joinLabels (label :: second :: labels) = label ++ '.' :: joinLabels (second :: labels) := by
  unfold joinLabels
  rw [intercalate_cons_cons, append_assoc]
  rfl

theorem head?_joinLabels {label : Text} (labels : List Text) (some : label ≠ []) :
    (joinLabels (label :: labels)).head? = label.head? := by
  cases labels with
  | nil => rw [joinLabels, intercalate_singleton]
  | cons second labels => rw [joinLabels_cons_cons, List.head?_append_of_ne_nil _ some]

theorem getLast?_joinLabels {label : Text} (host : ∀ other ∈ label :: labels, HostLabel other) :
    ∃ last, HostLabel last ∧ (joinLabels (label :: labels)).getLast? = last.getLast? := by
  induction labels generalizing label with
  | nil => exact ⟨label, host _ mem_cons_self, by rw [joinLabels, intercalate_singleton]⟩
  | cons second labels ih =>
    obtain ⟨last, here, same⟩ := ih fun other among => host other (mem_cons_of_mem _ among)
    refine ⟨last, here, ?_⟩
    have some : joinLabels (second :: labels) ≠ [] := by
      intro none
      rw [none, getLast?_nil] at same
      exact here.some (getLast?_eq_none_iff.mp same.symm)
    rw [joinLabels_cons_cons, append_cons, getLast?_append_of_ne_nil _ some, same]

theorem normalizedLabels_joinLabels (some : labels ≠ [])
    (host : ∀ label ∈ labels, HostLabel label) :
    normalizedLabels (joinLabels labels) = .some labels := by
  obtain ⟨first, others, rfl⟩ := exists_cons_of_ne_nil some
  have firstHost := host first mem_cons_self
  have head := head?_joinLabels others firstHost.some
  obtain ⟨last, lastHost, tail⟩ := getLast?_joinLabels host
  have trimmed : trimText (joinLabels (first :: others)) = joinLabels (first :: others) :=
    Trimmed.trimText ⟨head ▸ firstHost.trimmed.1, tail ▸ lastHost.trimmed.2⟩
  have undotted : trimEndDots (joinLabels (first :: others)) = joinLabels (first :: others) := by
    have noDot : ∀ c ∈ (joinLabels (first :: others)).reverse.head?, (c == '.') = false := by
      intro c lastChar
      rw [List.head?_reverse, tail] at lastChar
      refine beq_eq_false_iff_ne.mpr fun dot => lastHost.dots ?_
      exact dot ▸ mem_of_getLast? lastChar
    rw [trimEndDots, dropWhile_of_head? noDot, reverse_reverse]
  have nonempty : (joinLabels (first :: others)).isEmpty = false := by
    rw [isEmpty_eq_false_iff]
    intro none
    rw [none] at head
    exact firstHost.some (List.head?_eq_none_iff.mp head.symm)
  have parts : ((joinLabels (first :: others)).splitOn '.').map trimText = first :: others := by
    rw [(joinLabels_eq_iff some fun label among => (host label among).dots).mp rfl]
    refine (map_congr_left fun label among => ?_).trans (map_id _)
    exact (host label among).trimmed.trimText
  have full : (first :: others).any List.isEmpty = false := by
    rw [List.any_eq_false]
    intro label among empty
    exact (host label among).some (List.isEmpty_iff.mp empty)
  unfold normalizedLabels
  dsimp only
  rw [trimmed, undotted, nonempty, parts, full]
  rfl

/-! ## Registrable domains -/

theorem longestSuffix_of_suffix {found : List Text → Bool} {part labels : List Text} {k : Nat}
    (suffix : part <:+ labels) (h : longestSuffix found labels = some k) (short : k ≤ part.length) :
    longestSuffix found part = some k := by
  induction labels with
  | nil => cases h
  | cons label labels ih =>
    rcases suffix_cons_iff.mp suffix with rfl | suffix
    · exact h
    rw [longestSuffix] at h
    split at h
    · -- the whole name is longer than the part
      cases h
      exact absurd (Nat.le_trans short suffix.length_le) (Nat.not_succ_le_self _)
    · exact ih suffix h

theorem publicSuffixLabelCount_suffix {rules : Rules} {part labels : List Text}
    (suffix : part <:+ labels) (long : publicSuffixLabelCount rules labels < part.length) :
    publicSuffixLabelCount rules part = publicSuffixLabelCount rules labels := by
  unfold publicSuffixLabelCount at long ⊢
  cases exception : longestSuffix
      (fun candidate => rules.exceptions.contains (joinLabels candidate)) labels with
  | some k =>
    rw [exception] at long
    rw [longestSuffix_of_suffix suffix exception (by dsimp only at long; omega)]
  | none =>
    rw [exception] at long
    have noException := longestSuffix_none.mp exception
    rw [longestSuffix_none.mpr fun candidate some inside =>
      noException candidate some (inside.trans suffix)]
    dsimp only at long ⊢
    cases found : longestSuffix (matchesRule rules) labels with
    | some k =>
      rw [found] at long
      rw [longestSuffix_of_suffix suffix found long.le]
    | none =>
      have noRule := longestSuffix_none.mp found
      rw [longestSuffix_none.mpr fun candidate some inside =>
        noRule candidate some (inside.trans suffix)]

section

variable [PublicSuffixList] {host domain : Text}

theorem registrableDomain_eq (h : normalizedLabels host = some labels) :
    registrableDomain host = some domain ↔ ∃ part, part <:+ labels.map lowercase ∧
      part.length = publicSuffixLabelCount rules (labels.map lowercase) + 1 ∧
      joinLabels part = domain := by
  unfold registrableDomain
  rw [h]
  simp only [Option.bind_eq_bind, Option.bind_some]
  split
  · rename_i short
    refine iff_of_false nofun ?_
    rintro ⟨part, suffix, length, -⟩
    have fits := suffix.length_le
    omega
  · rename_i long
    rw [Option.some_inj]
    constructor
    · rintro rfl
      refine ⟨_, drop_suffix _ _, ?_, rfl⟩
      rw [length_drop]
      omega
    · rintro ⟨part, suffix, length, rfl⟩
      rw [suffix_iff_eq_drop.mp suffix, length, Nat.sub_sub]

theorem registrableDomain_normalized (h : registrableDomain host = some domain) :
    ∃ labels, normalizedLabels host = some labels := by
  cases normalized : normalizedLabels host with
  | none => simp [registrableDomain, normalized] at h
  | some labels => exact ⟨labels, rfl⟩

theorem registrableDomain_idempotent (h : registrableDomain host = some domain) :
    registrableDomain domain = some domain := by
  obtain ⟨labels, normalized⟩ := registrableDomain_normalized h
  obtain ⟨part, suffix, length, rfl⟩ := (registrableDomain_eq normalized).mp h
  have some : part ≠ [] := by
    rintro rfl
    cases length
  have lowered : ∀ label ∈ part, ∃ original ∈ labels, lowercase original = label :=
    fun label among => mem_map.mp (suffix.subset among)
  have hosts : ∀ label ∈ part, HostLabel label := by
    intro label among
    obtain ⟨original, inHost, rfl⟩ := lowered label among
    exact (normalizedLabels_spec normalized original inHost).lowercase
  have lower : part.map lowercase = part := by
    refine (map_congr_left fun label among => ?_).trans (map_id _)
    obtain ⟨original, -, rfl⟩ := lowered label among
    exact lowercase_lowercase original
  refine (registrableDomain_eq (normalizedLabels_joinLabels some hosts)).mpr ⟨part, ?_, ?_, rfl⟩
  · rw [lower]
  · rw [lower, publicSuffixLabelCount_suffix suffix (by omega), length]

/-! ## Where the two agree -/

/-- The suffix and the registrable domain of a host are those of the published algorithm. The code
gives its labels of the host in lower case. -/
structure Published (canonical : Text → Text) (host : Text) (labels : List Text) : Prop where
  count : SuffixCount (publishedRules canonical PublicSuffixList.list) (labels.map canonical)
    (publicSuffixLabelCount rules (labels.map lowercase))
  domain : ∀ domain, registrableDomain host = some domain ↔ ∃ part, part <:+ labels ∧
    Registrable (publishedRules canonical PublicSuffixList.list) (labels.map canonical)
      (part.map canonical) ∧ joinLabels (part.map lowercase) = domain

/-- The spelling makes no difference to the suffix of a name: the rules as they are written give it
as many labels as the canonical ones. -/
def SameSuffix (canonical : Text → Text) (list : Text) (labels : List Text) : Prop :=
  ∃ count, SuffixCount (publishedRules canonical list) (labels.map canonical) count ∧
    SuffixCount (writtenRules list) (labels.map lowercase) count

omit [PublicSuffixList] in
theorem lowercase_dots (normalized : normalizedLabels host = some labels) :
    ∀ label ∈ labels.map lowercase, '.' ∉ label := by
  intro label among
  obtain ⟨original, inHost, rfl⟩ := mem_map.mp among
  exact (normalizedLabels_spec normalized original inHost).lowercase.dots

theorem published_of_sameSuffix {canonical : Text → Text}
    (normalized : normalizedLabels host = some labels)
    (same : SameSuffix canonical PublicSuffixList.list labels) :
    Published canonical host labels := by
  obtain ⟨count, published, written⟩ := same
  cases written.unique (count_written (lowercase_dots normalized))
  refine ⟨published, fun domain => (registrableDomain_eq normalized).trans ⟨?_, ?_⟩⟩
  · rintro ⟨part, suffix, length, text⟩
    have dropped := suffix_iff_eq_drop.mp suffix
    rw [← map_drop] at dropped
    refine ⟨_, drop_suffix _ _, ⟨_, published, (drop_suffix _ _).map canonical, ?_⟩,
      (congrArg joinLabels dropped).symm.trans text⟩
    rw [length_map, ← length, ← length_map (f := lowercase), ← dropped]
  · rintro ⟨part, suffix, ⟨_, counted, -, length⟩, text⟩
    refine ⟨part.map lowercase, suffix.map lowercase, ?_, text⟩
    rw [length_map] at length ⊢
    rw [length, counted.unique published]

/-- It makes none where every rule that matches the name, in either spelling, is the same rule in
both. -/
theorem sameSuffix_of_written {canonical : Text → Text}
    (dots : ∀ label ∈ labels.map lowercase, '.' ∉ label)
    (plain : labels.map canonical = labels.map lowercase)
    (written : ∀ word ∈ ruleWords PublicSuffixList.list,
      (ruleOf canonical word).Matches (labels.map lowercase) ∨
        (writtenRule word).Matches (labels.map lowercase) →
      writtenRule word = ruleOf canonical word) :
    SameSuffix canonical PublicSuffixList.list labels := by
  have count := count_written dots
  refine ⟨_, ?_, count⟩
  rw [plain]
  refine count.congr fun rule fits => ⟨?_, ?_⟩
  · rintro ⟨word, among, rfl⟩
    exact ⟨word, among, (written word among (.inr fits)).symm⟩
  · rintro ⟨word, among, rfl⟩
    exact ⟨word, among, written word among (.inl fits)⟩

/-- What the code gives is a fixed point of it, and it is what the published algorithm gives
exactly when the spelling of the rules and of the name makes no difference to the suffix. -/
theorem registrableDomain_published_iff (canonical : Text → Text) :
    (∀ host domain, registrableDomain host = some domain →
      registrableDomain domain = some domain) ∧
    (∀ host, normalizedLabels host = none → registrableDomain host = none) ∧
    ∀ host labels, normalizedLabels host = some labels →
      (Published canonical host labels ↔ SameSuffix canonical PublicSuffixList.list labels) := by
  refine ⟨fun host domain => registrableDomain_idempotent, ?_, ?_⟩
  · intro host none
    rw [registrableDomain, none]
    rfl
  · intro host labels normalized
    exact ⟨fun published => ⟨_, published.count, count_written (lowercase_dots normalized)⟩,
      published_of_sameSuffix normalized⟩

end

theorem literal_matches {kind : Bool} {literals labels : List Text} :
    Rule.Matches ⟨kind, literals.map some⟩ labels ↔ literals <:+ labels := by
  constructor
  · rintro ⟨suffix, inside, fits⟩
    rwa [fits_literal.mp fits]
  · exact fun inside => ⟨literals, inside, fits_literal.mpr rfl⟩

/-- The unconverted rule does not match the name, so the published exception is found. -/
theorem registrableDomain_published_exception :
    let list := "*.ck\n!www.ck\n公司.cn".toList
    SuffixCount (publishedRules toAscii list) ["a".toList, "www".toList, "ck".toList] 1 ∧
      @registrableDomain ⟨list⟩ "A.www.ck".toList = some "www.ck".toList := by
  intro list
  let _ : PublicSuffixList := ⟨list⟩
  have normalized : normalizedLabels "A.www.ck".toList =
      some ["A".toList, "www".toList, "ck".toList] := by decide
  have words : ruleWords list = ["*.ck".toList, "!www.ck".toList, "公司.cn".toList] := by decide
  have published := ((registrableDomain_published_iff toAscii).2.2 _ _ normalized).mpr <| by
    refine sameSuffix_of_written (lowercase_dots normalized) (by decide) ?_
    intro word among fits
    rw [show PublicSuffixList.list = list from rfl, words] at among
    simp only [mem_cons, not_mem_nil, or_false] at among
    rcases among with rfl | rfl | rfl
    · rfl
    · rfl
    · have canonical : (ruleOf toAscii "公司.cn".toList).pattern =
          ["xn--55qx5d".toList, "cn".toList].map some := by decide
      rcases fits with ⟨suffix, inside, fits⟩ | fits
      · rw [canonical] at fits
        exact absurd (fits_literal.mp fits ▸ inside) (by decide)
      · exact absurd ((@literal_matches false ["公司".toList, "cn".toList] _).mp fits) (by decide)
  have count : publicSuffixLabelCount rules
      (["A".toList, "www".toList, "ck".toList].map lowercase) = 1 := by decide
  have labels : ["A".toList, "www".toList, "ck".toList].map toAscii =
      ["a".toList, "www".toList, "ck".toList] := by decide
  have suffix := published.count
  rw [labels, count] at suffix
  exact ⟨suffix, by decide⟩

theorem suffixCount_of_ruleWords {list word : Text}
    (words : ruleWords list = [word]) (fits : (ruleOf toAscii word).Matches labels) :
    SuffixCount (publishedRules toAscii list) labels (ruleOf toAscii word).covers := by
  have only : ∀ rule ∈ publishedRules toAscii list, rule = ruleOf toAscii word := by
    rintro _ ⟨other, among, rfl⟩
    rw [words, mem_singleton] at among
    rw [among]
  refine .rule ⟨⟨word, words ▸ mem_singleton_self _, rfl⟩, fits, ?_, ?_⟩
  · intro other among _ exception
    rwa [only other among] at exception
  · intro other among _ _
    rw [only other among]

/-- A rule in another script covers the encoded name. The code does not find it, and gives the
suffix itself as registrable. -/
theorem published_suffix_registrable :
    let _ : PublicSuffixList := ⟨"公司.cn".toList⟩
    SuffixCount (publishedRules toAscii "公司.cn".toList) ["xn--55qx5d".toList, "cn".toList] 2 ∧
      registrableDomain "xn--55qx5d.cn".toList = some "xn--55qx5d.cn".toList ∧
      ¬Published toAscii "xn--55qx5d.cn".toList ["xn--55qx5d".toList, "cn".toList] := by
  intro _
  have script : (ruleOf toAscii "公司.cn".toList).pattern =
      ["xn--55qx5d".toList, "cn".toList].map some := by decide
  have scriptFits : (ruleOf toAscii "公司.cn".toList).Matches
      ["xn--55qx5d".toList, "cn".toList] :=
    ⟨_, suffix_rfl, script ▸ fits_literal.mpr rfl⟩
  have two : SuffixCount (publishedRules toAscii "公司.cn".toList)
      ["xn--55qx5d".toList, "cn".toList] 2 := suffixCount_of_ruleWords (by decide) scriptFits
  refine ⟨two, by decide, fun published => ?_⟩
  exact absurd (two.unique published.count) (by decide)

end GhitaBrowser.Storage
