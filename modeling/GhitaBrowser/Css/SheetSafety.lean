import GhitaBrowser.Css.Sheet
import Mathlib.Data.List.TakeWhile

/-!
# Reading a sheet to its end

Where the parser of style sheets panics: at the cut of a sheet that is too long, and at a
block that is opened by the last character.
-/

namespace GhitaBrowser

open List

variable {chars : Text} {pos : Nat}

/-! ## Slices of strings -/

namespace Str

theorem takeBytes_succeeds {text left right : Text} (h : text = left ++ right)
    (hpos : byteLen left = pos) : takeBytes text pos = .ok left := by
  rw [h, ← hpos, takeBytes_append]

theorem dropBytes_succeeds {text left right : Text} (h : text = left ++ right)
    (hpos : byteLen left = pos) : dropBytes text pos = .ok right := by
  rw [h, ← hpos, dropBytes_append]

theorem sliceBytes_inside {first last : Char} (middle : Text) (hfirst : first.utf8Size = 1)
    (hlast : last.utf8Size = 1) :
    sliceBytes (first :: (middle ++ [last])) 1 (byteLen (first :: (middle ++ [last])) - 1) =
      .ok middle := by
  have h := sliceBytes_append [first] middle [last]
  have hlen : byteLen ([first] ++ middle) = byteLen (first :: (middle ++ [last])) - 1 := by
    simp [hfirst, hlast, Nat.add_comm]
  have hone : byteLen [first] = 1 := by simp [hfirst]
  rwa [hlen, hone] at h

theorem eq_of_ends {first last : Char} {text : Text} (hne : first ≠ last)
    (hfirst : startsWith [first] text = true) (hlast : endsWith [last] text = true) :
    ∃ middle, text = first :: (middle ++ [last]) := by
  obtain ⟨rest, rfl⟩ := isPrefixOf_iff_prefix.mp hfirst
  obtain ⟨middle, hmiddle⟩ := isSuffixOf_iff_suffix.mp hlast
  cases middle with
  | nil => exact absurd (List.cons.inj hmiddle).1.symm hne
  | cons c middle =>
    obtain ⟨rfl, hrest⟩ := List.cons.inj hmiddle
    exact ⟨middle, congrArg _ hrest.symm⟩

theorem utf8Size_toLower (c : Char) : c.toLower.utf8Size = c.utf8Size := by
  unfold Char.toLower
  split
  · next hupper =>
    have hfrom := UInt32.le_iff_toNat_le.mp hupper.1
    have hto := UInt32.le_iff_toNat_le.mp hupper.2
    simp at hfrom hto
    have hc : c.utf8Size = 1 := Char.utf8Size_eq_one_iff.mpr (UInt32.le_iff_toNat_le.mpr (by
      simp
      omega))
    rw [hc]
    refine Char.utf8Size_eq_one_iff.mpr (UInt32.le_iff_toNat_le.mpr ?_)
    simp
    omega
  · rfl

theorem byteLen_lowercase (text : Text) : byteLen (lowercase text) = byteLen text := by
  induction text with
  | nil => rfl
  | cons c rest ih =>
    rw [lowercase, map_cons, byteLen_cons, byteLen_cons, utf8Size_toLower, ← lowercase, ih]

theorem takeBytes_before {suffix text : Text} (h : endsWith suffix text = true) :
    ∃ kept, text = kept ++ suffix ∧ takeBytes text (byteLen text - byteLen suffix) = .ok kept := by
  obtain ⟨kept, rfl⟩ := isSuffixOf_iff_suffix.mp h
  refine ⟨kept, rfl, takeBytes_succeeds rfl ?_⟩
  rw [byteLen_append, Nat.add_sub_cancel]

theorem getTo_some {text kept : Text} {bytes : Nat} (h : getTo text bytes = some kept) :
    ∃ rest, text = kept ++ rest ∧ byteLen kept = bytes := by
  unfold getTo at h
  obtain ⟨-, found, rest, htext, hlen, htake⟩ | ⟨-, hpanic⟩ := takeBytes_spec text bytes
  · rw [htake] at h
    obtain rfl := Option.some.inj h
    exact ⟨rest, htext, hlen⟩
  · rw [hpanic] at h
    cases h

end Str

namespace Css

open Outcome

/-! ## Selectors -/

theorem findOperator_some {text : Text} {quote : Option Char} {base len : Nat}
    {operator : AttributeMatch} (h : findOperator text quote base = some (pos, len, operator)) :
    ∃ before signature after, text = before ++ (signature ++ after) ∧ base + byteLen before = pos ∧
      byteLen signature = len := by
  induction text generalizing quote base with
  | nil => cases quote <;> cases h
  | cons c rest ih =>
    have hskip : ∀ {quote}, findOperator rest quote (base + c.utf8Size) = some (pos, len, operator) →
        ∃ before signature after, c :: rest = before ++ (signature ++ after) ∧
          base + byteLen before = pos ∧ byteLen signature = len := by
      intro quote h
      obtain ⟨before, signature, after, rfl, rfl, hlen⟩ := ih h
      exact ⟨c :: before, signature, after, rfl, by rw [Str.byteLen_cons, Nat.add_assoc], hlen⟩
    cases quote with
    | some quote => exact hskip h
    | none =>
      unfold findOperator at h
      split at h
      · exact hskip h
      · split at h
        · next signature _ hfind =>
          obtain ⟨rfl, rfl, rfl⟩ := by simpa using h
          have hstarts := List.find?_some hfind
          have hmem := mem_of_find?_eq_some hfind
          obtain ⟨after, hafter⟩ := isPrefixOf_iff_prefix.mp hstarts
          refine ⟨[], signature, after, hafter.symm, rfl, ?_⟩
          have hbytes : ∀ entry ∈ operatorSignatures, byteLen entry.1 = entry.1.length := by decide
          exact hbytes _ hmem
        · exact hskip h

theorem readCaseFlag_succeeds (rest : Text) : (readCaseFlag rest).Succeeds := by
  have htake : ∀ {flag : Text}, byteLen flag = 2 → Str.endsWith flag rest = true →
      (takeBytes rest (byteLen rest - 2)).Succeeds := by
    intro flag hflag hends
    obtain ⟨kept, -, hkept⟩ := Str.takeBytes_before hends
    rw [hflag] at hkept
    exact ⟨kept, hkept⟩
  unfold readCaseFlag
  refine Succeeds.ite (fun h => ?_) fun _ => Succeeds.ite (fun h => ?_) fun _ => succeeds_ok _
  · obtain h | h := Bool.or_eq_true_iff.mp h
    · exact (htake (by decide) h).bind fun _ _ => succeeds_ok _
    · exact (htake (by decide) h).bind fun _ _ => succeeds_ok _
  · obtain h | h := Bool.or_eq_true_iff.mp h
    · exact (htake (by decide) h).bind fun _ _ => succeeds_ok _
    · exact (htake (by decide) h).bind fun _ _ => succeeds_ok _

theorem parseAttrSelector_succeeds (content : Text) : (parseAttrSelector content).Succeeds := by
  unfold parseAttrSelector
  dsimp only
  split
  · next pos len operator hfind =>
    obtain ⟨before, signature, after, htext, hpos, hlen⟩ := findOperator_some hfind
    rw [Nat.zero_add] at hpos
    have hrest : Str.trim content = (before ++ signature) ++ after := by rw [htext, append_assoc]
    have hsum : byteLen (before ++ signature) = pos + len := by rw [Str.byteLen_append, hpos, hlen]
    rw [Str.takeBytes_succeeds htext hpos, ok_bind, Str.dropBytes_succeeds hrest hsum, ok_bind]
    exact (readCaseFlag_succeeds _).bind fun _ _ => succeeds_ok _
  · exact succeeds_ok _

section

variable {S : Type} {parseList : Text → Outcome (List S)} (hlist : ∀ text, (parseList text).Succeeds)

include hlist

theorem functionalPseudoClass_succeeds (name inner : Text) :
    (functionalPseudoClass parseList name inner).Succeeds := by
  unfold functionalPseudoClass
  iterate 4 refine Succeeds.ite (fun _ => (hlist inner).bind fun _ _ => succeeds_ok _) fun _ => ?_
  iterate 5 refine Succeeds.ite (fun _ => succeeds_ok _) fun _ => ?_
  exact succeeds_ok _

theorem parsePseudoClass_succeeds (token : Text) : (parsePseudoClass parseList token).Succeeds := by
  unfold parsePseudoClass
  dsimp only
  split
  · exact succeeds_ok _
  · split
    · exact succeeds_ok _
    · next opening hfind =>
      refine Succeeds.ite (fun hends => ?_) fun _ => succeeds_ok _
      obtain ⟨before, after, htoken, hopening⟩ := Str.find_some hfind
      -- The closing parenthesis is not the opening one.
      obtain ⟨inner, rfl⟩ : ∃ inner, after = inner ++ [')'] := by
        obtain ⟨kept, hkept⟩ := isSuffixOf_iff_suffix.mp hends
        rw [htoken] at hkept
        rcases eq_nil_or_concat after with rfl | ⟨inner, last, rfl⟩
        · cases (append_inj' hkept rfl).2
        · rw [concat_eq_append, ← cons_append, ← append_assoc] at hkept
          obtain ⟨-, hlast⟩ := append_inj' hkept rfl
          exact ⟨inner, by rw [concat_eq_append, ← hlast]⟩
      have hslice := Str.sliceBytes_append (before ++ ['(']) inner [')']
      have hstart : byteLen (before ++ ['(']) = opening + 1 := by
        rw [Str.byteLen_append, hopening]
        rfl
      have hwhole : before ++ ['('] ++ inner ++ [')'] = token := by simp [htoken]
      have hstop : byteLen (before ++ ['('] ++ inner) = byteLen token - 1 := by
        rw [← hwhole, Str.byteLen_append _ [')']]
        rfl
      rw [hwhole, hstart, hstop] at hslice
      rw [Str.takeBytes_succeeds htoken hopening, ok_bind, hslice, ok_bind]
      exact (functionalPseudoClass_succeeds hlist _ _).bind fun _ _ => succeeds_ok _

theorem flushCompoundToken_succeeds (compound : CompoundSelector S) (kind : TokenKind) (token : Text) :
    (flushCompoundToken parseList compound kind token).Succeeds := by
  unfold flushCompoundToken
  refine Succeeds.ite (fun _ => succeeds_ok _) fun _ => ?_
  cases kind with
  | tag =>
    refine Succeeds.ite (fun _ => succeeds_ok _) fun _ => ?_
    split <;> exact succeeds_ok _
  | pseudo => exact (parsePseudoClass_succeeds hlist _).bind fun _ _ => succeeds_ok _
  | _ => exact succeeds_ok _

theorem flushScan_succeeds (scan : CompoundScan S) (kind : TokenKind) :
    (scan.flush parseList kind).Succeeds :=
  (flushCompoundToken_succeeds hlist _ _ _).bind fun _ _ => succeeds_ok _

omit hlist in
theorem addAttr_succeeds (scan : CompoundScan S) (content : Text) : (scan.addAttr content).Succeeds := by
  refine (parseAttrSelector_succeeds content).bind fun attr _ => ?_
  cases attr <;> exact succeeds_ok _

theorem scanCompound_succeeds (chars : Text) (skip : Nat) (scan : CompoundScan S) :
    (scanCompound parseList chars skip scan).Succeeds := by
  induction chars generalizing skip scan with
  | nil => cases skip <;> exact succeeds_ok _
  | cons c rest ih =>
    cases skip with
    | succ skip => exact ih skip scan
    | zero =>
      have hflush : ∀ kind skip, (do scanCompound parseList rest skip (← scan.flush parseList kind)).Succeeds :=
        fun kind skip => (flushScan_succeeds hlist scan kind).bind fun _ _ => ih _ _
      unfold scanCompound
      iterate 3 refine Succeeds.ite (fun _ => ih _ _) fun _ => ?_
      refine Succeeds.ite (fun _ => ?_) fun _ => ?_
      · exact (flushScan_succeeds hlist scan .none).bind fun flushed _ =>
          (addAttr_succeeds flushed _).bind fun _ _ => ih _ _
      iterate 2 refine Succeeds.ite (fun _ => hflush _ 0) fun _ => ?_
      refine Succeeds.ite (fun _ => ?_) fun _ => ih _ _
      exact Succeeds.ite (fun _ => hflush _ 1) fun _ => hflush _ 0

theorem parseSingleCompound_succeeds (input : Text) : (parseSingleCompound parseList input).Succeeds := by
  unfold parseSingleCompound
  refine Succeeds.ite (fun _ => succeeds_ok _) fun _ => Succeeds.ite (fun _ => succeeds_ok _) fun _ => ?_
  exact (scanCompound_succeeds hlist _ _ _).bind fun scan _ =>
    (flushScan_succeeds hlist scan _).bind fun _ _ => succeeds_ok _

end

section

variable {parseList : Text → Outcome (List Selector)} (hlist : ∀ text, (parseList text).Succeeds)

include hlist

theorem flushChain_succeeds (scan : ChainScan) : (scan.flush parseList).Succeeds :=
  Succeeds.ite (fun _ => succeeds_ok _) fun _ =>
    (parseSingleCompound_succeeds hlist _).bind fun _ _ => succeeds_ok _

theorem scanChain_succeeds (scan : ChainScan) (c : Char) : (scanChain parseList scan c).Succeeds := by
  unfold scanChain
  dsimp only
  split
  · exact Succeeds.ite (fun _ => succeeds_ok _) fun _ => succeeds_ok _
  · exact Succeeds.ite (fun _ => (flushChain_succeeds hlist scan).bind fun _ _ => succeeds_ok _)
      fun _ => succeeds_ok _

theorem parseWith_succeeds (input : Text) : (parseWith parseList input).Succeeds := by
  have hchain : ∀ text, (parseSelectorChain parseList text).Succeeds := by
    intro text
    refine (succeeds_foldlM (scanChain_succeeds hlist) text {}).bind fun scan _ => ?_
    refine (flushChain_succeeds hlist scan.endRun).bind fun scan _ => ?_
    split <;> exact succeeds_ok _
  unfold parseWith
  refine Succeeds.ite (fun _ => succeeds_ok _) fun _ => (hchain _).bind fun selector _ => ?_
  cases selector with
  | some selector => exact succeeds_ok _
  | none => exact (parseSingleCompound_succeeds hlist _).bind fun _ _ => succeeds_ok _

theorem flushList_succeeds (scan : ListScan) : (scan.flush parseList).Succeeds :=
  Succeeds.ite (fun _ => succeeds_ok _) fun _ =>
    (parseWith_succeeds hlist _).bind fun _ _ => succeeds_ok _

end

theorem parseSelectorListAt_succeeds (levels : Nat) (input : Text) :
    (parseSelectorListAt levels input).Succeeds := by
  induction levels generalizing input with
  | zero => exact succeeds_ok _
  | succ levels ih =>
    have hscan : ∀ scan c, (scanList (parseSelectorListAt levels) scan c).Succeeds := fun scan c =>
      Succeeds.ite (fun _ => flushList_succeeds ih scan) fun _ => succeeds_ok _
    exact (succeeds_foldlM hscan input {}).bind fun scan _ =>
      (flushList_succeeds ih scan).bind fun _ _ => succeeds_ok _

/-! ## Conditions -/

theorem sliceParens_succeeds {text : Text}
    (h : (Str.startsWith ['('] text && Str.endsWith [')'] text) = true) :
    (Str.sliceBytes text 1 (byteLen text - 1)).Succeeds := by
  obtain ⟨hfirst, hlast⟩ := Bool.and_eq_true_iff.mp h
  obtain ⟨middle, rfl⟩ := Str.eq_of_ends (by decide) hfirst hlast
  exact ⟨middle, Str.sliceBytes_inside middle (by decide) (by decide)⟩

section

variable [NumberLibrary]

theorem mediaTermMatches_succeeds (term : Text) (viewportWidth : Nat) :
    (mediaTermMatches term viewportWidth).Succeeds := by
  unfold mediaTermMatches
  refine Succeeds.ite (fun _ => succeeds_ok _) fun _ => ?_
  refine Succeeds.ite (fun h => ?_) fun _ => succeeds_ok _
  refine (sliceParens_succeeds h).bind fun inner _ => ?_
  dsimp only
  split
  · exact succeeds_ok _
  · split
    · exact succeeds_ok _
    · split <;> exact succeeds_ok _

theorem mediaPartMatches_succeeds (part : Text) (viewportWidth : Nat) :
    (mediaPartMatches part viewportWidth).Succeeds := by
  unfold mediaPartMatches
  refine Succeeds.ite (fun _ => succeeds_ok _) fun _ => ?_
  split
  · exact (mediaTermMatches_succeeds _ _).bind fun _ _ => succeeds_ok _
  · exact mediaTermMatches_succeeds _ _

theorem mediaPartsMatch_succeeds (viewportWidth : Nat) (parts : List Text) :
    (mediaPartsMatch viewportWidth parts).Succeeds := by
  induction parts with
  | nil => exact succeeds_ok _
  | cons part parts ih =>
    exact (mediaPartMatches_succeeds _ _).bind fun _ _ => ih.bind fun _ _ => succeeds_ok _

theorem mediaQueryMatches_succeeds (condition : Text) (viewportWidth : Nat) :
    (mediaQueryMatches condition viewportWidth).Succeeds := by
  have halternatives : ∀ alternatives, (mediaAlternativesMatch viewportWidth alternatives).Succeeds := by
    intro alternatives
    induction alternatives with
    | nil => exact succeeds_ok _
    | cons alternative alternatives ih =>
      exact (mediaPartsMatch_succeeds _ _).bind fun _ _ => ih.bind fun _ _ => succeeds_ok _
  exact halternatives _

end

theorem splitSupportsFrom_succeeds {input keyword : Text} (hkeyword : keyword ≠ [])
    (chars : Text) (skip depth : Nat) (passed before : Text) (hinput : input = passed ++ chars)
    (hbefore : before <+: passed ++ chars.take skip) :
    (splitSupportsFrom input keyword chars skip depth (byteLen before) (byteLen passed)).Succeeds := by
  induction chars generalizing skip depth passed before with
  | nil =>
    rw [take_nil, append_nil] at hbefore
    rw [append_nil] at hinput
    obtain ⟨part, rfl⟩ := hbefore
    have hdrop := Str.dropBytes_succeeds hinput rfl
    cases skip <;> exact (Succeeds.bind ⟨part, hdrop⟩ fun _ _ => succeeds_ok _)
  | cons c rest ih =>
    have hnext : input = (passed ++ [c]) ++ rest := by rw [hinput, append_assoc]; rfl
    have hpos : byteLen (passed ++ [c]) = byteLen passed + c.utf8Size := by simp
    cases skip with
    | succ skip =>
      have hahead : before <+: (passed ++ [c]) ++ rest.take skip := by
        rw [append_assoc]
        exact hbefore
      have hstep := ih skip depth _ _ hnext hahead
      rwa [hpos] at hstep
    | zero =>
      rw [take_zero, append_nil] at hbefore
      have hplain : ∀ depth, (splitSupportsFrom input keyword rest 0 depth (byteLen before)
          (byteLen passed + c.utf8Size)).Succeeds := by
        intro depth
        rw [← hpos]
        exact ih 0 depth _ _ hnext (hbefore.trans (by simp))
      unfold splitSupportsFrom
      iterate 2 refine Succeeds.ite (fun _ => hplain _) fun _ => ?_
      refine Succeeds.ite (fun h => ?_) fun _ => hplain _
      obtain ⟨part, rfl⟩ := hbefore
      have hslice := Str.sliceBytes_append before part (c :: rest)
      rw [← hinput] at hslice
      refine Succeeds.bind ⟨part, hslice⟩ fun _ _ => ?_
      -- The keyword stands here, in some case.
      obtain ⟨after, hafter⟩ := isPrefixOf_iff_prefix.mp (Bool.and_eq_true_iff.mp h).2
      obtain ⟨word, left, hword, hlower, -⟩ := map_eq_append_iff.mp hafter.symm
      have hlen : byteLen word = byteLen keyword := by rw [← hlower, ← Str.lowercase, Str.byteLen_lowercase]
      have hcount : word.length = keyword.length := by rw [← hlower, length_map]
      have hahead : before ++ part ++ word <+:
          (before ++ part ++ [c]) ++ rest.take (keyword.length - 1) := by
        cases word with
        | nil => exact absurd (length_eq_zero_iff.mp hcount.symm) hkeyword
        | cons d word =>
          obtain ⟨rfl, rfl⟩ := List.cons.inj hword
          have htake : (word.append left).take word.length = word := take_left
          rw [← hcount, length_cons, Nat.add_sub_cancel, htake]
          simp
      have hstep := ih (keyword.length - 1) depth _ _ hnext hahead
      rw [Str.byteLen_append, hlen, hpos] at hstep
      exact hstep.bind fun _ _ => succeeds_ok _

theorem splitSupportsTopLevel_succeeds {keyword : Text} (hkeyword : keyword ≠ []) (input : Text) :
    (splitSupportsTopLevel input keyword).Succeeds :=
  splitSupportsFrom_succeeds hkeyword input 0 0 [] [] rfl nil_prefix

theorem stripNots_succeeds (trimmed : Text) :
    (loop stripNot (trimmed.length + 1) (0, trimmed)).Succeeds := by
  have hturn : ∀ state : Nat × Text, True → ∃ next, stripNot state = .ok next ∧
      Sum.elim (fun state' : Nat × Text => True ∧ state'.2.length < state.2.length) (fun _ => True)
        next := by
    rintro ⟨negations, rest⟩ -
    unfold stripNot
    dsimp only
    split
    · next h =>
      obtain ⟨kept, hkept, -⟩ := (Option.any_eq_true _ _).mp h
      obtain ⟨after, rfl, hlen⟩ := Str.getTo_some hkept
      rw [Str.dropBytes_succeeds rfl hlen]
      refine ⟨_, rfl, trivial, ?_⟩
      have hshort := (dropWhile_suffix isWhitespace (l := after)).length_le
      cases kept with
      | nil => cases hlen
      | cons c kept =>
        rw [length_append, length_cons]
        exact Nat.lt_of_le_of_lt hshort (by omega)
    · exact ⟨_, rfl, trivial⟩
  have hshorter : (fun state : Nat × Text => state.2.length) (0, trimmed) < trimmed.length + 1 :=
    Nat.lt_succ_self _
  obtain ⟨value, hvalue, -⟩ := loop_spec (fun _ => True) _ (fun _ => True) hturn trivial hshorter
  exact ⟨value, hvalue⟩

theorem supportsTermMatches_succeeds (trimmed : Text) : (supportsTermMatches trimmed).Succeeds := by
  unfold supportsTermMatches
  refine Succeeds.ite (fun h => ?_) fun _ => succeeds_ok _
  refine (sliceParens_succeeds h).bind fun inner _ => ?_
  dsimp only
  split
  · exact succeeds_ok _
  · split
    · exact (parseSelectorListAt_succeeds _ _).bind fun _ _ => succeeds_ok _
    · exact succeeds_ok _

theorem clausesMatch_succeeds {supports : Text → Outcome Bool} (h : ∀ text, (supports text).Succeeds)
    (deciding : Bool) (clauses : List Text) : (clausesMatch supports deciding clauses).Succeeds := by
  induction clauses with
  | nil => exact succeeds_ok _
  | cons clause clauses ih =>
    exact (h clause).bind fun _ _ => Succeeds.ite (fun _ => succeeds_ok _) fun _ => ih

theorem supportsQueryMatchesBounded_succeeds (levels : Nat) (condition : Text) :
    (supportsQueryMatchesBounded levels condition).Succeeds := by
  induction levels generalizing condition with
  | zero => exact succeeds_ok _
  | succ levels ih =>
    have hclauses : ∀ keyword deciding, keyword ≠ [] → (do
        clausesMatch (supportsQueryMatchesBounded levels) deciding
          (← splitSupportsTopLevel (Str.trim condition) keyword)).Succeeds := fun keyword deciding hne =>
      (splitSupportsTopLevel_succeeds hne _).bind fun clauses _ => clausesMatch_succeeds ih _ _
    unfold supportsQueryMatchesBounded
    refine Succeeds.ite (fun _ => succeeds_ok _) fun _ => (stripNots_succeeds _).bind fun found _ => ?_
    refine Succeeds.ite (fun _ => (ih _).bind fun _ _ => succeeds_ok _) fun _ => ?_
    refine Succeeds.ite (fun _ => hclauses _ true (by decide)) fun _ => ?_
    exact Succeeds.ite (fun _ => hclauses _ false (by decide)) fun _ => supportsTermMatches_succeeds _

/-! ## Statements and declarations -/

theorem parseImportUrl_succeeds (stmt : Text) : (parseImportUrl stmt).Succeeds := by
  unfold parseImportUrl
  dsimp only
  split
  · exact succeeds_ok _
  · split
    · next quote rest hstmt =>
      refine Succeeds.ite (fun h => ?_) fun _ => succeeds_ok _
      have hquote : byteLen [quote] = 1 := by
        obtain h | h := Bool.or_eq_true_iff.mp h <;> rw [eq_of_beq h] <;> decide
      have hdrop : Str.dropBytes (Str.trim stmt) 1 = .ok rest := Str.dropBytes_succeeds hstmt hquote
      rw [hdrop, ok_bind]
      split
      · exact succeeds_ok _
      · next stop hfind =>
        obtain ⟨before, after, rfl, rfl⟩ := Str.find_some hfind
        have hslice := Str.sliceBytes_append [quote] before (quote :: after)
        have hwhole : [quote] ++ before ++ quote :: after = Str.trim stmt := hstmt.symm
        rw [Str.byteLen_append, hquote, Nat.add_comm 1, hwhole] at hslice
        exact Succeeds.bind ⟨before, hslice⟩ fun _ _ => succeeds_ok _
    · exact succeeds_ok _

theorem applyStatement_succeeds (header : Text) (state : SheetState) :
    (applyStatement header state).Succeeds := by
  unfold applyStatement
  split
  · exact (parseImportUrl_succeeds _).bind fun _ _ => succeeds_ok _
  · split <;> exact succeeds_ok _

theorem stripImportant_succeeds (value : Text) : (stripImportant value).Succeeds := by
  unfold stripImportant
  dsimp only
  split
  · next kept hkept =>
    unfold Str.stripEnd at hkept
    split at hkept
    · next hends =>
      -- The value in lower case is as long as the value.
      obtain ⟨before, hbefore⟩ := isSuffixOf_iff_suffix.mp hends
      obtain ⟨left, right, htext, hleft, -⟩ := map_eq_append_iff.mp hbefore.symm
      have hkeptEq : kept = before := by
        rw [← Option.some.inj hkept, ← hbefore, length_append, Nat.add_sub_cancel, take_left]
      have hlen : byteLen left = byteLen kept := by
        rw [hkeptEq, ← hleft, ← Str.lowercase, Str.byteLen_lowercase]
      rw [Str.takeBytes_succeeds htext hlen]
      exact succeeds_ok _
    · cases hkept
  · exact succeeds_ok _

theorem stepsOutside_le {stop : Nat → Char → Bool} {depthAfter : Nat → Char → Nat} (chars : Text)
    (skip depth : Nat) (quote : Option Char) :
    stepsOutside stop depthAfter chars skip depth quote ≤ chars.length := by
  induction chars generalizing skip depth quote with
  | nil => cases skip <;> cases quote <;> exact Nat.le_refl _
  | cons c rest ih =>
    cases skip with
    | succ skip => exact Nat.succ_le_succ (ih _ _ _)
    | zero =>
      cases quote with
      | some quote =>
        unfold stepsOutside
        split
        · exact Nat.succ_le_succ (ih _ _ _)
        · exact Nat.succ_le_succ (ih _ _ _)
      | none =>
        unfold stepsOutside
        split
        · exact Nat.zero_le _
        · split
          · exact Nat.succ_le_succ (ih _ _ _)
          · exact Nat.succ_le_succ (ih _ _ _)

theorem add_stepsOutside_le {stop : Nat → Char → Bool} {depthAfter : Nat → Char → Nat}
    (h : pos ≤ chars.length) (depth : Nat) :
    pos + stepsOutside stop depthAfter (chars.drop pos) 0 depth none ≤ chars.length := by
  have hsteps := @stepsOutside_le stop depthAfter (chars.drop pos) 0 depth none
  rw [length_drop] at hsteps
  omega

theorem charAt_lt {c : Char} (h : charAt chars pos c = true) :
    pos < chars.length := (List.getElem?_eq_some_iff.mp (eq_of_beq h)).1

/-- A turn reads on, or leaves the loop inside of the sheet. -/
theorem readDeclaration_ok (state : Nat × List RawDeclaration) (h : state.1 ≤ chars.length) :
    ∃ next, readDeclaration chars state = .ok next ∧
      Sum.elim (fun state' => (state.1 ≤ state'.1 ∧ state'.1 ≤ chars.length) ∧
          chars.length - state'.1 < chars.length - state.1)
        (fun state' => state.1 ≤ state'.1 ∧ state'.1 ≤ chars.length) next := by
  obtain ⟨pos, declarations⟩ := state
  have hstart := skipWhile_le isWhitespace h
  have hle := le_skipWhile isWhitespace chars pos
  unfold readDeclaration
  dsimp only at h ⊢
  generalize skipWhile isWhitespace chars pos = start at *
  split
  · exact ⟨_, rfl, Nat.le_refl _, h⟩
  split
  · exact ⟨_, rfl, hle, hstart⟩
  next hopen =>
  rw [Bool.or_eq_true, decide_eq_true_eq, not_or, Nat.not_le, Bool.not_eq_true] at hopen
  obtain ⟨hlt, hbrace⟩ := hopen
  have hstop := skipWhile_le propertyChar hstart
  have hfrom := le_skipWhile propertyChar chars start
  have hends := fun c => @skipWhile_stops _ propertyChar chars start c
  generalize skipWhile propertyChar chars start = stop at *
  split
  · next hcolon =>
    -- A stop at the start is at a semicolon, which is passed over.
    have hmoved : charAt chars stop ';' = true ∨ start < stop := by
      rcases Nat.eq_or_lt_of_le hfrom with rfl | hmoved
      · have hc := hends _ (List.getElem?_eq_getElem hlt)
        unfold charAt at hcolon hbrace ⊢
        rw [List.getElem?_eq_getElem hlt] at hcolon hbrace ⊢
        simp only [propertyChar, bne_eq_false_iff_eq, Bool.and_eq_false_iff] at hc
        simp only [Option.some_beq_some, Bool.not_eq_true', beq_eq_false_iff_ne, beq_iff_eq] at hcolon hbrace ⊢
        exact .inl ((hc.resolve_left fun hc => hc.elim hcolon hbrace))
      · exact .inr hmoved
    refine ⟨_, rfl, ?_⟩
    show (pos ≤ _ ∧ _ ≤ chars.length) ∧ chars.length - _ < chars.length - pos
    split
    · next hsemi =>
      have hin := charAt_lt hsemi
      omega
    · next hsemi =>
      have hfar := hmoved.resolve_left hsemi
      omega
  · next hcolon =>
    have hin := charAt_lt (c := ':') (by simpa using hcolon)
    have hclose : valueEnd chars (stop + 1) ≤ chars.length := add_stepsOutside_le hin 0
    have hvalue : stop + 1 ≤ valueEnd chars (stop + 1) := Nat.le_add_right _ _
    generalize valueEnd chars (stop + 1) = close at *
    rw [slice_ok hfrom hstop, slice_ok hvalue hclose]
    dsimp only [ok_bind]
    obtain ⟨⟨value, important⟩, himportant⟩ := stripImportant_succeeds
      (Str.trim ((chars.drop (stop + 1)).take (close - (stop + 1))))
    rw [himportant]
    dsimp only [ok_bind]
    have hnext : ∀ next, next = (if charAt chars close ';' = true then close + 1 else close) →
        (pos ≤ next ∧ next ≤ chars.length) ∧ chars.length - next < chars.length - pos := by
      rintro next rfl
      split
      · next hsemi =>
        have hbefore := charAt_lt hsemi
        omega
      · omega
    split
    · exact ⟨_, rfl, hnext _ rfl⟩
    · exact ⟨_, rfl, hnext _ rfl⟩

theorem readDeclarations_ok (h : pos ≤ chars.length) :
    ∃ next declarations, readDeclarations chars pos = .ok (next, declarations) ∧ pos ≤ next ∧
      next ≤ chars.length := by
  have hturn : ∀ state : Nat × List RawDeclaration, pos ≤ state.1 ∧ state.1 ≤ chars.length →
      ∃ next, readDeclaration chars state = .ok next ∧
        Sum.elim (fun state' => (pos ≤ state'.1 ∧ state'.1 ≤ chars.length) ∧
            chars.length - state'.1 < chars.length - state.1)
          (fun state' : Nat × List RawDeclaration => pos ≤ state'.1 ∧ state'.1 ≤ chars.length) next := by
    rintro state ⟨hfrom, hto⟩
    obtain ⟨next, hnext, hgood⟩ := readDeclaration_ok state hto
    refine ⟨next, hnext, ?_⟩
    cases next with
    | inl state' => exact ⟨⟨Nat.le_trans hfrom hgood.1.1, hgood.1.2⟩, hgood.2⟩
    | inr state' => exact ⟨Nat.le_trans hfrom hgood.1, hgood.2⟩
  have hstart : (fun state : Nat × List RawDeclaration => pos ≤ state.1 ∧ state.1 ≤ chars.length)
      (pos, []) := ⟨Nat.le_refl _, h⟩
  obtain ⟨⟨next, declarations⟩, hloop, hfrom, hto⟩ := loop_spec _ _ _ hturn hstart
    (Nat.lt_succ_of_le (Nat.sub_le chars.length pos))
  unfold readDeclarations
  rw [hloop]
  refine ⟨_, declarations, rfl, ?_⟩
  split
  · next hbrace =>
    have hin := charAt_lt hbrace
    omega
  · exact ⟨hfrom, hto⟩

/-! ## Items -/

/-- The at-rule at a place has a block that is opened by the last character. -/
def OpensLast (chars : Text) (pos : Nat) : Prop :=
  let start := skipWhile isWhitespace chars pos
  charAt chars start '@' = true ∧ charAt chars (atHeaderEnd chars start) '{' = true ∧
    atHeaderEnd chars start + 1 = chars.length

/-- What a turn of the loop over a sheet finds: an item further on, or the end. -/
def Advances (chars : Text) (pos : Nat) (item : Item) (next : Nat) : Prop :=
  item = .finished ∨ pos < next ∧ next ≤ chars.length

theorem blockEnd_pos (h : pos < chars.length) : pos < blockEnd chars pos := by
  unfold blockEnd
  rw [drop_eq_getElem_cons h]
  unfold stepsOutside
  rw [if_neg (by decide)]
  split <;> omega

theorem readAtRule_spec {start : Nat} (h : start ≤ chars.length) :
    (charAt chars (atHeaderEnd chars start) '{' = true ∧ atHeaderEnd chars start + 1 = chars.length ∧
      readAtRule chars start = .panic) ∨
    (¬(charAt chars (atHeaderEnd chars start) '{' = true ∧ atHeaderEnd chars start + 1 = chars.length) ∧
      ∃ item next, readAtRule chars start = .ok (item, next) ∧ Advances chars start item next) := by
  have hstop := skipWhile_le (fun c => c != ';' && c != '{') h
  have hfrom := le_skipWhile (fun c => c != ';' && c != '{') chars start
  have hends := fun c => @skipWhile_stops _ (fun c => c != ';' && c != '{') chars start c
  unfold readAtRule
  rw [← atHeaderEnd] at hstop hfrom hends
  dsimp only
  generalize atHeaderEnd chars start = stop at *
  unfold charAt
  split
  · next hnone =>
    rw [hnone]
    exact .inr ⟨nofun, _, _, rfl, .inl rfl⟩
  · next c hc =>
    have hlt := (List.getElem?_eq_some_iff.mp hc).1
    rw [hc, slice_ok hfrom hstop]
    dsimp only [ok_bind]
    split
    · next hsemi =>
      rw [eq_of_beq hsemi]
      exact .inr ⟨fun hopen => absurd hopen.1 (by decide), _, _, rfl, .inr ⟨by omega, hlt⟩⟩
    · next hsemi =>
      have hbrace : c = '{' := by
        have hc := hends c hc
        rw [Bool.and_eq_false_iff, bne_eq_false_iff_eq, bne_eq_false_iff_eq] at hc
        exact hc.resolve_left fun hc => hsemi (by rw [hc]; rfl)
      subst hbrace
      have hclose : blockEnd chars (stop + 1) ≤ chars.length := add_stepsOutside_le hlt 1
      rcases Nat.eq_or_lt_of_le (Nat.succ_le_of_lt hlt) with hlast | hmore
      · -- The body would end before it begins.
        have hempty : blockEnd chars (stop + 1) = stop + 1 := by
          unfold blockEnd
          rw [drop_eq_nil_of_le (Nat.le_of_eq hlast.symm)]
          rfl
        refine .inl ⟨by decide, hlast, ?_⟩
        rw [hempty, slice, if_neg (by omega)]
        rfl
      · have hbody : stop + 1 < blockEnd chars (stop + 1) := blockEnd_pos hmore
        rw [slice_ok (by omega) (by omega)]
        exact .inr ⟨fun hopen => absurd hopen.2 (by omega), _, _, rfl, .inr ⟨by omega, hclose⟩⟩

theorem readRule_ok (chars : Text) (start : Nat) :
    ∃ item next, readRule chars start = .ok (item, next) ∧ Advances chars start item next := by
  have hfrom : start ≤ selectorEnd chars start := Nat.le_add_right _ _
  unfold readRule
  dsimp only
  generalize selectorEnd chars start = stop at *
  split
  · exact ⟨_, _, rfl, .inl rfl⟩
  · next hlt =>
    obtain ⟨next, declarations, hread, hnext, hto⟩ :=
      readDeclarations_ok (Nat.succ_le_of_lt (Nat.lt_of_not_le hlt))
    rw [slice_ok hfrom (by omega), ok_bind, hread, ok_bind]
    exact ⟨_, _, rfl, .inr ⟨by omega, hto⟩⟩

theorem readItem_spec (h : pos ≤ chars.length) :
    (OpensLast chars pos ∧ readItem chars pos = .panic) ∨
      (¬OpensLast chars pos ∧ ∃ item next, readItem chars pos = .ok (item, next) ∧
        Advances chars pos item next) := by
  have hstart := skipWhile_le isWhitespace h
  have hle := le_skipWhile isWhitespace chars pos
  unfold OpensLast readItem
  dsimp only
  generalize skipWhile isWhitespace chars pos = start at *
  have hfar : ∀ {item next}, Advances chars start item next → Advances chars pos item next :=
    fun hadvance => hadvance.imp_right fun hnext => ⟨Nat.lt_of_le_of_lt hle hnext.1, hnext.2⟩
  split
  · next hnone =>
    have hno : charAt chars start '@' = false := by rw [charAt, hnone]; rfl
    rw [hno]
    exact .inr ⟨nofun, _, _, rfl, .inl rfl⟩
  · next c hc =>
    split
    · next hat =>
      have hat : charAt chars start '@' = true := by rw [charAt, hc, eq_of_beq hat]; rfl
      obtain ⟨hbrace, hlast, hpanic⟩ | ⟨hfine, item, next, hread, hadvance⟩ := readAtRule_spec hstart
      · exact .inl ⟨⟨hat, hbrace, hlast⟩, hpanic⟩
      · exact .inr ⟨fun hopen => hfine hopen.2, item, next, hread, hfar hadvance⟩
    · next hat =>
      have hno : charAt chars start '@' = false := by
        rw [charAt, hc]
        simpa using hat
      obtain ⟨item, next, hread, hadvance⟩ := readRule_ok chars start
      rw [hno]
      exact .inr ⟨nofun, item, next, hread, hfar hadvance⟩

theorem readItem_blank (h : (Str.trim chars).isEmpty = true) :
    readItem chars 0 = .ok (.finished, skipWhile isWhitespace chars 0) := by
  unfold readItem
  dsimp only
  split
  · rfl
  · next c hc =>
    -- The first character that is no space would be left by the trimming.
    have hno := skipWhile_stops hc
    have hall : ∀ d ∈ chars.dropWhile isWhitespace, isWhitespace d = true := by
      have hnil : (chars.dropWhile isWhitespace).reverse.dropWhile isWhitespace = [] :=
        reverse_eq_nil_iff.mp (List.isEmpty_iff.mp h)
      exact fun d hd => dropWhile_eq_nil_iff.mp hnil d (mem_reverse.mpr hd)
    have hmem := mem_of_getElem? hc
    rw [← takeWhile_append_dropWhile (p := isWhitespace) (l := chars), mem_append] at hmem
    obtain hmem | hmem := hmem
    · exact absurd (mem_takeWhile_imp hmem) (by simp [hno])
    · exact absurd (hall c hmem) (by simp [hno])

/-! ## Sheets -/

/-- The scan of a sheet goes on from one place to another. -/
def Follows (chars : Text) (pos next : Nat) : Prop :=
  ∃ item, readItem chars pos = .ok (item, next) ∧ item ≠ .finished

/-- The scan of a sheet gets to a place. -/
def Scanned (chars : Text) (pos : Nat) : Prop := Relation.ReflTransGen (Follows chars) 0 pos

/-- Up to the limit a sheet is cut between two characters. -/
def CutFits (css : Text) : Prop := maxSheetBytes < byteLen css → isCharBoundary css maxSheetBytes = true

theorem sheetText_succeeds (css : Text) : (sheetText css).Succeeds ↔ CutFits css := by
  unfold sheetText CutFits
  by_cases hlong : maxSheetBytes < byteLen css
  · obtain ⟨hfits, kept, hkept⟩ | ⟨hpanic, htext⟩ := truncate_spec hlong
    · rw [hkept]
      exact iff_of_true (succeeds_ok _) fun _ => hfits
    · rw [htext]
      refine iff_of_false nofun fun hfits => ?_
      rw [hfits hlong] at hpanic
      cases hpanic
  · refine iff_of_true ?_ fun h => absurd h hlong
    refine Succeeds.bind ?_ fun _ _ => succeeds_ok _
    rcases Nat.eq_or_lt_of_le (Nat.le_of_not_lt hlong) with heq | hlt
    · unfold truncate
      rw [if_neg (by omega)]
      have htake := Str.takeBytes_append css []
      rw [append_nil, heq] at htake
      exact ⟨css, htake⟩
    · exact ⟨css, if_pos hlt⟩

section

variable [NumberLibrary]

/-- The body of a block is parsed. -/
def Enters (viewportWidth : Nat) (header : Text) : Prop :=
  match Str.stripStart "@media".toList header with
  | some condition => viewportWidth ≠ 0 ∧ mediaQueryMatches (Str.trim condition) viewportWidth = .ok true
  | none =>
    match Str.stripStart "@supports".toList header with
    | some condition => supportsQueryMatches (Str.trim condition) = .ok true
    | none => (Str.stripStart "@layer".toList header).isSome

theorem blockContext_spec (context : SheetContext) (header : Text) (layers : LayerMap) :
    (Enters context.viewportWidth header ∧ ∃ inner named,
      blockContext context header layers = .ok (some (inner, named)) ∧
        inner.viewportWidth = context.viewportWidth) ∨
      (¬Enters context.viewportWidth header ∧ blockContext context header layers = .ok none) := by
  unfold Enters blockContext
  cases Str.stripStart "@media".toList header with
  | some condition =>
    dsimp only
    split
    · next hzero => exact .inr ⟨fun h => h.1 hzero, rfl⟩
    · next hwidth =>
      obtain ⟨matched, hmatched⟩ := mediaQueryMatches_succeeds (Str.trim condition) context.viewportWidth
      rw [hmatched]
      cases matched with
      | true => exact .inl ⟨⟨hwidth, rfl⟩, _, _, rfl, rfl⟩
      | false => exact .inr ⟨fun h => (nomatch h.2), rfl⟩
  | none =>
    cases Str.stripStart "@supports".toList header with
    | some condition =>
      obtain ⟨matched, hmatched⟩ : (supportsQueryMatches (Str.trim condition)).Succeeds :=
        supportsQueryMatchesBounded_succeeds _ _
      dsimp only
      rw [hmatched]
      cases matched with
      | true => exact .inl ⟨rfl, _, _, rfl, rfl⟩
      | false => exact .inr ⟨nofun, rfl⟩
    | none =>
      cases Str.stripStart "@layer".toList header with
      | some name => exact .inl ⟨rfl, _, _, rfl, rfl⟩
      | none => exact .inr ⟨nofun, rfl⟩

omit [NumberLibrary] in
theorem applyRule_succeeds (context : SheetContext) (selector : Text)
    (declarations : List RawDeclaration) (state : SheetState) :
    (applyRule context selector declarations state).Succeeds := by
  unfold applyRule
  refine Succeeds.ite (fun _ => succeeds_ok _) fun _ => ?_
  refine (parseSelectorListAt_succeeds _ _).bind fun _ _ => ?_
  exact Succeeds.ite (fun _ => succeeds_ok _) fun _ => succeeds_ok _

/-- A sheet that is read to its end: where it is cut a character ends, no block of it is
opened by its last character, and the same holds of the bodies that are parsed. -/
def Readable (viewportWidth : Nat) : Nat → Text → Prop
  | 0, _ => True
  | levels + 1, css => CutFits css ∧ ∀ chars, sheetText css = .ok chars → ∀ pos, Scanned chars pos →
      ¬OpensLast chars pos ∧ ∀ header body next,
        readItem chars pos = .ok (.block header body, next) → Enters viewportWidth header →
          Readable viewportWidth levels body

/-- What is asked of a place in a sheet. -/
def ReadableAt (viewportWidth levels : Nat) (chars : Text) (pos : Nat) : Prop :=
  ¬OpensLast chars pos ∧ ∀ header body next, readItem chars pos = .ok (.block header body, next) →
    Enters viewportWidth header → Readable viewportWidth levels body

theorem sheetLoop_succeeds {parseBody : SheetContext → Text → SheetState → Outcome SheetState}
    {context : SheetContext} {levels : Nat}
    (hbody : ∀ inner body state, inner.viewportWidth = context.viewportWidth →
      ((parseBody inner body state).Succeeds ↔ Readable context.viewportWidth levels body))
    {turns : Nat} (state : SheetState) (hpos : pos ≤ chars.length)
    (hturns : chars.length - pos < turns) :
    (loop (sheetTurn parseBody context chars) turns (pos, state)).Succeeds ↔
      ∀ place, Relation.ReflTransGen (Follows chars) pos place →
        ReadableAt context.viewportWidth levels chars place := by
  induction turns generalizing pos state with
  | zero => exact absurd hturns (Nat.not_lt_zero _)
  | succ turns ih =>
    rw [loop]
    obtain ⟨hopen, hpanic⟩ | ⟨hfine, item, next, hread, hadvance⟩ := readItem_spec hpos
    · -- The block that is opened last panics.
      have hturn : sheetTurn parseBody context chars (pos, state) = .panic := by
        rw [sheetTurn, hpanic]
        rfl
      rw [hturn]
      refine iff_of_false ?_ fun h => (h pos .refl).1 hopen
      rintro ⟨value, hvalue⟩
      cases hvalue
    -- After any other item the scan goes on at the next place.
    have hgoes : item ≠ .finished → ∀ state', ((loop (sheetTurn parseBody context chars) turns
        (next, state')).Succeeds ↔ ∀ place, Relation.ReflTransGen (Follows chars) next place →
          ReadableAt context.viewportWidth levels chars place) := by
      intro hitem state'
      obtain ⟨hlt, hle⟩ := hadvance.resolve_left hitem
      exact ih state' hle (by omega)
    have hplaces : item ≠ .finished → ((∀ place, Relation.ReflTransGen (Follows chars) pos place →
        ReadableAt context.viewportWidth levels chars place) ↔
        ReadableAt context.viewportWidth levels chars pos ∧
          ∀ place, Relation.ReflTransGen (Follows chars) next place →
            ReadableAt context.viewportWidth levels chars place) := by
      intro hitem
      constructor
      · exact fun h => ⟨h pos .refl, fun place hplace => h place (.head ⟨item, hread, hitem⟩ hplace)⟩
      · rintro ⟨hhere, hthere⟩ place hplace
        obtain rfl | ⟨middle, ⟨item', hread', -⟩, hrest⟩ := hplace.cases_head
        · exact hhere
        · rw [hread] at hread'
          cases hread'
          exact hthere place hrest
    have hhere : (∀ header body, item ≠ .block header body) →
        ReadableAt context.viewportWidth levels chars pos := by
      refine fun hitem => ⟨hfine, fun header body next' hread' => ?_⟩
      rw [hread] at hread'
      cases hread'
      exact absurd rfl (hitem header body)
    rw [sheetTurn, hread, ok_bind]
    cases item with
    | finished =>
      refine iff_of_true (succeeds_ok _) fun place hplace => ?_
      obtain rfl | ⟨middle, ⟨item', hread', hitem⟩, -⟩ := hplace.cases_head
      · exact hhere fun header body heq => by cases heq
      · rw [hread] at hread'
        cases hread'
        exact absurd rfl hitem
    | statement header =>
      have hitem : Item.statement header ≠ .finished := by rintro ⟨⟩
      obtain ⟨state', hstate⟩ := applyStatement_succeeds header state
      rw [hplaces hitem, and_iff_right (hhere fun _ _ heq => by cases heq), ← hgoes hitem state']
      dsimp only
      rw [hstate]
      rfl
    | rule selector declarations =>
      have hitem : Item.rule selector declarations ≠ .finished := by rintro ⟨⟩
      obtain ⟨state', hstate⟩ := applyRule_succeeds context selector declarations state
      rw [hplaces hitem, and_iff_right (hhere fun _ _ heq => by cases heq), ← hgoes hitem state']
      dsimp only
      rw [hstate]
      rfl
    | block header body =>
      have hitem : Item.block header body ≠ .finished := by rintro ⟨⟩
      dsimp only
      obtain ⟨henters, inner, named, hblock, hwidth⟩ | ⟨hnot, hblock⟩ :=
        blockContext_spec context header state.layers
      · rw [hblock]
        dsimp only [ok_bind]
        have hinner := hbody inner body { state with layers := named } hwidth
        by_cases hreadable : Readable context.viewportWidth levels body
        · obtain ⟨state', hstate⟩ := hinner.mpr hreadable
          have hplace : ReadableAt context.viewportWidth levels chars pos := by
            refine ⟨hfine, fun header' body' next' hread' _ => ?_⟩
            rw [hread] at hread'
            cases hread'
            exact hreadable
          rw [hplaces hitem, and_iff_right hplace, ← hgoes hitem state', hstate]
          rfl
        · refine iff_of_false (fun h => ?_) fun h => hreadable ((h pos .refl).2 header body next hread henters)
          obtain ⟨turn, hturn, -⟩ := succeeds_bind.mp h
          obtain ⟨state', hstate, -⟩ := bind_eq_ok.mp hturn
          exact hreadable (hinner.mp ⟨state', hstate⟩)
      · rw [hblock, ok_bind, hplaces hitem, and_iff_right, ← hgoes hitem state]
        · rfl
        · refine ⟨hfine, fun header' body' next' hread' henters => ?_⟩
          rw [hread] at hread'
          cases hread'
          exact absurd henters hnot

theorem parseCssWithContext_succeeds (levels : Nat) (context : SheetContext) (css : Text)
    (state : SheetState) :
    (parseCssWithContext levels context css state).Succeeds ↔
      Readable context.viewportWidth levels css := by
  induction levels generalizing context css state with
  | zero => exact iff_of_true (succeeds_ok _) trivial
  | succ levels ih =>
    rw [parseCssWithContext, Readable, ← sheetText_succeeds, succeeds_bind]
    constructor
    · rintro ⟨chars, htext, h⟩
      refine ⟨⟨chars, htext⟩, fun chars' htext' => ?_⟩
      obtain rfl := Outcome.ok.inj (htext.symm.trans htext')
      split at h
      · next hblank =>
        intro pos hpos
        have hitem : readItem chars 0 = .ok (.finished, skipWhile isWhitespace chars 0) :=
          readItem_blank hblank
        obtain rfl | ⟨next, ⟨item, hread, hne⟩, -⟩ := hpos.cases_head
        · obtain ⟨hopen, hpanic⟩ | ⟨hfine, -⟩ := readItem_spec (Nat.zero_le chars.length)
          · rw [hitem] at hpanic
            cases hpanic
          · refine ⟨hfine, fun header body next hread => ?_⟩
            rw [hitem] at hread
            cases hread
        · rw [hitem] at hread
          cases hread
          exact absurd rfl hne
      · obtain ⟨after, hloop, -⟩ := succeeds_bind.mp h
        exact (sheetLoop_succeeds (fun inner body state' hwidth => hwidth ▸ ih inner body state') _
          (Nat.zero_le _) (by omega)).mp ⟨after, hloop⟩
    · rintro ⟨⟨chars, htext⟩, h⟩
      refine ⟨chars, htext, ?_⟩
      refine Succeeds.ite (fun _ => succeeds_ok _) fun _ => ?_
      refine Succeeds.bind ?_ fun _ _ => succeeds_ok _
      exact (sheetLoop_succeeds (fun inner body state' hwidth => hwidth ▸ ih inner body state') _
        (Nat.zero_le _) (by omega)).mpr (h chars htext)

/-- Exactly the readable sheets are parsed; any other one panics. -/
theorem parseCssWithMedia_returns (css : Text) (viewportWidth : Nat) :
    (parseCssWithMedia css viewportWidth).Succeeds ↔ Readable viewportWidth (maxSheetDepth + 1) css := by
  rw [parseCssWithMedia, succeeds_bind, ← parseCssWithContext_succeeds (maxSheetDepth + 1)
    { viewportWidth, origin := .author, layer := none, layerOrder := none } css
    { rules := [], sourceOrder := 0, imports := [], layers := ∅ }]
  exact ⟨fun ⟨state, h, _⟩ => ⟨state, h⟩, fun ⟨state, h⟩ => ⟨state, h, succeeds_ok _⟩⟩

end

/-- An at-rule that is cut off behind its opening brace. -/
theorem parseCssWithMedia_cutOff :
    @parseCssWithMedia ⟨fun _ => none⟩ "@font-face\x7b".toList 0 = .panic := rfl

end Css

end GhitaBrowser
