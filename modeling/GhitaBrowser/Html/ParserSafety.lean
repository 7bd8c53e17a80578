import GhitaBrowser.Html.Parser

/-!
# Where the HTML parser panics

Every slice of the character vector is in bounds, so a token is always read and the scan
always ends. The two cuts at a byte count are left: the one of the input and the one of a
long script or style.
-/

namespace GhitaBrowser.Html

/-- What a read that starts at `pos` promises of the position it ends at. -/
def Advances (chars : Text) (pos : Nat) {α : Type} (read : Outcome (α × Nat)) : Prop :=
  ∃ value next, read = .ok (value, next) ∧ pos ≤ next ∧ next ≤ chars.length

variable {chars : Text} {pos : Nat}

variable {c : Char}

theorem lt_length_of_some (h : chars[pos]? = some c) : pos < chars.length :=
  (List.getElem?_eq_some_iff.mp h).1

theorem charIs_lt (h : charIs chars pos c = true) : pos < chars.length :=
  lt_length_of_some (eq_of_beq h)

theorem skipPast_le (h : pos ≤ chars.length) : skipPast chars pos ≤ chars.length := by
  have hstop := skipWhile_le (· != '>') h
  unfold skipPast
  dsimp only
  split
  · assumption
  · exact hstop

theorem le_skipPast : pos ≤ skipPast chars pos := by
  have hstop := le_skipWhile (· != '>') chars pos
  unfold skipPast
  dsimp only
  split <;> omega

theorem le_skipValue (p : Char → Bool) : pos ≤ skipValue p chars pos := Nat.le_add_right _ _

theorem skipValue_le (p : Char → Bool) (h : pos ≤ chars.length) :
    skipValue p chars pos ≤ chars.length := by
  have htake := (List.takeWhile_prefix p (l := (chars.drop pos).take maxAttrValueLen)).length_le
  rw [List.length_take, List.length_drop] at htake
  unfold skipValue
  omega

theorem oversizedLength_le (quote : Option Char) (rest : Text) :
    oversizedLength quote rest ≤ rest.length := by
  induction rest generalizing quote with
  | nil => cases quote <;> exact Nat.le_refl _
  | cons c rest ih =>
    cases quote with
    | some quote => exact Nat.succ_le_succ (ih _)
    | none =>
      unfold oversizedLength
      split
      · exact Nat.zero_le _
      · exact Nat.succ_le_succ (ih _)

/-! ## Attributes -/

theorem readAttrValue_advances (h : pos ≤ chars.length) :
    Advances chars pos (readAttrValue chars pos) := by
  have hspace := skipWhile_le isWhitespace h
  have hle := le_skipWhile isWhitespace chars pos
  unfold readAttrValue
  dsimp only
  generalize skipWhile isWhitespace chars pos = start at *
  split
  · exact ⟨_, _, rfl, hle, hspace⟩
  · next c hc =>
    have hlt := lt_length_of_some hc
    split
    · -- A quoted value ends at its quote, at a `>` after the cap, or with the input.
      have hstop := skipValue_le (· != c) (Nat.succ_le_of_lt hlt)
      have hstart := @le_skipValue chars (start + 1) (· != c)
      have hquote := skipWhile_le (fun d => d != c && d != '>') hstop
      have hpast := le_skipWhile (fun d => d != c && d != '>') chars
        (skipValue (· != c) chars (start + 1))
      rw [slice_ok hstart hstop]
      refine ⟨_, _, rfl, ?_, ?_⟩
      · split <;> omega
      · split
        · exact charIs_lt ‹_›
        · exact hquote
    · split
      · have hstop := skipValue_le (fun d => !isWhitespace d && d != '>') (Nat.le_of_lt hlt)
        have hstart := @le_skipValue chars start (fun d => !isWhitespace d && d != '>')
        rw [slice_ok hstart hstop]
        exact ⟨_, _, rfl, Nat.le_trans hle hstart, hstop⟩
      · exact ⟨_, _, rfl, hle, hspace⟩

theorem endsAttrs_false (h : endsAttrs chars pos = false) :
    ∃ c, chars[pos]? = some c ∧ c ≠ '>' ∧ c ≠ '/' := by
  unfold endsAttrs at h
  split at h
  · cases h
  · next c hc => exact ⟨c, hc, by simpa using h⟩

/-- A name that is empty stands before a `=`. -/
theorem attrName_progress {start : Nat} (hc : chars[start]? = some c) (hgt : c ≠ '>')
    (hslash : c ≠ '/') (hspace : isWhitespace c = false)
    (hopen : charIs chars (skipWhile attrNameChar chars start) '<' = false) :
    start < skipWhile attrNameChar chars start ∨
      c = '=' ∧ skipWhile attrNameChar chars start = start := by
  cases hname : attrNameChar c with
  | true => exact .inl (lt_skipWhile hc hname)
  | false =>
    have hstop := skipWhile_eq hc hname
    rw [hstop, charIs, hc] at hopen
    have hlt : c ≠ '<' := by simpa using hopen
    have heq : c = '=' := by simpa [attrNameChar, hgt, hslash, hspace, hlt] using hname
    exact .inr ⟨heq, hstop⟩

theorem oversizedLength_pos {rest : Text} (hgt : c ≠ '>') (hslash : c ≠ '/')
    (hspace : isWhitespace c = false) : 0 < oversizedLength none (c :: rest) := by
  simp [oversizedLength, hgt, hslash, hspace]

/-! ## Ends of tokens -/

theorem endStartTag_le (h : pos ≤ chars.length) :
    pos ≤ (endStartTag chars pos).1 ∧ (endStartTag chars pos).1 ≤ chars.length := by
  have hslash := le_skipWhile isWhitespace chars (pos + 1)
  unfold endStartTag
  dsimp only
  split
  · next hself =>
    have hlt := charIs_lt (Bool.and_eq_true_iff.mp hself).2
    split
    · exact ⟨by omega, Nat.le_of_lt hlt⟩
    · have hpast := @le_skipPast chars (skipWhile isWhitespace chars (pos + 1))
      exact ⟨by omega, skipPast_le (Nat.le_of_lt hlt)⟩
  · split
    · exact ⟨Nat.le_refl _, h⟩
    · exact ⟨le_skipPast, skipPast_le h⟩

theorem readRawText_ok (element : Element) (h : pos ≤ chars.length) :
    ∃ token next, readRawText chars pos element = .ok (token, next) ∧ pos ≤ next := by
  have hstop := le_seek (matchesCi ("</".toList ++ element.tag ++ ['>'])) chars pos
  have hend := seek_le (matchesCi ("</".toList ++ element.tag ++ ['>'])) h
  unfold readRawText
  dsimp only
  split
  · rw [slice_ok hstop hend]
    exact ⟨_, _, rfl, by omega⟩
  · rw [slice_ok (by omega) (Nat.min_le_right _ _)]
    exact ⟨_, _, rfl, h⟩

theorem skipMarkup_gt (hc : chars[pos]? = some '<') : pos < skipMarkup chars pos := by
  have hlt := lt_length_of_some hc
  unfold skipMarkup
  dsimp only
  split
  · split
    · omega
    · have hbody := le_seek endsComment chars (pos + 4)
      split <;> omega
  · have hstop := lt_skipWhile (p := (· != '>')) hc rfl
    unfold skipPast
    dsimp only
    split <;> omega

section Scan

variable [CaseTables]

/-- A turn of the attribute loop moves on or leaves. -/
theorem readAttr_spec (attrs : Attrs) (h : pos ≤ chars.length) :
    ∃ next, readAttr chars (pos, attrs) = .ok next ∧
      Sum.elim (fun state => state.1 ≤ chars.length ∧
          chars.length - state.1 < chars.length - pos)
        (fun state => pos ≤ state.1 ∧ state.1 ≤ chars.length) next := by
  unfold readAttr
  dsimp only
  have hle := le_skipWhile isWhitespace chars pos
  have hstart := skipWhile_le isWhitespace h
  split
  · exact ⟨_, rfl, Nat.le_refl _, h⟩
  · have hskip : ∀ c, chars[skipWhile isWhitespace chars pos]? = some c → isWhitespace c = false :=
      fun c => skipWhile_stops
    generalize skipWhile isWhitespace chars pos = start at *
    split
    · exact ⟨_, rfl, hle, hstart⟩
    · next hends =>
      obtain ⟨c, hc, hgt, hslash⟩ := endsAttrs_false (by simpa using hends)
      have hspace := hskip c hc
      have hlt := lt_length_of_some hc
      have hstop := skipWhile_le attrNameChar hstart
      have hname := le_skipWhile attrNameChar chars start
      split
      · exact ⟨_, rfl, Nat.le_trans hle hname, hstop⟩
      · next hopen =>
        have hprogress := attrName_progress hc hgt hslash hspace (by simpa using hopen)
        generalize skipWhile attrNameChar chars start = stop at *
        rw [slice_ok hname hstop]
        dsimp only [Outcome.ok_bind]
        split
        · -- An oversized name is passed over together with its value.
          have hover := oversizedLength_le none (chars.drop stop)
          rw [List.length_drop] at hover
          have hmoved : start < stop + oversizedLength none (chars.drop stop) := by
            rcases hprogress with hmoved | ⟨-, rfl⟩
            · omega
            · rw [List.drop_eq_getElem_cons hlt]
              obtain ⟨_, rfl⟩ := List.getElem?_eq_some_iff.mp hc
              have hpos := @oversizedLength_pos _ (chars.drop (stop + 1)) hgt hslash hspace
              omega
          exact ⟨_, rfl, by omega, by omega⟩
        · have hvalue := skipWhile_le isWhitespace hstop
          have hafter := le_skipWhile isWhitespace chars stop
          have hread : ∃ val next, readAssigned chars (skipWhile isWhitespace chars stop) =
              .ok (val, next) ∧ start < next ∧ next ≤ chars.length := by
            unfold readAssigned
            split
            · next hassign =>
              obtain ⟨val, next, hread, hfrom, hto⟩ :=
                readAttrValue_advances (Nat.succ_le_of_lt (charIs_lt hassign))
              exact ⟨val, next, hread, by omega, hto⟩
            · next hassign =>
              refine ⟨_, _, rfl, ?_, hvalue⟩
              rcases hprogress with hmoved | ⟨rfl, rfl⟩
              · omega
              · rw [skipWhile_eq hc hspace, charIs, hc] at hassign
                exact absurd rfl hassign
          obtain ⟨val, next, hread, hfrom, hto⟩ := hread
          rw [hread]
          dsimp only [Outcome.ok_bind]
          split
          · exact ⟨_, rfl, hto, by omega⟩
          · exact ⟨_, rfl, hto, by omega⟩

theorem readAttrs_spec (h : pos ≤ chars.length) :
    ∃ next attrs, loop (readAttr chars) (chars.length + 1) (pos, ∅) = .ok (next, attrs) ∧
      pos ≤ next ∧ next ≤ chars.length := by
  have hturn : ∀ state : Nat × Attrs, pos ≤ state.1 ∧ state.1 ≤ chars.length →
      ∃ next, readAttr chars state = .ok next ∧
        Sum.elim (fun state' => (pos ≤ state'.1 ∧ state'.1 ≤ chars.length) ∧
            chars.length - state'.1 < chars.length - state.1)
          (fun state' => pos ≤ state'.1 ∧ state'.1 ≤ chars.length) next := by
    rintro ⟨current, attrs⟩ ⟨hfrom, hto⟩
    obtain ⟨next, hnext, hgood⟩ := readAttr_spec attrs hto
    refine ⟨next, hnext, ?_⟩
    cases next with
    | inl state =>
      obtain ⟨hbound, hless⟩ := hgood
      exact ⟨⟨by simp only at *; omega, hbound⟩, hless⟩
    | inr state => exact ⟨Nat.le_trans hfrom hgood.1, hgood.2⟩
  obtain ⟨⟨next, attrs⟩, hloop, hpost⟩ := loop_spec _ _ _ hturn
    (⟨Nat.le_refl _, h⟩ : pos ≤ ((pos, ∅) : Nat × Attrs).1 ∧ _)
    (Nat.lt_succ_of_le (Nat.sub_le chars.length pos))
  exact ⟨next, attrs, hloop, hpost⟩

/-! ## Tokens -/

theorem readStartTag_ok (h : pos ≤ chars.length) :
    ∃ token next, readStartTag chars pos = .ok (token, next) ∧ pos ≤ next := by
  have hspace := skipWhile_le isWhitespace h
  have hstart := le_skipWhile isWhitespace chars pos
  have hstop := skipWhile_le tagNameChar hspace
  have hname := le_skipWhile tagNameChar chars (skipWhile isWhitespace chars pos)
  unfold readStartTag
  dsimp only
  rw [slice_ok hname hstop]
  generalize skipWhile tagNameChar chars (skipWhile isWhitespace chars pos) = stop at *
  dsimp only [Outcome.ok_bind]
  split
  · have hpast := @le_skipPast chars stop
    exact ⟨_, _, rfl, by omega⟩
  · obtain ⟨next, attrs, hloop, hfrom, hto⟩ := readAttrs_spec hstop
    rw [hloop]
    dsimp only [Outcome.ok_bind]
    obtain ⟨hafter, hbound⟩ := endStartTag_le hto
    split
    · obtain ⟨token, last, hraw, hlast⟩ := readRawText_ok _ hbound
      exact ⟨token, last, hraw, by omega⟩
    · exact ⟨_, _, rfl, by omega⟩

theorem readCloseTag_ok (h : pos ≤ chars.length) :
    ∃ token next, readCloseTag chars pos = .ok (token, next) ∧ pos ≤ next := by
  have hle := le_skipWhile (· != '>') chars pos
  unfold readCloseTag
  dsimp only
  rw [slice_ok hle (skipWhile_le _ h)]
  exact ⟨_, _, rfl, by omega⟩

theorem readToken_ok (hc : chars[pos]? = some c) :
    ∃ token next, readToken chars pos c = .ok (token, next) ∧ pos < next := by
  have hlt := lt_length_of_some hc
  unfold readToken
  split
  · next hopen =>
    obtain rfl : c = '<' := eq_of_beq hopen
    split
    · next hnext =>
      obtain ⟨token, next, hread, hle⟩ := readCloseTag_ok (lt_length_of_some hnext)
      exact ⟨token, next, hread, by omega⟩
    · exact ⟨_, _, rfl, skipMarkup_gt hc⟩
    · exact ⟨_, _, rfl, skipMarkup_gt hc⟩
    · split
      · obtain ⟨token, next, hread, hle⟩ := readStartTag_ok (Nat.succ_le_of_lt hlt)
        exact ⟨token, next, hread, by omega⟩
      · exact ⟨_, _, rfl, Nat.lt_succ_self pos⟩
    · exact ⟨_, _, rfl, Nat.lt_succ_self pos⟩
  · next hopen =>
    have hmoved := lt_skipWhile (p := (· != '<')) hc (by simpa using hopen)
    dsimp only
    rw [slice_ok (Nat.le_of_lt hmoved) (skipWhile_le _ (Nat.le_of_lt hlt))]
    exact ⟨_, _, rfl, hmoved⟩

/-! ## The scan -/

/-- The tokens from `pos` on, at most `turns` of them. -/
def scanFrom (chars : Text) : Nat → Nat → Outcome (List Token)
  | 0, _ => .timeout
  | turns + 1, pos =>
    match chars[pos]? with
    | none => return []
    | some c => do
      let (token, next) ← readToken chars pos c
      return token :: (← scanFrom chars turns next)

def tokens (chars : Text) : Outcome (List Token) := scanFrom chars (chars.length + 1) 0

theorem scanFrom_ok {turns : Nat} (hturns : chars.length - pos < turns) :
    ∃ found, scanFrom chars turns pos = .ok found := by
  induction turns generalizing pos with
  | zero => exact absurd hturns (Nat.not_lt_zero _)
  | succ turns ih =>
    unfold scanFrom
    split
    · exact ⟨[], rfl⟩
    · next c hc =>
      have hlt := lt_length_of_some hc
      obtain ⟨token, next, hread, hmoved⟩ := readToken_ok hc
      obtain ⟨found, hfound⟩ := @ih next (by omega)
      rw [hread]
      dsimp only [Outcome.ok_bind]
      rw [hfound]
      exact ⟨_, rfl⟩

theorem tokens_ok (chars : Text) : ∃ found, tokens chars = .ok found :=
  scanFrom_ok (Nat.lt_succ_of_le (Nat.sub_le _ _))

theorem parseStep_end (stack : List Element) (hend : chars[pos]? = none) :
    parseStep chars (pos, stack) = .ok (.inr stack) := by
  rw [parseStep, hend]
  rfl

theorem parseStep_token (stack : List Element) {token : Token} {next : Nat}
    (hc : chars[pos]? = some c) (hread : readToken chars pos c = .ok (token, next)) :
    parseStep chars (pos, stack) = do
      return .inl (next, ← applyToken stack token) := by
  rw [parseStep, hc]
  dsimp only
  rw [hread]
  rfl

/-- The parser's loop applies the tokens one after another. -/
theorem loop_parseStep {turns : Nat} {stack : List Element} {found : List Token}
    (h : scanFrom chars turns pos = .ok found) :
    loop (parseStep chars) turns (pos, stack) = found.foldlM applyToken stack := by
  induction turns generalizing pos stack found with
  | zero => cases h
  | succ turns ih =>
    unfold scanFrom at h
    rw [loop]
    split at h
    · next hend =>
      cases h
      rw [parseStep_end stack hend]
      rfl
    · next c hc =>
      obtain ⟨token, next, hread, -⟩ := readToken_ok hc
      rw [hread] at h
      dsimp only [Outcome.ok_bind] at h
      obtain ⟨rest, hrest, heq⟩ := Outcome.bind_eq_ok.mp h
      cases heq
      rw [parseStep_token stack hc hread, List.foldlM_cons]
      cases applyToken stack token with
      | ok stack => exact ih hrest
      | _ => rfl

end Scan

/-! ## The two cuts -/

/-- A script or style with an end tag is cut at `maxRawTextLen` bytes. -/
def Token.Fits : Token → Prop
  | .raw _ content true =>
    byteLen content ≤ maxRawTextLen ∨ isCharBoundary content maxRawTextLen = true
  | _ => True

/-- The input is cut at `maxHtmlBytes` bytes. -/
def InputFits (html : Text) : Prop :=
  byteLen html ≤ maxHtmlBytes ∨ isCharBoundary html maxHtmlBytes = true

theorem applyToken_spec (token : Token) (stack : List Element) :
    (token.Fits ∧ ∃ next, applyToken stack token = .ok next) ∨
      (¬token.Fits ∧ applyToken stack token = .panic) := by
  cases token with
  | raw element content terminated =>
    cases terminated with
    | false => exact .inl ⟨trivial, _, rfl⟩
    | true =>
      rw [applyToken, Bool.true_and]
      by_cases hlong : maxRawTextLen < byteLen content
      · rw [if_pos (decide_eq_true hlong)]
        obtain ⟨hbound, kept, hkept⟩ | ⟨hbound, hpanic⟩ := truncate_spec hlong
        · rw [hkept]
          exact .inl ⟨.inr hbound, _, rfl⟩
        · rw [hpanic]
          refine .inr ⟨?_, rfl⟩
          rintro (hle | htrue)
          · omega
          · rw [hbound] at htrue
            cases htrue
      · rw [if_neg (by simpa using hlong)]
        exact .inl ⟨.inl (Nat.le_of_not_lt hlong), _, rfl⟩
  | _ => exact .inl ⟨trivial, _, rfl⟩

theorem applyTokens_spec (found : List Token) (stack : List Element) :
    ((∀ token ∈ found, token.Fits) ∧ ∃ next, found.foldlM applyToken stack = .ok next) ∨
      (¬(∀ token ∈ found, token.Fits) ∧ found.foldlM applyToken stack = .panic) := by
  induction found generalizing stack with
  | nil => exact .inl ⟨nofun, stack, rfl⟩
  | cons token found ih =>
    rw [List.foldlM_cons, List.forall_mem_cons]
    obtain ⟨hfits, next, hnext⟩ | ⟨hfits, hpanic⟩ := applyToken_spec token stack
    · rw [hnext]
      obtain ⟨hall, hok⟩ | ⟨hall, hpanic⟩ := ih next
      · exact .inl ⟨⟨hfits, hall⟩, hok⟩
      · exact .inr ⟨fun h => hall h.2, hpanic⟩
    · rw [hpanic]
      exact .inr ⟨fun h => hfits h.1, rfl⟩

theorem boundInput_spec (html : Text) :
    (InputFits html ∧ ∃ kept, boundInput html = .ok kept) ∨
      (¬InputFits html ∧ boundInput html = .panic) := by
  unfold boundInput InputFits
  split
  · next hlong =>
    obtain ⟨hbound, kept, -, -, -, hkept⟩ | ⟨hbound, hpanic⟩ := takeBytes_spec html maxHtmlBytes
    · exact .inl ⟨.inr hbound, kept, hkept⟩
    · refine .inr ⟨?_, hpanic⟩
      rintro (hle | htrue)
      · omega
      · rw [hbound] at htrue
        cases htrue
  · next hshort => exact .inl ⟨.inl (Nat.le_of_not_lt hshort), _, rfl⟩

section Tree

variable [CaseTables]

/-- Every script and style content that the scan of the bounded input meets fits. -/
def ContentsFit (html : Text) : Prop :=
  ∀ kept found, boundInput html = .ok kept → tokens (trimText kept) = .ok found →
    ∀ token ∈ found, token.Fits

theorem parseHtml_spec (html : Text) :
    ((InputFits html ∧ ContentsFit html) ∧ ∃ tree, parseHtml html = .ok tree) ∨
      (¬(InputFits html ∧ ContentsFit html) ∧ parseHtml html = .panic) := by
  unfold parseHtml
  obtain ⟨hinput, kept, hkept⟩ | ⟨hinput, hpanic⟩ := boundInput_spec html
  · rw [hkept]
    obtain ⟨found, hfound⟩ := tokens_ok (trimText kept)
    have hcontents : ContentsFit html ↔ ∀ token ∈ found, token.Fits := by
      constructor
      · exact fun h => h kept found hkept hfound
      · intro h kept' found' hkept' hfound'
        cases hkept.symm.trans hkept'
        cases hfound.symm.trans hfound'
        exact h
    rw [hcontents]
    dsimp only [Outcome.ok_bind]
    split
    · next hempty =>
      have hnil : trimText kept = [] := List.isEmpty_iff.mp hempty
      rw [hnil] at hfound
      cases hfound
      exact .inl ⟨⟨hinput, nofun⟩, _, rfl⟩
    · rw [loop_parseStep hfound]
      obtain ⟨hall, stack, hstack⟩ | ⟨hall, hpanic⟩ := applyTokens_spec found [Element.new "root".toList]
      · rw [hstack]
        refine .inl ⟨⟨hinput, hall⟩, ?_⟩
        cases stack <;> exact ⟨_, rfl⟩
      · rw [hpanic]
        exact .inr ⟨fun h => hall h.2, rfl⟩
  · rw [hpanic]
    exact .inr ⟨fun h => hinput h.1, rfl⟩

/-- The parser gives a tree exactly when the page and the content of its raw text elements can be cut
to their limits, which must not fall inside a character. -/
theorem parseHtml_returns (html : Text) :
    (∃ tree, parseHtml html = .ok tree) ↔ InputFits html ∧ ContentsFit html := by
  obtain ⟨hfits, hok⟩ | ⟨hfits, hpanic⟩ := parseHtml_spec html
  · exact iff_of_true hok hfits
  · rw [hpanic]
    exact iff_of_false nofun hfits

end Tree

theorem byteLen_replicate (count : Nat) (rest : Text) :
    byteLen (List.replicate count 'a' ++ rest) = count + byteLen rest := by
  simp [byteLen, show Char.utf8Size 'a' = 1 from rfl]

theorem isCharBoundary_replicate (count : Nat) (rest : Text) (bytes : Nat) :
    isCharBoundary (List.replicate count 'a' ++ rest) (count + bytes + 1) =
      isCharBoundary rest (bytes + 1) := by
  induction count with
  | zero => rw [List.replicate_zero, List.nil_append, Nat.zero_add]
  | succ count ih =>
    rw [List.replicate_succ, List.cons_append, isCharBoundary, ← ih]
    · simp [show Char.utf8Size 'a' = 1 from rfl, Nat.add_right_comm]
    · simp

/-- `to_lowercase` where every character is ASCII. -/
abbrev asciiTables : CaseTables := ⟨fun text => text.map Char.toLower⟩

/-- An `é` across the size limit. -/
def acrossLimit : Text := List.replicate (maxHtmlBytes - 1) 'a' ++ ['é']

theorem parseHtml_acrossLimit : ¬∃ tree, @parseHtml asciiTables acrossLimit = .ok tree := by
  rw [@parseHtml_returns asciiTables]
  rintro ⟨hinput, -⟩
  have hlen : byteLen acrossLimit = maxHtmlBytes - 1 + 2 := byteLen_replicate _ _
  have hbound : isCharBoundary acrossLimit maxHtmlBytes = false :=
    isCharBoundary_replicate (maxHtmlBytes - 1) ['é'] 0
  rcases hinput with hle | htrue
  · rw [hlen] at hle
    exact absurd hle (by decide)
  · rw [hbound] at htrue
    cases htrue

end GhitaBrowser.Html
