import GhitaBrowser.Html.Parser

/-!
# Escaped text is read back

The serialisers write `&`, `<`, `>` and `"` as character references, one replacement after
the other, and the parser decodes references. Each character of the text is written on its own
(`escapeHtml_eq`), as itself or as a reference that the decoder reads whole, so no text around
it makes another reference (`decode_flatMap`).
-/

namespace GhitaBrowser.Html

/-! ## The serialisers of the live document -/

def escapeHtmlText (value : Text) : Text :=
  replaceChar (replaceChar (replaceChar value '&' "&amp;".toList) '<' "&lt;".toList)
    '>' "&gt;".toList

def escapeHtmlAttrValue (value : Text) : Text :=
  replaceChar (escapeHtmlText value) '"' "&quot;".toList

/-! ## One character after the other -/

theorem replaceChar_flatMap (s : Text) (f : Char → Text) (pattern : Char) (replacement : Text) :
    replaceChar (s.flatMap f) pattern replacement =
      s.flatMap fun c => replaceChar (f c) pattern replacement :=
  List.flatMap_assoc ..

theorem replaceChar_of_ne {c pattern : Char} (h : c ≠ pattern) (replacement : Text) :
    replaceChar [c] pattern replacement = [c] := by
  rw [replaceChar, List.flatMap_singleton, if_neg (by simpa using h)]

theorem escapeHtmlText_eq (s : Text) : escapeHtmlText s = s.flatMap fun c => escapeHtmlText [c] := by
  have hfirst (text : Text) : replaceChar text '&' "&amp;".toList =
      text.flatMap fun c => replaceChar [c] '&' "&amp;".toList :=
    List.flatMap_congr fun c _ => (List.flatMap_singleton ..).symm
  rw [escapeHtmlText, hfirst, replaceChar_flatMap, replaceChar_flatMap]
  rfl

theorem escapeHtmlAttrValue_eq (s : Text) :
    escapeHtmlAttrValue s = s.flatMap fun c => escapeHtmlAttrValue [c] := by
  rw [escapeHtmlAttrValue, escapeHtmlText_eq, replaceChar_flatMap]
  rfl

/-! ## What the decoder reads -/

/-- A text that the decoder reads as the character, whatever follows. -/
inductive Stands (c : Char) : Text → Prop
  | plain (h : c ≠ '&') : Stands c [c]
  | reference (name : Text) (decoded : decodeEntity name = [c]) (closed : ';' ∉ name)
      (long : 1 < name.length) (short : name.length < 32) : Stands c ('&' :: name ++ [';'])

theorem decodeFrom_skip (skipped rest : Text) :
    decodeFrom skipped.length (skipped ++ rest) = decodeFrom 0 rest := by
  induction skipped with
  | nil => rfl
  | cons c skipped ih => exact ih

theorem findIdx?_reference {name rest : Text} (closed : ';' ∉ name) (short : name.length < 32) :
    ((name ++ ';' :: rest).take 32).findIdx? (· == ';') = some name.length := by
  have hname : name.findIdx? (· == ';') = none := by
    rw [List.findIdx?_eq_none_iff]
    intro c hc
    exact beq_eq_false_iff_ne.mpr fun heq => closed (heq ▸ hc)
  obtain ⟨left, hleft⟩ : ∃ left, 32 - name.length = left + 1 := ⟨31 - name.length, by omega⟩
  rw [List.take_append, List.take_of_length_le (Nat.le_of_lt short), hleft, List.take_succ_cons,
    List.findIdx?_append, hname, List.findIdx?_cons]
  simp

theorem decodeFrom_stands {c : Char} {code : Text} (h : Stands c code) (rest : Text) :
    decodeFrom 0 (code ++ rest) = c :: decodeFrom 0 rest := by
  cases h with
  | plain hc =>
    show decodeFrom 0 (c :: rest) = _
    rw [decodeFrom, if_neg (by simpa using hc)]
  | reference name decoded closed long short =>
    have hskip : decodeFrom (name.length + 1) (name ++ ';' :: rest) = decodeFrom 0 rest := by
      have h := decodeFrom_skip (name ++ [';']) rest
      rwa [List.length_append, List.append_assoc] at h
    have hcode : '&' :: name ++ [';'] ++ rest = '&' :: (name ++ ';' :: rest) := by simp
    rw [hcode, decodeFrom, if_pos (beq_self_eq_true '&'), findIdx?_reference closed short]
    dsimp only
    rw [if_pos long, List.take_left, decoded, hskip]
    rfl

theorem decode_flatMap {write : Char → Text} (h : ∀ c, Stands c (write c)) (s : Text) :
    decodeHtmlEntities (s.flatMap write) = s := by
  unfold decodeHtmlEntities
  induction s with
  | nil => rfl
  | cons c s ih => rw [List.flatMap_cons, decodeFrom_stands (h c), ih]

theorem stands_escaped (c : Char) : Stands c (escapeHtmlAttrValue [c]) := by
  rcases eq_or_ne c '&' with rfl | hamp
  · exact .reference "amp".toList rfl (by decide) (by decide) (by decide)
  rcases eq_or_ne c '<' with rfl | hlt
  · exact .reference "lt".toList rfl (by decide) (by decide) (by decide)
  rcases eq_or_ne c '>' with rfl | hgt
  · exact .reference "gt".toList rfl (by decide) (by decide) (by decide)
  rcases eq_or_ne c '"' with rfl | hquot
  · exact .reference "quot".toList rfl (by decide) (by decide) (by decide)
  · have hself : escapeHtmlAttrValue [c] = [c] := by
      rw [escapeHtmlAttrValue, escapeHtmlText, replaceChar_of_ne hamp, replaceChar_of_ne hlt,
        replaceChar_of_ne hgt, replaceChar_of_ne hquot]
    rw [hself]
    exact .plain hamp

/-- Both serialisers' escaped text decodes to the text, whatever references it seemed to hold. -/
theorem decode_escaped (s : Text) :
    decodeHtmlEntities (escapeHtml s) = s ∧ decodeHtmlEntities (escapeHtmlAttrValue s) = s := by
  have hdecoded : decodeHtmlEntities (escapeHtmlAttrValue s) = s := by
    rw [escapeHtmlAttrValue_eq]
    exact decode_flatMap stands_escaped s
  exact ⟨hdecoded, hdecoded⟩

example : escapeHtml "&lt;".toList = "&amp;lt;".toList := by decide

end GhitaBrowser.Html
