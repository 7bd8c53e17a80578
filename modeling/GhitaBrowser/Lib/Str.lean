import GhitaBrowser.Lib.Scan
import Mathlib.Algebra.Order.Ring.Int
import Mathlib.Data.List.Basic

/-!
# Texts and their slices

`char::is_whitespace`, `str::trim` and the ASCII classes.
-/

namespace GhitaBrowser

/-- `char::is_whitespace`: the characters with the property `White_Space`. -/
def isWhitespace (c : Char) : Bool :=
  let n := c.toNat
  (9 ≤ n && n ≤ 13) || n == 32 || n == 0x85 || n == 0xA0 || n == 0x1680 ||
    (0x2000 ≤ n && n ≤ 0x200A) || n == 0x2028 || n == 0x2029 || n == 0x202F || n == 0x205F ||
    n == 0x3000

def trim (text : String) : String :=
  let kept := text.toList.dropWhile isWhitespace
  String.ofList (kept.reverse.dropWhile isWhitespace).reverse

def toAsciiLowercase (text : String) : String :=
  String.ofList (text.toList.map Char.toLower)

/-- `chars().take(count).collect()`. -/
def takeChars (count : Nat) (text : String) : String := String.ofList (text.toList.take count)

theorem toLower_toLower (c : Char) : c.toLower.toLower = c.toLower := by
  unfold Char.toLower
  split
  · next hupper =>
    split
    · next hagain =>
      exfalso
      have hfrom := UInt32.le_iff_toNat_le.mp hupper.1
      have hto := UInt32.le_iff_toNat_le.mp hupper.2
      have hlow := UInt32.le_iff_toNat_le.mp hagain.2
      simp at hfrom hto hlow
      omega
    · rfl
  · rfl

theorem toLower_cases (c : Char) :
    c.toLower = c ∨ 65 ≤ c.toNat ∧ c.toNat ≤ 90 ∧ c.toLower.toNat = c.toNat + 32 := by
  unfold Char.toLower
  split
  · next upper =>
    have least := UInt32.le_iff_toNat_le.mp upper.1
    have greatest := UInt32.le_iff_toNat_le.mp upper.2
    have value : c.toNat = c.val.toNat := rfl
    simp at least greatest
    refine .inr ⟨value ▸ least, value ▸ greatest, ?_⟩
    change (c.val + _).toNat = _
    rw [UInt32.toNat_add, value]
    simp
    omega
  · exact .inl rfl

theorem isWhitespace_ascii {c : Char} (low : 33 ≤ c.toNat) (high : c.toNat ≤ 126) :
    isWhitespace c = false := by
  simp only [isWhitespace]
  simp
  omega

theorem isWhitespace_toLower (c : Char) : isWhitespace c.toLower = isWhitespace c := by
  rcases toLower_cases c with same | ⟨low, high, lower⟩
  · rw [same]
  · rw [isWhitespace_ascii (by omega) (by omega), isWhitespace_ascii (by omega) (by omega)]

end GhitaBrowser

/-!
## String slices

Methods of `str` on the characters of a text. Positions are byte offsets, and a slice
panics off a character boundary or with its bounds out of order.
-/

namespace GhitaBrowser.Str

def lowercase (text : Text) : Text := text.map Char.toLower

def eqIgnoreCase (left right : Text) : Bool := lowercase left == lowercase right

def trimStart (text : Text) : Text := text.dropWhile isWhitespace

def trimEnd (text : Text) : Text := (text.reverse.dropWhile isWhitespace).reverse

def trim (text : Text) : Text := trimEnd (trimStart text)

/-- `trim_matches` with a character. -/
def trimMatches (c : Char) (text : Text) : Text :=
  ((text.dropWhile (· == c)).reverse.dropWhile (· == c)).reverse

def startsWith (pattern text : Text) : Bool := pattern.isPrefixOf text

def endsWith (pattern text : Text) : Bool := pattern.isSuffixOf text

def stripStart (pattern text : Text) : Option Text :=
  if startsWith pattern text then some (text.drop pattern.length) else none

def stripEnd (pattern text : Text) : Option Text :=
  if endsWith pattern text then some (text.take (text.length - pattern.length)) else none

/-- `split_once`: the texts before and after the first occurrence. -/
def splitOnce (pattern : Text) : Text → Option (Text × Text)
  | [] => if pattern.isEmpty then some ([], []) else none
  | c :: rest =>
    if startsWith pattern (c :: rest) then some ([], (c :: rest).drop pattern.length)
    else (splitOnce pattern rest).map fun (before, after) => (c :: before, after)

def contains (pattern text : Text) : Bool := (splitOnce pattern text).isSome

/-- `split` with a pattern that is not empty; `skip` characters belong to an occurrence. -/
def splitFrom (pattern : Text) : Nat → Text → Text → List Text
  | _, part, [] => [part]
  | skip + 1, part, _ :: rest => splitFrom pattern skip part rest
  | 0, part, c :: rest =>
    if startsWith pattern (c :: rest) then part :: splitFrom pattern (pattern.length - 1) [] rest
    else splitFrom pattern 0 (part ++ [c]) rest

def split (pattern text : Text) : List Text := splitFrom pattern 0 [] text

/-- `split_ascii_whitespace`. -/
def asciiWords (text : Text) : List Text :=
  (text.splitOnP fun c => c == ' ' || c == '\t' || c == '\n' || c == '\x0c' || c == '\r').filter
    (!·.isEmpty)

/-- `find` of a character. -/
def find (c : Char) : Text → Option Nat
  | [] => none
  | d :: rest => if d == c then some 0 else (find c rest).map (d.utf8Size + ·)

/-! ## Byte slices -/

/-- `&text[bytes..]`. -/
def dropBytes : Text → Nat → Outcome Text
  | text, 0 => .ok text
  | [], _ + 1 => .panic
  | c :: rest, bytes => if c.utf8Size ≤ bytes then dropBytes rest (bytes - c.utf8Size) else .panic

/-- `&text[start..stop]`. -/
def sliceBytes (text : Text) (start stop : Nat) : Outcome Text :=
  if start ≤ stop then do dropBytes (← takeBytes text stop) start else .panic

/-- `text.get(..bytes)`. -/
def getTo (text : Text) (bytes : Nat) : Option Text :=
  match takeBytes text bytes with
  | .ok kept => some kept
  | _ => none

/-- `text.get(bytes..)`. -/
def getFrom (text : Text) (bytes : Nat) : Option Text :=
  match dropBytes text bytes with
  | .ok rest => some rest
  | _ => none

theorem trim_eq_self {text : Text} {first last : Char} (hfirst : text.head? = some first)
    (hlast : text.getLast? = some last) (hstart : isWhitespace first = false)
    (hend : isWhitespace last = false) : trim text = text := by
  obtain ⟨rest, rfl⟩ := List.head?_eq_some_iff.1 hfirst
  obtain ⟨before, hsplit⟩ := List.getLast?_eq_some_iff.1 hlast
  rw [trim, trimStart, List.dropWhile_cons_of_neg (by simp [hstart]), trimEnd, hsplit,
    List.reverse_append, List.reverse_singleton, List.singleton_append,
    List.dropWhile_cons_of_neg (by simp [hend]), List.reverse_cons, List.reverse_reverse]

@[simp] theorem byteLen_nil : byteLen [] = 0 := rfl

@[simp] theorem byteLen_cons (c : Char) (rest : Text) :
    byteLen (c :: rest) = c.utf8Size + byteLen rest := List.sum_cons

@[simp] theorem byteLen_append (left right : Text) :
    byteLen (left ++ right) = byteLen left + byteLen right := by
  simp [byteLen]

theorem takeBytes_append (left right : Text) : takeBytes (left ++ right) (byteLen left) = .ok left := by
  induction left with
  | nil => cases right <;> rfl
  | cons c rest ih =>
    have hpos := c.utf8Size_pos
    rw [List.cons_append, byteLen_cons, takeBytes, if_pos (Nat.le_add_right _ _),
      Nat.add_sub_cancel_left, ih]
    · rfl
    · omega

theorem dropBytes_append (left right : Text) : dropBytes (left ++ right) (byteLen left) = .ok right := by
  induction left with
  | nil => cases right <;> rfl
  | cons c rest ih =>
    have hpos := c.utf8Size_pos
    rw [List.cons_append, byteLen_cons, dropBytes, if_pos (Nat.le_add_right _ _),
      Nat.add_sub_cancel_left, ih]
    omega

theorem sliceBytes_append (left middle right : Text) :
    sliceBytes (left ++ middle ++ right) (byteLen left) (byteLen (left ++ middle)) = .ok middle := by
  rw [sliceBytes, if_pos (by simp), takeBytes_append, Outcome.ok_bind, dropBytes_append]

theorem find_some {c : Char} {text : Text} {pos : Nat} (h : find c text = some pos) :
    ∃ before after, text = before ++ c :: after ∧ byteLen before = pos := by
  induction text generalizing pos with
  | nil => cases h
  | cons d rest ih =>
    unfold find at h
    split at h
    · next heq => exact ⟨[], rest, by rw [eq_of_beq heq]; rfl, Option.some.inj h⟩
    · obtain ⟨pos, hpos, rfl⟩ := Option.map_eq_some_iff.mp h
      obtain ⟨before, after, rfl, rfl⟩ := ih hpos
      exact ⟨d :: before, after, rfl, byteLen_cons d before⟩

end GhitaBrowser.Str
