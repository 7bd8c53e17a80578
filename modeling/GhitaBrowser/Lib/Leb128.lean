import Mathlib.Algebra.Order.Ring.Int
import Mathlib.Data.List.Basic
import Mathlib.Tactic.Ring
import Mathlib.Tactic.Linarith

/-!
# LEB128

A number is a run of bytes of seven bits each, lowest first, in which every byte but
the last has its top bit set. `encoding max bytes` is the run at the front of
`bytes` when it ends within `max` bytes; where it ends does not depend on `max`, so
two readers with different limits can be compared by the length of the run alone.
-/

namespace GhitaBrowser.Leb128

/-- The low seven bits of a byte, as a value of `w` bits. -/
def payload (w : Nat) (byte : UInt8) : BitVec w := (byte &&& 0x7F).toBitVec.setWidth w

/-- The top bit: another byte of the same number follows. -/
def continues (byte : UInt8) : Bool := byte &&& 0x80 != 0

/-- The bit of the last byte that is the sign of a signed number. -/
def signBit (byte : UInt8) : Bool := byte &&& 0x40 != 0

def encoding : Nat → List UInt8 → Option (List UInt8)
  | 0, _ => none
  | _ + 1, [] => none
  | max + 1, byte :: rest =>
    if continues byte then (encoding max rest).map (byte :: ·) else some [byte]

def value (w : Nat) : List UInt8 → BitVec w
  | [] => 0
  | byte :: rest => payload w byte ||| (value w rest <<< 7)

/-- The ones that a set sign bit puts above the bits of the run. -/
def signExtension (w : Nat) (bytes : List UInt8) : BitVec w :=
  if 7 * bytes.length < w ∧ bytes.getLast?.any signBit then
    BitVec.allOnes w <<< (7 * bytes.length)
  else 0

def signedValue (w : Nat) (bytes : List UInt8) : BitVec w :=
  value w bytes ||| signExtension w bytes

/-! ## Where a number ends -/

variable {max : Nat} {run : List UInt8}

theorem encoding_length {bytes : List UInt8}
    (found : encoding max bytes = some run) : 0 < run.length ∧ run.length ≤ max := by
  induction max generalizing bytes run with
  | zero => simp [encoding] at found
  | succ max ih =>
    cases bytes with
    | nil => simp [encoding] at found
    | cons byte rest =>
      rw [encoding] at found
      split at found
      · obtain ⟨tail, inRest, rfl⟩ := Option.map_eq_some_iff.mp found
        have bound := ih inRest
        simp only [List.length_cons]
        omega
      · cases found
        simp

theorem encoding_of_length_le {limit : Nat} {bytes : List UInt8}
    (found : encoding max bytes = some run) (fits : run.length ≤ limit) :
    encoding limit bytes = some run := by
  induction max generalizing limit bytes run with
  | zero => simp [encoding] at found
  | succ max ih =>
    cases limit with
    | zero =>
      have bound := encoding_length found
      omega
    | succ limit =>
      cases bytes with
      | nil => simp [encoding] at found
      | cons byte rest =>
        rw [encoding] at found ⊢
        split at found
        case isTrue more =>
          obtain ⟨tail, inRest, rfl⟩ := Option.map_eq_some_iff.mp found
          rw [if_pos more, ih inRest (Nat.le_of_succ_le_succ fits)]
          rfl
        case isFalse last =>
          rw [if_neg last]
          exact found

theorem encoding_unique {limit : Nat} {bytes other : List UInt8}
    (found : encoding max bytes = some run) (found' : encoding limit bytes = some other) :
    run = other := by
  have enlarged := encoding_of_length_le found (Nat.le_max_left run.length other.length)
  have enlarged' := encoding_of_length_le found' (Nat.le_max_right run.length other.length)
  exact Option.some.inj (enlarged.symm.trans enlarged')

/-- A reader with another limit finds the same run or, when the run is longer than the
limit, none. -/
theorem encoding_eq_some_iff {limit : Nat} {bytes : List UInt8}
    (found : encoding max bytes = some run) {other : List UInt8} :
    encoding limit bytes = some other ↔ other = run ∧ run.length ≤ limit := by
  constructor
  · intro found'
    obtain rfl := encoding_unique found found'
    exact ⟨rfl, (encoding_length found').2⟩
  · rintro ⟨rfl, fits⟩
    exact encoding_of_length_le found fits

variable {byte : UInt8}

theorem encoding_cons_of_continues {rest : List UInt8} (more : continues byte) :
    encoding (max + 1) (byte :: rest) = some run ↔
      ∃ tail, encoding max rest = some tail ∧ run = byte :: tail := by
  rw [encoding, if_pos more, Option.map_eq_some_iff]
  constructor
  · rintro ⟨tail, inRest, rfl⟩
    exact ⟨tail, inRest, rfl⟩
  · rintro ⟨tail, inRest, rfl⟩
    exact ⟨tail, inRest, rfl⟩

/-- A number whose first byte continues, from the number behind that byte. -/
theorem exists_encoding_cons {rest : List UInt8} {byte : UInt8} (more : continues byte = true)
    {P : List UInt8 → Prop} :
    (∃ run, encoding (max + 1) (byte :: rest) = some run ∧ P run) ↔
      ∃ tail, encoding max rest = some tail ∧ P (byte :: tail) := by
  constructor
  · rintro ⟨run, found, holds⟩
    obtain ⟨tail, inRest, rfl⟩ := (encoding_cons_of_continues more).mp found
    exact ⟨tail, inRest, holds⟩
  · rintro ⟨tail, inRest, holds⟩
    exact ⟨_, (encoding_cons_of_continues more).mpr ⟨tail, inRest, rfl⟩, holds⟩

theorem encoding_cons_of_last {rest : List UInt8}
    (last : continues byte = false) : encoding (max + 1) (byte :: rest) = some [byte] := by
  rw [encoding, if_neg (by simp [last])]

theorem encoding_drop {bytes : List UInt8} (count : Nat)
    (found : encoding max bytes = some run) (inside : count < run.length) :
    encoding (max - count) (bytes.drop count) = some (run.drop count) := by
  induction count generalizing max bytes run with
  | zero => simpa using found
  | succ count ih =>
    obtain ⟨max, rfl⟩ : ∃ n, max = n + 1 := ⟨max - 1, by
      have := (encoding_length found).2
      omega⟩
    cases bytes with
    | nil => simp [encoding] at found
    | cons byte rest =>
      rw [encoding] at found
      split at found
      · obtain ⟨tail, inRest, rfl⟩ := Option.map_eq_some_iff.mp found
        rw [Nat.add_sub_add_right, List.drop_succ_cons, List.drop_succ_cons]
        exact ih inRest (Nat.lt_of_succ_lt_succ inside)
      · cases found
        simp at inside

theorem encoding_head {rest : List UInt8} (found : encoding max (byte :: rest) = some run) :
    (continues byte = false ∧ run = [byte]) ∨
      (continues byte = true ∧ ∃ tail, encoding (max - 1) rest = some tail ∧
        run = byte :: tail) := by
  obtain ⟨max, rfl⟩ : ∃ n, max = n + 1 := ⟨max - 1, by
    have := encoding_length found
    omega⟩
  cases more : continues byte with
  | false =>
    rw [encoding_cons_of_last more] at found
    cases found
    exact .inl ⟨rfl, rfl⟩
  | true =>
    obtain ⟨tail, inRest, rfl⟩ := (encoding_cons_of_continues more).mp found
    exact .inr ⟨rfl, tail, inRest, rfl⟩

/-! ## Its value -/

variable {w : Nat}

theorem value_append (read rest : List UInt8) :
    value w (read ++ rest) = value w read ||| (value w rest <<< (7 * read.length)) := by
  induction read with
  | nil => simp [value]
  | cons byte read ih =>
    have shift : 7 * (byte :: read).length = 7 * read.length + 7 := by
      rw [List.length_cons]
      omega
    rw [List.cons_append, value, value, ih, BitVec.shiftLeft_or_distrib, shift,
      BitVec.shiftLeft_add, BitVec.or_assoc]

theorem value_singleton (byte : UInt8) : value w [byte] = payload w byte := by
  simp [value]

/-- What a loop that shifts each byte into place holds after one more byte. -/
theorem value_concat (read : List UInt8) (byte : UInt8) :
    value w (read ++ [byte]) = value w read ||| (payload w byte <<< (7 * read.length)) := by
  rw [value_append, value_singleton]

/-- A number below `2 ^ (7 * count)` is the value of its first `count` bytes. -/
theorem value_take_of_lt {count : Nat} (small : (value w run).toNat < 2 ^ (7 * count)) :
    value w (run.take count) = value w run := by
  by_cases long : run.length ≤ count
  · rw [List.take_of_length_le long]
  · have split : value w run =
        value w (run.take count) ||| (value w (run.drop count) <<< (7 * count)) := by
      conv_lhs => rw [← List.take_append_drop count run, value_append]
      rw [List.length_take, Nat.min_eq_left (by omega)]
    ext i inRange
    have bit := congrArg (fun number => number[i]) split
    simp only [BitVec.getElem_or, BitVec.getElem_shiftLeft] at bit
    by_cases low : i < 7 * count
    · simpa [low] using bit.symm
    · have zero : (value w run)[i] = false := by
        rw [← BitVec.getLsbD_eq_getElem, BitVec.getLsbD]
        refine Nat.testBit_lt_two_pow (Nat.lt_of_lt_of_le small ?_)
        exact Nat.pow_le_pow_right (by decide) (by omega)
      rw [zero] at bit
      have part := (Bool.or_eq_false_iff.mp bit.symm).1
      rw [part, zero]

theorem eq_zero_of_payload (last : continues byte = false)
    (zero : (payload 64 byte).toNat = 0) : byte = 0 := by
  have table : ∀ n < 256, continues (UInt8.ofNat n) = false →
      (payload 64 (UInt8.ofNat n)).toNat = 0 → UInt8.ofNat n = 0 := by decide +kernel
  have small : byte.toNat < 256 := byte.toNat_lt
  have same : UInt8.ofNat byte.toNat = byte := by simp
  have found := table byte.toNat small
  rw [same] at found
  exact found last zero

theorem signedValue_concat (read : List UInt8) (last : UInt8) :
    signedValue w (read ++ [last]) =
      if 7 * (read ++ [last]).length < w && signBit last then
        value w (read ++ [last]) ||| (BitVec.allOnes w <<< (7 * (read ++ [last]).length))
      else value w (read ++ [last]) := by
  unfold signedValue signExtension
  simp only [List.getLast?_append, List.getLast?_singleton, Option.some_or, Option.any_some,
    Bool.and_eq_true, decide_eq_true_eq]
  split <;> simp

theorem setWidth_payload {v : Nat} (narrow : v ≤ w) (byte : UInt8) :
    (payload w byte).setWidth v = payload v byte := by
  unfold payload
  rw [BitVec.setWidth_setWidth_of_le _ narrow]

theorem setWidth_value {v : Nat} (narrow : v ≤ w) (bytes : List UInt8) :
    (value w bytes).setWidth v = value v bytes := by
  induction bytes with
  | nil => simp [value]
  | cons byte rest ih =>
    rw [value, value, BitVec.setWidth_or, setWidth_payload narrow,
      BitVec.setWidth_shiftLeft_of_le narrow, ih]

theorem toNat_value_of_lt {v : Nat} (narrow : v ≤ w)
    (small : (value w run).toNat < 2 ^ v) : (value v run).toNat = (value w run).toNat := by
  rw [← setWidth_value narrow, BitVec.toNat_setWidth, Nat.mod_eq_of_lt small]

theorem setWidth_allOnes {v : Nat} (narrow : v ≤ w) :
    (BitVec.allOnes w).setWidth v = BitVec.allOnes v := by
  ext i small
  have small' : i < w := by omega
  simp [small']

theorem setWidth_signExtension {v : Nat} (narrow : v ≤ w) (bytes : List UInt8) :
    (signExtension w bytes).setWidth v = signExtension v bytes := by
  unfold signExtension
  by_cases sign : bytes.getLast?.any signBit
  · by_cases low : 7 * bytes.length < v
    · have low' : 7 * bytes.length < w := by omega
      rw [if_pos ⟨low', sign⟩, if_pos ⟨low, sign⟩, BitVec.setWidth_shiftLeft_of_le narrow,
        setWidth_allOnes narrow]
    · have high : ¬(7 * bytes.length < v ∧ bytes.getLast?.any signBit) := fun h => low h.1
      rw [if_neg high]
      split
      · rw [BitVec.setWidth_shiftLeft_of_le narrow]
        exact BitVec.shiftLeft_eq_zero (by omega)
      · simp
  · rw [if_neg (fun h => sign h.2), if_neg (fun h => sign h.2)]
    simp

theorem setWidth_signedValue {v : Nat} (narrow : v ≤ w) (bytes : List UInt8) :
    (signedValue w bytes).setWidth v = signedValue v bytes := by
  rw [signedValue, BitVec.setWidth_or, setWidth_value narrow, setWidth_signExtension narrow,
    signedValue]

end GhitaBrowser.Leb128

/-!
## The numbers that LEB128 stands for

`number` and `signedNumber` are the numbers of a run of bytes without any width. A reader with
64 bits computes them modulo `2 ^ 64` (`toNat_value`, `toInt_signedValue`), which is the number
itself unless a tenth byte has bits that do not fit (`fits_iff`, `signedFits_iff`). `encode` and
`encodeSigned` write each number with the fewest bytes.
-/

namespace GhitaBrowser.Leb128

/-- The seven bits of a byte. -/
def digit (byte : UInt8) : Nat := (byte &&& 0x7F).toNat

def number : List UInt8 → Nat
  | [] => 0
  | byte :: rest => digit byte + 128 * number rest

def signedNumber (run : List UInt8) : Int :=
  number run - (if run.getLast?.any signBit then 2 ^ (7 * run.length) else 0 : Nat)

def encode (n : Nat) : List UInt8 :=
  if n < 128 then [UInt8.ofNat n] else UInt8.ofNat (n % 128 + 128) :: encode (n / 128)
termination_by n

/-- The bytes stop where the rest is all sign and the last byte has it. -/
def encodeSigned (n : Int) : List UInt8 :=
  if -64 ≤ n ∧ n < 64 then [UInt8.ofNat (n % 128).toNat]
  else UInt8.ofNat ((n % 128).toNat + 128) :: encodeSigned (n / 128)
termination_by n.natAbs

/-! ## Digits -/

theorem digit_lt (byte : UInt8) : digit byte < 128 := by
  unfold digit
  rw [UInt8.toNat_and]
  exact Nat.lt_of_le_of_lt Nat.and_le_right (by decide)

theorem toNat_payload (byte : UInt8) : (payload 64 byte).toNat = digit byte := by
  rw [payload, BitVec.toNat_setWidth]
  exact Nat.mod_eq_of_lt (Nat.lt_trans (digit_lt byte) (by decide))

theorem digit_ofNat {n : Nat} (h : n < 128) : digit (UInt8.ofNat n) = n := by
  rw [digit, UInt8.toNat_and, UInt8.toNat_ofNat]
  show n % 2 ^ 8 &&& 2 ^ 7 - 1 = n
  rw [Nat.and_two_pow_sub_one_eq_mod, Nat.mod_mod_of_dvd _ (by decide), Nat.mod_eq_of_lt h]

theorem digit_ofNat_add {n : Nat} (h : n < 128) : digit (UInt8.ofNat (n + 128)) = n := by
  rw [digit, UInt8.toNat_and, UInt8.toNat_ofNat]
  show (n + 128) % 2 ^ 8 &&& 2 ^ 7 - 1 = n
  rw [Nat.and_two_pow_sub_one_eq_mod, Nat.mod_mod_of_dvd _ (by decide)]
  omega

theorem flags_ofNat : ∀ n < 256, continues (UInt8.ofNat n) = decide (128 ≤ n) ∧
    signBit (UInt8.ofNat n) = decide (64 ≤ n % 128) := by decide +kernel

theorem signBit_eq (byte : UInt8) : signBit byte = decide (64 ≤ digit byte) := by
  have table : ∀ n < 256, signBit (UInt8.ofNat n) = decide (64 ≤ digit (UInt8.ofNat n)) := by
    decide +kernel
  have found := table byte.toNat byte.toNat_lt
  rwa [UInt8.ofNat_toNat] at found

variable (run : List UInt8)

theorem number_lt : number run < 2 ^ (7 * run.length) := by
  induction run with
  | nil => exact Nat.one_pos
  | cons byte rest ih =>
    have hdigit := digit_lt byte
    have hpow : 2 ^ (7 * (byte :: rest).length) = 128 * 2 ^ (7 * rest.length) := by
      rw [List.length_cons, Nat.mul_succ, Nat.pow_add, Nat.mul_comm]
    rw [number, hpow]
    omega

theorem number_append (run rest : List UInt8) :
    number (run ++ rest) = number run + 2 ^ (7 * run.length) * number rest := by
  induction run with
  | nil => simp [number]
  | cons byte run ih =>
    rw [List.cons_append, number, number, ih, List.length_cons, Nat.mul_succ, Nat.pow_add]
    ring

/-! ## What 64 bits hold -/

theorem toNat_value : (value 64 run).toNat = number run % 2 ^ 64 := by
  induction run with
  | nil => rfl
  | cons byte rest ih =>
    have hshift : (value 64 rest <<< 7).toNat = 2 ^ 7 * (number rest % 2 ^ 57) := by
      rw [BitVec.toNat_shiftLeft, ih, Nat.shiftLeft_eq]
      omega
    rw [value, BitVec.toNat_or, toNat_payload, hshift, Nat.or_comm,
      ← Nat.two_pow_add_eq_or_of_lt (digit_lt byte), number]
    have hdigit := digit_lt byte
    omega

/-- The ones above the bits of a run take a power of two off it. -/
theorem toNat_ones_or {n k : Nat} (hn : n < 2 ^ k) (hk : k < 64) :
    n ||| (2 ^ 64 - 1) * 2 ^ k % 2 ^ 64 = 2 ^ 64 - 2 ^ k + n := by
  have hsplit : 2 ^ 64 = 2 ^ k * 2 ^ (64 - k) := by rw [← Nat.pow_add]; congr 1; omega
  have hpos : 0 < 2 ^ k := Nat.two_pow_pos k
  have hle : 2 ^ k ≤ 2 ^ 64 := Nat.pow_le_pow_right (by decide) (Nat.le_of_lt hk)
  have hones : (2 ^ 64 - 1) * 2 ^ k = 2 ^ 64 - 2 ^ k + 2 ^ 64 * (2 ^ k - 1) := by
    rw [Nat.sub_mul, Nat.mul_sub, Nat.one_mul, Nat.mul_one]
    have : 2 ^ 64 ≤ 2 ^ 64 * 2 ^ k := Nat.le_mul_of_pos_right _ hpos
    omega
  have hfactor : 2 ^ 64 - 2 ^ k = 2 ^ k * (2 ^ (64 - k) - 1) := by
    rw [Nat.mul_sub, Nat.mul_one, ← hsplit]
  rw [hones, Nat.add_mul_mod_self_left, Nat.mod_eq_of_lt (by omega), hfactor, Nat.or_comm,
    Nat.two_pow_add_eq_or_of_lt hn]

theorem signedValue_eq_ofInt :
    signedValue 64 run = BitVec.ofInt 64 (signedNumber run) := by
  apply BitVec.eq_of_toNat_eq
  have hbound := number_lt run
  have hzero : value 64 run ||| 0 = value 64 run := BitVec.or_zero
  rw [BitVec.toNat_ofInt, signedValue, signExtension, signedNumber]
  by_cases hsign : run.getLast?.any signBit
  · rw [if_pos hsign]
    by_cases hshort : 7 * run.length < 64
    · have hle : 2 ^ (7 * run.length) ≤ 2 ^ 63 := Nat.pow_le_pow_right (by decide) (by omega)
      rw [if_pos ⟨hshort, hsign⟩, BitVec.toNat_or, toNat_value, BitVec.toNat_shiftLeft,
        BitVec.toNat_allOnes, Nat.shiftLeft_eq, Nat.mod_eq_of_lt (by omega),
        toNat_ones_or hbound hshort]
      generalize 2 ^ (7 * run.length) = power at *
      omega
    · -- all bits that there is room for are bits of the run
      obtain ⟨high, hhigh⟩ : ∃ high, 2 ^ (7 * run.length) = 2 ^ 64 * high :=
        pow_dvd_pow 2 (Nat.le_of_not_lt hshort)
      rw [if_neg fun h => hshort h.1, hzero, toNat_value, hhigh]
      omega
  · rw [if_neg hsign, if_neg fun h => hsign h.2, hzero, toNat_value]
    omega

theorem toInt_signedValue :
    (signedValue 64 run).toInt = (signedNumber run).bmod (2 ^ 64) := by
  rw [signedValue_eq_ofInt, BitVec.toInt_ofInt]

/-! ## The tenth byte -/

/-- A run of at most ten bytes ends within 63 bits, or with the bits of its tenth byte. -/
theorem number_ten {run : List UInt8} (h : run.length ≤ 10) :
    number run < 2 ^ 63 ∧ run.length ≤ 9 ∨ ∃ front byte, run = front ++ [byte] ∧
      front.length = 9 ∧ number front < 2 ^ 63 ∧
      number run = number front + 2 ^ 63 * digit byte := by
  rcases Nat.lt_or_ge 9 run.length with hten | hshort
  · have hlength : run.length = 10 := Nat.le_antisymm h hten
    have hne : run ≠ [] := fun hnil => by simp [hnil] at hten
    have hsplit := List.dropLast_append_getLast hne
    have hfront : run.dropLast.length = 9 := by rw [List.length_dropLast, hlength]
    have hnumber := number_append run.dropLast [run.getLast hne]
    rw [hsplit, hfront, number, number, Nat.mul_zero, Nat.add_zero] at hnumber
    have hlow := number_lt run.dropLast
    rw [hfront] at hlow
    exact .inr ⟨_, _, hsplit.symm, hfront, hlow, hnumber⟩
  · refine .inl ⟨?_, hshort⟩
    exact Nat.lt_of_lt_of_le (number_lt run) (Nat.pow_le_pow_right (by decide) (by omega))

/-- The tenth byte, if the run has one, is one of the two. -/
def TenthIs (run : List UInt8) (zero one : UInt8) : Prop :=
  ∀ byte, run[9]? = some byte → byte = zero ∨ byte = one

/-- Of the last bytes of a run, those with small digits are themselves. -/
theorem eq_of_digit {byte : UInt8} (last : continues byte = false) :
    byte = UInt8.ofNat (digit byte) := by
  have table : ∀ n < 256, continues (UInt8.ofNat n) = false →
      UInt8.ofNat n = UInt8.ofNat (digit (UInt8.ofNat n)) := by decide +kernel
  have found := table byte.toNat byte.toNat_lt
  rw [UInt8.ofNat_toNat] at found
  exact found last

theorem getElem?_tenth {front : List UInt8} {byte : UInt8} (h : front.length = 9) :
    (front ++ [byte])[9]? = some byte := by
  rw [List.getElem?_append_right (Nat.le_of_eq h), h]
  rfl

/-- The last byte of a run that a reader finds. -/
theorem last_of_encoding {max : Nat} {bytes front : List UInt8} {byte : UInt8}
    (found : encoding max bytes = some (front ++ [byte])) : continues byte = false := by
  induction front generalizing max bytes with
  | nil =>
    cases bytes with
    | nil => cases max <;> simp [encoding] at found
    | cons first rest =>
      obtain ⟨hlast, hrun⟩ | ⟨-, tail, hrest, hrun⟩ := encoding_head found
      · cases hrun
        exact hlast
      · cases hrun
        exact absurd (encoding_length hrest).1 (Nat.lt_irrefl 0)
  | cons first front ih =>
    cases bytes with
    | nil => cases max <;> simp [encoding] at found
    | cons head rest =>
      obtain ⟨-, hrun⟩ | ⟨-, tail, hrest, hrun⟩ := encoding_head found
      · simp at hrun
      · rw [List.cons_append, List.cons.injEq] at hrun
        exact ih (hrun.2 ▸ hrest)

theorem fits_iff {bytes run : List UInt8} (found : encoding 10 bytes = some run) :
    number run < 2 ^ 64 ↔ TenthIs run 0 1 := by
  obtain ⟨hsmall, hshort⟩ | ⟨front, byte, rfl, hlength, hlow, hnumber⟩ :=
    number_ten (encoding_length found).2
  · have hnone : run[9]? = none := List.getElem?_eq_none hshort
    refine ⟨fun _ byte hbyte => ?_, fun _ => by omega⟩
    rw [hnone] at hbyte
    cases hbyte
  · have hlast := eq_of_digit (last_of_encoding found)
    rw [hnumber]
    constructor
    · intro hfits other hother
      rw [getElem?_tenth hlength] at hother
      cases hother
      have hdigit : digit byte = 0 ∨ digit byte = 1 := by omega
      rcases hdigit with h | h
      · exact .inl (by rw [hlast, h]; rfl)
      · exact .inr (by rw [hlast, h]; rfl)
    · intro htenth
      have hdigit : digit byte ≤ 1 := by
        rcases htenth byte (getElem?_tenth hlength) with rfl | rfl <;> decide
      omega

theorem signedFits_iff {bytes run : List UInt8} (found : encoding 10 bytes = some run) :
    (-2 ^ 63 ≤ signedNumber run ∧ signedNumber run < 2 ^ 63) ↔ TenthIs run 0 0x7F := by
  obtain ⟨hsmall, hshort⟩ | ⟨front, byte, rfl, hlength, hlow, hnumber⟩ :=
    number_ten (encoding_length found).2
  · have hnone : run[9]? = none := List.getElem?_eq_none hshort
    have hle : 2 ^ (7 * run.length) ≤ 2 ^ 63 := Nat.pow_le_pow_right (by decide) (by omega)
    constructor
    · intro _ byte hbyte
      rw [hnone] at hbyte
      cases hbyte
    · intro _
      rw [signedNumber]
      generalize 2 ^ (7 * run.length) = power at *
      split <;> omega
  · have hlast := eq_of_digit (last_of_encoding found)
    have hdigits := digit_lt byte
    have hsigned : signedNumber (front ++ [byte]) =
        number front + 2 ^ 63 * (if 64 ≤ digit byte then (digit byte : Int) - 128 else digit byte) := by
      rw [signedNumber, hnumber, List.getLast?_concat, List.length_append, hlength]
      show _ - ((if signBit byte = true then 2 ^ (7 * (9 + 1)) else 0 : Nat) : Int) = _
      rw [signBit_eq]
      by_cases hsign : 64 ≤ digit byte
      · simp only [hsign, decide_true, if_true]
        omega
      · simp only [hsign, decide_false, if_false, Bool.false_eq_true]
        omega
    rw [hsigned]
    constructor
    · intro hfits other hother
      rw [getElem?_tenth hlength] at hother
      cases hother
      have hdigit : digit byte = 0 ∨ digit byte = 127 := by
        split at hfits <;> omega
      rcases hdigit with h | h
      · exact .inl (by rw [hlast, h]; rfl)
      · exact .inr (by rw [hlast, h]; rfl)
    · intro htenth
      have hdigit : digit byte = 0 ∨ digit byte = 127 := by
        rcases htenth byte (getElem?_tenth hlength) with rfl | rfl <;> decide
      rcases hdigit with h | h <;> rw [h] <;> split <;> omega

/-! ## Writing a number -/

theorem number_encode (n : Nat) : number (encode n) = n := by
  fun_induction encode n with
  | case1 n hsmall => rw [number, digit_ofNat hsmall, number, Nat.mul_zero, Nat.add_zero]
  | case2 n hlarge ih =>
    rw [number, digit_ofNat_add (Nat.mod_lt _ (by decide)), ih]
    exact Nat.mod_add_div n 128

theorem encode_length_le {n count : Nat} (h : n < 2 ^ (7 * count)) (hpos : 0 < count) :
    (encode n).length ≤ count := by
  fun_induction encode n generalizing count with
  | case1 => exact hpos
  | case2 n hlarge ih =>
    obtain ⟨count, rfl⟩ := Nat.exists_eq_succ_of_ne_zero (Nat.ne_of_gt hpos)
    rw [Nat.mul_succ, Nat.pow_add] at h
    have hrest : n / 128 < 2 ^ (7 * count) := Nat.div_lt_of_lt_mul (by rwa [Nat.mul_comm] at h)
    rcases Nat.eq_zero_or_pos count with rfl | hcount
    · simp at hrest
      omega
    · exact Nat.succ_le_succ (ih hrest hcount)

theorem encoding_encode {n max : Nat} (h : (encode n).length ≤ max) (rest : List UInt8) :
    encoding max (encode n ++ rest) = some (encode n) := by
  fun_induction encode n generalizing max with
  | case1 n hsmall =>
    obtain ⟨max, rfl⟩ := Nat.exists_eq_succ_of_ne_zero (Nat.ne_of_gt (Nat.lt_of_lt_of_le Nat.one_pos h))
    refine encoding_cons_of_last ?_
    rw [(flags_ofNat n (by omega)).1]
    exact decide_eq_false (by omega)
  | case2 n hlarge ih =>
    obtain ⟨max, rfl⟩ := Nat.exists_eq_succ_of_ne_zero (Nat.ne_of_gt (Nat.lt_of_lt_of_le (Nat.succ_pos _) h))
    refine (encoding_cons_of_continues ?_).mpr ⟨_, ih (Nat.le_of_succ_le_succ h), rfl⟩
    rw [(flags_ofNat (n % 128 + 128) (by omega)).1]
    exact decide_eq_true (Nat.le_add_left _ _)

/-! ## Writing a signed number -/

theorem getLast?_encodeSigned_cons (byte : UInt8) (n : Int) :
    (byte :: encodeSigned n).getLast? = (encodeSigned n).getLast? := by
  unfold encodeSigned
  split <;> rw [List.getLast?_cons_cons]

theorem signedNumber_encodeSigned (n : Int) : signedNumber (encodeSigned n) = n := by
  fun_induction encodeSigned n with
  | case1 n hsmall =>
    have hdigit : (n % 128).toNat < 128 := by omega
    rw [signedNumber, number, digit_ofNat hdigit, number]
    show _ - ((if signBit (UInt8.ofNat (n % 128).toNat) = true then 2 ^ 7 else 0 : Nat) : Int) = n
    rw [(flags_ofNat (n % 128).toNat (by omega)).2]
    split <;> simp_all <;> omega
  | case2 n hlarge ih =>
    have hdigit : (n % 128).toNat < 128 := by omega
    rw [signedNumber] at ih
    rw [signedNumber, getLast?_encodeSigned_cons, number, digit_ofNat_add hdigit, List.length_cons,
      Nat.mul_succ, Nat.pow_add]
    split at ih
    · next hsign =>
      rw [if_pos hsign]
      push_cast at ih ⊢
      omega
    · next hsign =>
      rw [if_neg hsign]
      push_cast at ih ⊢
      omega

theorem encodeSigned_length_le {n : Int} (count : Nat) (h : -2 ^ (7 * count + 6) ≤ n)
    (h' : n < 2 ^ (7 * count + 6)) : (encodeSigned n).length ≤ count + 1 := by
  fun_induction encodeSigned n generalizing count with
  | case1 => exact Nat.le_add_left 1 count
  | case2 n hlarge ih =>
    cases count with
    | zero => exact absurd ⟨h, h'⟩ hlarge
    | succ count =>
      have hpow : (2 : Int) ^ (7 * (count + 1) + 6) = 128 * 2 ^ (7 * count + 6) := by ring
      rw [hpow] at h h'
      exact Nat.succ_le_succ (ih count (by omega) (by omega))

theorem encoding_encodeSigned {n : Int} {max : Nat} (h : (encodeSigned n).length ≤ max)
    (rest : List UInt8) : encoding max (encodeSigned n ++ rest) = some (encodeSigned n) := by
  fun_induction encodeSigned n generalizing max with
  | case1 n hsmall =>
    obtain ⟨max, rfl⟩ := Nat.exists_eq_succ_of_ne_zero (Nat.ne_of_gt (Nat.lt_of_lt_of_le Nat.one_pos h))
    refine encoding_cons_of_last ?_
    rw [(flags_ofNat (n % 128).toNat (by omega)).1]
    exact decide_eq_false (by omega)
  | case2 n hlarge ih =>
    obtain ⟨max, rfl⟩ := Nat.exists_eq_succ_of_ne_zero (Nat.ne_of_gt (Nat.lt_of_lt_of_le (Nat.succ_pos _) h))
    refine (encoding_cons_of_continues ?_).mpr ⟨_, ih (Nat.le_of_succ_le_succ h), rfl⟩
    rw [(flags_ofNat ((n % 128).toNat + 128) (by omega)).1]
    exact decide_eq_true (Nat.le_add_left _ _)

end GhitaBrowser.Leb128
