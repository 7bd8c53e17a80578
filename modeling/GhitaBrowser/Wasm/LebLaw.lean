import GhitaBrowser.Lib.Leb128
import GhitaBrowser.Wasm.Binary

/-!
# The numbers that the LEB128 readers return

* Each reader gives a number of its type back from its encoding (`reads_encoded`).
* What a reader accepts stands for the number that it returns exactly when no bits of a tenth
  byte are dropped (`readers_exact_iff`): the loops run for ten bytes, and the last shift, by
  63, keeps one bit of seven.
-/

namespace GhitaBrowser.Wasm

open Leb128

/-- The types of the four readers. -/
inductive LebType where
  | u32 | u64 | i32 | i64
deriving DecidableEq, Repr

namespace LebType

def signed : LebType → Bool
  | .u32 | .u64 => false
  | .i32 | .i64 => true

/-- The numbers of the type. -/
def Holds : LebType → Int → Prop
  | .u32, n => 0 ≤ n ∧ n < 2 ^ 32
  | .u64, n => 0 ≤ n ∧ n < 2 ^ 64
  | .i32, n => -2 ^ 31 ≤ n ∧ n < 2 ^ 31
  | .i64, n => -2 ^ 63 ≤ n ∧ n < 2 ^ 63

def read : LebType → Reader Int
  | .u32 => do return (← readLebU32 : Nat)
  | .u64 => do return (← readLebU64).toNat
  | .i32 => do return (← readLebI32).toInt
  | .i64 => do return (← readLebI64).toInt

/-- The shortest encoding of a number. -/
def encoded (type : LebType) (n : Int) : List UInt8 :=
  if type.signed then encodeSigned n else encode n.toNat

/-- The number that a run of bytes stands for. -/
def numberOf (type : LebType) (run : List UInt8) : Int :=
  if type.signed then signedNumber run else number run

/-- What 64 bits keep of a number. -/
def wrapped (type : LebType) (n : Int) : Int :=
  if type.signed then n.bmod (2 ^ 64) else n % 2 ^ 64

/-- The tenth byte, if there is one, has no bits that do not fit. -/
def TenthFits (type : LebType) (run : List UInt8) : Prop :=
  TenthIs run 0 (if type.signed then 0x7F else 1)

/-! ## What a reader returns -/

variable {n : Int}

theorem map_eq_ok {α : Type} {reader : Reader α} {toInt : α → Int} {c c' : Cursor} :
    (do return toInt (← reader) : Reader Int) c = .ok (n, c') ↔
      ∃ value, reader c = .ok (value, c') ∧ n = toInt value := by
  rw [bind_run_eq_ok]
  constructor
  · rintro ⟨value, c₁, hread, hreturn⟩
    cases hreturn
    exact ⟨value, hread, rfl⟩
  · rintro ⟨value, hread, rfl⟩
    exact ⟨value, c', hread, rfl⟩

theorem toNat_value_cast (run : List UInt8) : ((value 64 run).toNat : Int) = number run % 2 ^ 64 := by
  rw [toNat_value, Int.natCast_emod]
  rfl

theorem toInt_low_half {run : List UInt8} (hlow : -2 ^ 31 ≤ (signedValue 64 run).toInt)
    (hhigh : (signedValue 64 run).toInt < 2 ^ 31) :
    (signedValue 32 run).toInt = (signedValue 64 run).toInt := by
  rw [← setWidth_signedValue (by decide : 32 ≤ 64), BitVec.toInt_setWidth]
  rw [← Int.bmod_bmod_of_dvd (m := 2 ^ 64) (by decide : 2 ^ 32 ∣ 2 ^ 64),
    ← BitVec.toInt_eq_toNat_bmod]
  exact Int.bmod_eq_of_le (by omega) (by omega)

/-- A reader finds a run of at most ten bytes, and returns what 64 bits keep of its number if
the type has that. -/
theorem read_eq_ok (type : LebType) {c c' : Cursor} :
    type.read c = .ok (n, c') ↔ ∃ run, encoding 10 c.rest = some run ∧
      type.Holds (type.wrapped (type.numberOf run)) ∧ n = type.wrapped (type.numberOf run) ∧
      c' = c.advance run.length := by
  cases type with
  | u32 =>
    have hnumber (run : List UInt8) : LebType.u32.wrapped (LebType.u32.numberOf run) =
        ((value 64 run).toNat : Int) := (toNat_value_cast run).symm
    refine map_eq_ok.trans ?_
    simp only [readLebU32_eq_ok, hnumber]
    constructor
    · rintro ⟨_, ⟨run, found, small, rfl, rfl⟩, rfl⟩
      exact ⟨run, found, ⟨Int.natCast_nonneg _, by exact_mod_cast small⟩, rfl, rfl⟩
    · rintro ⟨run, found, ⟨-, small⟩, rfl, rfl⟩
      exact ⟨_, ⟨run, found, by exact_mod_cast small, rfl, rfl⟩, rfl⟩
  | u64 =>
    have hnumber (run : List UInt8) : LebType.u64.wrapped (LebType.u64.numberOf run) =
        ((value 64 run).toNat : Int) := (toNat_value_cast run).symm
    refine map_eq_ok.trans ?_
    simp only [readLebU64_eq_ok, hnumber]
    constructor
    · rintro ⟨_, ⟨run, found, rfl, rfl⟩, rfl⟩
      exact ⟨run, found, ⟨Int.natCast_nonneg _, by exact_mod_cast (value 64 run).isLt⟩, rfl, rfl⟩
    · rintro ⟨run, found, -, rfl, rfl⟩
      exact ⟨_, ⟨run, found, rfl, rfl⟩, rfl⟩
  | i32 =>
    have hnumber (run : List UInt8) : LebType.i32.wrapped (LebType.i32.numberOf run) =
        (signedValue 64 run).toInt := (toInt_signedValue run).symm
    refine map_eq_ok.trans ?_
    simp only [readLebI32_eq_ok, hnumber]
    constructor
    · rintro ⟨_, ⟨run, found, small, rfl, rfl⟩, rfl⟩
      exact ⟨run, found, small, toInt_low_half small.1 small.2, rfl⟩
    · rintro ⟨run, found, small, rfl, rfl⟩
      exact ⟨_, ⟨run, found, small, rfl, rfl⟩, (toInt_low_half small.1 small.2).symm⟩
  | i64 =>
    have hnumber (run : List UInt8) : LebType.i64.wrapped (LebType.i64.numberOf run) =
        (signedValue 64 run).toInt := (toInt_signedValue run).symm
    refine map_eq_ok.trans ?_
    simp only [readLebI64_eq_ok, hnumber]
    constructor
    · rintro ⟨_, ⟨run, found, rfl, rfl⟩, rfl⟩
      exact ⟨run, found, ⟨BitVec.le_toInt _, BitVec.toInt_lt⟩, rfl, rfl⟩
    · rintro ⟨run, found, -, rfl, rfl⟩
      exact ⟨_, ⟨run, found, rfl, rfl⟩, rfl⟩

/-! ## Numbers that fit -/

variable {type : LebType}

theorem holds_bounds (h : type.Holds n) :
    if type.signed then -2 ^ 63 ≤ n ∧ n < 2 ^ 63 else 0 ≤ n ∧ n < 2 ^ 64 := by
  cases type <;> simp only [Holds, signed, if_true, if_false, Bool.false_eq_true] at h ⊢ <;> omega

theorem wrapped_of_holds (h : type.Holds n) : type.wrapped n = n := by
  have hbounds := holds_bounds h
  unfold wrapped
  split
  · next hsigned =>
    rw [if_pos hsigned] at hbounds
    exact Int.bmod_eq_of_le (by omega) (by omega)
  · next hunsigned =>
    rw [if_neg hunsigned] at hbounds
    exact Int.emod_eq_of_lt hbounds.1 hbounds.2

/-- 64 bits keep the number of a run exactly when its tenth byte fits. -/
theorem wrapped_eq_iff {bytes run : List UInt8} (found : encoding 10 bytes = some run) :
    type.wrapped (type.numberOf run) = type.numberOf run ↔ type.TenthFits run := by
  unfold wrapped numberOf TenthFits
  cases hsigned : type.signed with
  | true =>
    rw [if_pos rfl, if_pos rfl, if_pos rfl, ← signedFits_iff found]
    constructor
    · intro hsame
      have hleast := Int.le_bmod (x := signedNumber run) (m := 2 ^ 64) (by decide)
      have hmost := Int.bmod_lt (x := signedNumber run) (m := 2 ^ 64) (by decide)
      omega
    · exact fun hfits => Int.bmod_eq_of_le (by omega) (by omega)
  | false =>
    rw [if_neg Bool.false_ne_true, if_neg Bool.false_ne_true, if_neg Bool.false_ne_true,
      ← fits_iff found]
    omega

/-! ## The law -/

/-- Every number of the type is read back from its encoding, wherever that stands. -/
def ReadsEncoded (type : LebType) : Prop :=
  ∀ n, type.Holds n → ∀ (c : Cursor) (rest : List UInt8), c.rest = type.encoded n ++ rest →
    type.read c = .ok (n, c.advance (type.encoded n).length)

/-- What is accepted at the cursor stands for the number that is returned. -/
def ExactAt (type : LebType) (c : Cursor) : Prop :=
  ∀ n c', type.read c = .ok (n, c') → ∃ run, encoding 10 c.rest = some run ∧
    c' = c.advance run.length ∧ n = type.numberOf run

/-- The number ends before a tenth byte, or that byte fits, or what is left of the number
without the bits that are dropped is refused. -/
def KeptAt (type : LebType) (c : Cursor) : Prop :=
  ∀ run, encoding 10 c.rest = some run →
    type.TenthFits run ∨ ¬type.Holds (type.wrapped (type.numberOf run))

theorem encoded_length (h : type.Holds n) :
    (type.encoded n).length ≤ 10 := by
  have hbounds := holds_bounds h
  unfold encoded
  split
  · next hsigned =>
    rw [if_pos hsigned] at hbounds
    exact encodeSigned_length_le 9 (by omega) (by omega)
  · next hunsigned =>
    rw [if_neg hunsigned] at hbounds
    exact encode_length_le (by omega) (by decide)

theorem encoding_encoded (h : type.Holds n) (rest : List UInt8) :
    encoding 10 (type.encoded n ++ rest) = some (type.encoded n) := by
  have hlength := encoded_length h
  unfold encoded at hlength ⊢
  split at hlength
  · next hsigned => rw [if_pos hsigned]; exact encoding_encodeSigned hlength rest
  · next hunsigned => rw [if_neg hunsigned]; exact encoding_encode hlength rest

theorem numberOf_encoded (h : type.Holds n) :
    type.numberOf (type.encoded n) = n := by
  have hbounds := holds_bounds h
  unfold numberOf encoded
  cases hsigned : type.signed with
  | true => exact signedNumber_encodeSigned n
  | false =>
    rw [hsigned, if_neg Bool.false_ne_true] at hbounds
    show ((number (encode n.toNat) : Nat) : Int) = n
    rw [number_encode, Int.toNat_of_nonneg hbounds.1]

theorem reads_encoded (type : LebType) : type.ReadsEncoded := by
  intro n h c rest hrest
  have hnumber := numberOf_encoded h
  refine (read_eq_ok type).mpr ⟨type.encoded n, hrest ▸ encoding_encoded h rest, ?_, ?_, rfl⟩
  · rwa [hnumber, wrapped_of_holds h]
  · rw [hnumber, wrapped_of_holds h]

end LebType

/-- The readers read every number back, and are exact where no bits of a tenth byte are lost. -/
theorem readers_exact_iff (type : LebType) (c : Cursor) :
    (type.ReadsEncoded ∧ type.ExactAt c) ↔ type.KeptAt c := by
  constructor
  · rintro ⟨-, hexact⟩ run found
    rw [or_iff_not_imp_right, not_not]
    intro hholds
    obtain ⟨run', found', -, hnumber⟩ :=
      hexact _ _ ((LebType.read_eq_ok type).mpr ⟨run, found, hholds, rfl, rfl⟩)
    cases found.symm.trans found'
    exact (LebType.wrapped_eq_iff found).mp hnumber
  · refine fun hkept => ⟨type.reads_encoded, fun n c' hread => ?_⟩
    obtain ⟨run, found, hholds, rfl, rfl⟩ := (LebType.read_eq_ok type).mp hread
    refine ⟨run, found, rfl, (LebType.wrapped_eq_iff found).mpr ?_⟩
    exact (hkept run found).resolve_right (not_not_intro hholds)

/-- Nine empty bytes and a tenth with a bit for `2 ^ 64`. -/
def droppedBit : List UInt8 := [0x80, 0x80, 0x80, 0x80, 0x80, 0x80, 0x80, 0x80, 0x80, 0x02]

/-- The reader accepts `2 ^ 64` as zero. -/
theorem dropped_bit : readLebU64 (Cursor.new droppedBit) = .ok (0, ⟨droppedBit, 10⟩) ∧
    number droppedBit = 2 ^ 64 ∧ ¬LebType.u64.ExactAt (Cursor.new droppedBit) := by
  have hread : readLebU64 (Cursor.new droppedBit) = .ok (0, ⟨droppedBit, 10⟩) := by decide +kernel
  refine ⟨hread, by decide +kernel, fun hexact => ?_⟩
  obtain ⟨run, found, -, hnumber⟩ := hexact 0 ⟨droppedBit, 10⟩ (LebType.map_eq_ok.mpr ⟨0, hread, rfl⟩)
  have hrun : encoding 10 (Cursor.new droppedBit).rest = some droppedBit := by decide +kernel
  cases hrun.symm.trans found
  exact absurd hnumber (by decide +kernel)

end GhitaBrowser.Wasm
