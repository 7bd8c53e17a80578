import Mathlib.Tactic.Common
import Mathlib.Order.Compare

/-!
# The order of floats

`<` and `==` on floats follow a linear order wherever neither side is NaN: first minus
infinity, the negative numbers, the zeros, the positive numbers and infinity, then within a
sign the exponents, then the mantissas.
-/

namespace GhitaBrowser.FloatOrder

open Float.Model Std

/-- Where a float stands. Both zeros stand in one place, and NaN below everything else. -/
def place : UnpackedFloat → Int × Int × Int
  | .notANumber => (-3, 0, 0)
  | .infinity .negative => (-2, 0, 0)
  | .finite .negative mantissa exponent _ => (-1, -exponent, -mantissa)
  | .zero _ => (0, 0, 0)
  | .finite .positive mantissa exponent _ => (1, exponent, mantissa)
  | .infinity .positive => (2, 0, 0)

def cmpPlaces (p q : Int × Int × Int) : Ordering :=
  (compare p.1 q.1).then ((compare p.2.1 q.2.1).then (compare p.2.2 q.2.2))

instance : TransCmp cmpPlaces :=
  inferInstanceAs (TransCmp (compareLex (compareOn fun p : Int × Int × Int => p.1)
    (compareLex (compareOn fun p : Int × Int × Int => p.2.1)
      (compareOn fun p : Int × Int × Int => p.2.2))))

theorem compare_neg (m n : Int) : compare (-m) (-n) = (compare m n).swap := by
  have swap : (compare m n).swap = compare n m := OrientedCmp.eq_swap.symm
  rw [swap]
  simp only [Int.compare_eq_ite_lt, Int.neg_lt_neg_iff]

theorem compare_natCast (m n : Nat) : compare (m : Int) n = compare m n := by
  simp only [Int.compare_eq_ite_lt, Nat.compare_eq_ite_lt, Int.ofNat_lt]

theorem swap_then (first second : Ordering) :
    (first.then second).swap = first.swap.then second.swap := by
  cases first <;> rfl

theorem compare_eq (f g : UnpackedFloat) :
    f.compare g = if f.isNaN || g.isNaN then none else some (cmpPlaces (place f) (place g)) := by
  cases f with
  | notANumber => rfl
  | infinity s =>
    cases g with
    | notANumber => rfl
    | infinity t => cases s <;> cases t <;> rfl
    | zero t => cases s <;> rfl
    | finite t => cases s <;> cases t <;> rfl
  | zero s =>
    cases g with
    | notANumber => rfl
    | infinity t => cases t <;> rfl
    | zero t => rfl
    | finite t => cases t <;> rfl
  | finite s m e =>
    cases g with
    | notANumber => rfl
    | infinity t => cases s <;> cases t <;> rfl
    | zero t => cases s <;> rfl
    | finite t n d =>
      cases s with
      | positive =>
        cases t with
        | positive =>
          show some ((compare e d).then (compare m n)) =
            some (Ordering.eq.then ((compare e d).then (compare (m : Int) n)))
          rw [compare_natCast]
          rfl
        | negative => rfl
      | negative =>
        cases t with
        | positive => rfl
        | negative =>
          show some ((compare e d).then (compare m n)).swap =
            some (Ordering.eq.then ((compare (-e) (-d)).then (compare (-(m : Int)) (-n))))
          rw [compare_neg, compare_neg, compare_natCast, swap_then]
          rfl

/-! ## Floats -/

def floatPlace (a : Float) : Int × Int × Int := place a.toModel.unpack

theorem lt_iff (a b : Float) :
    a < b ↔ a.isNaN = false ∧ b.isNaN = false ∧ cmpPlaces (floatPlace a) (floatPlace b) = .lt := by
  have unfolded : a < b ↔ (a.toModel.unpack.compare b.toModel.unpack == some .lt) = true := by
    show decide (a.toModel.unpack.lt b.toModel.unpack = true) = true ↔ _
    rw [decide_eq_true_iff]
    exact Iff.rfl
  rw [unfolded, compare_eq, beq_iff_eq]
  show _ ↔ a.toModel.unpack.isNaN = false ∧ b.toModel.unpack.isNaN = false ∧ _
  cases a.toModel.unpack.isNaN <;> cases b.toModel.unpack.isNaN <;> simp [floatPlace]

theorem beq_iff (a b : Float) :
    (a == b) = true ↔
      a.isNaN = false ∧ b.isNaN = false ∧ cmpPlaces (floatPlace a) (floatPlace b) = .eq := by
  show (a.toModel.unpack.compare b.toModel.unpack == some .eq) = true ↔ _
  rw [compare_eq, beq_iff_eq]
  show _ ↔ a.toModel.unpack.isNaN = false ∧ b.toModel.unpack.isNaN = false ∧ _
  cases a.toModel.unpack.isNaN <;> cases b.toModel.unpack.isNaN <;> simp [floatPlace]

/-! ## Whole numbers -/

theorem isNaN_dite {p : Prop} [Decidable p] {f : p → UnpackedFloat} {g : ¬p → UnpackedFloat}
    (hf : ∀ h, (f h).isNaN = false) (hg : ∀ h, (g h).isNaN = false) :
    (if h : p then f h else g h).isNaN = false := by
  by_cases h : p
  · rw [dif_pos h]
    exact hf h
  · rw [dif_neg h]
    exact hg h

theorem isNaN_unpack_pack {f : UnpackedFloat} (h : f.isNaN = false) :
    (UnpackedFloat.unpack .binary64 (UnpackedFloat.pack .binary64 f)).isNaN = false := by
  have whole : ∀ b : BitVec Format.binary64.numBits,
      (UnpackedFloat.unpackExponent b = (-1#11) → UnpackedFloat.unpackMantissa b = 0#52) →
        (UnpackedFloat.unpack .binary64 b).isNaN = false := by
    intro b finite
    unfold UnpackedFloat.unpack
    dsimp only
    by_cases infinite : UnpackedFloat.unpackExponent b = -1#11
    · rw [if_pos infinite, if_pos (finite infinite)]
      rfl
    · rw [if_neg infinite]
      by_cases small : UnpackedFloat.unpackExponent b = 0#11
      · rw [if_pos small]
        exact isNaN_dite (fun _ => rfl) fun _ => rfl
      · rw [if_neg small]
        rfl
  apply whole
  fun_cases UnpackedFloat.pack Format.binary64 f with
  | case1 => cases h
  | case2 s => simp [UnpackedFloat.packedInfinity]
  | case3 s => simp [UnpackedFloat.packedZero]
  | case4 s m e hm biasedExponent large => simp [UnpackedFloat.packedInfinity]
  | case5 s m e hm mantissaBits biasedExponent small normal =>
    intro infinite
    rw [UnpackedFloat.unpackExponent_packComponents] at infinite
    have value : biasedExponent % 2 ^ 11 = 2047 := by
      rw [← BitVec.toNat_ofNat]
      exact congrArg BitVec.toNat infinite
    have small : ¬2 ^ 11 ≤ biasedExponent + 1 := small
    rw [Nat.mod_eq_of_lt (by omega)] at value
    omega
  | case6 s m e hm mantissaBits biasedExponent small subnormal =>
    intro infinite
    rw [UnpackedFloat.unpackExponent_packComponents] at infinite
    cases infinite

theorem isNaN_round (sign : UnpackedFloat.Sign) (mantissa : Nat) (exponent : Int) :
    (UnpackedFloat.round .binary64 sign mantissa exponent).isNaN = false := by
  unfold UnpackedFloat.round UnpackedFloat.roundWithAccuracy
  exact isNaN_dite (fun _ => rfl) fun _ => rfl

theorem isNaN_toFloat (n : UInt64) : n.toFloat.isNaN = false := by
  refine isNaN_unpack_pack ?_
  show (UnpackedFloat.normalize .binary64 n.toNat 0 .positive).isNaN = false
  unfold UnpackedFloat.normalize
  split
  · exact isNaN_round ..
  · rfl
  · exact isNaN_round ..

end GhitaBrowser.FloatOrder
