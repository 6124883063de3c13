import Mathlib.Algebra.Order.Field.Power
import Mathlib.Algebra.Order.Field.Rat
import Mathlib.Tactic.GCongr
import Mathlib.Tactic.NormNum
import Mathlib.Tactic.Positivity
import Mathlib.Tactic.Ring
import Vitals.Decimal.Binary

/-!
# The order of floats

A float that is neither infinite nor undefined is a rational number, and floats are compared as the
numbers that they are. A float between two numbers is a number itself.

Floats are compared part by part, first the exponents and then the mantissas. That is the order of
the numbers because a mantissa has all its 53 bits unless the exponent is the least.
-/

namespace Vitals.Decimal

open Float.Model (UnpackedFloat)
open Float.Model.UnpackedFloat (Sign unpackExponent unpackMantissa unpackSign)

/-- The number of a sign and a magnitude. -/
def Binary.number? (binary : Binary) : Option ℚ :=
  match binary.magnitude with
  | .finite mantissa exponent =>
      some ((if binary.negative then -1 else 1) * (mantissa * 2 ^ exponent))
  | _ => none

/-- The number that a float is; infinities and what is not a number have none. -/
def number? (x : Float) : Option ℚ := (Binary.ofFloat x).number?

/-! ## The parts of a pattern -/

theorem toNat_unpackExponent (bits : BitVec 64) :
    (@unpackExponent .binary64 bits).toNat = bits.toNat / 2 ^ 52 % 2 ^ 11 := by
  simp [unpackExponent, Nat.shiftRight_eq_div_pow]

theorem toNat_unpackMantissa (bits : BitVec 64) :
    (@unpackMantissa .binary64 bits).toNat = bits.toNat % 2 ^ 52 := by
  simp [unpackMantissa]

theorem toNat_unpackSign (bits : BitVec 64) :
    (@unpackSign .binary64 bits).toNat = bits.toNat / 2 ^ 63 % 2 := by
  change (BitVec.extractLsb 63 63 bits).toNat = bits.toNat / 2 ^ 63 % 2
  simp [Nat.shiftRight_eq_div_pow]

theorem ofBitVec_eq (sign : BitVec 1) :
    Sign.ofBitVec sign = if sign.toNat = 1 then .negative else .positive := by
  rcases BitVec.eq_zero_or_eq_one sign with rfl | rfl <;> rfl

/-- The mantissa of a normal float has a bit that its pattern leaves out. -/
theorem toNat_full (fraction : BitVec 52) :
    (1#1 ++ fraction).toNat = 2 ^ 52 + fraction.toNat := by
  rw [BitVec.toNat_append, ← Nat.shiftLeft_add_eq_or_of_lt fraction.isLt]
  simp [Nat.shiftLeft_eq]

/-- What a pattern is, by its parts. -/
inductive Reads (sign : Sign) (biased fraction : ℕ) : UnpackedFloat → Prop
  | infinite (top : biased = 2047) (empty : fraction = 0) :
      Reads sign biased fraction (.infinity sign)
  | notANumber (top : biased = 2047) (full : fraction ≠ 0) :
      Reads sign biased fraction .notANumber
  | zero (bottom : biased = 0) (empty : fraction = 0) :
      Reads sign biased fraction (.zero sign)
  | subnormal (bottom : biased = 0) (pos : 0 < fraction) :
      Reads sign biased fraction (.finite sign fraction (-1074) pos)
  | normal (notTop : biased ≠ 2047) (notBottom : biased ≠ 0) (pos : 0 < 2 ^ 52 + fraction) :
      Reads sign biased fraction (.finite sign (2 ^ 52 + fraction) (Int.ofNat biased - 1075) pos)

theorem Reads.full {sign : Sign} {biased fraction mantissa : ℕ}
    (whole : mantissa = 2 ^ 52 + fraction) (notTop : biased ≠ 2047) (notBottom : biased ≠ 0)
    (pos : 0 < mantissa) :
    Reads sign biased fraction (.finite sign mantissa (Int.ofNat biased - 1075) pos) := by
  subst whole
  exact .normal notTop notBottom pos

theorem reads_unpack (x : Float) :
    Reads (if x.toBits.toNat / 2 ^ 63 % 2 = 1 then .negative else .positive)
      (x.toBits.toNat / 2 ^ 52 % 2 ^ 11) (x.toBits.toNat % 2 ^ 52) x.toModel.unpack := by
  change Reads (if x.toBits.toBitVec.toNat / 2 ^ 63 % 2 = 1 then .negative else .positive)
    (x.toBits.toBitVec.toNat / 2 ^ 52 % 2 ^ 11) (x.toBits.toBitVec.toNat % 2 ^ 52)
    (UnpackedFloat.unpack .binary64 x.toBits.toBitVec)
  generalize x.toBits.toBitVec = bits
  rw [← toNat_unpackSign, ← toNat_unpackExponent, ← toNat_unpackMantissa, ← ofBitVec_eq]
  have top : @unpackExponent .binary64 bits = -1#_ ↔
      (@unpackExponent .binary64 bits).toNat = 2047 := by
    rw [← BitVec.toNat_inj]
    rfl
  have bottom : @unpackExponent .binary64 bits = 0#_ ↔
      (@unpackExponent .binary64 bits).toNat = 0 := by
    rw [← BitVec.toNat_inj]
    rfl
  have empty : @unpackMantissa .binary64 bits = 0#_ ↔
      (@unpackMantissa .binary64 bits).toNat = 0 := by
    rw [← BitVec.toNat_inj]
    rfl
  unfold UnpackedFloat.unpack
  dsimp only
  by_cases isTop : @unpackExponent .binary64 bits = -1#11
  · rw [if_pos isTop]
    by_cases isEmpty : @unpackMantissa .binary64 bits = 0#52
    · rw [if_pos isEmpty]
      exact .infinite (top.mp isTop) (empty.mp isEmpty)
    · rw [if_neg isEmpty]
      exact .notANumber (top.mp isTop) (mt empty.mpr isEmpty)
  · rw [if_neg isTop]
    by_cases isBottom : @unpackExponent .binary64 bits = 0#11
    · rw [if_pos isBottom]
      by_cases isEmpty : @unpackMantissa .binary64 bits = 0#52
      · rw [dif_pos isEmpty]
        exact .zero (bottom.mp isBottom) (empty.mp isEmpty)
      · rw [dif_neg isEmpty, isBottom]
        exact .subnormal rfl (Nat.pos_of_ne_zero (mt empty.mpr isEmpty))
    · rw [if_neg isBottom]
      exact .full (toNat_full _) (mt top.mpr isTop) (mt bottom.mpr isBottom) _

/-! ## Numbers of unpacked floats -/

/-- The number that an unpacked float is. -/
def numberOf? : UnpackedFloat → Option ℚ
  | .zero _ => some 0
  | .finite .positive mantissa exponent _ => some (mantissa * 2 ^ exponent)
  | .finite .negative mantissa exponent _ => some (-(mantissa * 2 ^ exponent))
  | _ => none

theorem numberOf?_finite (negative : Prop) [Decidable negative] {mantissa : ℕ} {exponent : ℤ}
    (pos : 0 < mantissa) :
    numberOf? (.finite (if negative then .negative else .positive) mantissa exponent pos) =
      some ((if negative then -1 else 1) * ((mantissa : ℚ) * 2 ^ exponent)) := by
  by_cases sign : negative
  · rw [if_pos sign, if_pos sign, neg_one_mul]
    rfl
  · rw [if_neg sign, if_neg sign, one_mul]
    rfl

theorem number?_eq (x : Float) : number? x = numberOf? x.toModel.unpack := by
  have reads := reads_unpack x
  change Reads (if x.toBits.toNat / Nat.pow 2 63 % 2 = 1 then .negative else .positive)
    (x.toBits.toNat / Nat.pow 2 52 % Nat.pow 2 11) (x.toBits.toNat % Nat.pow 2 52) _ at reads
  unfold number? Binary.ofFloat Binary.ofBits Binary.number?
  generalize x.toModel.unpack = unpacked at reads ⊢
  cases reads with
  | infinite top empty =>
      simp only [if_pos top, if_pos empty]
      rfl
  | notANumber top full =>
      simp only [if_pos top, if_neg full]
      rfl
  | zero bottom empty =>
      simp only [bottom, empty, if_neg (by decide : ¬ (0 = 2047)), if_true]
      exact congrArg some (by simp)
  | subnormal bottom pos =>
      rw [numberOf?_finite]
      simp only [bottom, if_neg (by decide : ¬ (0 = 2047)), if_true, beq_iff_eq]
  | normal notTop notBottom pos =>
      rw [numberOf?_finite]
      simp only [if_neg notTop, if_neg notBottom, beq_iff_eq]
      rfl

/-! ## Comparing -/

/-- A mantissa and an exponent as finite floats have them. -/
structure IsCanonical (mantissa : ℕ) (exponent : ℤ) : Prop where
  mantissa_lt : mantissa < 2 ^ 53
  exponent_ge : -1074 ≤ exponent
  full : exponent = -1074 ∨ 2 ^ 52 ≤ mantissa

/-- An unpacked float as patterns make it. -/
def Tidy : UnpackedFloat → Prop
  | .finite _ mantissa exponent _ => IsCanonical mantissa exponent
  | _ => True

theorem tidy_unpack (x : Float) : Tidy x.toModel.unpack := by
  have reads := reads_unpack x
  generalize x.toModel.unpack = unpacked at reads ⊢
  cases reads with
  | infinite top empty => trivial
  | notANumber top full => trivial
  | zero bottom empty => trivial
  | subnormal bottom pos => exact ⟨by omega, by omega, Or.inl rfl⟩
  | normal notTop notBottom pos =>
      refine ⟨by omega, ?_, Or.inr (by omega)⟩
      simp only [Int.ofNat_eq_natCast]
      omega

theorem lt_of_exponent_lt {m n : ℕ} {e f : ℤ} (left : IsCanonical m e) (right : IsCanonical n f)
    (less : e < f) : (m : ℚ) * 2 ^ e < n * 2 ^ f := by
  have full : 2 ^ 52 ≤ n := by
    rcases right.full with least | full
    · have := left.exponent_ge
      omega
    · exact full
  calc (m : ℚ) * 2 ^ e < 2 ^ 53 * 2 ^ e := by
        gcongr
        exact_mod_cast left.mantissa_lt
    _ = 2 ^ 52 * 2 ^ (e + 1) := by
        rw [zpow_add₀ (by norm_num)]
        ring
    _ ≤ n * 2 ^ f := by
        gcongr
        · exact_mod_cast full
        · norm_num
        · omega

theorem compare_parts {m n : ℕ} {e f : ℤ} (left : IsCanonical m e) (right : IsCanonical n f) :
    (compare e f).then (compare m n) = compare ((m : ℚ) * 2 ^ e) (n * 2 ^ f) := by
  rcases lt_trichotomy e f with less | rfl | greater
  · rw [compare_lt_iff_lt.mpr less, compare_lt_iff_lt.mpr (lt_of_exponent_lt left right less)]
    rfl
  · have positive : (0 : ℚ) < 2 ^ e := by positivity
    rcases lt_trichotomy m n with less | rfl | greater
    · have scaled : (m : ℚ) * 2 ^ e < n * 2 ^ e := by gcongr
      simp [compare_lt_iff_lt.mpr less, compare_lt_iff_lt.mpr scaled]
    · simp
    · have scaled : (n : ℚ) * 2 ^ e < m * 2 ^ e := by gcongr
      simp [compare_gt_iff_gt.mpr greater, compare_gt_iff_gt.mpr scaled]
  · rw [compare_gt_iff_gt.mpr greater,
      compare_gt_iff_gt.mpr (lt_of_exponent_lt right left greater)]
    rfl

theorem compare_neg_neg (p q : ℚ) : compare (-p) (-q) = (compare p q).swap := by
  rcases lt_trichotomy p q with less | rfl | greater
  · rw [compare_lt_iff_lt.mpr less, compare_gt_iff_gt.mpr (neg_lt_neg less)]
    rfl
  · simp
  · rw [compare_gt_iff_gt.mpr greater, compare_lt_iff_lt.mpr (neg_lt_neg greater)]
    rfl

theorem compare_numbers {left right : UnpackedFloat} {p q : ℚ} (hp : numberOf? left = some p)
    (hq : numberOf? right = some q) (tidyLeft : Tidy left) (tidyRight : Tidy right) :
    left.compare right = some (compare p q) := by
  have pos {m : ℕ} {e : ℤ} (m_pos : 0 < m) : (0 : ℚ) < m * 2 ^ e := by positivity
  have neg {m : ℕ} {e : ℤ} (m_pos : 0 < m) : -((m : ℚ) * 2 ^ e) < 0 := neg_neg_of_pos (pos m_pos)
  cases left with
  | infinity sign => cases hp
  | notANumber => cases hp
  | zero sign =>
      cases hp
      cases right with
      | infinity other => cases hq
      | notANumber => cases hq
      | zero other =>
          cases hq
          exact congrArg some (compare_eq_iff_eq.mpr rfl).symm
      | finite other n f n_pos =>
          cases other <;> cases hq
          · exact congrArg some (compare_gt_iff_gt.mpr (neg n_pos)).symm
          · exact congrArg some (compare_lt_iff_lt.mpr (pos n_pos)).symm
  | finite sign m e m_pos =>
      cases right with
      | infinity other => cases hq
      | notANumber => cases hq
      | zero other =>
          cases hq
          cases sign <;> cases hp
          · exact congrArg some (compare_lt_iff_lt.mpr (neg m_pos)).symm
          · exact congrArg some (compare_gt_iff_gt.mpr (pos m_pos)).symm
      | finite other n f n_pos =>
          have parts := compare_parts tidyLeft tidyRight
          cases sign <;> cases other <;> cases hp <;> cases hq
          · rw [compare_neg_neg, ← parts]
            rfl
          · exact congrArg some (compare_lt_iff_lt.mpr ((neg m_pos).trans (pos n_pos))).symm
          · exact congrArg some (compare_gt_iff_gt.mpr ((neg n_pos).trans (pos m_pos))).symm
          · exact congrArg some parts

theorem lt_iff_unpack {x y : Float} : x < y ↔ x.toModel.unpack.lt y.toModel.unpack = true :=
  decide_eq_true_iff

theorem le_iff_unpack {x y : Float} : x ≤ y ↔ x.toModel.unpack.le y.toModel.unpack = true :=
  decide_eq_true_iff

section Numbers

variable {x y : Float} {p q : ℚ}

theorem compare_unpack (hp : number? x = some p) (hq : number? y = some q) :
    x.toModel.unpack.compare y.toModel.unpack = some (compare p q) :=
  compare_numbers (number?_eq x ▸ hp) (number?_eq y ▸ hq) (tidy_unpack x) (tidy_unpack y)

/-- Floats are compared as the numbers that they are. -/
theorem lt_iff_number? (hp : number? x = some p) (hq : number? y = some q) : x < y ↔ p < q := by
  rw [lt_iff_unpack, UnpackedFloat.lt, compare_unpack hp hq, ← compare_lt_iff_lt]
  simp

theorem le_iff_number? (hp : number? x = some p) (hq : number? y = some q) : x ≤ y ↔ p ≤ q := by
  rw [le_iff_unpack, UnpackedFloat.le, compare_unpack hp hq, ← compare_le_iff_le]
  simp [Ordering.isLE_iff_ne_gt]

theorem beq_iff_number? (hp : number? x = some p) (hq : number? y = some q) :
    (x == y) = true ↔ p = q := by
  change (x.toModel.unpack.compare y.toModel.unpack == some .eq) = true ↔ _
  rw [compare_unpack hp hq, ← compare_eq_iff_eq]
  simp

/-- What lies between two numbers is a number. -/
theorem exists_number?_of_between {low high : Float} (hp : number? low = some p)
    (hq : number? high = some q) (above : low < x) (below : x ≤ high) :
    ∃ r, number? x = some r := by
  rw [lt_iff_unpack] at above
  rw [le_iff_unpack] at below
  rw [number?_eq] at hp hq ⊢
  generalize low.toModel.unpack = low at *
  generalize x.toModel.unpack = middle at *
  generalize high.toModel.unpack = high at *
  cases middle with
  | zero sign => exact ⟨_, rfl⟩
  | finite sign mantissa exponent pos => cases sign <;> exact ⟨_, rfl⟩
  | notANumber => cases low <;> cases above
  | infinity sign =>
      cases sign with
      | positive =>
          cases high with
          | zero other => cases below
          | finite other mantissa exponent pos => cases below
          | infinity other => cases hq
          | notANumber => cases hq
      | negative =>
          cases low with
          | zero other => cases above
          | finite other mantissa exponent pos => cases above
          | infinity other => cases hp
          | notANumber => cases hp

end Numbers

theorem number?_zero : number? 0.0 = some 0 := by
  have parts : Binary.ofFloat 0.0 = ⟨false, .finite 0 (-1074)⟩ := by decide +kernel
  simp [number?, parts, Binary.number?]

theorem number?_hundred : number? 100.0 = some 100 := by
  have parts : Binary.ofFloat 100.0 = ⟨false, .finite 7036874417766400 (-46)⟩ := by
    decide +kernel
  simp only [number?, parts, Binary.number?]
  norm_num

end Vitals.Decimal
