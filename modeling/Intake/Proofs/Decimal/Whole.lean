import Intake.Proofs.Decimal.Bits

/-!
# Whole numbers as doubles

A whole number of 64 bits, with or without sign, is far below the greatest double, so the double
nearest to it is finite (`Decimal.isFinite_ofInt`).

Rounding is not followed exactly. It is enough to know how far the exponent can go up: by no more
than the length of the significand each time that this is shifted to its place
(`Decimal.within_roundWithAccuracy`). `Decimal.Within` bounds both, and doubles with an exponent of
at most 971 are packed into finite bits (`Decimal.within_unpack_pack`).
-/

namespace Intake.Decimal

open Float.Model (UnpackedFloat Format totalExponent)
open Float.Model.UnpackedFloat (Sign Accuracy ExtendedMantissa)
open Float.Model.UnpackedFloat

-- one meaning of powers, whatever is imported beside
attribute [local instance (high)] instPowNat

/-- A finite double whose significand has at most `size` bits and whose exponent is at most
`bound`. -/
inductive Within (size bound : Nat) : UnpackedFloat → Prop where
  | zero (s : Sign) : Within size bound (.zero s)
  | finite (s : Sign) {m : Nat} {e : Int} (hm : 0 < m) (hlt : m < 2 ^ size) (he : e ≤ bound) :
    Within size bound (.finite s m e hm)

theorem Within.isFinite {size bound : Nat} {u : UnpackedFloat} (h : Within size bound u) :
    u.isFinite = true := by
  cases h <;> rfl

theorem Within.neg {size bound : Nat} {u : UnpackedFloat} (h : Within size bound u) :
    Within size bound u.neg := by
  cases h with
  | zero s => exact .zero (-s)
  | finite s hm hlt he => exact .finite (-s) hm hlt he

/-! ## Rounding -/

theorem log2_le_of_lt {m size : Nat} (hm : m < 2 ^ size) : m.log2 ≤ size := by
  by_cases hzero : m = 0
  · rw [hzero]
    exact Nat.zero_le _
  · exact Nat.le_of_lt ((Nat.log2_lt hzero).mpr hm)

theorem mantissa_shiftRight_le (em : ExtendedMantissa) (n : Nat) :
    (em >>> n).mantissa ≤ em.mantissa := by
  induction n with
  | zero => exact Nat.le_refl _
  | succ n ih =>
    have hhalf : (em >>> (n + 1)).mantissa = (em >>> n).mantissa / 2 := rfl
    rw [hhalf]
    exact Nat.le_trans (Nat.div_le_self _ _) ih

theorem roundedMantissa_le (em : ExtendedMantissa) : em.roundedMantissa ≤ em.mantissa + 1 := by
  obtain ⟨m, round, sticky⟩ := em
  have hodd : m % 2 < 2 := Nat.mod_lt m (by decide)
  cases round <;> cases sticky
  · exact Nat.le_succ m
  · exact Nat.le_succ m
  · show m + m % 2 ≤ m + 1
    omega
  · exact Nat.le_refl _

/-- Shifting a significand to its place makes it no longer, and lets the exponent go up by no more
than its length. -/
theorem shiftToTargetExponent_le {m size bound : Nat} {e : Int} (hm : m < 2 ^ size)
    (he : e ≤ bound) (accuracy : Accuracy) :
    (shiftToTargetExponent .binary64 m e accuracy).1.mantissa ≤ m
      ∧ (shiftToTargetExponent .binary64 m e accuracy).2 ≤ bound + size := by
  have hlog := log2_le_of_lt hm
  have htarget : Format.binary64.targetExponent (totalExponent m e)
      = max ((m.log2 : Int) + 1 + e - 53) (-1074) := rfl
  constructor
  · have hstart : (ExtendedMantissa.ofMantissaAndAccuracy m accuracy).mantissa = m := by
      rcases accuracy with _ | _ | _ | _ <;> rfl
    exact Nat.le_trans (mantissa_shiftRight_le _ _) (Nat.le_of_eq hstart)
  · show e + ((Format.binary64.targetExponent (totalExponent m e) - e).toNat : Int)
      ≤ bound + size
    rw [htarget]
    omega

/-- A significand is shifted to its place twice when it is rounded: once before and once after it
is rounded to a whole number. -/
theorem roundWithAccuracy_eq {m : Nat} {e : Int} (s : Sign) {accuracy : Accuracy}
    {first second : ExtendedMantissa × Int}
    (hfirst : shiftToTargetExponent .binary64 m e accuracy = first)
    (hsecond : shiftToTargetExponent .binary64 first.1.roundedMantissa first.2 .exact = second) :
    roundWithAccuracy .binary64 s m e accuracy =
      if h : second.1.mantissa = 0 then .zero s
      else .finite s second.1.mantissa second.2 (Nat.pos_of_ne_zero h) := by
  subst hfirst hsecond
  rfl

theorem within_roundWithAccuracy {m size bound : Nat} {e : Int} (hm : m < 2 ^ size)
    (he : e ≤ bound) (s : Sign) (accuracy : Accuracy) :
    Within (size + 1) (bound + size + (size + 1))
      (roundWithAccuracy .binary64 s m e accuracy) := by
  obtain ⟨hm₁, he₁⟩ := shiftToTargetExponent_le hm he accuracy
  generalize hfirst : shiftToTargetExponent .binary64 m e accuracy = first at hm₁ he₁
  have hrounded := roundedMantissa_le first.1
  have hsize : 2 ^ (size + 1) = 2 * 2 ^ size := Nat.pow_succ'
  have hlt : first.1.roundedMantissa < 2 ^ (size + 1) := by omega
  have hcast : first.2 ≤ ((bound + size : Nat) : Int) := by omega
  obtain ⟨hm₂, he₂⟩ := shiftToTargetExponent_le hlt hcast .exact
  generalize hsecond : shiftToTargetExponent .binary64 first.1.roundedMantissa first.2 .exact
    = second at hm₂ he₂
  rw [roundWithAccuracy_eq s hfirst hsecond]
  by_cases hzero : second.1.mantissa = 0
  · rw [dif_pos hzero]
    exact .zero s
  · rw [dif_neg hzero]
    exact .finite s _ (Nat.lt_of_le_of_lt hm₂ hlt) (by omega)

theorem within_mul {size size' bound bound' : Nat} {u v : UnpackedFloat}
    (hu : Within size bound u) (hv : Within size' bound' v) :
    Within (size + size' + 1) (bound + bound' + (size + size') + (size + size' + 1))
      (mul .binary64 u v) := by
  cases hu with
  | zero s =>
    cases hv with
    | zero t => exact .zero (s * t)
    | finite t hm hlt he => exact .zero (s * t)
  | @finite s m e hm hlt he =>
    cases hv with
    | zero t => exact .zero (s * t)
    | @finite t m' e' hm' hlt' he' =>
      have hproduct : m * m' < 2 ^ (size + size') := by
        rw [Nat.pow_add]
        exact Nat.mul_lt_mul'' hlt hlt'
      exact within_roundWithAccuracy hproduct (by omega) (s * t) .exact

/-- A natural number is brought to 53 bits at least before it is rounded. -/
theorem within_ofNat {n size : Nat} (hn : n < 2 ^ size) :
    Within (size + 53) (size + 52 + (size + 53)) (UnpackedFloat.ofNat .binary64 n) := by
  by_cases hzero : n = 0
  · subst hzero
    exact .zero .positive
  · obtain ⟨shift, hshift, hround⟩ : ∃ shift ≤ 52, UnpackedFloat.ofNat .binary64 n
        = roundWithAccuracy .binary64 .positive (n <<< shift) (0 - (shift : Int)) .exact := by
      have htarget : Format.binary64.targetExponent (totalExponent n 0)
          = max ((n.log2 : Int) + 1 + 0 - 53) (-1074) := rfl
      have hcompare : compare (n : Int) 0 = .gt := by
        rw [Int.compare_eq_gt]
        omega
      refine ⟨(0 - Format.binary64.targetExponent (totalExponent n 0)).toNat, ?_, ?_⟩
      · rw [htarget]
        omega
      · show UnpackedFloat.normalize .binary64 (n : Int) 0 .positive = _
        rw [UnpackedFloat.normalize, hcompare]
        rfl
    have hlt : n <<< shift < 2 ^ (size + 52) := by
      rw [Nat.shiftLeft_eq, Nat.pow_add]
      exact Nat.mul_lt_mul_of_lt_of_le hn (Nat.pow_le_pow_right (by decide) hshift)
        (Nat.pow_pos (by decide))
    have hexponent : (0 : Int) - shift ≤ (0 : Nat) := by omega
    have hwithin := within_roundWithAccuracy hlt hexponent .positive .exact
    rw [hround]
    rwa [Nat.zero_add] at hwithin

/-! ## Packing -/

theorem within_ofFields {bound : Nat} {e : BitVec 11} (he : e ≠ -1#11)
    (hle : (e.toNat : Int) - 1075 ≤ bound) (s : Sign) (f : BitVec 52) :
    Within 53 bound (ofFields s e f) := by
  have hf := f.isLt
  obtain ⟨rfl, rfl⟩ | ⟨rfl, hne⟩ | hne := fields_cases e f
  · exact .zero s
  · rw [ofFields_subnormal s hne]
    exact .finite s _ (by omega) (by omega)
  · have hone := toNat_one_append f
    rw [ofFields_normal s he hne]
    exact .finite s _ (by omega) hle

/-- Finite doubles with an exponent of at most 971 stay finite when they are packed. -/
theorem within_unpack_pack {size bound : Nat} {u : UnpackedFloat} (h : Within size bound u)
    (hbound : bound ≤ 971) : Within 53 bound (unpack .binary64 (pack .binary64 u)) := by
  have hzero : ∀ (s : Sign) (f : BitVec 52), Within 53 bound
      (unpack .binary64 (packComponents .binary64 s 0#11 f)) := by
    intro s f
    rw [unpack_packComponents]
    exact within_ofFields (by decide) (by simp only [BitVec.toNat_ofNat]; omega) s f
  cases h with
  | zero s => exact hzero s 0#52
  | @finite s m e hm hlt he =>
    have hnat : (BitVec.ofNat 11 (e + 1075).toNat).toNat = (e + 1075).toNat := by
      rw [BitVec.toNat_ofNat]
      exact Nat.mod_eq_of_lt (by omega)
    rw [pack_eq_ite, if_neg (by omega)]
    split
    · have hne : BitVec.ofNat 11 (e + 1075).toNat ≠ -1#11 := by
        intro heq
        have hall : (-1#11).toNat = 2047 := rfl
        rw [heq] at hnat
        omega
      rw [unpack_packComponents]
      exact within_ofFields hne (by omega) s _
    · exact hzero s _

/-! ## Doubles -/

theorem isFinite_of_within {size bound : Nat} {u : UnpackedFloat} (h : Within size bound u)
    (hbound : bound ≤ 971) : (Float.ofModel (.pack u)).isFinite = true :=
  (within_unpack_pack h hbound).isFinite

/-- What a finite double is unpacked to. -/
theorem within_unpack {x : Float} (h : x.isFinite = true) : Within 53 971 x.toModel.unpack := by
  obtain ⟨s, e, f, he, rfl⟩ := eq_ofComponents h
  have hlt : e.toNat < 2047 := by
    have := e.isLt
    have hne : e.toNat ≠ 2047 := fun h => he (BitVec.eq_of_toNat_eq h)
    omega
  show Within 53 971 (unpack .binary64 (ofComponents s e f).toBits.toBitVec)
  rw [toBits_ofComponents s he]
  show Within 53 971 (unpack .binary64 (packComponents .binary64 s e f))
  rw [unpack_packComponents]
  exact within_ofFields he (by omega) s f

theorem isFinite_neg {x : Float} (h : x.isFinite = true) : x.neg.isFinite = true :=
  isFinite_of_within (within_unpack h).neg (Nat.le_refl _)

theorem ofNat_of_lt {n : Nat} (hn : n < 2 ^ (53 : Nat)) :
    Float.ofNat n = n.toUInt64.toFloat * Float.ofBits 0x3FF0000000000000 := by
  show Float.ofScientific n false 0 = _
  rw [Float.ofScientific, dif_pos ⟨hn, Nat.zero_le _⟩]
  rfl

theorem ofNat_of_le {n : Nat} (hn : 2 ^ (53 : Nat) ≤ n) :
    Float.ofNat n = Float.ofModel (.pack (mul .binary64
      (.finite .positive (n <<< 53) (-53) (by rw [Nat.shiftLeft_eq]; omega))
      (.finite .positive 1 0 (by decide)))) := by
  show Float.ofScientific n false 0 = _
  rw [Float.ofScientific, dif_neg (by omega)]
  show Float.ofModel (.pack (UnpackedFloat.ofScientific .binary64 n 0)) = _
  have hlow : ¬(0 : Int) < -((2 ^ Format.binary64.exponentBits : Int) + (n.log2 : Int)) := by
    have hbits : (2 ^ Format.binary64.exponentBits : Int) = 2048 := rfl
    omega
  rw [UnpackedFloat.ofScientific, dif_neg (by omega), if_neg (by decide), if_neg hlow,
    if_pos (by decide)]
  rfl

/-- A natural number of 64 bits is a finite double. One of 53 bits is a double as it is, times one;
a larger one is rounded. -/
theorem isFinite_ofNat {n : Nat} (hn : n < 2 ^ (64 : Nat)) : (Float.ofNat n).isFinite = true := by
  by_cases hsmall : n < 2 ^ (53 : Nat)
  · have hnat : n.toUInt64.toNat = n := by
      rw [Nat.toUInt64_eq, UInt64.toNat_ofNat']
      omega
    have hfactor : Within 53 233 n.toUInt64.toFloat.toModel.unpack :=
      within_unpack_pack (@within_ofNat _ 64 (by omega)) (by decide)
    have hone : Within 53 0 (Float.ofBits 0x3FF0000000000000).toModel.unpack := by
      have hunpack : (Float.ofBits 0x3FF0000000000000).toModel.unpack
          = .finite .positive (2 ^ (52 : Nat)) (-52) (by decide) := by
        rfl
      rw [hunpack]
      exact .finite .positive _ (by decide) (by decide)
    have hproduct := isFinite_of_within (within_mul hfactor hone) (by decide)
    rw [ofNat_of_lt hsmall]
    exact hproduct
  · have hlarge : Within 117 0 (.finite .positive (n <<< 53) (-53)
        (by rw [Nat.shiftLeft_eq]; omega)) := by
      have hlt : n <<< 53 < 2 ^ (117 : Nat) := by
        rw [Nat.shiftLeft_eq]
        omega
      exact .finite .positive _ hlt (by decide)
    have hone : Within 1 0 (.finite .positive 1 0 (by decide)) :=
      .finite .positive _ (by decide) (by decide)
    have hproduct := isFinite_of_within (within_mul hlarge hone) (by decide)
    rw [ofNat_of_le (by omega)]
    exact hproduct

/-- A whole number of 64 bits, with or without sign, is a finite double. -/
theorem isFinite_ofInt {n : Int} (hleast : -2 ^ (63 : Nat) ≤ n) (hbelow : n < 2 ^ (64 : Nat)) :
    (Float.ofInt n).isFinite = true := by
  cases n with
  | ofNat n => exact isFinite_ofNat (Int.ofNat_lt.mp hbelow)
  | negSucc n => exact isFinite_neg (isFinite_ofNat (by omega))

end Intake.Decimal
