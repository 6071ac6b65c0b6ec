import Intake.Decimal.Binary64

/-!
# The bits of a finite double

A finite double is given by its sign, its significand and its power
(`Decimal.eq_of_significandAndPower`). The bits of a double are a sign, an exponent of eleven bits
and a fraction of 52; doubles that are not finite have the greatest exponent. For all others
unpacking and packing give the same bits again (`Decimal.pack_unpack`), and the sign changes by
itself (`Decimal.neg_ofComponents`).
-/

namespace Intake.Decimal

open Float.Model (UnpackedFloat Format)
open Float.Model.UnpackedFloat (Sign)
open Float.Model.UnpackedFloat

-- one meaning of powers, whatever is imported beside
attribute [local instance (high)] instPowNat

/-! ## Significands and powers -/

/-- The bits of `m · 2 ^ q`. -/
def bitsOf (m : Nat) (q : Int) : Nat := (q + 1074).toNat * 2 ^ (52 : Nat) + m

/-- The significands and powers of the finite doubles. -/
structure IsDouble (m : Nat) (q : Int) : Prop where
  lt : m < 2 ^ (53 : Nat)
  low : -1074 ≤ q
  high : q ≤ 971
  normal : q = -1074 ∨ 2 ^ (52 : Nat) ≤ m

/-! ## Components -/

theorem toNat_one_append (v : BitVec 52) : (1#1 ++ v).toNat = 2 ^ (52 : Nat) + v.toNat := by
  rw [BitVec.toNat_append, ← Nat.shiftLeft_add_eq_or_of_lt v.isLt, Nat.shiftLeft_eq]
  rfl

theorem toNat_packComponents (s : Sign) (e : BitVec 11) (f : BitVec 52) :
    (packComponents .binary64 s e f).toNat
      = s.toBitVec.toNat * 2 ^ (63 : Nat) + e.toNat * 2 ^ (52 : Nat) + f.toNat := by
  rw [packComponents, BitVec.toNat_append, ← Nat.shiftLeft_add_eq_or_of_lt f.isLt,
    Nat.shiftLeft_eq, BitVec.toNat_append, ← Nat.shiftLeft_add_eq_or_of_lt e.isLt, Nat.shiftLeft_eq,
    Nat.add_mul, Nat.mul_assoc]

theorem toNat_unpackSign (b : BitVec 64) :
    (@unpackSign .binary64 b).toNat = b.toNat / 2 ^ (63 : Nat) % 2 ^ (1 : Nat) := by
  show (BitVec.extractLsb' 63 1 b).toNat = _
  rw [BitVec.extractLsb'_toNat, Nat.shiftRight_eq_div_pow]

theorem toNat_unpackExponent (b : BitVec 64) :
    (@unpackExponent .binary64 b).toNat = b.toNat / 2 ^ (52 : Nat) % 2 ^ (11 : Nat) := by
  show (BitVec.extractLsb' 52 11 b).toNat = _
  rw [BitVec.extractLsb'_toNat, Nat.shiftRight_eq_div_pow]

theorem toNat_unpackMantissa (b : BitVec 64) :
    (@unpackMantissa .binary64 b).toNat = b.toNat % 2 ^ (52 : Nat) := by
  show (BitVec.extractLsb' 0 52 b).toNat = _
  rw [BitVec.extractLsb'_toNat, Nat.shiftRight_zero]

theorem unpackSign_packComponents (s : Sign) (e : BitVec 11) (f : BitVec 52) :
    Sign.ofBitVec (unpackSign (packComponents .binary64 s e f)) = s := by
  have hsign : unpackSign (packComponents .binary64 s e f) = s.toBitVec := by
    have he := e.isLt
    have hf := f.isLt
    have hs := s.toBitVec.isLt
    apply BitVec.eq_of_toNat_eq
    rw [toNat_unpackSign, toNat_packComponents]
    omega
  rw [hsign]
  cases s <;> rfl

theorem packComponents_unpack (b : BitVec 64) :
    ∃ s e f, b = packComponents .binary64 s e f := by
  refine ⟨Sign.ofBitVec (@unpackSign .binary64 b), @unpackExponent .binary64 b,
    @unpackMantissa .binary64 b, ?_⟩
  have hsign : ∀ v : BitVec 1, (Sign.ofBitVec v).toBitVec = v := by decide
  have hb := b.isLt
  apply BitVec.eq_of_toNat_eq
  rw [toNat_packComponents, hsign, toNat_unpackSign, toNat_unpackExponent, toNat_unpackMantissa]
  omega

theorem toNat_pos_of_ne_zero {f : BitVec 52} (hf : f ≠ 0#52) : 0 < f.toNat := by
  simpa [BitVec.toNat_pos, BitVec.pos_iff_ne_zero] using hf

theorem toNat_one_append_pos (f : BitVec 52) : 0 < (1#1 ++ f).toNat := by
  rw [toNat_one_append]
  omega

/-- What a sign, an exponent and a fraction stand for. -/
def ofFields (s : Sign) (e : BitVec 11) (f : BitVec 52) : UnpackedFloat :=
  if e = -1#11 then
    if f = 0#52 then .infinity s else .notANumber
  else if e = 0#11 then
    if h : f = 0#52 then .zero s
    else .finite s f.toNat ((e.toNat : Int) - 1075 + 1) (toNat_pos_of_ne_zero h)
  else .finite s (1#1 ++ f).toNat ((e.toNat : Int) - 1075) (toNat_one_append_pos f)

theorem ofFields_subnormal (s : Sign) {f : BitVec 52} (hf : f ≠ 0#52) :
    ofFields s 0#11 f = .finite s f.toNat (-1074) (toNat_pos_of_ne_zero hf) := by
  rw [ofFields, if_neg (by decide), if_pos rfl, dif_neg hf]
  rfl

theorem ofFields_normal (s : Sign) {e : BitVec 11} (he : e ≠ -1#11) (he' : e ≠ 0#11)
    (f : BitVec 52) : ofFields s e f
      = .finite s (1#1 ++ f).toNat ((e.toNat : Int) - 1075) (toNat_one_append_pos f) := by
  rw [ofFields, if_neg he, if_neg he']

/-- The fields of finite bits: those of zero, those of a number without a leading bit, and those of
a number with one. -/
theorem fields_cases (e : BitVec 11) (f : BitVec 52) :
    (e = 0#11 ∧ f = 0#52) ∨ (e = 0#11 ∧ f ≠ 0#52) ∨ e ≠ 0#11 := by
  by_cases he : e = 0#11
  · by_cases hf : f = 0#52
    · exact .inl ⟨he, hf⟩
    · exact .inr (.inl ⟨he, hf⟩)
  · exact .inr (.inr he)

/-- What bits are unpacked to. -/
theorem unpack_packComponents (s : Sign) (e : BitVec 11) (f : BitVec 52) :
    unpack .binary64 (packComponents .binary64 s e f) = ofFields s e f := by
  have hfields : ∀ b, unpack .binary64 b
      = ofFields (Sign.ofBitVec (unpackSign b)) (unpackExponent b) (unpackMantissa b) :=
    fun _ => rfl
  rw [hfields, unpackMantissa_packComponents, unpackExponent_packComponents,
    unpackSign_packComponents]

/-- What a finite number is packed to, with the exponent as it is written into the bits. -/
theorem pack_eq_ite (s : Sign) {m : Nat} (q : Int) (hm : 0 < m) :
    pack .binary64 (.finite s m q hm) =
      if 2 ^ (11 : Nat) ≤ (q + 1075).toNat + 1 then packedInfinity .binary64 s
      else if m.log2 + 1 = 53 then
        packComponents .binary64 s (.ofNat _ (q + 1075).toNat) (.ofNat _ m)
      else packComponents .binary64 s 0#11 (.ofNat _ m) := by
  have hbiased : (q + (Format.binary64.exponentBias : Int)
      + (Format.binary64.mantissaBitsWithoutImplicit : Int)).toNat = (q + 1075).toNat := by
    show (q + (1023 : Int) + (52 : Int)).toNat = _
    omega
  rw [← hbiased]
  rfl

theorem pack_finite {s : Sign} {m : Nat} {q : Int} (hm : 0 < m) (hlt : m < 2 ^ (53 : Nat))
    (hlow : -1074 ≤ q) (hhigh : q ≤ 971) :
    pack .binary64 (.finite s m q hm) =
      packComponents .binary64 s
        (if 2 ^ (52 : Nat) ≤ m then .ofNat _ (q + 1075).toNat else 0#11) (.ofNat _ m) := by
  have hlog : m.log2 + 1 = 53 ↔ 2 ^ (52 : Nat) ≤ m := by
    have h52 := Nat.le_log2 (n := m) (k := 52) (by omega)
    have h53 := Nat.le_log2 (n := m) (k := 53) (by omega)
    omega
  rw [pack_eq_ite, if_neg (by omega)]
  simp only [hlog]
  split <;> rfl

theorem pack_ofFields (s : Sign) {e : BitVec 11} (he : e ≠ -1#11) (f : BitVec 52) :
    pack .binary64 (ofFields s e f) = packComponents .binary64 s e f := by
  have hf := f.isLt
  obtain ⟨rfl, rfl⟩ | ⟨rfl, hne⟩ | he' := fields_cases e f
  · rfl
  · rw [ofFields_subnormal s hne, pack_finite _ (by omega) (by omega) (by omega), if_neg (by omega),
      BitVec.ofNat_toNat, BitVec.setWidth_eq]
  · have hpos : 0 < e.toNat := by
      simpa [BitVec.toNat_pos, BitVec.pos_iff_ne_zero] using he'
    have hlt : e.toNat < 2047 := by
      have := e.isLt
      have hne : e.toNat ≠ 2047 := fun h => he (BitVec.eq_of_toNat_eq h)
      omega
    have hone := toNat_one_append f
    rw [ofFields_normal s he he', pack_finite _ (by omega) (by omega) (by omega),
      if_pos (by omega)]
    have hexponent : BitVec.ofNat 11 ((e.toNat : Int) - 1075 + 1075).toNat = e := by
      apply BitVec.eq_of_toNat_eq
      rw [BitVec.toNat_ofNat]
      omega
    have hfraction : BitVec.ofNat 52 (1#1 ++ f).toNat = f := by
      apply BitVec.eq_of_toNat_eq
      rw [BitVec.toNat_ofNat]
      omega
    rw [hexponent, hfraction]

/-- Finite bits are packed again as they were. -/
theorem pack_unpack (s : Sign) {e : BitVec 11} (he : e ≠ -1#11) (f : BitVec 52) :
    pack .binary64 (unpack .binary64 (packComponents .binary64 s e f))
      = packComponents .binary64 s e f := by
  rw [unpack_packComponents, pack_ofFields s he]

/-! ## Doubles -/

/-- The double with these components. -/
def ofComponents (s : Sign) (e : BitVec 11) (f : BitVec 52) : Float :=
  Float.ofBits (.ofBitVec (packComponents .binary64 s e f))

theorem eq_of_toBits_eq {x y : Float} (h : x.toBits = y.toBits) : x = y := by
  obtain ⟨⟨a, ha⟩⟩ := x
  obtain ⟨⟨b, hb⟩⟩ := y
  change a = b at h
  subst h
  rfl

theorem toBits_ofComponents (s : Sign) {e : BitVec 11} (he : e ≠ -1#11) (f : BitVec 52) :
    (ofComponents s e f).toBits = .ofBitVec (packComponents .binary64 s e f) :=
  congrArg UInt64.ofBitVec (pack_unpack s he f)

/-- A finite double has components. -/
theorem eq_ofComponents {x : Float} (h : x.isFinite = true) :
    ∃ s e f, e ≠ -1#11 ∧ x = ofComponents s e f := by
  obtain ⟨s, e, f, hbits⟩ := packComponents_unpack x.toBits.toBitVec
  have he : e ≠ -1#11 := by
    rintro rfl
    have hfinite : (unpack .binary64 (packComponents .binary64 s (-1#11) f)).isFinite = true := by
      rw [← hbits]
      exact h
    rw [unpack_packComponents, ofFields, if_pos rfl] at hfinite
    split at hfinite <;> cases hfinite
  refine ⟨s, e, f, he, eq_of_toBits_eq ?_⟩
  rw [toBits_ofComponents s he, ← hbits]

theorem neg_ofComponents {e : BitVec 11} (he : e ≠ -1#11) (f : BitVec 52) :
    -ofComponents .positive e f = ofComponents .negative e f := by
  have hneg : (unpack .binary64 (packComponents .binary64 .positive e f)).neg
      = unpack .binary64 (packComponents .binary64 .negative e f) := by
    rw [unpack_packComponents, unpack_packComponents]
    obtain ⟨rfl, rfl⟩ | ⟨rfl, hf⟩ | he' := fields_cases e f
    · rfl
    · rw [ofFields_subnormal _ hf, ofFields_subnormal _ hf]
      rfl
    · rw [ofFields_normal _ he he', ofFields_normal _ he he']
      rfl
  apply eq_of_toBits_eq
  show UInt64.ofBitVec (pack .binary64 (unpack .binary64 (pack .binary64 (unpack .binary64
    (packComponents .binary64 .positive e f)))).neg) = _
  rw [pack_unpack _ he, hneg, pack_unpack _ he, toBits_ofComponents _ he]

/-! ## Sign, significand and power -/

/-- A finite double is given by its sign, its significand and its power. -/
theorem eq_of_significandAndPower {x : Float} (h : x.isFinite = true) {m : Nat} {q : Int}
    (hmq : significandAndPower x.toBits = (m, q)) :
    IsDouble m q ∧ x = if isNegativeBits x.toBits then -Float.ofBits (bitsOf m q).toUInt64
      else Float.ofBits (bitsOf m q).toUInt64 := by
  obtain ⟨s, e, f, he, rfl⟩ := eq_ofComponents h
  have hlt : e.toNat < 2047 := by
    have := e.isLt
    have hne : e.toNat ≠ 2047 := fun h => he (BitVec.eq_of_toNat_eq h)
    omega
  have hf := f.isLt
  have hnat : (ofComponents s e f).toBits.toNat
      = s.toBitVec.toNat * 2 ^ (63 : Nat) + e.toNat * 2 ^ (52 : Nat) + f.toNat := by
    rw [toBits_ofComponents s he]
    exact toNat_packComponents s e f
  have hs := s.toBitVec.isLt
  have hnegative : isNegativeBits (ofComponents s e f).toBits = true ↔ s = .negative := by
    rw [isNegativeBits, hnat, decide_eq_true_eq]
    cases s with
    | positive =>
      have hsign : Sign.positive.toBitVec.toNat = 0 := rfl
      simp only [reduceCtorEq, iff_false]
      omega
    | negative =>
      have hsign : Sign.negative.toBitVec.toNat = 1 := rfl
      simp only [iff_true]
      omega
  have hfields : (e.toNat = 0 ∧ m = f.toNat ∧ q = -1074)
      ∨ (0 < e.toNat ∧ m = 2 ^ (52 : Nat) + f.toNat ∧ q = (e.toNat : Int) - 1075) := by
    have hfraction : (ofComponents s e f).toBits.toNat % 2 ^ (52 : Nat) = f.toNat := by omega
    have hfield : (ofComponents s e f).toBits.toNat / 2 ^ (52 : Nat) % 2 ^ (11 : Nat)
        = e.toNat := by omega
    rw [significandAndPower] at hmq
    simp only [hfraction, hfield] at hmq
    split at hmq
    · cases hmq
      exact .inl ⟨‹_›, rfl, rfl⟩
    · cases hmq
      exact .inr ⟨by omega, rfl, rfl⟩
  have hsum : bitsOf m q = e.toNat * 2 ^ (52 : Nat) + f.toNat := by
    unfold bitsOf
    omega
  have hbits : (bitsOf m q).toUInt64 = .ofBitVec (packComponents .binary64 .positive e f) := by
    have hpositive := toNat_packComponents .positive e f
    have hsign : Sign.positive.toBitVec.toNat = 0 := rfl
    apply UInt64.toNat_inj.mp
    rw [hsum, Nat.toUInt64_eq, UInt64.toNat_ofNat', UInt64.toNat_ofBitVec, hpositive, hsign]
    omega
  refine ⟨⟨by omega, by omega, by omega, by omega⟩, ?_⟩
  rw [hbits]
  change _ = if _ then -ofComponents .positive e f else ofComponents .positive e f
  cases s with
  | positive => rw [if_neg (by simp [hnegative])]
  | negative => rw [if_pos (by simp [hnegative]), neg_ofComponents he]

end Intake.Decimal
