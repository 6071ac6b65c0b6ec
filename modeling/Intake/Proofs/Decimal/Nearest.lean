import Intake.Decimal.Shortest
import Intake.Proofs.Decimal.Bits
import Mathlib.Algebra.Order.Field.Power
import Mathlib.Data.Int.Log
import Mathlib.Data.Rat.Floor
import Mathlib.Tactic.FieldSimp
import Mathlib.Tactic.Linarith
import Mathlib.Tactic.NormNum
import Mathlib.Tactic.Positivity
import Mathlib.Tactic.Ring

/-!
# The nearest double

Every quotient of natural numbers that lies in the range of a double is rounded to this double
(`Decimal.nearestBits?_of_holds`). In the step of the double, its range is at most half a step to
either side of the significand, so the rounded quotient is the significand; the exponent that is
found is that of the double, but for the quotients just below a power of two, where the doubles
stand twice as close and the significand comes out twice as large.
-/

namespace Intake.Decimal

-- one meaning of powers, whatever is imported beside
attribute [local instance (high)] instPowNat

/-! ## Rounding -/

/-- A quotient at most half a unit away from `m` is rounded to `m`; if it is half a unit away, `m`
must be even. -/
theorem roundDiv_eq {n d m : Nat} (hd : 0 < d) (hlow : 2 * m * d ≤ 2 * n + d)
    (hhigh : 2 * n ≤ 2 * m * d + d)
    (htie : 2 * m * d = 2 * n + d ∨ 2 * n = 2 * m * d + d → m % 2 = 0) : roundDiv n d = m := by
  have hdiv := Nat.div_add_mod n d
  have hmod := Nat.mod_lt n hd
  unfold roundDiv
  generalize n / d = a at *
  generalize n % d = r at *
  subst hdiv
  have hle : m ≤ a + 1 := by
    by_contra hlt
    have : 2 * (a + 2) * d ≤ 2 * m * d := Nat.mul_le_mul_right d (by omega)
    nlinarith
  have hge : a ≤ m := by
    by_contra hlt
    have : 2 * (m + 1) * d ≤ 2 * a * d := Nat.mul_le_mul_right d (by omega)
    nlinarith
  obtain rfl | rfl : m = a ∨ m = a + 1 := by omega
  · have hcomm : 2 * m * d = 2 * (d * m) := by ring
    rw [if_neg]
    omega
  · have hcomm : 2 * (a + 1) * d = 2 * (d * a) + 2 * d := by ring
    rw [if_pos]
    omega

/-! ## The exponent -/

theorem scale_pos {n d : Nat} (hd : 0 < d) (e : Int) : 0 < (scale n d e).2 := by
  unfold scale
  split
  · exact Nat.mul_pos hd (Nat.pow_pos (by omega))
  · exact hd

/-- A scaled quotient is the quotient by a power of two. -/
theorem scale_div {n d : Nat} (hd : 0 < d) (e : Int) :
    ((scale n d e).1 : ℚ) / (scale n d e).2 = (n : ℚ) / d / 2 ^ e := by
  have hd' : (d : ℚ) ≠ 0 := by positivity
  unfold scale
  split
  · rename_i h
    obtain ⟨k, rfl⟩ := Int.eq_ofNat_of_zero_le h
    have hcast : ((d * 2 ^ k : Nat) : ℚ) = d * 2 ^ k := by push_cast; rfl
    rw [Int.toNat_natCast, hcast, zpow_natCast]
    field_simp
  · rename_i h
    obtain ⟨k, rfl⟩ : ∃ k : Nat, e = -(k : Int) := ⟨(-e).toNat, by omega⟩
    have hcast : ((n * 2 ^ k : Nat) : ℚ) = n * 2 ^ k := by push_cast; rfl
    rw [neg_neg, Int.toNat_natCast, hcast, zpow_neg, zpow_natCast]
    field_simp

/-- A scaled quotient has so many bits before the point as its logarithm says. -/
theorem scale_lt_iff {n d : Nat} (hn : 0 < n) (hd : 0 < d) (e : Int) (k : Nat) :
    (scale n d e).1 < (scale n d e).2 * 2 ^ k ↔ Int.log 2 ((n : ℚ) / d) < e + k := by
  have hv : (0 : ℚ) < (n : ℚ) / d := by positivity
  have hpos := scale_pos (n := n) hd e
  have hcast : (((scale n d e).2 * 2 ^ k : Nat) : ℚ) = 2 ^ (k : ℤ) * (scale n d e).2 := by
    push_cast
    rw [zpow_natCast, mul_comm]
  rw [← Int.lt_zpow_iff_log_lt (by omega) hv, ← Nat.cast_lt (α := ℚ), hcast,
    ← div_lt_iff₀ (by exact_mod_cast hpos), scale_div hd, div_lt_iff₀ (by positivity),
    ← zpow_add₀ (by norm_num), add_comm e k]
  rfl

/-- The exponent leaves 53 bits before the point, or is the least one. -/
theorem exponentOf_eq {n d : Nat} (hn : 0 < n) (hd : 0 < d) :
    exponentOf n d = max (Int.log 2 ((n : ℚ) / d) - 52) (-1074) := by
  have hv : (0 : ℚ) < (n : ℚ) / d := by positivity
  have hn1 : ((2 : ℕ) : ℚ) ^ (n.log2 : ℤ) ≤ n := by
    rw [zpow_natCast]; exact_mod_cast Nat.log2_self_le (by omega)
  have hn2 : (n : ℚ) < ((2 : ℕ) : ℚ) ^ ((n.log2 : ℤ) + 1) := by
    exact_mod_cast Nat.lt_log2_self
  have hd1 : ((2 : ℕ) : ℚ) ^ (d.log2 : ℤ) ≤ d := by
    rw [zpow_natCast]; exact_mod_cast Nat.log2_self_le (by omega)
  have hd2 : (d : ℚ) < ((2 : ℕ) : ℚ) ^ ((d.log2 : ℤ) + 1) := by
    exact_mod_cast Nat.lt_log2_self
  have hbelow : Int.log 2 ((n : ℚ) / d) < (n.log2 : ℤ) - d.log2 + 1 := by
    rw [← Int.lt_zpow_iff_log_lt (by omega) hv, div_lt_iff₀ (by positivity)]
    calc (n : ℚ) < ((2 : ℕ) : ℚ) ^ ((n.log2 : ℤ) + 1) := hn2
      _ = ((2 : ℕ) : ℚ) ^ ((n.log2 : ℤ) - d.log2 + 1) * ((2 : ℕ) : ℚ) ^ (d.log2 : ℤ) := by
        rw [← zpow_add₀ (by norm_num)]; congr 1; ring
      _ ≤ ((2 : ℕ) : ℚ) ^ ((n.log2 : ℤ) - d.log2 + 1) * d :=
        mul_le_mul_of_nonneg_left hd1 (by positivity)
  have habove : (n.log2 : ℤ) - d.log2 - 1 ≤ Int.log 2 ((n : ℚ) / d) := by
    rw [← Int.zpow_le_iff_le_log (by omega) hv, le_div_iff₀ (by positivity)]
    calc ((2 : ℕ) : ℚ) ^ ((n.log2 : ℤ) - d.log2 - 1) * d
        ≤ ((2 : ℕ) : ℚ) ^ ((n.log2 : ℤ) - d.log2 - 1) * ((2 : ℕ) : ℚ) ^ ((d.log2 : ℤ) + 1) :=
          mul_le_mul_of_nonneg_left hd2.le (by positivity)
      _ = ((2 : ℕ) : ℚ) ^ (n.log2 : ℤ) := by
        rw [← zpow_add₀ (by norm_num)]; congr 1; ring
      _ ≤ n := hn1
  simp only [exponentOf, scale_lt_iff hn hd]
  split <;> omega

/-! ## The reals that round to a double -/

/-- How far the range of a double reaches down, in quarters. -/
def reachBelow (m : Nat) (q : Int) : Nat := if m = 2 ^ (52 : Nat) ∧ -1074 < q then 1 else 2

/-- A quotient in the range of a double, counted in the step of the double. -/
theorem holds_iff (m : Nat) (q : Int) (n d : Nat) :
    (Range.of m q).holds n d = true ↔
      if m % 2 = 0 then
        (4 * m - reachBelow m q) * (scale n d q).2 ≤ 4 * (scale n d q).1
          ∧ 4 * (scale n d q).1 ≤ (4 * m + 2) * (scale n d q).2
      else
        (4 * m - reachBelow m q) * (scale n d q).2 < 4 * (scale n d q).1
          ∧ 4 * (scale n d q).1 < (4 * m + 2) * (scale n d q).2 := by
  have hlow : (Range.of m q).low * d = (4 * m - reachBelow m q) * (scale n d q).2 := by
    unfold Range.of scale reachBelow
    split <;> simp only <;> ring
  have hhigh : (Range.of m q).high * d = (4 * m + 2) * (scale n d q).2 := by
    unfold Range.of scale
    split <;> simp only <;> ring
  have hcentre : n * (Range.of m q).unit = 4 * (scale n d q).1 := by
    unfold Range.of scale
    split <;> simp only <;> ring
  have hclosed : (Range.of m q).closed = decide (m % 2 = 0) := rfl
  rw [Range.holds, hlow, hhigh, hcentre, hclosed]
  by_cases h : m % 2 = 0 <;> simp [h]

/-- A quotient in the range of a double is at most half a step away from it, and if it is half a
step away then the significand is even. -/
theorem near_of_holds {m : Nat} {q : Int} {n d : Nat}
    (h : (Range.of m q).holds n d = true) :
    (4 * m - reachBelow m q) * (scale n d q).2 ≤ 4 * (scale n d q).1
      ∧ 4 * (scale n d q).1 ≤ (4 * m + 2) * (scale n d q).2
      ∧ (m % 2 = 0 ∨ (4 * m - reachBelow m q) * (scale n d q).2 < 4 * (scale n d q).1
          ∧ 4 * (scale n d q).1 < (4 * m + 2) * (scale n d q).2) := by
  rw [holds_iff] at h
  split at h
  · exact ⟨h.1, h.2, .inl ‹_›⟩
  · exact ⟨h.1.le, h.2.le, .inr h⟩

/-- Scaling by one power of two less doubles the quotient. -/
theorem scale_pred {n d : Nat} (hd : 0 < d) (e : Int) :
    (scale n d (e - 1)).1 * (scale n d e).2 = 2 * (scale n d e).1 * (scale n d (e - 1)).2 := by
  have hb := scale_pos (n := n) hd e
  have hb' := scale_pos (n := n) hd (e - 1)
  have hb0 : ((scale n d e).2 : ℚ) ≠ 0 := by positivity
  have hb0' : ((scale n d (e - 1)).2 : ℚ) ≠ 0 := by positivity
  have hdiv : ((scale n d (e - 1)).1 : ℚ) / (scale n d (e - 1)).2
      = 2 * ((scale n d e).1 / (scale n d e).2) := by
    rw [scale_div hd, scale_div hd, zpow_sub_one₀ (by norm_num)]
    field_simp
  rw [div_eq_iff hb0'] at hdiv
  field_simp at hdiv
  exact_mod_cast hdiv

/-- The bits that are found are those of the exponent and the rounded quotient. -/
theorem nearestBits?_eq {n d b : Nat} (hn : n ≠ 0)
    (hb : (exponentOf n d + 1074).toNat * 2 ^ (52 : Nat)
      + roundDiv (scale n d (exponentOf n d)).1 (scale n d (exponentOf n d)).2 = b)
    (hlt : b < 0x7ff * 2 ^ (52 : Nat)) : nearestBits? n d = some b.toUInt64 := by
  unfold nearestBits?
  rw [if_neg hn]
  extract_lets e
  split
  rename_i x y hxy
  extract_lets bits
  have hbits : bits = b := by
    have hscale : scale n d (exponentOf n d) = (x, y) := hxy
    rw [hscale] at hb
    exact hb
  rw [hbits, if_pos hlt]

theorem reachBelow_cases (m : Nat) (q : Int) :
    reachBelow m q = 1 ∧ m = 2 ^ (52 : Nat) ∧ -1074 < q
      ∨ reachBelow m q = 2 ∧ ¬(m = 2 ^ (52 : Nat) ∧ -1074 < q) := by
  unfold reachBelow
  split
  · exact .inl ⟨rfl, ‹_›⟩
  · exact .inr ⟨rfl, ‹_›⟩

/-- Zero lies in no range. -/
theorem pos_of_holds {m : Nat} {q : Int} (hm : 0 < m) {n d : Nat} (hd : 0 < d)
    (h : (Range.of m q).holds n d = true) : 0 < n := by
  by_contra hzero
  obtain ⟨hlow, -, -⟩ := near_of_holds h
  have hscale : (scale n d q).1 = 0 := by
    obtain rfl : n = 0 := by omega
    unfold scale
    split <;> simp
  have hreach := reachBelow_cases m q
  have hpos : 0 < (4 * m - reachBelow m q) * (scale n d q).2 :=
    Nat.mul_pos (by omega) (scale_pos hd q)
  omega

/-- In the step of the double, its range rounds to its significand. -/
theorem roundDiv_scale {m : Nat} {q : Int} (hm : 0 < m) {n d : Nat} (hd : 0 < d)
    (h : (Range.of m q).holds n d = true) : roundDiv (scale n d q).1 (scale n d q).2 = m := by
  obtain ⟨hlow, hhigh, htie⟩ := near_of_holds h
  have hb := scale_pos (n := n) hd q
  have hreach := reachBelow_cases m q
  generalize (scale n d q).1 = a at *
  generalize (scale n d q).2 = b at *
  have hbelow : (4 * m - 2) * b ≤ (4 * m - reachBelow m q) * b := Nat.mul_le_mul_right b (by omega)
  have hm4 : (4 * m - 2) * b + 2 * b = 4 * (m * b) := by
    rw [← Nat.add_mul, Nat.sub_add_cancel (by omega), Nat.mul_assoc]
  have hp4 : (4 * m + 2) * b = 4 * (m * b) + 2 * b := by ring
  have hmb : 2 * m * b = 2 * (m * b) := Nat.mul_assoc 2 m b
  refine roundDiv_eq hb (by omega) (by omega) ?_
  rcases htie with heven | ⟨hlow', hhigh'⟩
  · exact fun _ => heven
  · omega

/-- The range of a double below a power of two reaches down to where the step is half as wide. There
it is rounded to that power of two. -/
theorem roundDiv_scale_pred {q : Int} {n d : Nat} (hd : 0 < d)
    (hlow : (4 * 2 ^ (52 : Nat) - 1) * (scale n d q).2 ≤ 4 * (scale n d q).1)
    (hhigh : (scale n d q).1 < (scale n d q).2 * 2 ^ (52 : Nat)) :
    roundDiv (scale n d (q - 1)).1 (scale n d (q - 1)).2 = 2 ^ (53 : Nat) := by
  have hb := scale_pos (n := n) hd q
  have hb' := scale_pos (n := n) hd (q - 1)
  have hpred := scale_pred (n := n) hd q
  generalize (scale n d q).1 = a at *
  generalize (scale n d q).2 = b at *
  generalize (scale n d (q - 1)).1 = a' at *
  generalize (scale n d (q - 1)).2 = b' at *
  have hlow' : (4 * 2 ^ (52 : Nat) - 1) * b' ≤ 2 * a' := by
    refine Nat.le_of_mul_le_mul_right (c := b) ?_ hb
    calc (4 * 2 ^ (52 : Nat) - 1) * b' * b = (4 * 2 ^ (52 : Nat) - 1) * b * b' := by ring
      _ ≤ 4 * a * b' := Nat.mul_le_mul_right b' hlow
      _ = 2 * (2 * a * b') := by ring
      _ = 2 * a' * b := by rw [← hpred, Nat.mul_assoc]
  have hhigh' : a' < 2 ^ (53 : Nat) * b' := by
    refine Nat.lt_of_mul_lt_mul_right (a := b) ?_
    calc a' * b = 2 * b' * a := by rw [hpred]; ring
      _ < 2 * b' * (b * 2 ^ (52 : Nat)) := Nat.mul_lt_mul_of_pos_left hhigh (by omega)
      _ = 2 ^ (53 : Nat) * b' * b := by ring
  exact roundDiv_eq hb' (by omega) (by omega) (by omega)

/-- Every quotient in the range of a double is rounded to this double. -/
theorem nearestBits?_of_holds {m : Nat} {q : Int} (hmq : IsDouble m q) (hm : 0 < m) {n d : Nat}
    (hd : 0 < d) (h : (Range.of m q).holds n d = true) :
    nearestBits? n d = some (bitsOf m q).toUInt64 := by
  obtain ⟨hlow, hhigh, htie⟩ := near_of_holds h
  have hb := scale_pos (n := n) hd q
  have hreach := reachBelow_cases m q
  obtain ⟨hlt, hqlow, hqhigh, hnormal⟩ := hmq
  have hn := pos_of_holds hm hd h
  have hlog53 := scale_lt_iff hn hd q 53
  have hlog52 := scale_lt_iff hn hd q 52
  have hexponent := exponentOf_eq hn hd
  have hbits : bitsOf m q < 0x7ff * 2 ^ (52 : Nat) := by unfold bitsOf; omega
  refine nearestBits?_eq (by omega) ?_ hbits
  have h53 : (scale n d q).1 < (scale n d q).2 * 2 ^ (53 : Nat) := by
    have := Nat.mul_le_mul_right (scale n d q).2 (show 4 * m + 2 ≤ 4 * 2 ^ (53 : Nat) - 2 by omega)
    omega
  by_cases h52 : (scale n d q).1 < (scale n d q).2 * 2 ^ (52 : Nat)
  · rcases hreach with ⟨hreach, rfl, hq⟩ | ⟨hreach, hstep⟩
    · -- just below a power of two the quotient has the exponent of the doubles there
      rw [hreach] at hlow
      have hlog51 := scale_lt_iff hn hd q 51
      have he : exponentOf n d = q - 1 := by omega
      rw [he, roundDiv_scale_pred hd hlow h52, bitsOf]
      omega
    · have hleast : q = -1074 := by
        by_contra hne
        have := Nat.mul_le_mul_right (scale n d q).2
          (show 4 * 2 ^ (52 : Nat) ≤ 4 * m - reachBelow m q by omega)
        omega
      have he : exponentOf n d = q := by omega
      rw [he, roundDiv_scale hm hd h, bitsOf]
  · have he : exponentOf n d = q := by omega
    rw [he, roundDiv_scale hm hd h, bitsOf]

end Intake.Decimal
