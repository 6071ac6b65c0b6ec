import Intake.Proofs.Decimal.Nearest

/-!
# The shortest decimal lies in the range

What is found for a double is a decimal in the range of the double (`Decimal.holds_shortest`). The
search goes down to where every double is a decimal itself, so it finds one at the latest there
(`Decimal.holds_search`). Its size is that of a double as well (`Decimal.size_of_holds`).
-/

namespace Intake.Decimal

-- one meaning of powers, whatever is imported beside
attribute [local instance (high)] instPowNat

/-! ## The search -/

/-- The numerator of a power of ten. -/
def tenUp (j : Int) : Nat := if 0 ≤ j then 10 ^ j.toNat else 1

/-- The denominator of a power of ten. -/
def tenDown (j : Int) : Nat := if 0 ≤ j then 1 else 10 ^ (-j).toNat

/-- Whether a decimal lies in a range. -/
def Range.holdsDecimal (r : Range) (digits : Nat) (power : Int) : Bool :=
  r.holds (digits * tenUp power) (tenDown power)

theorem roundDiv_cases (n d : Nat) : roundDiv n d = n / d ∨ roundDiv n d = n / d + 1 := by
  simp only [roundDiv]
  split
  · exact .inr rfl
  · exact .inl rfl

theorem multiple?_eq (r : Range) (j : Int) :
    r.multiple? j =
      match r.holdsDecimal (r.centre * tenDown j / (r.unit * tenUp j)) j,
        r.holdsDecimal (r.centre * tenDown j / (r.unit * tenUp j) + 1) j with
      | true, true => some (roundDiv (r.centre * tenDown j) (r.unit * tenUp j))
      | true, false => some (r.centre * tenDown j / (r.unit * tenUp j))
      | false, true => some (r.centre * tenDown j / (r.unit * tenUp j) + 1)
      | false, false => none := rfl

/-- A multiple that is found lies in the range. -/
theorem holds_of_multiple? {r : Range} {j : Int} {k : Nat} (h : r.multiple? j = some k) :
    r.holdsDecimal k j = true := by
  rw [multiple?_eq] at h
  split at h
  · rename_i hnear hnext
    cases h
    rcases roundDiv_cases (r.centre * tenDown j) (r.unit * tenUp j) with hround | hround
    · rw [hround, hnear]
    · rw [hround, hnext]
  · cases h
    assumption
  · cases h
    assumption
  · cases h

/-- A search that comes to a power with a multiple in the range finds a decimal in the range. -/
theorem holds_search (r : Range) {steps below : Nat} (hle : below ≤ steps) {j : Int}
    (h : (r.multiple? (j - below)).isSome = true) :
    r.holdsDecimal (r.search steps j).digits (r.search steps j).power = true := by
  induction steps generalizing below j with
  | zero =>
    obtain rfl : below = 0 := by omega
    obtain ⟨k, hk⟩ := Option.isSome_iff_exists.mp h
    have hj : r.multiple? j = some k := by simpa using hk
    simp only [Range.search, hj, Option.getD_some]
    exact holds_of_multiple? hj
  | succ steps ih =>
    cases hj : r.multiple? j with
    | some k =>
      simp only [Range.search, hj]
      exact holds_of_multiple? hj
    | none =>
      have hbelow : below ≠ 0 := by
        rintro rfl
        simp [hj] at h
      have hrest : j - 1 - ((below - 1 : Nat) : Int) = j - below := by omega
      simp only [Range.search, hj]
      exact ih (show below - 1 ≤ steps by omega) (by rw [hrest]; exact h)

/-- The centre of a range lies in it. -/
theorem holds_centre {m : Nat} {q : Int} (hm : 0 < m) {n d : Nat} (hd : 0 < d)
    (h : n * (Range.of m q).unit = (Range.of m q).centre * d) :
    (Range.of m q).holds n d = true := by
  have hup : 0 < (if 0 ≤ q then 2 ^ q.toNat else 1) := by
    split
    · exact Nat.pow_pos (by omega)
    · exact Nat.one_pos
  have hlow : (Range.of m q).low < (Range.of m q).centre := by
    refine Nat.mul_lt_mul_of_pos_right ?_ hup
    split <;> omega
  have hhigh : (Range.of m q).centre < (Range.of m q).high :=
    Nat.mul_lt_mul_of_pos_right (by omega) hup
  have hlow' := Nat.mul_lt_mul_of_pos_right hlow hd
  have hhigh' := Nat.mul_lt_mul_of_pos_right hhigh hd
  rw [Range.holds, h]
  split
  · simp [hlow'.le, hhigh'.le]
  · simp [hlow', hhigh']

theorem tenUp_neg (k : Nat) : tenUp (-(k : Int)) = 1 := by
  unfold tenUp
  split
  · obtain rfl : k = 0 := by omega
    rfl
  · rfl

theorem tenDown_neg (k : Nat) : tenDown (-(k : Int)) = (2 * 5) ^ k := by
  unfold tenDown
  split
  · obtain rfl : k = 0 := by omega
    rfl
  · rw [Int.neg_neg, Int.toNat_natCast]

/-- A double is a multiple of a power of ten that is as small as its power of two. -/
theorem multiple?_neg {m : Nat} (hm : 0 < m) {q : Int} {least : Nat} (hq : -(least : Int) ≤ q) :
    ((Range.of m q).multiple? (-(least : Int))).isSome = true := by
  have hup := tenUp_neg least
  have hdown := tenDown_neg least
  obtain ⟨j, hj⟩ : ∃ j, j = -(least : Int) := ⟨_, rfl⟩
  rw [← hj] at hup hdown ⊢
  obtain ⟨k, hk⟩ : ∃ k, tenDown j = (if 0 ≤ q then 1 else 2 ^ (-q).toNat) * k := by
    rw [hdown, Nat.mul_pow]
    split
    · exact ⟨2 ^ least * 5 ^ least, (Nat.one_mul _).symm⟩
    · refine ⟨2 ^ (least - (-q).toNat) * 5 ^ least, ?_⟩
      rw [← Nat.mul_assoc, ← Nat.pow_add, Nat.add_sub_cancel' (by omega)]
  have hcentre : (Range.of m q).centre * tenDown j
      = m * (if 0 ≤ q then 2 ^ q.toNat else 1) * k * (Range.of m q).unit := by
    rw [hk]
    show 4 * m * _ * _ = _ * (4 * _)
    ring
  have hunit : 0 < (Range.of m q).unit := by
    refine Nat.mul_pos (by omega) ?_
    split
    · exact Nat.one_pos
    · exact Nat.pow_pos (by omega)
  have hpos : 0 < tenDown j := by
    rw [hdown]
    exact Nat.pow_pos (by omega)
  have hnear : (Range.of m q).centre * tenDown j / ((Range.of m q).unit * tenUp j)
      = m * (if 0 ≤ q then 2 ^ q.toNat else 1) * k := by
    rw [hcentre, hup, Nat.mul_one, Nat.mul_div_cancel _ hunit]
  have hfound : (Range.of m q).holdsDecimal
      ((Range.of m q).centre * tenDown j / ((Range.of m q).unit * tenUp j)) j = true := by
    rw [Range.holdsDecimal, hnear, hup, Nat.mul_one]
    exact holds_centre hm hpos hcentre.symm
  rw [multiple?_eq, hfound]
  cases (Range.of m q).holdsDecimal
    ((Range.of m q).centre * tenDown j / ((Range.of m q).unit * tenUp j) + 1) j <;> rfl

/-- The shortest decimal of a double lies in the range of the double. -/
theorem holds_shortest {m : Nat} (hm : 0 < m) {q : Int} (hq : -1074 ≤ q) :
    (Range.of m q).holdsDecimal (shortest m q).digits (shortest m q).power = true := by
  have hleast := multiple?_neg hm (show -((1074 : Nat) : Int) ≤ q from hq)
  have hsearch : ∀ top : Nat, (Range.of m q).holdsDecimal
      ((Range.of m q).search (top + 1075) top).digits
      ((Range.of m q).search (top + 1075) top).power = true := by
    intro top
    refine holds_search (Range.of m q) (show top + 1074 ≤ top + 1075 by omega) ?_
    rwa [show (top : Int) - (top + 1074 : Nat) = -(1074 : Nat) by omega]
  exact hsearch _

/-! ## Equal quotients -/

/-- Whether a quotient lies in a range depends on its value alone. -/
theorem holds_congr (r : Range) {n d n' d' : Nat} (hd : 0 < d) (hd' : 0 < d')
    (h : n * d' = n' * d) : r.holds n d = r.holds n' d' := by
  have hcommon : n * r.unit * d' = n' * r.unit * d := by
    rw [Nat.mul_right_comm, h, Nat.mul_right_comm]
  have hleft : ∀ a : Nat, a * d ≤ n * r.unit ↔ a * d' ≤ n' * r.unit := by
    intro a
    rw [← Nat.mul_le_mul_right_iff hd', hcommon, Nat.mul_right_comm, Nat.mul_le_mul_right_iff hd]
  have hright : ∀ a : Nat, n * r.unit ≤ a * d ↔ n' * r.unit ≤ a * d' := by
    intro a
    rw [← Nat.mul_le_mul_right_iff hd', hcommon, Nat.mul_right_comm a, Nat.mul_le_mul_right_iff hd]
  rw [Range.holds, Range.holds]
  simp only [← not_le, hleft, hright]

/-! ## The size of a decimal -/

theorem digitCount_le_iff {n k : Nat} (hk : 0 < k) : digitCount n ≤ k ↔ n < 10 ^ k :=
  Nat.length_toDigits_le_iff (by omega) hk

theorem digitCount_pos (n : Nat) : 0 < digitCount n := Nat.length_toDigits_pos

/-- The value of a decimal. -/
theorem tenUp_div_tenDown (digits : Nat) (power : Int) :
    ((digits * tenUp power : Nat) : ℚ) / tenDown power = digits * 10 ^ power := by
  unfold tenUp tenDown
  split
  · obtain ⟨k, rfl⟩ := Int.eq_ofNat_of_zero_le ‹0 ≤ power›
    simp
  · obtain ⟨k, rfl⟩ : ∃ k : Nat, power = -(k : Int) := ⟨(-power).toNat, by omega⟩
    simp [zpow_neg, div_eq_mul_inv]

theorem tenDown_pos (power : Int) : 0 < tenDown power := by
  unfold tenDown
  split
  · exact Nat.one_pos
  · exact Nat.pow_pos (by omega)

/-- A decimal in the range of a double lies between the bounds of all doubles. -/
theorem bounds_of_holds {m : Nat} {q : Int} (hmq : IsDouble m q) (hm : 0 < m) {digits : Nat}
    {power : Int} (h : (Range.of m q).holdsDecimal digits power = true) :
    (2 : ℚ) ^ (-1075 : ℤ) ≤ digits * 10 ^ power ∧ (digits : ℚ) * 10 ^ power < 2 ^ (1024 : ℤ) := by
  obtain ⟨hlow, hhigh, -⟩ := near_of_holds h
  have hvalue := scale_div (n := digits * tenUp power) (tenDown_pos power) q
  have hb := scale_pos (n := digits * tenUp power) (tenDown_pos power) q
  rw [tenUp_div_tenDown, eq_div_iff (by positivity)] at hvalue
  generalize (scale (digits * tenUp power) (tenDown power) q).1 = a at *
  generalize (scale (digits * tenUp power) (tenDown power) q).2 = b at *
  obtain ⟨hlt, hqlow, hqhigh, -⟩ := hmq
  have hreach := reachBelow_cases m q
  have hbelow : b ≤ 2 * a := by
    have := Nat.mul_le_mul_right b (show 2 ≤ 4 * m - reachBelow m q by omega)
    omega
  have habove : a < 2 ^ (53 : Nat) * b := by
    have := Nat.mul_le_mul_right b (show 4 * m + 2 ≤ 4 * 2 ^ (53 : Nat) - 2 by omega)
    omega
  have hb' : (0 : ℚ) < b := by exact_mod_cast hb
  have hbelow' : (b : ℚ) ≤ 2 * a := by exact_mod_cast hbelow
  have habove' : (a : ℚ) < 2 ^ (53 : ℤ) * b := by exact_mod_cast habove
  have hpow : (0 : ℚ) < 2 ^ q := by positivity
  rw [← hvalue]
  constructor
  · calc (2 : ℚ) ^ (-1075 : ℤ) ≤ 2 ^ (q - 1) := zpow_le_zpow_right₀ (by norm_num) (by omega)
      _ = 1 / 2 * 2 ^ q := by rw [zpow_sub_one₀ (by norm_num)]; ring
      _ ≤ a / b * 2 ^ q := by
        refine mul_le_mul_of_nonneg_right ?_ hpow.le
        rw [div_le_div_iff₀ (by norm_num) hb']
        linarith
  · calc (a : ℚ) / b * 2 ^ q < 2 ^ (53 : ℤ) * 2 ^ q := by
          refine mul_lt_mul_of_pos_right ?_ hpow
          rwa [div_lt_iff₀ hb']
      _ = 2 ^ (53 + q) := by rw [zpow_add₀ (by norm_num)]
      _ ≤ 2 ^ (1024 : ℤ) := zpow_le_zpow_right₀ (by norm_num) (by omega)

theorem ten_pow_le_two_pow : (10 : ℚ) ^ (-330 : ℤ) ≤ 2 ^ (-1075 : ℤ) := by
  have hnat : (2 : ℕ) ^ 1075 ≤ 10 ^ 330 := by decide +kernel
  rw [zpow_neg, zpow_neg, inv_le_inv₀ (by positivity) (by positivity)]
  exact_mod_cast hnat

theorem two_pow_le_ten_pow : (2 : ℚ) ^ (1024 : ℤ) ≤ 10 ^ (310 : ℤ) := by
  have hnat : (2 : ℕ) ^ 1024 ≤ 10 ^ 310 := by decide +kernel
  exact_mod_cast hnat

/-- A decimal in the range of a double is as large as doubles are. -/
theorem size_of_holds {m : Nat} {q : Int} (hmq : IsDouble m q) (hm : 0 < m) {digits : Nat}
    {power : Int} (hdigits : 0 < digits)
    (h : (Range.of m q).holdsDecimal digits power = true) :
    -330 ≤ power + digitCount digits ∧ power + digitCount digits ≤ 310 := by
  obtain ⟨hbelow, habove⟩ := bounds_of_holds hmq hm h
  have hten : (1 : ℚ) < 10 := by norm_num
  have hpow : (0 : ℚ) < 10 ^ power := by positivity
  have hfew : (digits : ℚ) < 10 ^ (digitCount digits : ℤ) := by
    rw [zpow_natCast]
    exact_mod_cast (digitCount_le_iff (digitCount_pos digits)).mp (Nat.le_refl _)
  have hmany : (10 : ℚ) ^ ((digitCount digits : ℤ) - 1) ≤ digits := by
    have hnat : 10 ^ (digitCount digits - 1) ≤ digits := by
      rcases Nat.eq_or_lt_of_le (digitCount_pos digits) with hone | hmore
      · rw [← hone]
        exact hdigits
      · have := (digitCount_le_iff (n := digits) (k := digitCount digits - 1) (by omega)).not
        omega
    have hcount := digitCount_pos digits
    rw [show (digitCount digits : ℤ) - 1 = ((digitCount digits - 1 : Nat) : ℤ) by omega,
      zpow_natCast]
    exact_mod_cast hnat
  constructor
  · have hlt : (10 : ℚ) ^ (-330 : ℤ) < 10 ^ (power + digitCount digits) := by
      calc (10 : ℚ) ^ (-330 : ℤ) ≤ 2 ^ (-1075 : ℤ) := ten_pow_le_two_pow
        _ ≤ digits * 10 ^ power := hbelow
        _ < 10 ^ (digitCount digits : ℤ) * 10 ^ power := mul_lt_mul_of_pos_right hfew hpow
        _ = 10 ^ (power + digitCount digits) := by
          rw [add_comm, zpow_add₀ (by norm_num)]
    exact ((zpow_lt_zpow_iff_right₀ hten).mp hlt).le
  · have hlt : (10 : ℚ) ^ (power + digitCount digits - 1) < 10 ^ (310 : ℤ) := by
      calc (10 : ℚ) ^ (power + digitCount digits - 1)
          = 10 ^ ((digitCount digits : ℤ) - 1) * 10 ^ power := by
            rw [← zpow_add₀ (by norm_num)]; congr 1; ring
        _ ≤ digits * 10 ^ power := mul_le_mul_of_nonneg_right hmany hpow.le
        _ < 2 ^ (1024 : ℤ) := habove
        _ ≤ 10 ^ (310 : ℤ) := two_pow_le_ten_pow
    have := (zpow_lt_zpow_iff_right₀ hten).mp hlt
    omega

end Intake.Decimal
