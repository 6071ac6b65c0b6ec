import Intake.Proofs.Decimal.Shortest
import Intake.Proofs.Json.Lexing
import Intake.Proofs.Text.Digits

/-!
# Reading a written number

Every number reads back from its text (`Json.Number.readsBack`): the text of a whole number is its
digits, and the text of a double is a decimal in the range of the double, to which the double is the
nearest one. So a document reads back whatever its numbers are (`Json.Tree.readsBack`).
-/

namespace Intake.Json

open Intake.Decimal
open Intake.Text (Symbol AllDigits allDigits_toDigits allDigits_zeros toDigits_eq_cons
  toNat_of_isDigit)

-- one meaning of powers, whatever is imported beside
attribute [local instance (high)] instPowNat

namespace Lexer

theorem digitValue?_of_isDigit {c : Char} (h : c.isDigit = true) :
    digitValue? c = some (c.toNat - 48) :=
  if_pos (Text.isDigit_iff.mp h)

/-! ## Reading digits -/

/-- A symbol that completes no token only changes what the lexer is inside of. -/
theorem feed_cons {state next : State} {s : Symbol} (h : step state s = ([], next))
    (rest : List Symbol) : feed state (s :: rest) = feed next rest := by
  rw [feed, h]
  rfl

/-- A part of a numeral that consists of digits is read digit by digit. -/
theorem feed_digits {part : Part} (more : Numeral → Char → Numeral)
    (hmore : ∀ n c, c.isDigit = true → continueNumeral? part n c = some (part, more n c))
    (n : Numeral) {cs : List Char} (h : AllDigits cs) :
    feed (.numeral part n) (cs.map some) = ([], .numeral part (cs.foldl more n)) := by
  induction cs generalizing n with
  | nil => rfl
  | cons c cs ih =>
    have hstep : step (.numeral part n) (some c) = ([], .numeral part (more n c)) := by
      rw [step, hmore n c (h c (List.mem_cons_self ..))]
    rw [List.map_cons, feed_cons hstep, ih _ fun c hc => h c (List.mem_cons_of_mem _ hc)]
    rfl

theorem foldl_mantissa (n : Numeral) (cs : List Char) :
    cs.foldl (fun n c => { n with mantissa := n.mantissa * 10 + (c.toNat - 48) }) n
      = { n with mantissa := Nat.ofDigitChars 10 cs n.mantissa } := by
  induction cs generalizing n with
  | nil => simp
  | cons c cs ih =>
    rw [List.foldl_cons, ih, Nat.ofDigitChars_cons, Nat.mul_comm 10]
    rfl

theorem foldl_places (n : Numeral) (cs : List Char) :
    cs.foldl (fun n c => { n with
        mantissa := n.mantissa * 10 + (c.toNat - 48), places := n.places + 1 }) n
      = { n with
          mantissa := Nat.ofDigitChars 10 cs n.mantissa, places := n.places + cs.length } := by
  induction cs generalizing n with
  | nil => simp
  | cons c cs ih =>
    rw [List.foldl_cons, ih, Nat.ofDigitChars_cons, Nat.mul_comm 10, List.length_cons,
      Nat.add_comm cs.length, Nat.add_assoc]
    rfl

theorem foldl_exponent (n : Numeral) (cs : List Char) :
    cs.foldl (fun n c => { n with exponent := n.exponent * 10 + (c.toNat - 48) }) n
      = { n with exponent := Nat.ofDigitChars 10 cs n.exponent } := by
  induction cs generalizing n with
  | nil => simp
  | cons c cs ih =>
    rw [List.foldl_cons, ih, Nat.ofDigitChars_cons, Nat.mul_comm 10]
    rfl

/-! ## The parts of a numeral -/

/-- Digits before the point: a zero by itself, or digits that do not begin with a zero. -/
inductive IsWhole : List Char → Part → Prop where
  | zero : IsWhole ['0'] .zero
  | digits {c : Char} {cs : List Char} (h : c ≠ '0') : IsWhole (c :: cs) .whole

/-- The digits before the point are read as a number. -/
theorem feed_whole {part : Part} {cs : List Char} (h : IsWhole cs part) (hdigits : AllDigits cs)
    (negative : Bool) :
    feed (.numeral .sign { negative }) (cs.map some)
      = ([], .numeral part { negative, mantissa := Nat.ofDigitChars 10 cs 0 }) := by
  cases h with
  | zero => rfl
  | @digits c cs hc =>
    have hvalue := digitValue?_of_isDigit (hdigits c (List.mem_cons_self ..))
    have hpos : c.toNat - 48 ≠ 0 := by
      intro hzero
      have hdigit := toNat_of_isDigit (hdigits c (List.mem_cons_self ..))
      exact hc (eq_ofNat_of_toNat (show c.toNat = 48 by omega))
    obtain ⟨v, hv⟩ := Nat.exists_eq_succ_of_ne_zero hpos
    have hstep : step (.numeral .sign { negative }) (some c)
        = ([], .numeral .whole { negative, mantissa := c.toNat - 48 }) := by
      have hcontinue : continueNumeral? .sign { negative } c
          = some (.whole, { negative, mantissa := 0 * 10 + (v + 1) }) := by
        rw [hv] at hvalue
        simp only [continueNumeral?, hvalue]
      rw [step, hcontinue, hv, Nat.zero_mul, Nat.zero_add]
    have hrest := @feed_digits .whole
      (fun n c => { n with mantissa := n.mantissa * 10 + (c.toNat - 48) })
      (fun n c hc => by simp only [continueNumeral?, digitValue?_of_isDigit hc])
      { negative, mantissa := c.toNat - 48 } cs fun c hc => hdigits c (List.mem_cons_of_mem _ hc)
    rw [List.map_cons, feed_cons hstep, hrest, foldl_mantissa, Nat.ofDigitChars_cons, Nat.mul_zero,
      Nat.zero_add]
    rfl

/-- A point and the digits after it go on with the number and are counted. -/
theorem feed_fraction {part : Part} {whole : List Char} (h : IsWhole whole part) (n : Numeral)
    {c : Char} {cs : List Char} (hdigits : AllDigits (c :: cs)) :
    feed (.numeral part n) (('.' :: c :: cs).map some)
      = ([], .numeral .places { n with
          mantissa := Nat.ofDigitChars 10 (c :: cs) n.mantissa
          places := n.places + (c :: cs).length
          plain := false }) := by
  have hpoint : step (.numeral part n) (some '.')
      = ([], .numeral .point { n with plain := false }) := by
    cases h <;> rfl
  have hmore : ∀ (n : Numeral) (c : Char), c.isDigit = true →
      continueNumeral? .places n c = some (.places, { n with
        mantissa := n.mantissa * 10 + (c.toNat - 48), places := n.places + 1 }) := by
    intro n c hc
    simp only [continueNumeral?, digitValue?_of_isDigit hc]
  have hfirst : ∀ n, feed (.numeral .point n) ((c :: cs).map some)
      = feed (.numeral .places n) ((c :: cs).map some) := by
    intro n
    have hvalue := digitValue?_of_isDigit (hdigits c (List.mem_cons_self ..))
    simp only [List.map_cons, feed, step, continueNumeral?, hvalue]
  have hrest := feed_digits _ hmore { n with plain := false } hdigits
  rw [foldl_places] at hrest
  rw [List.map_cons, feed_cons hpoint, hfirst]
  exact hrest

/-- Digits with a point among them are read as one number, and those after the point counted. -/
theorem feed_point {part : Part} {whole places : List Char} (h : IsWhole whole part)
    (hdigits : AllDigits (whole ++ places)) (hplaces : places ≠ []) (negative : Bool) :
    feed (.numeral .sign { negative }) ((whole ++ '.' :: places).map some)
      = ([], .numeral .places {
          negative
          mantissa := Nat.ofDigitChars 10 (whole ++ places) 0
          places := places.length
          plain := false }) := by
  obtain ⟨c, cs, rfl⟩ := List.exists_cons_of_ne_nil hplaces
  have hwhole := feed_whole h (fun c hc => hdigits c (List.mem_append_left _ hc)) negative
  rw [List.map_append, feed_append, hwhole, Nat.ofDigitChars_append]
  show ([] ++ (feed (.numeral part _) (('.' :: c :: cs).map some)).1,
    (feed (.numeral part _) (('.' :: c :: cs).map some)).2) = _
  rw [feed_fraction h _ fun c hc => hdigits c (List.mem_append_right _ hc), Nat.zero_add]
  rfl

/-- A mark, a sign and digits are read as the exponent. -/
theorem feed_exponent {part : Part} (hpart : part = .whole ∨ part = .places) (n : Numeral)
    (hexponent : n.exponent = 0) (hplain : part = .places → n.plain = false)
    (hsign : n.exponentNegative = false) (negative : Bool) {c : Char} {cs : List Char}
    (hdigits : AllDigits (c :: cs)) :
    feed (.numeral part n) (('e' :: (if negative then '-' else '+') :: c :: cs).map some)
      = ([], .numeral .exponent { n with
          exponent := Nat.ofDigitChars 10 (c :: cs) 0
          exponentNegative := negative
          plain := false }) := by
  have hmark : step (.numeral part n) (some 'e')
      = ([], .numeral .mark { n with plain := false }) := by
    rcases hpart with rfl | rfl
    · rfl
    · have : n = { n with plain := false } := by rw [← hplain rfl]
      rw [← this]
      rfl
  have hmarkSign : step (.numeral .mark { n with plain := false })
      (some (if negative then '-' else '+'))
        = ([], .numeral .markSign { n with exponentNegative := negative, plain := false }) := by
    obtain ⟨s, mantissa, places, exponentNegative, exponent, plain⟩ := n
    cases hsign
    cases negative <;> rfl
  have hmore : ∀ (n : Numeral) (c : Char), c.isDigit = true →
      continueNumeral? .exponent n c
        = some (.exponent, { n with exponent := n.exponent * 10 + (c.toNat - 48) }) := by
    intro n c hc
    simp only [continueNumeral?, digitValue?_of_isDigit hc]
  have hfirst : ∀ n, feed (.numeral .markSign n) ((c :: cs).map some)
      = feed (.numeral .exponent n) ((c :: cs).map some) := by
    intro n
    have hvalue := digitValue?_of_isDigit (hdigits c (List.mem_cons_self ..))
    simp only [List.map_cons, feed, step, continueNumeral?, hvalue]
  have hrest := feed_digits _ hmore { n with exponentNegative := negative, plain := false } hdigits
  rw [foldl_exponent] at hrest
  rw [List.map_cons, List.map_cons, feed_cons hmark, feed_cons hmarkSign, hfirst, hrest, hexponent]

end Lexer

/-! ## Signs -/

open Lexer in
theorem stepOutside_of_isDigit {c : Char} (h : c.isDigit = true) :
    stepOutside c = step (.numeral .sign {}) (some c) := by
  have hvalue := toNat_of_isDigit h
  have hcases : c.toNat = 48 ∨ c.toNat = 49 ∨ c.toNat = 50 ∨ c.toNat = 51 ∨ c.toNat = 52
      ∨ c.toNat = 53 ∨ c.toNat = 54 ∨ c.toNat = 55 ∨ c.toNat = 56 ∨ c.toNat = 57 := by omega
  rcases hcases with h | h | h | h | h | h | h | h | h | h <;>
    · obtain rfl := eq_ofNat_of_toNat h
      rfl

open Lexer in
/-- A numeral is read with the sign before it, which is there only if the number is negative. -/
theorem feed_signed {negative : Bool} {cs : List Char} {part : Part} {n : Numeral}
    (h : feed (.numeral .sign { negative }) (cs.map some) = ([], .numeral part n))
    (hfinal : part.isFinal = true) :
    feed .outside (((if negative then "-" else "").toList ++ cs).map some)
      = ([], .numeral part n) := by
  cases negative with
  | true => rw [← h]; rfl
  | false =>
    cases cs with
    | nil =>
      cases h
      cases hfinal
    | cons c cs =>
      have hdigit : c.isDigit = true := by
        by_contra hno
        have hvalue : digitValue? c = none := by
          unfold digitValue?
          rw [if_neg]
          simpa [Char.isDigit, Char.le_def] using hno
        have hstep : step (.numeral .sign {}) (some c) = ([.bad], .stopped) := by
          simp [step, continueNumeral?, hvalue, endsBefore, Part.isFinal]
        rw [List.map_cons, feed, hstep] at h
        cases h
      rw [← h]
      show feed .outside (some c :: cs.map some) = feed (.numeral .sign {}) (some c :: cs.map some)
      rw [feed, feed, step, stepOutside_of_isDigit hdigit]

/-! ## Decimals -/

/-- A numeral that stands for a decimal: some zeros may follow the digits, before or behind the
point. -/
structure Numeral.IsDecimal (n : Numeral) (negative : Bool) (d : Decimal) : Prop where
  negative : n.negative = negative
  plain : n.plain = false
  value : ∃ zeros : Nat, n.mantissa = d.digits * 10 ^ zeros ∧ n.power = d.power - zeros

/-- Digits of a text are read as the digits of a decimal. -/
def ReadsAs (cs : List Char) (negative : Bool) (d : Decimal) : Prop :=
  ∃ part numeral, Lexer.feed (.numeral .sign { negative }) (cs.map some)
      = ([], .numeral part numeral) ∧ part.isFinal = true ∧ numeral.IsDecimal negative d

open Lexer in
/-- A positional text without places is read as its decimal. -/
theorem readsAs_zeros (negative : Bool) {d : Decimal} (hd : 0 < d.digits) (hpower : 0 ≤ d.power) :
    ReadsAs (Nat.toDigits 10 d.digits ++ List.replicate d.power.toNat '0' ++ ['.', '0'])
      negative d := by
  obtain ⟨c, cs, hcs, hc⟩ := toDigits_eq_cons hd
  have hwhole : IsWhole (Nat.toDigits 10 d.digits ++ List.replicate d.power.toNat '0') .whole := by
    rw [hcs]
    exact .digits hc
  have hdigits : AllDigits
      (Nat.toDigits 10 d.digits ++ List.replicate d.power.toNat '0' ++ ['0']) :=
    ((allDigits_toDigits _).append (allDigits_zeros _)).append (allDigits_zeros 1)
  refine ⟨_, _, feed_point hwhole hdigits (List.cons_ne_nil _ _) negative, rfl, rfl, rfl,
    d.power.toNat + 1, ?_, ?_⟩
  · have hzeros := @Nat.ofDigitChars_replicate_zero 10 d.digits (d.power.toNat + 1)
    rw [List.append_assoc, ← List.replicate_succ', Nat.ofDigitChars_append,
      Nat.ofDigitChars_ten_toDigits, hzeros, Nat.mul_comm]
  · show (0 : Int) - (1 : Nat) = d.power - ((d.power.toNat + 1 : Nat) : Int)
    omega

open Lexer in
/-- A positional text with places is read as its decimal. -/
theorem readsAs_places (negative : Bool) {d : Decimal} (hd : 0 < d.digits) {places : Nat}
    (hpower : d.power = -(places : Int)) (hplaces : 0 < places) {padded : List Char}
    (hpadded : padded = List.replicate (places + 1 - (Nat.toDigits 10 d.digits).length) '0'
      ++ Nat.toDigits 10 d.digits) :
    ReadsAs (padded.take (padded.length - places) ++ '.' :: padded.drop (padded.length - places))
      negative d := by
  obtain ⟨c, cs, hcs, hc⟩ := toDigits_eq_cons hd
  have hlength : places < padded.length := by
    rw [hpadded, List.length_append, List.length_replicate]
    omega
  have hdigits : AllDigits padded := by
    rw [hpadded]
    exact (allDigits_zeros _).append (allDigits_toDigits _)
  have hvalue : Nat.ofDigitChars 10 padded 0 = d.digits := by
    rw [hpadded, Nat.ofDigitChars_append, Nat.ofDigitChars_replicate_zero, Nat.mul_zero,
      Nat.ofDigitChars_ten_toDigits]
  have hdrop : (padded.drop (padded.length - places)).length = places := by
    rw [List.length_drop]
    omega
  obtain ⟨part, hwhole⟩ : ∃ part, IsWhole (padded.take (padded.length - places)) part := by
    rcases hzeros : places + 1 - (Nat.toDigits 10 d.digits).length with _ | zeros
    · -- the digits reach beyond the places
      obtain ⟨k, hk⟩ : ∃ k, padded.length - places = k + 1 := ⟨padded.length - places - 1, by omega⟩
      rw [hk, hpadded, hzeros, hcs]
      exact ⟨.whole, .digits hc⟩
    · have hone : padded.length - places = 1 := by
        rw [hpadded, List.length_append, List.length_replicate]
        omega
      rw [hone, hpadded, hzeros]
      exact ⟨.zero, .zero⟩
  have hsome : padded.drop (padded.length - places) ≠ [] := by
    intro hnil
    rw [hnil, List.length_nil] at hdrop
    omega
  have hfeed := feed_point hwhole (by rwa [List.take_append_drop]) hsome negative
  rw [List.take_append_drop, hvalue, hdrop] at hfeed
  refine ⟨_, _, hfeed, rfl, rfl, rfl, 0, (Nat.mul_one _).symm, ?_⟩
  show (0 : Int) - (places : Nat) = d.power - ((0 : Nat) : Int)
  omega

/-- A positional text is read as its decimal. -/
theorem readsAs_positional (negative : Bool) {d : Decimal} (hd : 0 < d.digits) :
    ReadsAs (Number.positional d).toList negative d := by
  unfold Number.positional
  split
  · rename_i hpower
    rw [String.toList_ofList]
    exact readsAs_zeros negative hd hpower
  · rename_i hpower
    rw [String.toList_ofList]
    exact readsAs_places negative hd (by omega) (by omega) rfl

open Lexer in
/-- A text with an exponent is read as its decimal. -/
theorem readsAs_scientific (negative : Bool) {d : Decimal} (hd : 0 < d.digits) :
    ReadsAs (Number.scientific d).toList negative d := by
  obtain ⟨c, cs, hcs, hc⟩ := toDigits_eq_cons hd
  have hdigits := allDigits_toDigits d.digits
  have hvalue : Nat.ofDigitChars 10 (Nat.toDigits 10 d.digits) 0 = d.digits :=
    Nat.ofDigitChars_ten_toDigits
  obtain ⟨exponent, hexponent⟩ :
      ∃ e, e = d.power + ((Nat.toDigits 10 d.digits).length : Int) - 1 := ⟨_, rfl⟩
  obtain ⟨f, fs, hfs⟩ := List.exists_cons_of_ne_nil (Nat.toDigits_ne_nil (b := 10)
    (n := exponent.natAbs))
  have htext : (Number.scientific d).toList
      = (c :: if cs = [] then [] else '.' :: cs)
        ++ 'e' :: (if decide (exponent < 0) then '-' else '+') :: f :: fs := by
    have hsign : (if 0 ≤ exponent then "+" else "-").toList
        = [if decide (exponent < 0) then '-' else '+'] := by
      by_cases h : 0 ≤ exponent
      · rw [if_pos h, if_neg (by simpa using h)]
        rfl
      · rw [if_neg h, if_pos (by simpa using h)]
        rfl
    have hlength : (c :: cs).length ≤ 1 ↔ cs = [] := by
      rw [List.length_cons, ← List.length_eq_zero_iff]
      omega
    rw [hcs] at hexponent
    rw [Number.scientific]
    simp only [hcs, ← hexponent, String.toList_append, String.toList_ofList, hsign, hlength]
    rw [← hfs]
    simp [Nat.toList_repr]
  obtain ⟨part, hpart, hplain, hfront⟩ : ∃ part, (part = .whole ∨ part = .places)
      ∧ (part = .places → decide (cs = []) = false) ∧
      feed (.numeral .sign { negative }) ((c :: if cs = [] then [] else '.' :: cs).map some)
        = ([], .numeral part {
            negative, mantissa := d.digits, places := cs.length, plain := decide (cs = []) }) := by
    rw [hcs] at hdigits hvalue
    by_cases hnil : cs = []
    · subst hnil
      have hwhole := feed_whole (.digits hc) hdigits negative
      rw [hvalue] at hwhole
      exact ⟨.whole, .inl rfl, by simp, hwhole⟩
    · have hpoint := feed_point (.digits hc) (show AllDigits ([c] ++ cs) from hdigits) hnil negative
      simp only [List.singleton_append, hvalue] at hpoint
      rw [if_neg hnil, decide_eq_false hnil]
      exact ⟨.places, .inr rfl, fun _ => rfl, hpoint⟩
  have hback := feed_exponent hpart
    { negative, mantissa := d.digits, places := cs.length, plain := decide (cs = []) }
    rfl hplain rfl (decide (exponent < 0)) (show AllDigits (f :: fs) from hfs ▸ allDigits_toDigits _)
  rw [← hfs, Nat.ofDigitChars_ten_toDigits, hfs] at hback
  have hfeed : feed (.numeral .sign { negative }) ((Number.scientific d).toList.map some)
      = ([], .numeral .exponent {
          negative, mantissa := d.digits, places := cs.length, exponent := exponent.natAbs
          exponentNegative := decide (exponent < 0), plain := false }) := by
    rw [htext, List.map_append, feed_append, hfront, hback]
    rfl
  refine ⟨_, _, hfeed, rfl, rfl, rfl, 0, (Nat.mul_one _).symm, ?_⟩
  have hlength : (Nat.toDigits 10 d.digits).length = cs.length + 1 := by rw [hcs]; rfl
  rw [Numeral.power]
  simp only [decide_eq_true_eq]
  split <;> omega

/-! ## Doubles -/

theorem digitCount_mul_pow {n : Nat} (hn : 0 < n) (zeros : Nat) :
    digitCount (n * 10 ^ zeros) = digitCount n + zeros := by
  induction zeros with
  | zero => rw [Nat.pow_zero, Nat.mul_one]; rfl
  | succ zeros ih =>
    have hpos : 0 < n * 10 ^ zeros := Nat.mul_pos hn (Nat.pow_pos (by omega))
    have hdiv : n * 10 ^ (zeros + 1) / 10 = n * 10 ^ zeros := by
      rw [Nat.pow_succ, ← Nat.mul_assoc, Nat.mul_div_cancel _ (by omega)]
    have hle : 10 ≤ n * 10 ^ (zeros + 1) := by
      rw [Nat.pow_succ, ← Nat.mul_assoc]
      omega
    rw [digitCount, Nat.toDigits_of_base_le (by omega) hle, hdiv, List.length_append,
      ← digitCount, ih]
    rfl

/-- A numeral that stands for a decimal lies in a range if the decimal does. -/
theorem Numeral.IsDecimal.holds {n : Numeral} {negative : Bool} {d : Decimal}
    (h : n.IsDecimal negative d) (r : Range) :
    r.holdsDecimal n.mantissa n.power = r.holdsDecimal d.digits d.power := by
  obtain ⟨zeros, hmantissa, hpower⟩ := h.value
  refine holds_congr r (tenDown_pos _) (tenDown_pos _) ?_
  have hleft := tenUp_div_tenDown n.mantissa n.power
  have hright := tenUp_div_tenDown d.digits d.power
  have hvalue : (n.mantissa : ℚ) * 10 ^ n.power = d.digits * 10 ^ d.power := by
    rw [hmantissa, hpower, zpow_sub₀ (by norm_num), zpow_natCast]
    push_cast
    field_simp
  have hdown : (tenDown n.power : ℚ) ≠ 0 := by exact_mod_cast (tenDown_pos _).ne'
  have hdown' : (tenDown d.power : ℚ) ≠ 0 := by exact_mod_cast (tenDown_pos _).ne'
  rw [hvalue, ← hright, div_eq_div_iff hdown hdown'] at hleft
  exact_mod_cast hleft

/-- A numeral that stands for a decimal in the range of a double stands for the double. -/
theorem Numeral.IsDecimal.toFloat?_eq {n : Numeral} {negative : Bool} {d : Decimal}
    (h : n.IsDecimal negative d) (hd : 0 < d.digits) {m : Nat} {q : Int} (hmq : IsDouble m q)
    (hm : 0 < m) (hholds : (Range.of m q).holdsDecimal d.digits d.power = true) :
    n.toFloat? = some (if negative then -Float.ofBits (bitsOf m q).toUInt64
      else Float.ofBits (bitsOf m q).toUInt64) := by
  obtain ⟨hlow, hhigh⟩ := size_of_holds hmq hm hd hholds
  have hnearest := nearestBits?_of_holds hmq hm (tenDown_pos n.power) ((h.holds _).trans hholds)
  obtain ⟨zeros, hmantissa, hpower⟩ := h.value
  have hpos : 0 < n.mantissa := by
    rw [hmantissa]
    exact Nat.mul_pos hd (Nat.pow_pos (by omega))
  have hsize : n.power + (digitCount n.mantissa : Int) = d.power + digitCount d.digits := by
    rw [hmantissa, digitCount_mul_pow hd, hpower]
    omega
  unfold Numeral.toFloat?
  extract_lets signed size
  rw [if_neg (by omega), if_neg (by omega)]
  show (nearestBits? (n.mantissa * tenUp n.power) (tenDown n.power)).map _ = _
  rw [hnearest, ← h.negative]
  rfl

/-- A double whose significand is zero is a zero with a sign. -/
theorem toFloat?_zero (negative : Bool) (places : Nat) :
    Numeral.toFloat? { negative, places, plain := false }
      = some (if negative then -Float.ofBits 0 else Float.ofBits 0) := by
  have hzero : (0 : Float) = Float.ofBits 0 := by decide
  unfold Numeral.toFloat?
  extract_lets signed size
  rw [if_pos (.inl rfl), ← hzero]

/-- The text of a double that is not zero is its shortest decimal. -/
theorem floatText_of_pos {x : Float} {m : Nat} {q : Int}
    (hmq : significandAndPower x.toBits = (m, q)) (hm : 0 < m) :
    Number.floatText x = (if isNegativeBits x.toBits then "-" else "")
      ++ if -5 ≤ (shortest m q).power + digitCount (shortest m q).digits - 1
          ∧ (shortest m q).power + digitCount (shortest m q).digits - 1 < 16
        then Number.positional (shortest m q) else Number.scientific (shortest m q) := by
  simp only [Number.floatText, hmq, if_neg hm.ne']

open Lexer in
/-- The text of a double is one numeral, and stands for the double. -/
theorem readsBack_float (x : Float) (hx : x.isFinite = true) :
    (Number.float x hx).ReadsBack := by
  rcases hmq : significandAndPower x.toBits with ⟨m, q⟩
  obtain ⟨hdouble, hvalue⟩ := eq_of_significandAndPower hx hmq
  obtain ⟨body, part, n, htext, hfeed, hfinal, hplain, hfloat⟩ : ∃ body part n,
      Number.floatText x = (if isNegativeBits x.toBits then "-" else "") ++ body
        ∧ feed (.numeral .sign { negative := isNegativeBits x.toBits }) (body.toList.map some)
          = ([], .numeral part n)
        ∧ part.isFinal = true ∧ n.plain = false ∧ n.toFloat? = some x := by
    by_cases hm : m = 0
    · have htext : Number.floatText x
          = (if isNegativeBits x.toBits then "-" else "") ++ "0.0" := by
        simp only [Number.floatText, hmq, if_pos hm]
      have hleast : q = -1074 := hdouble.normal.resolve_right (by omega)
      have hbits : (bitsOf m q).toUInt64 = 0 := by
        rw [hm, hleast]
        rfl
      rw [hbits] at hvalue
      exact ⟨"0.0", .places, { negative := isNegativeBits x.toBits, places := 1, plain := false },
        htext, rfl, rfl, rfl, by rw [toFloat?_zero, ← hvalue]⟩
    · have hpos : 0 < m := by omega
      have hholds := holds_shortest hpos hdouble.low
      have hdigits : 0 < (shortest m q).digits :=
        Nat.pos_of_mul_pos_right (pos_of_holds hpos (tenDown_pos _) hholds)
      obtain ⟨body, htext, part, n, hfeed, hfinal, hdecimal⟩ : ∃ body,
          Number.floatText x = (if isNegativeBits x.toBits then "-" else "") ++ body
            ∧ ReadsAs body.toList (isNegativeBits x.toBits) (shortest m q) := by
        have htext := floatText_of_pos hmq hpos
        by_cases hform : -5 ≤ (shortest m q).power + digitCount (shortest m q).digits - 1
            ∧ (shortest m q).power + digitCount (shortest m q).digits - 1 < 16
        · rw [if_pos hform] at htext
          exact ⟨_, htext, readsAs_positional _ hdigits⟩
        · rw [if_neg hform] at htext
          exact ⟨_, htext, readsAs_scientific _ hdigits⟩
      refine ⟨body, part, n, htext, hfeed, hfinal, hdecimal.plain, ?_⟩
      rw [hdecimal.toFloat?_eq hdigits hdouble hpos hholds, ← hvalue]
  refine ⟨part, n, ?_, hfinal, ?_⟩
  · rw [Number.text, htext, String.toList_append]
    exact feed_signed hfeed hfinal
  · have hnumber : Number.ofFloat? x = some (.float x hx) := dif_pos hx
    rw [Number.ofNumeral?, hfloat, if_neg (by simp [hplain])]
    exact hnumber

/-! ## Whole numbers -/

open Lexer in
/-- The digits of a number are read as the number. -/
theorem feed_toDigits (negative : Bool) (n : Nat) :
    ∃ part, part.isFinal = true ∧ feed (.numeral .sign { negative })
      ((Nat.toDigits 10 n).map some) = ([], .numeral part { negative, mantissa := n }) := by
  have hvalue : Nat.ofDigitChars 10 (Nat.toDigits 10 n) 0 = n := Nat.ofDigitChars_ten_toDigits
  obtain ⟨part, hwhole, hfinal⟩ : ∃ part, IsWhole (Nat.toDigits 10 n) part
      ∧ part.isFinal = true := by
    rcases Nat.eq_zero_or_pos n with rfl | hn
    · exact ⟨.zero, .zero, rfl⟩
    · obtain ⟨c, cs, hcs, hc⟩ := toDigits_eq_cons hn
      rw [hcs]
      exact ⟨.whole, .digits hc, rfl⟩
  have hfeed := feed_whole hwhole (allDigits_toDigits n) negative
  rw [hvalue] at hfeed
  exact ⟨part, hfinal, hfeed⟩

/-- The text of a whole number is its sign and its digits. -/
theorem toList_toString_int (n : Int) :
    (toString n).toList
      = (if decide (n < 0) then "-" else "").toList ++ Nat.toDigits 10 n.natAbs := by
  cases n with
  | ofNat n =>
    have hsign : decide (Int.ofNat n < 0) = false := by simp
    show (Nat.repr n).toList = _
    rw [hsign, Nat.toList_repr]
    rfl
  | negSucc n =>
    have hsign : decide (Int.negSucc n < 0) = true := by simp
    show ("-" ++ Nat.repr (n + 1)).toList = _
    rw [hsign, String.toList_append, Nat.toList_repr]
    rfl

open Lexer in
/-- The text of a whole number is one numeral, and stands for the number. -/
theorem readsBack_int (n : Int) (hlow : -2 ^ (63 : Nat) ≤ n) (hhigh : n < 2 ^ (64 : Nat)) :
    (Number.int n hlow hhigh).ReadsBack := by
  obtain ⟨part, hfinal, hfeed⟩ := feed_toDigits (decide (n < 0)) n.natAbs
  refine ⟨part, { negative := decide (n < 0), mantissa := n.natAbs }, ?_, hfinal, ?_⟩
  · show feed .outside ((toString n).toList.map some) = _
    rw [toList_toString_int]
    exact feed_signed hfeed hfinal
  · have hwhole : (if decide (n < 0) = true then -(n.natAbs : Int) else n.natAbs) = n := by
      by_cases h : n < 0
      · rw [decide_eq_true h, if_pos rfl]
        omega
      · rw [decide_eq_false h, if_neg (by decide)]
        omega
    have hplain : ¬(decide (n < 0) = true ∧ n.natAbs = 0) := by
      rw [decide_eq_true_eq]
      omega
    have hfits : Number.ofInt? n = some (.int n hlow hhigh) := dif_pos ⟨hlow, hhigh⟩
    unfold Number.ofNumeral?
    extract_lets whole asFloat
    rw [if_pos ⟨rfl, hplain⟩, show whole = n from hwhole, hfits]
    rfl

/-- Every number reads back from its text. -/
theorem Number.readsBack : (n : Number) → n.ReadsBack
  | .int n hlow hhigh => readsBack_int n hlow hhigh
  | .float x hx => readsBack_float x hx

namespace Tree

mutual

/-- Every document reads back. -/
theorem readsBack : (t : Tree) → t.ReadsBack
  | .null => trivial
  | .bool _ => trivial
  | .number n => n.readsBack
  | .text _ => trivial
  | .array xs => itemsReadBack xs
  | .object ms => membersReadBack ms

theorem itemsReadBack : (xs : List Tree) → ItemsReadBack xs
  | [] => trivial
  | x :: xs => ⟨readsBack x, itemsReadBack xs⟩

theorem membersReadBack : (ms : List (String × Tree)) → MembersReadBack ms
  | [] => trivial
  | (_, x) :: ms => ⟨readsBack x, membersReadBack ms⟩

end

end Tree

end Intake.Json
