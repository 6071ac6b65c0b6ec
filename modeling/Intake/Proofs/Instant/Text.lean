import Intake.Instant.Text
import Intake.Proofs.Instant.Calendar
import Intake.Proofs.Text.Digits

/-!
# Reading a written instant

An instant is read back from its text (`Instant.parse?_text`), leap seconds and years outside of 0
to 9999 included. Each reader is run on the text of its part with something behind it that is no
digit, and leaves that.
-/

namespace Intake.Instant

open Intake.Text (AllDigits allDigits_zeros allDigits_toDigits isBlank dropBlanks isDigit_iff
  toNat_of_isDigit)

-- one meaning of powers, whatever is imported beside
attribute [local instance (high)] instPowNat

/-! ## Numbers with zeros in front -/

theorem allDigits_padded (width n : Nat) : AllDigits (padded width n) :=
  (allDigits_zeros _).append (allDigits_toDigits n)

theorem ofDigitChars_padded (width n : Nat) : Nat.ofDigitChars 10 (padded width n) 0 = n := by
  unfold padded
  rw [Nat.ofDigitChars_append, Nat.ofDigitChars_replicate_zero, Nat.mul_zero,
    Nat.ofDigitChars_ten_toDigits]

theorem length_padded {width n : Nat} (hwidth : 0 < width) (h : n < 10 ^ width) :
    (padded width n).length = width := by
  have hdigits : (Nat.toDigits 10 n).length ≤ width :=
    (Nat.length_toDigits_le_iff (by decide) hwidth).mpr h
  unfold padded
  rw [List.length_append, List.length_replicate]
  omega

theorem padded_ne_nil (width n : Nat) : padded width n ≠ [] :=
  List.append_ne_nil_of_right_ne_nil _ Nat.toDigits_ne_nil

theorem digit?_of_isDigit {c : Char} (h : c.isDigit = true) : digit? c = some (c.toNat - 48) :=
  if_pos (isDigit_iff.mp h)

theorem isBlank_of_isDigit {c : Char} (h : c.isDigit = true) : isBlank c = false := by
  have hrange := toNat_of_isDigit h
  simp only [isBlank, Bool.or_eq_false_iff, Bool.and_eq_false_iff, decide_eq_false_iff_not,
    beq_eq_false_iff_ne]
  omega

/-- No number goes on here. -/
def Ends (rest : List Char) : Prop := ∀ c ∈ rest.head?, digit? c = none

theorem ends_cons {c : Char} (h : digit? c = none) (rest : List Char) : Ends (c :: rest) := by
  intro d hd
  cases hd
  exact h

/-- Digits are read as a number, either as many as there may be or up to something else. -/
theorem digitsAt_append {cs rest : List Char} (hdigits : AllDigits cs) {limit : Nat}
    (hlimit : cs.length ≤ limit) (hrest : Ends rest) (count value : Nat) :
    digitsAt limit (cs ++ rest) count value
      = (Nat.ofDigitChars 10 cs value, count + cs.length, rest) := by
  induction cs generalizing limit count value with
  | nil =>
    rw [List.nil_append, Nat.ofDigitChars_nil, List.length_nil, Nat.add_zero]
    cases limit with
    | zero => rfl
    | succ limit =>
      cases rest with
      | nil => rfl
      | cons c rest => rw [digitsAt, hrest c rfl]
  | cons c cs ih =>
    rw [List.length_cons] at hlimit ⊢
    obtain ⟨limit, rfl⟩ : ∃ k, limit = k + 1 := ⟨limit - 1, by omega⟩
    rw [List.cons_append, digitsAt, digit?_of_isDigit (hdigits c (List.mem_cons_self ..))]
    dsimp only
    rw [ih (fun d hd => hdigits d (List.mem_cons_of_mem _ hd)) (by omega), Nat.ofDigitChars_cons,
      Nat.mul_comm 10, Nat.add_assoc, Nat.add_comm 1]
    rfl

theorem number?_append {cs rest : List Char} (hdigits : AllDigits cs) (hsome : cs ≠ [])
    {limit : Nat} (hlimit : cs.length ≤ limit) (hrest : Ends rest) :
    number? limit (cs ++ rest) = some (Nat.ofDigitChars 10 cs 0, rest) := by
  obtain ⟨c, cs, rfl⟩ := List.exists_cons_of_ne_nil hsome
  rw [number?, digitsAt_append hdigits hlimit hrest, List.length_cons, Nat.zero_add]
  rfl

/-- A number with zeros in front is read as the number. -/
theorem number?_padded {limit width n : Nat} (hlimit : (padded width n).length ≤ limit)
    {rest : List Char} (hrest : Ends rest) :
    number? limit (padded width n ++ rest) = some (n, rest) := by
  rw [number?_append (allDigits_padded width n) (padded_ne_nil width n) hlimit hrest,
    ofDigitChars_padded]

theorem dropBlanks_cons {c : Char} (h : isBlank c = false) (rest : List Char) :
    dropBlanks (c :: rest) = c :: rest := by
  rw [dropBlanks, List.dropWhile_cons_of_neg (by simp [h])]

/-- No blank stands before a number. -/
theorem dropBlanks_padded (width n : Nat) (rest : List Char) :
    dropBlanks (padded width n ++ rest) = padded width n ++ rest := by
  obtain ⟨c, cs, hcs⟩ := List.exists_cons_of_ne_nil (padded_ne_nil width n)
  have hc : c.isDigit = true := by
    apply allDigits_padded width n
    rw [hcs]
    exact List.mem_cons_self ..
  rw [hcs, List.cons_append, dropBlanks_cons (isBlank_of_isDigit hc)]

/-! ## Parts of a date and a time -/

/-- A number of two digits is read as the number. -/
theorem field?_padded {n : Nat} (hn : n < 100) {rest : List Char} (hrest : Ends rest) :
    field? (padded 2 n ++ rest) = some (n, rest) := by
  rw [field?, dropBlanks_padded]
  exact number?_padded (Nat.le_of_eq (length_padded (by decide) hn)) hrest

theorem mark?_cons {c : Char} (h : isBlank c = false) (rest : List Char) :
    mark? c (c :: rest) = some rest := by
  rw [mark?, dropBlanks_cons h]
  exact if_pos rfl

/-- A year is read from its four digits, or from its sign and digits. -/
theorem year?_yearChars (y : Int) {rest : List Char} (hrest : Ends rest) :
    year? (yearChars y ++ rest) = some (y, rest) := by
  unfold yearChars
  split
  · rename_i hy
    have hnumber : number? 4 (padded 4 y.toNat ++ rest) = some (y.toNat, rest) :=
      number?_padded (Nat.le_of_eq (length_padded (by decide) (by omega))) hrest
    obtain ⟨c, cs, hcs⟩ := List.exists_cons_of_ne_nil (padded_ne_nil 4 y.toNat)
    have hc : c.isDigit = true :=
      allDigits_padded 4 y.toNat c (by rw [hcs]; exact List.mem_cons_self ..)
    unfold year?
    rw [dropBlanks_padded]
    split
    · rename_i heq
      rw [hcs, List.cons_append] at heq
      cases heq
      cases hc
    · rename_i heq
      rw [hcs, List.cons_append] at heq
      cases heq
      cases hc
    · rw [hnumber]
      show some ((y.toNat : Int), rest) = _
      rw [Int.toNat_of_nonneg hy.1]
  · have hnumber : ∀ n : Nat, number? (padded 4 n ++ rest).length (padded 4 n ++ rest)
        = some (n, rest) := by
      intro n
      exact number?_padded (by rw [List.length_append]; omega) hrest
    by_cases hneg : y < 0
    · rw [if_pos hneg, List.cons_append, year?, dropBlanks_cons (by decide)]
      show (number? (padded 4 y.natAbs ++ rest).length (padded 4 y.natAbs ++ rest)).map
        (fun r => (-(r.1 : Int), r.2)) = _
      rw [hnumber]
      show some (-(y.natAbs : Int), rest) = _
      rw [Int.ofNat_natAbs_of_nonpos (by omega), Int.neg_neg]
    · rw [if_neg hneg, List.cons_append, year?, dropBlanks_cons (by decide)]
      show (number? (padded 4 y.natAbs ++ rest).length (padded 4 y.natAbs ++ rest)).map
        (fun r => ((r.1 : Int), r.2)) = _
      rw [hnumber]
      show some ((y.natAbs : Int), rest) = _
      rw [Int.natAbs_of_nonneg (by omega)]

/-- The decimals of a second are read in nanoseconds. -/
theorem fraction?_padded {places n : Nat} (hplaces : 0 < places ∧ places ≤ 9) (hn : n < 10 ^ places)
    {rest : List Char} (hrest : Ends rest) :
    fraction? ('.' :: padded places n ++ rest) = some (n * 10 ^ (9 - places), rest) := by
  have hlength := length_padded hplaces.1 hn
  have hdigits := digitsAt_append (allDigits_padded places n)
    (show (padded places n).length ≤ 9 by omega) hrest 0 0
  rw [ofDigitChars_padded, hlength, Nat.zero_add] at hdigits
  have hdrop : rest.dropWhile (fun c => (digit? c).isSome) = rest := by
    cases rest with
    | nil => rfl
    | cons c rest => exact List.dropWhile_cons_of_neg (by simp [hrest c rfl])
  obtain ⟨k, rfl⟩ : ∃ k, places = k + 1 := ⟨places - 1, by omega⟩
  rw [List.cons_append, fraction?, hdigits]
  show some (n * 10 ^ (9 - (k + 1)), rest.dropWhile fun c => (digit? c).isSome) = _
  rw [hdrop]

/-- The nanoseconds of a second are read back from its decimals. -/
theorem fraction?_fractionChars {nanos : Nat} (h : nanos < 1000000000) {rest : List Char}
    (hrest : Ends rest) (hpoint : rest.head? ≠ some '.') :
    fraction? (fractionChars nanos ++ rest) = some (nanos, rest) := by
  unfold fractionChars
  split
  · rename_i hzero
    rw [hzero, List.nil_append]
    unfold fraction?
    split
    · exact absurd rfl hpoint
    · rfl
  split
  · rename_i hmillis
    rw [fraction?_padded (by decide) (by omega) hrest]
    simp only [Option.some.injEq, Prod.mk.injEq, and_true]
    omega
  split
  · rename_i hmicros
    rw [fraction?_padded (by decide) (by omega) hrest]
    simp only [Option.some.injEq, Prod.mk.injEq, and_true]
    omega
  · rw [fraction?_padded (by decide) (by omega) hrest]
    simp

/-! ## Dates and times -/

theorem bounds_of_exists {d : Date} (h : d.exists = true) : d.month < 100 ∧ d.day < 100 := by
  have hdays : daysIn d.year d.month ≤ 31 := by
    unfold daysIn
    split
    · split <;> decide
    split <;> decide
  simp only [Date.exists, Bool.and_eq_true, decide_eq_true_eq] at h
  omega

/-- A date is read back from its text. -/
theorem date?_append {d : Date} (h : d.exists = true) (rest : List Char) (hrest : Ends rest) :
    date? (yearChars d.year ++ '-' :: (padded 2 d.month ++ '-' :: (padded 2 d.day ++ rest)))
      = some (d, rest) := by
  obtain ⟨hmonth, hday⟩ := bounds_of_exists h
  have hhyphen : ∀ rest, Ends ('-' :: rest) := ends_cons (by decide)
  simp only [date?, year?_yearChars _ (hhyphen _), mark?_cons (show isBlank '-' = false by decide),
    field?_padded hmonth (hhyphen _), field?_padded hday hrest, Option.bind_eq_bind,
    Option.bind_some]
  rfl

/-- The characters of a time of day. -/
def timeChars (second leap nanos : Nat) : List Char :=
  padded 2 (second / 3600) ++ ':' :: (padded 2 (second / 60 % 60) ++ ':' ::
    (padded 2 (second % 60 + leap) ++ (fractionChars nanos ++ ['Z'])))

/-- A time of day is read back from its text; in a leap second the nanoseconds go on. -/
theorem time?_timeChars {second leap nanos : Nat} (hsecond : second < 86400)
    (hnanos : nanos < 1000000000) (hleap : leap = 0 ∨ leap = 1 ∧ second % 60 = 59) :
    time? (timeChars second leap nanos) = some ((second, nanos + leap * 1000000000), ['Z']) := by
  have hcolon : ∀ rest, Ends (':' :: rest) := ends_cons (by decide)
  have hzone : Ends ['Z'] := ends_cons (by decide) []
  have hfraction : Ends (fractionChars nanos ++ ['Z']) := by
    unfold fractionChars
    split
    · exact hzone
    split
    · exact ends_cons (by decide) _
    split <;> exact ends_cons (by decide) _
  simp only [time?, timeChars, field?_padded (show second / 3600 < 100 by omega) (hcolon _),
    mark?_cons (show isBlank ':' = false by decide),
    field?_padded (show second / 60 % 60 < 100 by omega) (hcolon _),
    field?_padded (show second % 60 + leap < 100 by omega) hfraction,
    fraction?_fractionChars hnanos hzone (by decide), Option.bind_eq_bind, Option.bind_some]
  rw [if_neg (by omega)]
  rcases hleap with rfl | ⟨rfl, hlast⟩
  · rw [if_neg (by omega)]
    simp only [Option.pure_def, Option.some.injEq, Prod.mk.injEq, and_true]
    omega
  · rw [if_pos (by omega)]
    simp only [Option.pure_def, Option.some.injEq, Prod.mk.injEq, and_true]
    omega

/-! ## Instants -/

theorem chars_eq (t : Instant) :
    t.chars = yearChars (Date.ofDays (t.seconds / 86400)).year ++ '-' ::
      (padded 2 (Date.ofDays (t.seconds / 86400)).month ++ '-' ::
        (padded 2 (Date.ofDays (t.seconds / 86400)).day ++ 'T' ::
          timeChars (t.seconds % 86400).toNat (if t.nanos < 1000000000 then 0 else 1)
            (t.nanos % 1000000000))) := by
  simp only [chars, timeChars, List.append_assoc, List.cons_append]

/-- An instant is read back from its text. -/
theorem parse?_text (t : Instant) : parse? t.text = some t := by
  have hseconds : (0 : Int) ≤ t.seconds % 86400 := by omega
  have hnanos := t.nanosInRange
  have hleap : (if t.nanos < 1000000000 then 0 else 1) = 0
      ∨ (if t.nanos < 1000000000 then 0 else 1) = 1 ∧ (t.seconds % 86400).toNat % 60 = 59 := by
    by_cases h : t.nanos < 1000000000
    · exact .inl (if_pos h)
    · exact .inr ⟨if_neg h, by omega⟩
  have htime := time?_timeChars (show (t.seconds % 86400).toNat < 86400 by omega)
    (Nat.mod_lt t.nanos (show 0 < 1000000000 by decide)) hleap
  have hwhole : t.nanos % 1000000000 + (if t.nanos < 1000000000 then 0 else 1) * 1000000000
      = t.nanos := by
    split <;> omega
  have hdays : (Date.ofDays (t.seconds / 86400)).toDays * 86400 + ((t.seconds % 86400).toNat : Int)
      = t.seconds := by
    rw [Date.toDays_ofDays]
    omega
  have hparts : ofParts? t.seconds t.nanos = some t := dif_pos ⟨t.inRange, t.nanosInRange⟩
  have hdate := date?_append (Date.exists_ofDays (t.seconds / 86400)) ('T' ::
    timeChars (t.seconds % 86400).toNat (if t.nanos < 1000000000 then 0 else 1)
      (t.nanos % 1000000000)) (ends_cons (by decide) _)
  rw [hwhole] at htime
  rw [parse?, text, String.toList_ofList, chars_eq, hdate]
  have hzone : zone? ['Z'] = some (0, []) := by decide
  have hmark : isTimeMark 'T' = true := by decide
  have hrest : (dropBlanks []).isEmpty = true := rfl
  simp only [Option.bind_eq_bind, Option.bind_some, hmark, htime, hzone, hrest,
    Date.exists_ofDays, hdays, hparts, plusSeconds?]
  simpa using hparts

end Intake.Instant
