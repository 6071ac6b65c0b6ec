import Intake.Instant.Calendar

/-!
# Instants

An instant is a count of seconds from the start of 1970 in UTC and of nanoseconds within the second,
from the start of the year -262143 to the end of the year 262142. During a leap second the
nanoseconds go on past one thousand million, which happens only in the last second of a minute.

Instants are ordered by seconds and then by nanoseconds. `epochSeconds` is an instant as a double,
to the microsecond, and `ofEpochSeconds?` the instant nearest to a double.
-/

namespace Intake

/-- A point in time. -/
structure Instant where
  seconds : Int
  nanos : Nat
  inRange : -8334601228800 ≤ seconds ∧ seconds ≤ 8210266876799
  nanosInRange : nanos < 1000000000 ∨ (nanos < 2000000000 ∧ seconds % 60 = 59)
deriving DecidableEq

namespace Instant

/-- The instant from which seconds are counted. -/
def epoch : Instant := ⟨0, 0, by decide, by decide⟩

example : (Date.mk (-262143) 1 1).toDays * 86400 = -8334601228800 := by decide

example : (Date.mk 262142 12 31).toDays * 86400 + 86399 = 8210266876799 := by decide

/-- The instant with these seconds and nanoseconds, if there is one. -/
def ofParts? (seconds : Int) (nanos : Nat) : Option Instant :=
  if h : (-8334601228800 ≤ seconds ∧ seconds ≤ 8210266876799)
      ∧ (nanos < 1000000000 ∨ (nanos < 2000000000 ∧ seconds % 60 = 59)) then
    some ⟨seconds, nanos, h.1, h.2⟩
  else none

/-! ## Order -/

instance : LE Instant :=
  ⟨fun a b => a.seconds < b.seconds ∨ (a.seconds = b.seconds ∧ a.nanos ≤ b.nanos)⟩

instance : LT Instant :=
  ⟨fun a b => a.seconds < b.seconds ∨ (a.seconds = b.seconds ∧ a.nanos < b.nanos)⟩

theorem le_def {a b : Instant} :
    a ≤ b ↔ a.seconds < b.seconds ∨ (a.seconds = b.seconds ∧ a.nanos ≤ b.nanos) := Iff.rfl

theorem lt_def {a b : Instant} :
    a < b ↔ a.seconds < b.seconds ∨ (a.seconds = b.seconds ∧ a.nanos < b.nanos) := Iff.rfl

instance (a b : Instant) : Decidable (a ≤ b) := decidable_of_iff _ le_def.symm

instance (a b : Instant) : Decidable (a < b) := decidable_of_iff _ lt_def.symm

theorem le_refl (a : Instant) : a ≤ a := .inr ⟨rfl, Nat.le_refl _⟩

theorem le_trans {a b c : Instant} (hab : a ≤ b) (hbc : b ≤ c) : a ≤ c := by
  rw [le_def] at *
  omega

theorem le_antisymm {a b : Instant} (hab : a ≤ b) (hba : b ≤ a) : a = b := by
  obtain ⟨s, n, _, _⟩ := a
  obtain ⟨t, m, _, _⟩ := b
  simp only [le_def] at hab hba
  have hs : s = t := by omega
  have hn : n = m := by omega
  subst hs hn
  rfl

theorem le_total (a b : Instant) : a ≤ b ∨ b ≤ a := by
  simp only [le_def]
  omega

instance : Min Instant := ⟨fun a b => if a ≤ b then a else b⟩

instance : Max Instant := ⟨fun a b => if a ≤ b then b else a⟩

/-! ## Seconds as doubles -/

/-- The seconds since the start of 1970, to the microsecond. -/
def epochSeconds (t : Instant) : Float :=
  Float.ofInt t.seconds + Float.ofNat (t.nanos / 1000) / 1000000.0

/-- The instant that so many microseconds after the start of 1970 is. -/
def ofMicroseconds? (n : Int) : Option Instant :=
  ofParts? (n / 1000000) ((n % 1000000).toNat * 1000)

/-- The instant that is, to the microsecond, so many seconds after the start of 1970; none if the
number is not finite or the instant out of range. -/
def ofEpochSeconds? (secs : Float) : Option Instant :=
  let micros := (secs * 1000000.0).round
  if secs.isFinite ∧ -9223372036854775808.0 ≤ micros ∧ micros ≤ 9223372036854775808.0 then
    ofMicroseconds? micros.toInt64.toInt
  else none

/-- The instant so many seconds after another one, where there is one. -/
def plusSeconds? (t : Instant) (n : Int) : Option Instant := ofParts? (t.seconds + n) t.nanos

end Instant

end Intake
