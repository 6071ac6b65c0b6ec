import Intake.Instant.Basic
import Intake.Uuid

/-!
# The clock and fresh identifiers

What a run takes from outside without asking a data source: the time, and identifiers that were
never used. Both come from sequences that are given once; a supply knows how much of them was
used.
-/

namespace Intake

/-- A clock and a sequence of identifiers. -/
structure Supply where
  /-- What the clock shows when it is read for the n-th time. -/
  clock : Nat → Instant
  /-- The n-th identifier. -/
  identifiers : Nat → Uuid
  readings : Nat := 0
  issued : Nat := 0

namespace Supply

/-- Reads the clock. -/
def now (s : Supply) : Instant × Supply :=
  (s.clock s.readings, { s with readings := s.readings + 1 })

/-- Takes the next identifier. -/
def fresh (s : Supply) : Uuid × Supply :=
  (s.identifiers s.issued, { s with issued := s.issued + 1 })

end Supply

end Intake
