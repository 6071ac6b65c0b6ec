import Intake.Decimal.Binary64

/-!
# The shortest decimal of a double

All reals near a double round to it. Among the decimals `d · 10 ^ j` that do, the shortest one has
the greatest `j`; of two with the same `j` it is the one nearer to the double, and of two equally
near the one with even `d`.

The reals that round to `m · 2 ^ q` reach half a step up and half a step down, or a quarter down
where the doubles below stand closer; the ends belong to them if `m` is even. Everything is counted
in quarters of `2 ^ q`, as quotients of natural numbers.
-/

namespace Intake

/-- A decimal number `digits · 10 ^ power`. -/
structure Decimal where
  digits : Nat
  power : Int
deriving DecidableEq

namespace Decimal

-- one meaning of powers, whatever is imported beside
attribute [local instance (high)] instPowNat

/-- The reals that round to a double: a centre and two ends over one denominator, and whether the
ends count. -/
structure Range where
  low : Nat
  centre : Nat
  high : Nat
  unit : Nat
  closed : Bool

/-- The reals that round to `m · 2 ^ q`. -/
def Range.of (m : Nat) (q : Int) : Range :=
  let up := if 0 ≤ q then 2 ^ q.toNat else 1
  let down := if 0 ≤ q then 1 else 2 ^ (-q).toNat
  let below := if m = 2 ^ (52 : Nat) ∧ -1074 < q then 1 else 2
  { low := (4 * m - below) * up
    centre := 4 * m * up
    high := (4 * m + 2) * up
    unit := 4 * down
    closed := m % 2 = 0 }

/-- Whether the quotient `n / d` lies in the range. -/
def Range.holds (r : Range) (n d : Nat) : Bool :=
  if r.closed then r.low * d ≤ n * r.unit && n * r.unit ≤ r.high * d
  else r.low * d < n * r.unit && n * r.unit < r.high * d

/-- The multiple of `10 ^ j` in the range that is nearest to its centre. -/
def Range.multiple? (r : Range) (j : Int) : Option Nat :=
  let up := if 0 ≤ j then 10 ^ j.toNat else 1
  let down := if 0 ≤ j then 1 else 10 ^ (-j).toNat
  let near := r.centre * down / (r.unit * up)
  let holds (k : Nat) : Bool := r.holds (k * up) down
  match holds near, holds (near + 1) with
  | true, true => some (roundDiv (r.centre * down) (r.unit * up))
  | true, false => some near
  | false, true => some (near + 1)
  | false, false => none

/-- The first multiple found when `j` goes down from a power, at most so many steps. -/
def Range.search (r : Range) : Nat → Int → Decimal
  | 0, j => ⟨(r.multiple? j).getD 0, j⟩
  | steps + 1, j =>
    match r.multiple? j with
    | some d => ⟨d, j⟩
    | none => r.search steps (j - 1)

/-- How many decimal digits a number has. -/
def digitCount (n : Nat) : Nat :=
  (Nat.toDigits 10 n).length

/-- The shortest decimal that reads back as `m · 2 ^ q`. -/
def shortest (m : Nat) (q : Int) : Decimal :=
  let r := Range.of m q
  -- above `10 ^ top` no multiple is in the range, and each double is a multiple of `10 ^ -1075`
  let top := digitCount (r.centre / r.unit) + 1
  r.search (top + 1075) top

end Decimal

end Intake
