/-!
# Doubles as integers times a power of two

A finite double that is not negative is `m · 2 ^ q` for natural `m < 2 ^ 53` and an integer `q` from
-1074 to 971. This module goes from the bits of a double to `m` and `q`, and from a quotient of
natural numbers to the bits of the nearest double.
-/

namespace Intake.Decimal

-- one meaning of powers, whatever is imported beside
attribute [local instance (high)] instPowNat

/-- The quotient of `n` by `d` rounded to the nearest natural number; a half goes to the even
neighbour. -/
def roundDiv (n d : Nat) : Nat :=
  let q := n / d
  let r := n % d
  if d < 2 * r ∨ (2 * r = d ∧ q % 2 = 1) then q + 1 else q

/-- The quotient of `n` by `d · 2 ^ e` as a quotient of natural numbers. -/
def scale (n d : Nat) (e : Int) : Nat × Nat :=
  if 0 ≤ e then (n, d * 2 ^ e.toNat) else (n * 2 ^ (-e).toNat, d)

/-- The exponent of the double nearest to `n / d`: the one that leaves 53 bits before the point, and
-1074 where that is below it. -/
def exponentOf (n d : Nat) : Int :=
  let e : Int := (n.log2 : Int) - d.log2 - 52
  let (a, b) := scale n d e
  max (if a < b * 2 ^ (52 : Nat) then e - 1 else e) (-1074)

/-- The bits of the double nearest to `n / d`, a tie to the even one; `none` if that is infinity. -/
def nearestBits? (n d : Nat) : Option UInt64 :=
  if n = 0 then some 0
  else
    let e := exponentOf n d
    let (a, b) := scale n d e
    let bits := (e + 1074).toNat * 2 ^ (52 : Nat) + roundDiv a b
    if bits < 0x7ff * 2 ^ (52 : Nat) then some bits.toUInt64 else none

/-- The integer `m` and the power `q` of a finite double, its sign apart. -/
def significandAndPower (bits : UInt64) : Nat × Int :=
  let field : Nat := (bits.toNat / 2 ^ (52 : Nat)) % 2 ^ (11 : Nat)
  let fraction : Nat := bits.toNat % 2 ^ (52 : Nat)
  if field = 0 then (fraction, -1074) else (2 ^ (52 : Nat) + fraction, (field : Int) - 1075)

/-- Whether the sign bit is set. -/
def isNegativeBits (bits : UInt64) : Bool :=
  2 ^ (63 : Nat) ≤ bits.toNat

end Intake.Decimal
