import Intake.Decimal.Shortest

/-!
# Numbers of a JSON document

A number is a whole number of 64 bits, with or without sign, or a finite double. Which of the two it
is depends on how it was written: a numeral with a point or an exponent is a double, and so is a
whole numeral that does not fit and the numeral `-0`.

* `Numeral` is a number as it is written; `Number.ofNumeral?` is the number it stands for.
* `Number.text` is the one text that is written for a number: a whole number in plain digits, a
  double with the fewest digits that read back, positional from `1e-5` up to below `1e16` and
  otherwise with an exponent.
-/

namespace Intake.Json

open Intake.Decimal

-- one meaning of powers, whatever is imported beside
attribute [local instance (high)] instPowNat

/-- A number as it is written: `± mantissa · 10 ^ (exponent - places)`. A plain numeral has neither
point nor exponent. -/
structure Numeral where
  negative : Bool := false
  mantissa : Nat := 0
  places : Nat := 0
  exponentNegative : Bool := false
  exponent : Nat := 0
  plain : Bool := true
deriving DecidableEq

/-- The power of ten that belongs to the mantissa. -/
def Numeral.power (n : Numeral) : Int :=
  (if n.exponentNegative then -(n.exponent : Int) else n.exponent) - n.places

/-- The double nearest to a numeral; `none` if that is an infinity. Powers of ten that no mantissa
of this length can bring back into range are not computed. -/
def Numeral.toFloat? (n : Numeral) : Option Float :=
  let signed (x : Float) : Float := if n.negative then -x else x
  let size : Int := digitCount n.mantissa
  if n.mantissa = 0 ∨ n.power + size < -330 then some (signed 0)
  else if 310 < n.power + size then none
  else
    let up := if 0 ≤ n.power then 10 ^ n.power.toNat else 1
    let down := if 0 ≤ n.power then 1 else 10 ^ (-n.power).toNat
    (nearestBits? (n.mantissa * up) down).map fun bits => signed (Float.ofBits bits)

/-- A number of a document. -/
inductive Number where
  | int (value : Int) (least : -2 ^ (63 : Nat) ≤ value) (below : value < 2 ^ (64 : Nat))
  | float (value : Float) (finite : value.isFinite = true)

namespace Number

/-- The whole number, if it fits. -/
def ofInt? (n : Int) : Option Number :=
  if h : -2 ^ (63 : Nat) ≤ n ∧ n < 2 ^ (64 : Nat) then some (.int n h.1 h.2) else none

/-- The double, if it is finite. -/
def ofFloat? (x : Float) : Option Number :=
  if h : x.isFinite = true then some (.float x h) else none

/-- A whole number without sign. -/
def ofUInt64 (n : UInt64) : Number :=
  .int n.toNat (by omega) (by have := n.toNat_lt; omega)

/-- A whole number with sign. -/
def ofInt64 (n : Int64) : Number :=
  .int n.toInt (by have := n.le_toInt; simpa using this) (by have := n.toInt_lt; omega)

/-- The number that a numeral stands for; `none` if it is beyond the doubles. -/
def ofNumeral? (n : Numeral) : Option Number :=
  let whole : Int := if n.negative then -n.mantissa else n.mantissa
  let asFloat := n.toFloat? >>= ofFloat?
  -- `-0` is no whole number, since it would lose its sign
  if n.plain ∧ ¬(n.negative ∧ n.mantissa = 0) then ofInt? whole <|> asFloat else asFloat

/-- Equality of numbers: whole numbers with whole numbers, and doubles with doubles as doubles are
compared, so that the two zeros are equal. -/
protected def beq : Number → Number → Bool
  | .int a _ _, .int b _ _ => a == b
  | .float x _, .float y _ => x == y
  | _, _ => false

instance : BEq Number := ⟨Number.beq⟩

/-- The number as a double. -/
def toFloat : Number → Float
  | .int n _ _ => Float.ofInt n
  | .float x _ => x

/-- The number as a whole number without sign, if it was written as one. -/
def toUInt64? : Number → Option UInt64
  | .int n _ _ => if 0 ≤ n then some (UInt64.ofNat n.toNat) else none
  | .float _ _ => none

/-- The number as a whole number with sign, if it was written as one and fits. -/
def toInt64? : Number → Option Int64
  | .int n _ _ => if n < 2 ^ (63 : Nat) then some (Int64.ofInt n) else none
  | .float _ _ => none

/-- A decimal in positional notation, always with a point. -/
def positional (d : Decimal) : String :=
  let digits := Nat.toDigits 10 d.digits
  if 0 ≤ d.power then
    String.ofList (digits ++ List.replicate d.power.toNat '0' ++ ['.', '0'])
  else
    let places := (-d.power).toNat
    let padded := List.replicate (places + 1 - digits.length) '0' ++ digits
    String.ofList
      (padded.take (padded.length - places) ++ '.' :: padded.drop (padded.length - places))

/-- A decimal with one digit before the point, and an exponent with its sign. -/
def scientific (d : Decimal) : String :=
  let digits := Nat.toDigits 10 d.digits
  let exponent := d.power + digits.length - 1
  let sign := if 0 ≤ exponent then "+" else "-"
  let fraction := if digits.length ≤ 1 then [] else '.' :: digits.drop 1
  String.ofList (digits.take 1 ++ fraction) ++ "e" ++ sign ++ toString exponent.natAbs

/-- The text of a finite double. -/
def floatText (x : Float) : String :=
  let bits := x.toBits
  let (m, q) := significandAndPower bits
  let sign := if isNegativeBits bits then "-" else ""
  if m = 0 then sign ++ "0.0"
  else
    let d := shortest m q
    let exponent := d.power + digitCount d.digits - 1
    sign ++ if -5 ≤ exponent ∧ exponent < 16 then positional d else scientific d

/-- The text of a number. -/
def text : Number → String
  | .int n _ _ => toString n
  | .float x _ => floatText x

end Number

end Intake.Json
