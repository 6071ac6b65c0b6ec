import Intake.Json.Value
import Intake.Text.Hex

/-!
# Doubles of every kind

A number of a document is finite. Where any double may stand, infinities and NaN have names, and a
double may also be given by its bits: as an object with sixteen hexadecimal digits under `bits`.
-/

namespace Intake.Json

/-- The number with these hexadecimal digits; other characters are passed over. -/
def ofHexDigits (digits : String) : Nat :=
  (digits.toList.filterMap Text.hexValue?).foldl (fun n d => n * 16 + d.val) 0

/-- The double that a value stands for; zero if it stands for none. -/
def toDouble (j : Json) : Float :=
  match j.text? with
  | some "NaN" => 0 / 0
  | some "inf" => 1 / 0
  | some "-inf" => -1 / 0
  | some _ => 0
  | none =>
    match j.get? "bits" >>= text? with
    | some digits => Float.ofBits (ofHexDigits digits).toUInt64
    | none => j.float?.getD 0

/-- The value that stands for a double. -/
def ofDouble (x : Float) : Json :=
  if x.isNaN then .text "NaN"
  else if x.isFinite then .ofFloat x
  else if 0 < x then .text "inf"
  else .text "-inf"

end Intake.Json
