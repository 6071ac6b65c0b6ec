/-!
# Hexadecimal digits

The sixteen digits are written in lower case and read in either case.
-/

namespace Intake.Text

/-- The digits in the order of their values. -/
def hexDigits : Vector Char 16 :=
  #v['0', '1', '2', '3', '4', '5', '6', '7', '8', '9', 'a', 'b', 'c', 'd', 'e', 'f']

/-- The digit with a value. -/
def hexDigit (n : Fin 16) : Char := hexDigits[n]

/-- The last digit of a number. -/
def lastDigit (n : Nat) : Fin 16 := Fin.ofNat 16 n

@[simp]
theorem lastDigit_val (n : Nat) : (lastDigit n).val = n % 16 := rfl

/-- The value of a digit of either case. -/
def hexValue? (c : Char) : Option (Fin 16) :=
  if '0' ≤ c ∧ c ≤ '9' then some (lastDigit (c.toNat - 48))
  else if 'a' ≤ c ∧ c ≤ 'f' then some (lastDigit (c.toNat - 87))
  else if 'A' ≤ c ∧ c ≤ 'F' then some (lastDigit (c.toNat - 55))
  else none

/-- A written digit is read as its value. -/
@[simp]
theorem hexValue?_hexDigit : ∀ n : Fin 16, hexValue? (hexDigit n) = some n := by
  decide

end Intake.Text
