/-!
# White space

The characters of the Unicode property `White_Space`, and the removal of them from the ends of a
text.
-/

namespace Intake.Text

/-- The twenty-five characters with the property `White_Space`. -/
def isBlank (c : Char) : Bool :=
  let n := c.toNat
  (0x09 ≤ n && n ≤ 0x0d) || n == 0x20 || n == 0x85 || n == 0xa0 || n == 0x1680
    || (0x2000 ≤ n && n ≤ 0x200a) || n == 0x2028 || n == 0x2029 || n == 0x202f || n == 0x205f
    || n == 0x3000

/-- The characters that are left when blanks are dropped from the front. -/
def dropBlanks (cs : List Char) : List Char :=
  cs.dropWhile isBlank

/-- Blanks removed from both ends. -/
def trim (s : String) : String :=
  String.ofList (dropBlanks (dropBlanks s.toList).reverse).reverse

/-- Whether nothing but blanks is in the text. -/
def isAllBlank (s : String) : Bool :=
  s.toList.all isBlank

end Intake.Text
