import Intake.Text.Hex

/-!
# Identifiers of 128 bits

A UUID is thirty-two hexadecimal digits. It is written in five groups of 8, 4, 4, 4 and 12 digits
joined by hyphens, in lower case, and read in four spellings: the digits alone, the five groups, the
five groups in braces, and the five groups after `urn:uuid:`. The case of letters does not matter.

`Uuid.parse` says of any other text what is wrong with it; `UuidError` has the reasons in the
order in which they are looked for.
-/

namespace Intake

open Intake.Text (hexDigit hexValue? lastDigit)

/-- An identifier of 128 bits, as its hexadecimal digits. -/
structure Uuid where
  digits : List (Fin 16)
  size : digits.length = 32
deriving DecidableEq

/-- Why a text is no UUID. -/
inductive UuidError where
  /-- The text has a length that no spelling has. -/
  | length (found : Nat)
  /-- A character that is neither a digit nor a hyphen, and where it stands. -/
  | character (found : Char) (position : Nat)
  /-- A number of groups other than five. -/
  | groupCount (found : Nat)
  /-- A group that is too short or too long. -/
  | groupLength (group expected found : Nat)
deriving DecidableEq

/-- The reason in words. -/
def UuidError.message : UuidError → String
  | .length n => s!"invalid length: found {n}"
  | .character c i => s!"invalid character: found `" ++ c.toString ++ s!"` at {i}"
  | .groupCount n => s!"invalid group count: expected 5, found {n}"
  | .groupLength g e n => s!"invalid group length in group {g}: expected {e}, found {n}"

namespace Uuid

/-- How many digits each group has. -/
def groupSizes : List Nat := [8, 4, 4, 4, 12]

/-- Digits in groups of given sizes, joined by hyphens. -/
def grouped : List Nat → List (Fin 16) → List Char
  | [], _ => []
  | [n], ds => (ds.take n).map hexDigit
  | n :: sizes, ds => (ds.take n).map hexDigit ++ '-' :: grouped sizes (ds.drop n)

/-- The written form. -/
def text (u : Uuid) : String := String.ofList (grouped groupSizes u.digits)

/-- How the part of a text that should hold the digits stands in it. -/
inductive Spelling where
  | bare
  | wrapped
  | hyphenated
deriving DecidableEq

/-- The part of a text that should hold the digits, the octets before it that count for positions,
and how it stands in the text. -/
structure Part where
  chars : List Char
  start : Nat
  spelling : Spelling

/-- The text between braces. -/
def unbraced? (cs : List Char) : Option (List Char) :=
  if cs.head? = some '{' ∧ cs.getLast? = some '}' ∧ 2 ≤ cs.length then some (cs.drop 1).dropLast
  else none

/-- What precedes a UUID in a URN, in letters of either case. -/
def urnMark : List Char := ['u', 'r', 'n', ':', 'u', 'u', 'i', 'd', ':']

/-- Where to look for the digits. A text of the length that the five groups have, alone, in braces
or in a URN, is looked at as these groups. -/
def part (cs : List Char) (octets : Nat) : Part :=
  -- this length is looked at first: nothing of it is taken for braces
  if octets = 36 then ⟨cs, 0, .hyphenated⟩
  else
    match unbraced? cs with
    | some inner => if octets = 38 then ⟨inner, 0, .hyphenated⟩ else ⟨inner, 1, .wrapped⟩
    | none =>
      if (cs.take 9).map Char.toLower ≠ urnMark then ⟨cs, 0, .bare⟩
      else if octets = 45 then ⟨cs.drop 9, 0, .hyphenated⟩
      else ⟨cs.drop 9, 9, .wrapped⟩

/-- The first character that is neither a digit nor a hyphen, and its position in octets. -/
def firstForeign? (position : Nat) : List Char → Option (Char × Nat)
  | [] => none
  | c :: cs =>
    if c = '-' ∨ (hexValue? c).isSome then firstForeign? (position + c.utf8Size) cs
    else some (c, position)

/-- The first group of the wrong size. The last group is told with the `around` octets that stand
around all groups. -/
def firstMisfit? (around group : Nat) : List Nat → List (List Char) → Option UuidError
  | n :: sizes, cs :: groups =>
    if cs.length = n then firstMisfit? around (group + 1) sizes groups
    else some (.groupLength group n (if groups.isEmpty then cs.length + around else cs.length))
  | _, _ => none

/-- The UUID with these digits, which stand in a text of so many octets. -/
def ofDigits (ds : List (Fin 16)) (octets : Nat) : Except UuidError Uuid :=
  if h : ds.length = 32 then .ok ⟨ds, h⟩ else .error (.length octets)

/-- Reads a UUID in one of its four spellings. -/
def parse (s : String) : Except UuidError Uuid :=
  let octets := s.utf8ByteSize
  if octets = 0 ∨ 45 < octets then .error (.length octets)
  else
    let p := part s.toList octets
    match firstForeign? p.start p.chars with
    | some (c, i) => .error (.character c i)
    | none =>
      let groups := p.chars.splitOn '-'
      let ds := p.chars.filterMap hexValue?
      if groups.length = 1 ∧ p.spelling = .bare then ofDigits ds octets
      else if groups.length ≠ 5 then .error (.groupCount groups.length)
      else
        match firstMisfit? (octets - p.chars.length) 0 groupSizes groups with
        | some e => .error e
        -- five groups of the right sizes: there are 32 digits
        | none => ofDigits ds octets

/-- The digit that tells how the identifier was made: 7 for one that begins with the time. -/
def version (u : Uuid) : Fin 16 := u.digits.get ⟨12, by have := u.size; omega⟩

/-- The last digits of a number, so many of them. -/
def numeral : Nat → Nat → List (Fin 16)
  | 0, _ => []
  | k + 1, n => numeral k (n / 16) ++ [lastDigit n]

@[simp]
theorem length_numeral (k n : Nat) : (numeral k n).length = k := by
  induction k generalizing n with
  | zero => rfl
  | succ k ih => simp [numeral, ih]

/-- The identifiers of version 7 in a row: they begin with one time and end in a count. -/
def sequential (time count : Nat) : Uuid where
  digits := numeral 12 time ++ lastDigit 7 :: numeral 3 0 ++ lastDigit 8 :: numeral 15 count
  size := by simp

end Uuid

end Intake
