import Intake.Instant.Basic
import Intake.Text.Blank

/-!
# Instants as texts

An instant is written as a date, `T`, a time of day and `Z`, in UTC, with as many decimals of the
second as it takes: none, three, six or nine. A year outside of 0 to 9999 has a sign.

It is read with some freedom: one-digit months, days, hours, minutes and seconds, a small `t` or a
blank between date and time, blanks before numbers, hyphens, colons and the zone, any number of
decimals of which nine count, `UTC` or an offset in the place of `Z`. A second 60 is a leap second.
The readers here take a list of characters and give what is left of it.
-/

namespace Intake.Instant

open Intake.Text (isBlank dropBlanks)

-- one meaning of powers, whatever is imported beside
attribute [local instance (high)] instPowNat

/-! ## Writing -/

/-- The decimal digits of a number, with zeros in front up to a width. -/
def padded (width n : Nat) : List Char :=
  let ds := Nat.toDigits 10 n
  List.replicate (width - ds.length) '0' ++ ds

/-- A year: four digits, or a sign and at least four digits. -/
def yearChars (y : Int) : List Char :=
  if 0 ≤ y ∧ y ≤ 9999 then padded 4 y.toNat
  else (if y < 0 then '-' else '+') :: padded 4 y.natAbs

/-- The decimals of a second: a point and three, six or nine digits, or nothing. -/
def fractionChars (nanos : Nat) : List Char :=
  if nanos = 0 then []
  else if nanos % 1000000 = 0 then '.' :: padded 3 (nanos / 1000000)
  else if nanos % 1000 = 0 then '.' :: padded 6 (nanos / 1000)
  else '.' :: padded 9 nanos

/-- The characters of an instant. -/
def chars (t : Instant) : List Char :=
  let date := Date.ofDays (t.seconds / 86400)
  let second := (t.seconds % 86400).toNat
  let leap := if t.nanos < 1000000000 then 0 else 1
  yearChars date.year ++ '-' :: padded 2 date.month ++ '-' :: padded 2 date.day
    ++ 'T' :: padded 2 (second / 3600) ++ ':' :: padded 2 (second / 60 % 60)
    ++ ':' :: padded 2 (second % 60 + leap) ++ fractionChars (t.nanos % 1000000000) ++ ['Z']

/-- The text of an instant. -/
def text (t : Instant) : String := String.ofList t.chars

/-! ## Reading -/

/-- The value of a decimal digit. -/
def digit? (c : Char) : Option Nat :=
  if '0' ≤ c ∧ c ≤ '9' then some (c.toNat - 48) else none

/-- The number that the digits at the front make, at most so many of them, how many they are, and
the rest. -/
def digitsAt : Nat → List Char → Nat → Nat → Nat × Nat × List Char
  | limit + 1, c :: cs, count, value =>
    match digit? c with
    | some d => digitsAt limit cs (count + 1) (value * 10 + d)
    | none => (value, count, c :: cs)
  | _, cs, count, value => (value, count, cs)

/-- A number of one digit to `limit` digits. -/
def number? (limit : Nat) (cs : List Char) : Option (Nat × List Char) :=
  match digitsAt limit cs 0 0 with
  | (_, 0, _) => none
  | (value, _, rest) => some (value, rest)

/-- A year: up to four digits, or any number of them after a sign. -/
def year? (cs : List Char) : Option (Int × List Char) :=
  match dropBlanks cs with
  | '-' :: rest => (number? rest.length rest).map fun (n, rest) => (-(n : Int), rest)
  | '+' :: rest => (number? rest.length rest).map fun (n, rest) => ((n : Int), rest)
  | cs => (number? 4 cs).map fun (n, rest) => ((n : Int), rest)

/-- A number of one or two digits after blanks. -/
def field? (cs : List Char) : Option (Nat × List Char) := number? 2 (dropBlanks cs)

/-- One character after blanks. -/
def mark? (mark : Char) (cs : List Char) : Option (List Char) :=
  match dropBlanks cs with
  | c :: rest => if c = mark then some rest else none
  | [] => none

/-- The decimals of a second, in nanoseconds. -/
def fraction? : List Char → Option (Nat × List Char)
  | '.' :: cs =>
    match digitsAt 9 cs 0 0 with
    | (_, 0, _) => none
    | (value, count, rest) =>
      some (value * 10 ^ (9 - count), rest.dropWhile fun c => (digit? c).isSome)
  | cs => some (0, cs)

/-- Two digits. -/
def pair? : List Char → Option (Nat × List Char)
  | a :: b :: rest => do
    let x ← digit? a
    let y ← digit? b
    return (x * 10 + y, rest)
  | _ => none

/-- Hours and minutes of an offset, in seconds: colons and blanks may stand between them. -/
def clockOffset? (cs : List Char) : Option (Nat × List Char) := do
  let (hours, cs) ← pair? cs
  let (minutes, cs) ← pair? (cs.dropWhile fun c => c == ':' || isBlank c)
  if minutes < 60 then return (hours * 3600 + minutes * 60, cs) else none

/-- The zone after blanks: `UTC` in any case, `Z`, or a sign and an offset. -/
def zone? (cs : List Char) : Option (Int × List Char) :=
  let cs := dropBlanks cs
  if (cs.take 3).map Char.toLower = ['u', 't', 'c'] then some (0, cs.drop 3)
  else
    match cs with
    | [] => none
    | c :: rest =>
      if c = 'Z' ∨ c = 'z' then some (0, rest)
      else if c = '+' then (clockOffset? rest).map fun (n, rest) => ((n : Int), rest)
      -- the hyphen, or the minus sign proper
      else if c = '-' ∨ c.toNat = 0x2212 then
        (clockOffset? rest).map fun (n, rest) => (-(n : Int), rest)
      else none

/-- A date and the rest. -/
def date? (cs : List Char) : Option (Date × List Char) := do
  let (year, cs) ← year? cs
  let (month, cs) ← field? (← mark? '-' cs)
  let (day, cs) ← field? (← mark? '-' cs)
  return (⟨year, month, day⟩, cs)

/-- A time of day: seconds from midnight, nanoseconds, and the rest. -/
def time? (cs : List Char) : Option ((Nat × Nat) × List Char) := do
  let (hour, cs) ← field? cs
  let (minute, cs) ← field? (← mark? ':' cs)
  let (second, cs) ← field? (← mark? ':' cs)
  let (nanos, cs) ← fraction? cs
  if 23 < hour ∨ 59 < minute ∨ 60 < second then none
  -- the leap second counts on from the second before it
  else if second = 60 then return ((hour * 3600 + minute * 60 + 59, 1000000000 + nanos), cs)
  else return ((hour * 3600 + minute * 60 + second, nanos), cs)

/-- The characters between date and time. -/
def isTimeMark (c : Char) : Bool := c == 'T' || c == 't' || c == ' '

/-- The instant that a text names. Its date must be in range both where the text says and in UTC. -/
def parse? (s : String) : Option Instant := do
  let (date, cs) ← date? s.toList
  match cs with
  | [] => none
  | c :: cs =>
    if !isTimeMark c then none
    else
      let ((second, nanos), cs) ← time? cs
      let (offset, cs) ← zone? cs
      if !date.exists || 86400 ≤ offset.natAbs || !(dropBlanks cs).isEmpty then none
      else
        let here ← ofParts? (date.toDays * 86400 + second) nanos
        here.plusSeconds? (-offset)

end Intake.Instant
