import Intake.Text.Hex
import Intake.Json.Value

/-!
# The written form of a document

A document is written without blanks, the members of an object in their order. In a string a
quote, a backslash and the characters below U+0020 are escaped and nothing else is: five of these
characters have a short escape, the others are `\u00` and two hexadecimal digits.

* `Tree.chars` is the compact form and `Tree.prettyChars` the form over several lines.
* `Tree.compact` and `Tree.pretty` are the two as texts.
-/

namespace Intake.Json

open Intake.Text (hexDigit lastDigit)

/-- How one character stands in a string. -/
def escape (c : Char) : List Char :=
  if c = '"' then ['\\', '"']
  else if c = '\\' then ['\\', '\\']
  else if c.toNat = 0x08 then ['\\', 'b']
  else if c.toNat = 0x09 then ['\\', 't']
  else if c.toNat = 0x0a then ['\\', 'n']
  else if c.toNat = 0x0c then ['\\', 'f']
  else if c.toNat = 0x0d then ['\\', 'r']
  else if c.toNat < 0x20 then
    ['\\', 'u', '0', '0', hexDigit (lastDigit (c.toNat / 16)),
      hexDigit (lastDigit c.toNat)]
  else [c]

/-- A string between its quotes. -/
def quote (s : String) : List Char :=
  '"' :: s.toList.flatMap escape ++ ['"']

namespace Tree

mutual

/-- A document without blanks. -/
def chars : Tree → List Char
  | .null => ['n', 'u', 'l', 'l']
  | .bool true => ['t', 'r', 'u', 'e']
  | .bool false => ['f', 'a', 'l', 's', 'e']
  | .number n => n.text.toList
  | .text s => quote s
  | .array xs => '[' :: itemsChars true xs ++ [']']
  | .object ms => '{' :: membersChars true ms ++ ['}']

/-- Items with a comma before each one but the first of the array. -/
def itemsChars (first : Bool) : List Tree → List Char
  | [] => []
  | x :: xs => (if first then [] else [',']) ++ x.chars ++ itemsChars false xs

/-- Members with a comma before each one but the first of the object. -/
def membersChars (first : Bool) : List (String × Tree) → List Char
  | [] => []
  | (k, x) :: ms =>
    (if first then [] else [',']) ++ quote k ++ ':' :: x.chars ++ membersChars false ms

end

/-- A new line, indented by two blanks for each level. -/
def newLine (level : Nat) : List Char :=
  '\n' :: List.replicate (2 * level) ' '

mutual

/-- A document over several lines: each item and member on a line of its own, and a blank after the
colon. -/
def prettyChars (level : Nat) : Tree → List Char
  | .array [] => ['[', ']']
  | .array (x :: xs) => '[' :: prettyItems (level + 1) true (x :: xs) ++ newLine level ++ [']']
  | .object [] => ['{', '}']
  | .object (m :: ms) =>
    '{' :: prettyMembers (level + 1) true (m :: ms) ++ newLine level ++ ['}']
  | .null => chars .null
  | .bool b => chars (.bool b)
  | .number n => chars (.number n)
  | .text s => chars (.text s)

/-- Items, each on its line. -/
def prettyItems (level : Nat) (first : Bool) : List Tree → List Char
  | [] => []
  | x :: xs =>
    (if first then [] else [',']) ++ newLine level ++ prettyChars level x
      ++ prettyItems level false xs

/-- Members, each on its line. -/
def prettyMembers (level : Nat) (first : Bool) : List (String × Tree) → List Char
  | [] => []
  | (k, x) :: ms =>
    (if first then [] else [',']) ++ newLine level ++ quote k ++ ':' :: ' ' :: prettyChars level x
      ++ prettyMembers level false ms

end

/-- The compact text of a document. -/
def compact (t : Tree) : String := String.ofList t.chars

/-- The text of a document over several lines. -/
def pretty (t : Tree) : String := String.ofList (prettyChars 0 t)

end Tree

/-- The compact text of a value. -/
def written (j : Json) : String := j.tree.compact

end Intake.Json
