import Intake.Text.Hex
import Intake.Text.Utf8
import Intake.Json.Number

/-!
# Tokens

The reader of JSON first cuts the symbols of a text into tokens, one symbol at a time. A text that
breaks off inside a token, or has something that starts no token, gives the token `bad` at that
place and none after it.

A string token has no text if what stands between its quotes is none: it has a stray in it, or half
of a surrogate pair. A number token has no number if the numeral is beyond the doubles. Such tokens
have their place in a document all the same; only who asks for the text or the number is refused.
-/

namespace Intake.Json

open Intake.Text (Symbol hexValue?)

/-- The tokens of JSON. -/
inductive Token where
  | arrayOpen
  | arrayClose
  | objectOpen
  | objectClose
  | comma
  | colon
  | null
  | bool (value : Bool)
  | number (value : Option Number)
  | text (value : Option String)
  | bad

namespace Lexer

/-- Which part of a numeral was read last. -/
inductive Part where
  | sign
  | zero
  | whole
  | point
  | places
  | mark
  | markSign
  | exponent
deriving DecidableEq

/-- Whether a numeral may end after this part. -/
def Part.isFinal : Part → Bool
  | .zero | .whole | .places | .exponent => true
  | .sign | .point | .mark | .markSign => false

/-- A string of which the front was read: its characters backwards, the first half of a surrogate
pair that still waits for the other one, and whether all was sound so far. -/
structure Partial where
  reversed : List Char := []
  waiting : Option Nat := none
  sound : Bool := true

/-- What the lexer is inside of. -/
inductive State where
  | outside
  | word (rest : List Char) (token : Token)
  | numeral (part : Part) (numeral : Numeral)
  | string (done : Partial)
  | escaped (done : Partial)
  | unicode (done : Partial) (owed : Nat) (value : Nat)
  | stopped

/-- The string with one more symbol that stands for itself. -/
def Partial.push (p : Partial) (s : Symbol) : Partial :=
  match s with
  | some c => { reversed := c :: p.reversed, sound := p.sound && p.waiting.isNone }
  | none => { reversed := p.reversed, sound := false }

/-- The string with one more unit of sixteen bits that was given by its number. -/
def Partial.pushUnit (p : Partial) (unit : Nat) : Partial :=
  match p.waiting with
  | some high =>
    if 0xdc00 ≤ unit ∧ unit ≤ 0xdfff then
      { reversed := Char.ofNat (0x10000 + (high - 0xd800) * 0x400 + (unit - 0xdc00)) :: p.reversed
        sound := p.sound }
    else { reversed := p.reversed, sound := false }
  | none =>
    if 0xd800 ≤ unit ∧ unit ≤ 0xdbff then { p with waiting := some unit }
    else if 0xdc00 ≤ unit ∧ unit ≤ 0xdfff then { reversed := p.reversed, sound := false }
    else { reversed := Char.ofNat unit :: p.reversed, sound := p.sound }

/-- The token of a string that has ended. -/
def Partial.token (p : Partial) : Token :=
  if p.sound ∧ p.waiting.isNone then .text (some (String.ofList p.reversed.reverse)) else .text none

/-- The character that an escape of one letter stands for. -/
def shortEscape? : Char → Option Char
  | '"' => some '"'
  | '\\' => some '\\'
  | '/' => some '/'
  | 'b' => some (Char.ofNat 0x08)
  | 'f' => some (Char.ofNat 0x0c)
  | 'n' => some '\n'
  | 'r' => some '\r'
  | 't' => some '\t'
  | _ => none

/-- The value of a decimal digit. -/
def digitValue? (c : Char) : Option Nat :=
  if '0' ≤ c ∧ c ≤ '9' then some (c.toNat - 48) else none

/-- A numeral that goes on with this character. -/
def continueNumeral? (part : Part) (n : Numeral) (c : Char) : Option (Part × Numeral) :=
  match part, digitValue? c with
  -- a zero at the front is the whole part by itself
  | .sign, some 0 => some (.zero, n)
  | .sign, some d | .whole, some d => some (.whole, { n with mantissa := n.mantissa * 10 + d })
  | .point, some d | .places, some d =>
    some (.places, { n with mantissa := n.mantissa * 10 + d, places := n.places + 1 })
  | .mark, some d | .markSign, some d | .exponent, some d =>
    some (.exponent, { n with exponent := n.exponent * 10 + d })
  | .zero, none | .whole, none =>
    if c = '.' then some (.point, { n with plain := false })
    else if c = 'e' ∨ c = 'E' then some (.mark, { n with plain := false })
    else none
  | .places, none => if c = 'e' ∨ c = 'E' then some (.mark, n) else none
  | .mark, none =>
    if c = '+' then some (.markSign, n)
    else if c = '-' then some (.markSign, { n with exponentNegative := true })
    else none
  | _, _ => none

/-- Whether a numeral that does not go on with this character may end before it: after a zero at the
front no digit may follow. -/
def endsBefore (part : Part) (c : Char) : Bool :=
  part.isFinal && !(part == .zero && (digitValue? c).isSome)

/-- The blanks of JSON. -/
def isSpace (c : Char) : Bool :=
  c = ' ' || c = '\t' || c = '\n' || c = '\r'

/-- One symbol outside of a token. -/
def stepOutside (c : Char) : List Token × State :=
  if isSpace c then ([], .outside)
  else
    match c with
    | '[' => ([.arrayOpen], .outside)
    | ']' => ([.arrayClose], .outside)
    | '{' => ([.objectOpen], .outside)
    | '}' => ([.objectClose], .outside)
    | ',' => ([.comma], .outside)
    | ':' => ([.colon], .outside)
    | 'n' => ([], .word ['u', 'l', 'l'] .null)
    | 't' => ([], .word ['r', 'u', 'e'] (.bool true))
    | 'f' => ([], .word ['a', 'l', 's', 'e'] (.bool false))
    | '"' => ([], .string {})
    | '-' => ([], .numeral .sign { negative := true })
    | c =>
      match continueNumeral? .sign {} c with
      | some (part, n) => ([], .numeral part n)
      | none => ([.bad], .stopped)

/-- One symbol more: the tokens that are complete with it, and what the lexer is inside of then. -/
def step : State → Symbol → List Token × State
  | .outside, some c => stepOutside c
  | .outside, none => ([.bad], .stopped)
  | .word (r :: rest) token, s =>
    if s = some r then if rest.isEmpty then ([token], .outside) else ([], .word rest token)
    else ([.bad], .stopped)
  -- not reached: a word is left as soon as its last letter was read
  | .word [] token, _ => ([token, .bad], .stopped)
  | .numeral part n, none =>
    if part.isFinal then ([.number (Number.ofNumeral? n), .bad], .stopped) else ([.bad], .stopped)
  | .numeral part n, some c =>
    match continueNumeral? part n c with
    | some (part', n') => ([], .numeral part' n')
    | none =>
      -- the symbol that ends a numeral is the first one after it
      if endsBefore part c then
        let (tokens, next) := stepOutside c
        (.number (Number.ofNumeral? n) :: tokens, next)
      else ([.bad], .stopped)
  | .string p, s =>
    match s with
    | some '"' => ([p.token], .outside)
    | some '\\' => ([], .escaped p)
    | some c => if c.toNat < 0x20 then ([.bad], .stopped) else ([], .string (p.push s))
    | none => ([], .string (p.push none))
  | .escaped p, s =>
    match s with
    | some 'u' => ([], .unicode p 4 0)
    | some c =>
      match shortEscape? c with
      | some e => ([], .string (p.push (some e)))
      | none => ([.bad], .stopped)
    | none => ([.bad], .stopped)
  | .unicode p owed value, s =>
    match s.bind hexValue? with
    | some d =>
      if owed ≤ 1 then ([], .string (p.pushUnit (value * 16 + d)))
      else ([], .unicode p (owed - 1) (value * 16 + d))
    | none => ([.bad], .stopped)
  | .stopped, _ => ([], .stopped)

/-- The token that the end of the text completes. -/
def finish : State → List Token
  | .outside | .stopped => []
  | .numeral part n => if part.isFinal then [.number (Number.ofNumeral? n)] else [.bad]
  | _ => [.bad]

/-- The tokens of the rest of a text. -/
def run : State → List Symbol → List Token
  | state, [] => finish state
  | state, s :: rest =>
    let (tokens, next) := step state s
    tokens ++ run next rest

end Lexer

/-- The tokens of a text. -/
def tokens (symbols : List Symbol) : List Token := Lexer.run .outside symbols

end Intake.Json
