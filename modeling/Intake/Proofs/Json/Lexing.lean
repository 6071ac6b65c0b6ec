import Intake.Json.Draft
import Intake.Json.Written

/-!
# Cutting a written document into tokens

The lexer gives back the tokens of every document that was written without blanks
(`Json.run_chars`): each string is one token with its text, whatever characters it has, and what
stands between the tokens is passed over.

Of the numbers of the document this asks one thing, `Json.Number.ReadsBack`: their text is one
numeral, and the number nearest to that numeral is the number that was written.
-/

namespace Intake.Json

open Intake.Text (Symbol hexValue?_hexDigit)

namespace Lexer

/-! ## The lexer in the middle of a text -/

theorem run_cons (state : State) (s : Symbol) (rest : List Symbol) :
    run state (s :: rest) = (step state s).1 ++ run (step state s).2 rest := rfl

/-- The tokens that some symbols complete, and what the lexer is inside of after them. -/
def feed : State → List Symbol → List Token × State
  | state, [] => ([], state)
  | state, s :: rest =>
    ((step state s).1 ++ (feed (step state s).2 rest).1, (feed (step state s).2 rest).2)

theorem run_append (state : State) (front rest : List Symbol) :
    run state (front ++ rest) = (feed state front).1 ++ run (feed state front).2 rest := by
  induction front generalizing state with
  | nil => rfl
  | cons s front ih => rw [List.cons_append, run_cons, feed, ih, List.append_assoc]

theorem feed_append (state : State) (front rest : List Symbol) :
    feed state (front ++ rest) =
      ((feed state front).1 ++ (feed (feed state front).2 rest).1,
        (feed (feed state front).2 rest).2) := by
  induction front generalizing state with
  | nil => rfl
  | cons s front ih => rw [List.cons_append, feed, feed, ih, List.append_assoc]

/-! ## Strings -/

/-- A string that was read without a fault so far. -/
def Partial.clean (reversed : List Char) : Partial := { reversed }

theorem eq_ofNat_of_toNat {c : Char} {n : Nat} (h : c.toNat = n) : c = Char.ofNat n := by
  rw [← h, Char.ofNat_toNat]

theorem step_unicode (p : Partial) (owed value : Nat) (d : Fin 16) :
    step (.unicode p owed value) (some (Text.hexDigit d)) =
      if owed ≤ 1 then ([], .string (p.pushUnit (value * 16 + d)))
      else ([], .unicode p (owed - 1) (value * 16 + d)) := by
  simp only [step, Option.bind_some, hexValue?_hexDigit]

/-- A control character is read from the four hexadecimal digits of its number. -/
theorem feed_unicode (reversed : List Char) {n : Nat} (h : n < 0x20) :
    feed (.string (.clean reversed)) (['\\', 'u', '0', '0', Text.hexDigit (Text.lastDigit (n / 16)),
        Text.hexDigit (Text.lastDigit n)].map some)
      = ([], .string (.clean (Char.ofNat n :: reversed))) := by
  have hzero : '0' = Text.hexDigit 0 := rfl
  have hvalue : n / 16 % 16 * 16 + n % 16 = n := by omega
  have hopen : feed (.string (.clean reversed)) [some '\\', some 'u']
      = ([], .unicode (.clean reversed) 4 0) := rfl
  have hunit : (Partial.clean reversed).pushUnit n = .clean (Char.ofNat n :: reversed) := by
    simp only [Partial.clean, Partial.pushUnit]
    rw [if_neg (by omega), if_neg (by omega)]
  show feed (.string (.clean reversed)) ([some '\\', some 'u'] ++ [some '0', some '0',
    some (Text.hexDigit (Text.lastDigit (n / 16))), some (Text.hexDigit (Text.lastDigit n))]) = _
  rw [feed_append, hopen, hzero]
  simp [feed, step_unicode, hvalue, hunit]

/-- An escaped character is read as that character. -/
theorem feed_escape (reversed : List Char) (c : Char) :
    feed (.string (.clean reversed)) ((escape c).map some)
      = ([], .string (.clean (c :: reversed))) := by
  unfold escape
  split
  · obtain rfl := ‹c = _›
    rfl
  split
  · obtain rfl := ‹c = _›
    rfl
  split
  · obtain rfl := eq_ofNat_of_toNat ‹_›
    rfl
  split
  · obtain rfl := eq_ofNat_of_toNat ‹_›
    rfl
  split
  · obtain rfl := eq_ofNat_of_toNat ‹_›
    rfl
  split
  · obtain rfl := eq_ofNat_of_toNat ‹_›
    rfl
  split
  · obtain rfl := eq_ofNat_of_toNat ‹_›
    rfl
  split
  · -- four hexadecimal digits, the first two of them zeros
    rename_i hlow
    rw [feed_unicode reversed hlow, Char.ofNat_toNat]
  · -- a character that stands for itself
    rename_i hlow
    have hstep : step (.string (.clean reversed)) (some c)
        = ([], .string (.clean (c :: reversed))) := by
      simp [step, hlow, Partial.push, Partial.clean]
    rw [List.map_cons, List.map_nil, feed, feed, hstep]
    rfl

theorem feed_flatMap_escape (reversed cs : List Char) :
    feed (.string (.clean reversed)) ((cs.flatMap escape).map some)
      = ([], .string (.clean (cs.reverse ++ reversed))) := by
  induction cs generalizing reversed with
  | nil => rfl
  | cons c cs ih =>
    rw [List.flatMap_cons, List.map_append, feed_append, feed_escape, ih, List.reverse_cons,
      List.append_assoc]
    rfl

/-- A string between its quotes is one token, whatever follows it. -/
theorem run_quote (s : String) (rest : List Symbol) :
    run .outside ((quote s).map some ++ rest) = .text (some s) :: run .outside rest := by
  have hbody : feed .outside ((quote s).map some) = ([.text (some s)], .outside) := by
    have hclose : feed (.string (.clean s.toList.reverse)) [some '"']
        = ([.text (some s)], .outside) := by
      show ([Partial.token (.clean s.toList.reverse)] ++ [], State.outside) = _
      simp [Partial.token, Partial.clean]
    show feed (.string (.clean [])) ((s.toList.flatMap escape ++ ['"']).map some) = _
    rw [List.map_append, feed_append, feed_flatMap_escape, List.append_nil]
    show ([] ++ (feed (.string (.clean s.toList.reverse)) [some '"']).1,
      (feed (.string (.clean s.toList.reverse)) [some '"']).2) = _
    rw [hclose]
    rfl
  rw [run_append, hbody]
  rfl

/-! ## Numbers -/

/-- What may stand after a value: the end of the text, or a character that no numeral goes on
with. -/
def Delimited (rest : List Symbol) : Prop :=
  rest = [] ∨ ∃ c after, rest = some c :: after ∧ c ∈ [',', ']', '}', '\n']

theorem Delimited.cons {c : Char} (h : c ∈ [',', ']', '}', '\n']) (after : List Symbol) :
    Delimited (some c :: after) := .inr ⟨c, after, rfl, h⟩

/-- A numeral that may end is one token if a delimiter follows it. -/
theorem run_numeral {part : Part} (hfinal : part.isFinal = true) (n : Numeral)
    {rest : List Symbol} (h : Delimited rest) :
    run (.numeral part n) rest = .number (Number.ofNumeral? n) :: run .outside rest := by
  rcases h with rfl | ⟨c, after, rfl, hc⟩
  · simp [run, finish, hfinal]
  · have hdigit : digitValue? c = none := by
      simp only [List.mem_cons, List.not_mem_nil, or_false] at hc
      rcases hc with rfl | rfl | rfl | rfl <;> rfl
    have hcontinue : continueNumeral? part n c = none := by
      simp only [List.mem_cons, List.not_mem_nil, or_false] at hc
      rcases hc with rfl | rfl | rfl | rfl <;> cases part <;> rfl
    have hends : endsBefore part c = true := by
      simp [endsBefore, hfinal, hdigit]
    have hstep : step (.numeral part n) (some c)
        = (.number (Number.ofNumeral? n) :: (stepOutside c).1, (stepOutside c).2) := by
      simp only [step, hcontinue, hends, if_true]
    rw [run_cons, run_cons, hstep]
    rfl

end Lexer

/-- The text of a number is one numeral, and stands for that number. -/
def Number.ReadsBack (n : Number) : Prop :=
  ∃ part numeral, Lexer.feed .outside (n.text.toList.map some) = ([], .numeral part numeral)
    ∧ part.isFinal = true ∧ Number.ofNumeral? numeral = some n

/-- A number that reads back is one token. -/
theorem Lexer.run_number {n : Number} (hn : n.ReadsBack) {rest : List Symbol}
    (h : Delimited rest) :
    run .outside (n.text.toList.map some ++ rest) = .number (some n) :: run .outside rest := by
  obtain ⟨part, numeral, hfeed, hfinal, hvalue⟩ := hn
  rw [run_append, hfeed, run_numeral hfinal numeral h, hvalue]
  rfl

/-! ## Documents -/

namespace Tree

mutual

/-- Every number of a document reads back. -/
def ReadsBack : Tree → Prop
  | .number n => n.ReadsBack
  | .array xs => ItemsReadBack xs
  | .object ms => MembersReadBack ms
  | _ => True

/-- Every number in some items reads back. -/
def ItemsReadBack : List Tree → Prop
  | [] => True
  | x :: xs => x.ReadsBack ∧ ItemsReadBack xs

/-- Every number in some members reads back. -/
def MembersReadBack : List (String × Tree) → Prop
  | [] => True
  | (_, x) :: ms => x.ReadsBack ∧ MembersReadBack ms

end

mutual

/-- The tokens of a document. -/
def tokens : Tree → List Token
  | .null => [.null]
  | .bool b => [.bool b]
  | .number n => [.number (some n)]
  | .text s => [.text (some s)]
  | .array xs => .arrayOpen :: itemsTokens true xs ++ [.arrayClose]
  | .object ms => .objectOpen :: membersTokens true ms ++ [.objectClose]

/-- The tokens of items, with a comma before each one but the first of the array. -/
def itemsTokens (first : Bool) : List Tree → List Token
  | [] => []
  | x :: xs => (if first then [] else [.comma]) ++ x.tokens ++ itemsTokens false xs

/-- The tokens of members, with a comma before each one but the first of the object. -/
def membersTokens (first : Bool) : List (String × Tree) → List Token
  | [] => []
  | (k, x) :: ms =>
    (if first then [] else [.comma]) ++ .text (some k) :: .colon :: x.tokens
      ++ membersTokens false ms

end

/-- After the items of an array, and between them, stands what delimits a value. -/
theorem delimited_itemsChars (xs : List Tree) {rest : List Symbol} (h : Lexer.Delimited rest) :
    Lexer.Delimited ((itemsChars false xs).map some ++ rest) := by
  cases xs with
  | nil => exact h
  | cons x xs => exact .cons (.head _) _

theorem delimited_membersChars (ms : List (String × Tree)) {rest : List Symbol}
    (h : Lexer.Delimited rest) : Lexer.Delimited ((membersChars false ms).map some ++ rest) := by
  cases ms with
  | nil => exact h
  | cons m ms => exact .cons (.head _) _

theorem run_comma (first : Bool) (rest : List Symbol) :
    Lexer.run .outside ((if first then [] else [',']).map some ++ rest)
      = (if first then [] else [.comma]) ++ Lexer.run .outside rest := by
  cases first <;> rfl

mutual

/-- The lexer gives the tokens of a document that was written without blanks. -/
theorem run_chars : (t : Tree) → t.ReadsBack → ∀ rest, Lexer.Delimited rest →
    Lexer.run .outside (t.chars.map some ++ rest) = t.tokens ++ Lexer.run .outside rest
  | .null, _, _, _ => rfl
  | .bool true, _, _, _ => rfl
  | .bool false, _, _, _ => rfl
  | .number _, hn, _, hrest => Lexer.run_number hn hrest
  | .text s, _, rest, _ => Lexer.run_quote s rest
  | .array xs, hxs, rest, _ => by
    have hitems := run_itemsChars xs hxs true (some ']' :: rest) (.cons (by simp) _)
    rw [chars, tokens, List.map_append, List.append_assoc, List.append_assoc]
    show [Token.arrayOpen] ++ Lexer.run .outside ((itemsChars true xs).map some ++ some ']' :: rest)
      = _
    rw [hitems]
    rfl
  | .object ms, hms, rest, _ => by
    have hmembers := run_membersChars ms hms true (some '}' :: rest) (.cons (by simp) _)
    rw [chars, tokens, List.map_append, List.append_assoc, List.append_assoc]
    show [Token.objectOpen]
      ++ Lexer.run .outside ((membersChars true ms).map some ++ some '}' :: rest) = _
    rw [hmembers]
    rfl

theorem run_itemsChars : (xs : List Tree) → ItemsReadBack xs → ∀ first rest,
    Lexer.Delimited rest → Lexer.run .outside ((itemsChars first xs).map some ++ rest)
      = itemsTokens first xs ++ Lexer.run .outside rest
  | [], _, _, _, _ => rfl
  | x :: xs, hxs, first, rest, hrest => by
    have hitem := run_chars x hxs.1 _ (delimited_itemsChars xs hrest)
    have hitems := run_itemsChars xs hxs.2 false rest hrest
    rw [itemsChars, itemsTokens, List.map_append, List.map_append, List.append_assoc,
      List.append_assoc, run_comma, hitem, hitems, List.append_assoc, List.append_assoc]

theorem run_membersChars : (ms : List (String × Tree)) → MembersReadBack ms → ∀ first rest,
    Lexer.Delimited rest → Lexer.run .outside ((membersChars first ms).map some ++ rest)
      = membersTokens first ms ++ Lexer.run .outside rest
  | [], _, _, _, _ => rfl
  | (k, x) :: ms, hms, first, rest, hrest => by
    have hvalue := run_chars x hms.1 _ (delimited_membersChars ms hrest)
    have hmembers := run_membersChars ms hms.2 false rest hrest
    have hcolon : ∀ after, Lexer.run .outside (some ':' :: after)
        = .colon :: Lexer.run .outside after := fun _ => rfl
    rw [membersChars, membersTokens]
    simp only [List.map_append, List.map_cons, List.append_assoc, List.cons_append]
    rw [run_comma, Lexer.run_quote, hcolon, hvalue, hmembers]

end

/-- Cutting the text of a document gives its tokens. -/
theorem tokens_compact {t : Tree} (ht : t.ReadsBack) :
    Json.tokens (Text.symbols t.compact.toUTF8) = t.tokens := by
  rw [Text.symbols_toUTF8, compact, String.toList_ofList, Json.tokens,
    ← List.append_nil (t.chars.map some), run_chars t ht [] (.inl rfl)]
  exact List.append_nil _

end Tree

end Intake.Json
