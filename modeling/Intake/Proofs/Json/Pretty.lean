import Intake.Proofs.Json.Numerals
import Intake.Proofs.Json.Reading

/-!
# Reading a document over several lines

The lexer passes over the ends of lines and the blanks that stand around the parts of a document
that is written over several lines, and so it is read as if it was written without them
(`Json.Draft.read_pretty`).
-/

namespace Intake

namespace Json

namespace Tree

/-- A new line is no token. -/
theorem run_newLine (level : Nat) (rest : List Text.Symbol) :
    Lexer.run .outside ((newLine level).map some ++ rest) = Lexer.run .outside rest := by
  have hblanks : ∀ n, Lexer.run .outside ((List.replicate n ' ').map some ++ rest)
      = Lexer.run .outside rest := by
    intro n
    induction n with
    | zero => rfl
    | succ n ih => exact ih
  exact hblanks (2 * level)

theorem delimited_newLine (level : Nat) (rest : List Text.Symbol) :
    Lexer.Delimited ((newLine level).map some ++ rest) := .cons (by simp) _

theorem delimited_prettyItems (level : Nat) (xs : List Tree) {rest : List Text.Symbol}
    (h : Lexer.Delimited rest) :
    Lexer.Delimited ((prettyItems level false xs).map some ++ rest) := by
  cases xs with
  | nil => exact h
  | cons x xs => exact .cons (.head _) _

theorem delimited_prettyMembers (level : Nat) (ms : List (String × Tree))
    {rest : List Text.Symbol} (h : Lexer.Delimited rest) :
    Lexer.Delimited ((prettyMembers level false ms).map some ++ rest) := by
  cases ms with
  | nil => exact h
  | cons m ms => exact .cons (.head _) _

mutual

/-- The lexer gives the tokens of a document that was written over several lines. -/
theorem run_prettyChars (level : Nat) : (t : Tree) → ∀ rest, Lexer.Delimited rest →
    Lexer.run .outside ((prettyChars level t).map some ++ rest)
      = t.tokens ++ Lexer.run .outside rest
  | .null, rest, hrest => run_chars .null trivial rest hrest
  | .bool b, rest, hrest => run_chars (.bool b) trivial rest hrest
  | .number n, rest, hrest => run_chars (.number n) n.readsBack rest hrest
  | .text s, rest, hrest => run_chars (.text s) trivial rest hrest
  | .array [], _, _ => rfl
  | .array (x :: xs), rest, _ => by
    have hitems := run_prettyItems (level + 1) (x :: xs) true
      ((newLine level).map some ++ some ']' :: rest) (delimited_newLine _ _)
    rw [prettyChars, tokens]
    simp only [List.map_append, List.map_cons, List.map_nil, List.append_assoc, List.cons_append,
      List.nil_append]
    show [Token.arrayOpen] ++ Lexer.run .outside ((prettyItems (level + 1) true (x :: xs)).map some
      ++ ((newLine level).map some ++ some ']' :: rest)) = _
    rw [hitems, run_newLine]
    rfl
  | .object [], _, _ => rfl
  | .object (m :: ms), rest, _ => by
    have hmembers := run_prettyMembers (level + 1) (m :: ms) true
      ((newLine level).map some ++ some '}' :: rest) (delimited_newLine _ _)
    rw [prettyChars, tokens]
    simp only [List.map_append, List.map_cons, List.map_nil, List.append_assoc, List.cons_append,
      List.nil_append]
    show [Token.objectOpen] ++ Lexer.run .outside
      ((prettyMembers (level + 1) true (m :: ms)).map some
        ++ ((newLine level).map some ++ some '}' :: rest)) = _
    rw [hmembers, run_newLine]
    rfl

theorem run_prettyItems (level : Nat) : (xs : List Tree) → ∀ first rest, Lexer.Delimited rest →
    Lexer.run .outside ((prettyItems level first xs).map some ++ rest)
      = itemsTokens first xs ++ Lexer.run .outside rest
  | [], _, _, _ => rfl
  | x :: xs, first, rest, hrest => by
    have hitem := run_prettyChars level x _ (delimited_prettyItems level xs hrest)
    have hitems := run_prettyItems level xs false rest hrest
    rw [prettyItems, itemsTokens]
    simp only [List.map_append, List.append_assoc]
    rw [run_comma, run_newLine, hitem, hitems]

theorem run_prettyMembers (level : Nat) : (ms : List (String × Tree)) → ∀ first rest,
    Lexer.Delimited rest → Lexer.run .outside ((prettyMembers level first ms).map some ++ rest)
      = membersTokens first ms ++ Lexer.run .outside rest
  | [], _, _, _ => rfl
  | (k, x) :: ms, first, rest, hrest => by
    have hvalue := run_prettyChars level x _ (delimited_prettyMembers level ms hrest)
    have hmembers := run_prettyMembers level ms false rest hrest
    have hcolon : ∀ after, Lexer.run .outside (some ':' :: some ' ' :: after)
        = .colon :: Lexer.run .outside after := fun _ => rfl
    rw [prettyMembers, membersTokens]
    simp only [List.map_append, List.map_cons, List.append_assoc, List.cons_append]
    rw [run_comma, run_newLine, Lexer.run_quote, hcolon, hvalue, hmembers]

end

/-- Cutting the text of a document over several lines gives its tokens. -/
theorem tokens_pretty (t : Tree) : Json.tokens (Text.symbols t.pretty.toUTF8) = t.tokens := by
  have hrun := run_prettyChars 0 t [] (.inl rfl)
  rw [List.append_nil] at hrun
  rw [Text.symbols_toUTF8, pretty, String.toList_ofList, Json.tokens, hrun]
  exact List.append_nil _

end Tree

/-- The draft of a document that was written over several lines is the document. -/
theorem Draft.read_pretty (t : Tree) : read t.pretty.toUTF8 = ⟨ofTree t, true⟩ := by
  rw [read, Tree.tokens_pretty, ofTokens_tokens]

end Json

end Intake
