import Intake.Proofs.Json.Lexing
import Intake.Wire.Format

/-!
# Reading a written document

The draft of a document that was written without blanks is the document itself
(`Json.Draft.read_compact`), and so a value is read from a text as it is read from the document
(`Wire.ofString_encode`). What is left to show of a format is that it reads its own documents.
-/

namespace Intake

namespace Json

namespace Draft

open Builder (place)

/-! ## The machine on the tokens of a document -/

/-- The front of an item is read as that of any value, for no value begins with a closing
bracket. -/
theorem foldl_itemOrClose (t : Tree) (outer : List Frame) (rest : List Token) :
    (t.tokens ++ rest).foldl Builder.step (.itemOrClose outer)
      = (t.tokens ++ rest).foldl Builder.step (.value (.array [] :: outer)) := by
  cases t <;> rfl

mutual

/-- The tokens of a document put its draft where the value belongs. -/
theorem foldl_tokens : (t : Tree) → ∀ outer rest,
    (t.tokens ++ rest).foldl Builder.step (.value outer)
      = rest.foldl Builder.step (place (ofTree t) outer)
  | .null, _, _ => rfl
  | .bool _, _, _ => rfl
  | .number _, _, _ => rfl
  | .text _, _, _ => rfl
  | .array [], _, _ => rfl
  | .array (x :: xs), outer, rest => by
    have hitem := foldl_tokens x (.array [] :: outer)
      (Tree.itemsTokens false xs ++ .arrayClose :: rest)
    have hitems := foldl_itemsTokens xs [ofTree x] outer (.arrayClose :: rest)
    have htokens : (Tree.array (x :: xs)).tokens ++ rest
        = .arrayOpen :: (x.tokens ++ (Tree.itemsTokens false xs ++ .arrayClose :: rest)) := by
      simp [Tree.tokens, Tree.itemsTokens]
    rw [htokens, List.foldl_cons]
    show (x.tokens ++ _).foldl Builder.step (.itemOrClose outer) = _
    rw [foldl_itemOrClose, hitem]
    show (Tree.itemsTokens false xs ++ _).foldl Builder.step (.afterItem [ofTree x] outer) = _
    rw [hitems, List.foldl_cons]
    show rest.foldl Builder.step
      (place (.array ((ofItems xs).reverse ++ [ofTree x]).reverse true) outer) = _
    rw [List.reverse_append, List.reverse_reverse]
    rfl
  | .object [], _, _ => rfl
  | .object ((k, x) :: ms), outer, rest => by
    have hvalue := foldl_tokens x (.object [] (some k) :: outer)
      (Tree.membersTokens false ms ++ .objectClose :: rest)
    have hmembers := foldl_membersTokens ms [(some k, ofTree x)] outer (.objectClose :: rest)
    have htokens : (Tree.object ((k, x) :: ms)).tokens ++ rest = .objectOpen :: .text (some k)
        :: .colon :: (x.tokens ++ (Tree.membersTokens false ms ++ .objectClose :: rest)) := by
      simp [Tree.tokens, Tree.membersTokens]
    rw [htokens, List.foldl_cons, List.foldl_cons, List.foldl_cons]
    show (x.tokens ++ _).foldl Builder.step (.value (.object [] (some k) :: outer)) = _
    rw [hvalue]
    show (Tree.membersTokens false ms ++ _).foldl Builder.step
      (.afterMember [(some k, ofTree x)] outer) = _
    rw [hmembers, List.foldl_cons]
    show rest.foldl Builder.step
      (place (.object ((ofMembers ms).reverse ++ [(some k, ofTree x)]).reverse true) outer) = _
    rw [List.reverse_append, List.reverse_reverse]
    rfl

theorem foldl_itemsTokens : (xs : List Tree) → ∀ items outer rest,
    (Tree.itemsTokens false xs ++ rest).foldl Builder.step (.afterItem items outer)
      = rest.foldl Builder.step (.afterItem ((ofItems xs).reverse ++ items) outer)
  | [], _, _, _ => rfl
  | x :: xs, items, outer, rest => by
    have hitem := foldl_tokens x (.array items :: outer) (Tree.itemsTokens false xs ++ rest)
    have hitems := foldl_itemsTokens xs (ofTree x :: items) outer rest
    show (x.tokens ++ Tree.itemsTokens false xs ++ rest).foldl Builder.step
      (.value (.array items :: outer)) = _
    rw [List.append_assoc, hitem]
    show (Tree.itemsTokens false xs ++ rest).foldl Builder.step
      (.afterItem (ofTree x :: items) outer)
      = _
    rw [hitems, ofItems, List.reverse_cons, List.append_assoc]
    rfl

theorem foldl_membersTokens : (ms : List (String × Tree)) → ∀ members outer rest,
    (Tree.membersTokens false ms ++ rest).foldl Builder.step (.afterMember members outer)
      = rest.foldl Builder.step (.afterMember ((ofMembers ms).reverse ++ members) outer)
  | [], _, _, _ => rfl
  | (k, x) :: ms, members, outer, rest => by
    have hvalue := foldl_tokens x (.object members (some k) :: outer)
      (Tree.membersTokens false ms ++ rest)
    have hmembers := foldl_membersTokens ms ((some k, ofTree x) :: members) outer rest
    show (x.tokens ++ Tree.membersTokens false ms ++ rest).foldl Builder.step
      (.value (.object members (some k) :: outer)) = _
    rw [List.append_assoc, hvalue]
    show (Tree.membersTokens false ms ++ rest).foldl Builder.step
      (.afterMember ((some k, ofTree x) :: members) outer) = _
    rw [hmembers, ofMembers, List.reverse_cons, List.append_assoc]
    rfl

end

/-- The tokens of a document are read as the document. -/
theorem ofTokens_tokens (t : Tree) : ofTokens t.tokens = ⟨ofTree t, true⟩ := by
  have hfold := foldl_tokens t [] []
  rw [List.append_nil] at hfold
  rw [ofTokens, hfold]
  rfl

/-- The draft of a document that was written without blanks is the document. -/
theorem read_compact {t : Tree} (ht : t.ReadsBack) :
    read t.compact.toUTF8 = ⟨ofTree t, true⟩ := by
  rw [read, Tree.tokens_compact ht, ofTokens_tokens]

/-- The draft of a text is that of its characters. -/
theorem read_ofList (cs : List Char) :
    read (String.ofList cs).toUTF8 = ofTokens (tokens (cs.map some)) := by
  rw [read, Text.symbols_toUTF8, String.toList_ofList]

end Draft

end Json

open Json (Draft)

namespace Wire

variable {α : Type}

/-- A value is read from octets as it is read from the document that the octets are. -/
theorem ofBytes_of_read (w : Wire α) {bytes : ByteArray} {t : Json.Tree}
    (h : Draft.read bytes = ⟨.ofTree t, true⟩) :
    w.ofBytes bytes = w.read Json.maxDepth (.ofTree t) := by
  rw [ofBytes, h]
  show (w.read _ _ >>= fun b => if true = true then pure b else throw .malformed) = _
  cases w.read Json.maxDepth (.ofTree t) <;> rfl

/-- Octets from which a value is read are one document, and the value is read from its draft. -/
theorem read_of_ofBytes {w : Wire α} {bytes : ByteArray} {a : α} (h : w.ofBytes bytes = .ok a) :
    (Draft.read bytes).ended = true ∧ w.read Json.maxDepth (Draft.read bytes).draft = .ok a := by
  replace h : (do
    let b ← w.read Json.maxDepth (Draft.read bytes).draft
    if (Draft.read bytes).ended then return b else throw .malformed) = Except.ok a := h
  cases hread : w.read Json.maxDepth (Draft.read bytes).draft with
  | error e =>
    rw [hread] at h
    cases h
  | ok b =>
    cases hended : (Draft.read bytes).ended with
    | false =>
      rw [hread, hended] at h
      cases h
    | true =>
      rw [hread, hended] at h
      cases h
      exact ⟨rfl, rfl⟩

/-- A value is read from its text as it is read from its document. -/
theorem ofString_encode (w : Wire α) {a : α} (h : (w.write a).ReadsBack) :
    w.ofString (w.encode a) = w.read Json.maxDepth (.ofTree (w.write a)) :=
  w.ofBytes_of_read (Draft.read_compact h)

end Wire

end Intake
