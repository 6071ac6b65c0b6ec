import Intake.Proofs.Json.Depth
import Intake.Proofs.Json.Numerals
import Intake.Proofs.Json.Reading

/-!
# Where the strings of a document stand

Outside of its strings a document without blanks has no question mark and no backslash, and every
quote opens or closes a string (`Json.Scan.run_chars`). So no document ends in a question mark and
another document (`Json.Tree.chars_ne`): the question mark would stand inside of a string, and the
quotes of the second document would close strings where they have to open them.

Different documents have different texts (`Json.Tree.chars_inj`).
-/

namespace Intake.Json

open Intake.Text (AllDigits allDigits_toDigits allDigits_zeros)

/-! ## The characters of a number -/

/-- The characters that numbers are written with. -/
def isNumeralChar (c : Char) : Bool := c.isDigit || c ∈ ['-', '+', '.', 'e']

/-- Characters of numbers and nothing else. -/
def AllNumeral (cs : List Char) : Prop := ∀ c ∈ cs, isNumeralChar c = true

theorem AllNumeral.append {cs ds : List Char} (hc : AllNumeral cs) (hd : AllNumeral ds) :
    AllNumeral (cs ++ ds) := fun c h => (List.mem_append.mp h).elim (hc c) (hd c)

theorem AllNumeral.cons {c : Char} {cs : List Char} (hc : isNumeralChar c = true)
    (hcs : AllNumeral cs) : AllNumeral (c :: cs) := by
  intro d hd
  rcases List.mem_cons.mp hd with rfl | hd
  · exact hc
  · exact hcs d hd

theorem AllNumeral.nil : AllNumeral [] := fun _ hc => absurd hc List.not_mem_nil

theorem AllNumeral.of_digits {cs : List Char} (h : AllDigits cs) : AllNumeral cs := by
  intro c hc
  rw [isNumeralChar, h c hc, Bool.true_or]

namespace Number

theorem allNumeral_sign (negative : Bool) : AllNumeral (if negative then "-" else "").toList := by
  cases negative
  · exact .nil
  · exact .cons rfl .nil

theorem allNumeral_positional (d : Decimal) : AllNumeral (positional d).toList := by
  have hdigits := AllNumeral.of_digits (allDigits_toDigits d.digits)
  have hzeros := fun n => AllNumeral.of_digits (allDigits_zeros n)
  unfold positional
  split
  · rw [String.toList_ofList]
    exact (hdigits.append (hzeros _)).append (.cons rfl (.cons rfl .nil))
  · rw [String.toList_ofList]
    have hpadded := (hzeros ((-d.power).toNat + 1 - (Nat.toDigits 10 d.digits).length)).append hdigits
    refine .append (fun c hc => hpadded c (List.mem_of_mem_take hc)) (.cons rfl fun c hc => ?_)
    exact hpadded c (List.mem_of_mem_drop hc)

theorem allNumeral_scientific (d : Decimal) : AllNumeral (scientific d).toList := by
  have hdigits := AllNumeral.of_digits (allDigits_toDigits d.digits)
  have hfirst : AllNumeral ((Nat.toDigits 10 d.digits).take 1) :=
    fun c hc => hdigits c (List.mem_of_mem_take hc)
  have hfraction : AllNumeral (if (Nat.toDigits 10 d.digits).length ≤ 1 then []
      else '.' :: (Nat.toDigits 10 d.digits).drop 1) := by
    split
    · exact .nil
    · exact .cons rfl fun c hc => hdigits c (List.mem_of_mem_drop hc)
  have hsign : ∀ n : Int, AllNumeral (if 0 ≤ n then "+" else "-").toList := by
    intro n
    split <;> exact .cons rfl .nil
  have hexponent : ∀ n : Nat, AllNumeral (toString n).toList := by
    intro n
    rw [show (toString n).toList = Nat.toDigits 10 n from Nat.toList_repr]
    exact .of_digits (allDigits_toDigits n)
  unfold scientific
  simp only [String.toList_append, String.toList_ofList]
  exact (((hfirst.append hfraction).append (.cons rfl .nil)).append (hsign _)).append (hexponent _)

/-- A number is written with digits, signs, a point and the mark of an exponent. -/
theorem allNumeral_text (n : Number) : AllNumeral n.text.toList := by
  cases n with
  | int n hleast hbelow =>
    rw [text, toList_toString_int]
    exact (allNumeral_sign _).append (.of_digits (allDigits_toDigits _))
  | float x hx =>
    rw [text, floatText]
    dsimp only
    split
    · rw [String.toList_append]
      exact (allNumeral_sign _).append (.cons rfl (.cons rfl (.cons rfl .nil)))
    · rw [String.toList_append]
      refine (allNumeral_sign _).append ?_
      split
      · exact allNumeral_positional _
      · exact allNumeral_scientific _

end Number

/-! ## Scanning for strings -/

/-- What is known of a place in a text if only quotes and backslashes are looked at: it is outside
of strings, inside of one, or behind a backslash inside of one. -/
inductive Scan where
  | outside
  | inside
  | escaped
deriving DecidableEq

namespace Scan

/-- One character more. A backslash or a question mark outside of strings is refused. -/
def step : Scan → Char → Option Scan
  | .outside, c =>
    if c = '"' then some .inside else if c = '\\' ∨ c = '?' then none else some .outside
  | .inside, c =>
    if c = '"' then some .outside else if c = '\\' then some .escaped else some .inside
  | .escaped, _ => some .inside

/-- Where a text leads. -/
def run (s : Scan) (cs : List Char) : Option Scan := cs.foldlM step s

theorem run_append (s : Scan) (cs ds : List Char) :
    s.run (cs ++ ds) = (s.run cs).bind fun t => t.run ds :=
  List.foldlM_append

theorem run_append_of_run {s t : Scan} {cs : List Char} (h : s.run cs = some t) (ds : List Char) :
    s.run (cs ++ ds) = t.run ds := by
  rw [run_append, h]
  rfl

/-- Where characters mean nothing for strings, they leave a text outside of them. -/
theorem run_of_forall {cs : List Char} (h : ∀ c ∈ cs, c ≠ '"' ∧ c ≠ '\\' ∧ c ≠ '?') :
    run .outside cs = some .outside := by
  induction cs with
  | nil => rfl
  | cons c cs ih =>
    obtain ⟨hquote, hback, hmark⟩ := h c (List.mem_cons_self ..)
    have hstep : step .outside c = some .outside := by
      rw [step, if_neg hquote, if_neg (fun h => h.elim hback hmark)]
    rw [run, List.foldlM_cons, hstep]
    exact ih fun d hd => h d (List.mem_cons_of_mem _ hd)

theorem run_number (n : Number) : run .outside n.text.toList = some .outside := by
  refine run_of_forall fun c hc => ?_
  have hnumeral := n.allNumeral_text c hc
  refine ⟨?_, ?_, ?_⟩ <;>
    · rintro rfl
      revert hnumeral
      decide

/-! ## Strings -/

theorem run_hexDigits (m n : Fin 16) :
    run .inside ['\\', 'u', '0', '0', Text.hexDigit m, Text.hexDigit n] = some .inside := by
  have hdigit : ∀ n : Fin 16, step .inside (Text.hexDigit n) = some .inside := by
    decide
  show (step .inside (Text.hexDigit m)).bind (fun s => run s [Text.hexDigit n]) = _
  rw [hdigit m]
  show (step .inside (Text.hexDigit n)).bind some = _
  rw [hdigit n]
  rfl

/-- What stands for a character in a string does not end the string. -/
theorem run_escape (c : Char) : run .inside (escape c) = some .inside := by
  unfold escape
  split
  · rfl
  split
  · rfl
  split
  · rfl
  split
  · rfl
  split
  · rfl
  split
  · rfl
  split
  · rfl
  split
  · exact run_hexDigits _ _
  · rename_i hquote hback _ _ _ _ _ _
    show (step .inside c).bind some = _
    rw [step, if_neg hquote, if_neg hback]
    rfl

theorem run_flatMap_escape (cs : List Char) : run .inside (cs.flatMap escape) = some .inside := by
  induction cs with
  | nil => rfl
  | cons c cs ih => rw [List.flatMap_cons, run_append_of_run (run_escape c), ih]

/-- A string is over at its last quote. -/
theorem run_quote (s : String) : run .outside (quote s) = some .outside := by
  show run .inside (s.toList.flatMap escape ++ ['"']) = _
  rw [run_append_of_run (run_flatMap_escape _)]
  rfl

/-! ## Documents -/

theorem run_comma (first : Bool) :
    run .outside (if first then [] else [',']) = some .outside := by
  cases first <;> rfl

mutual

/-- A document opens and closes its strings, and has neither backslash nor question mark outside of
them. -/
theorem run_chars : (t : Tree) → run .outside t.chars = some .outside
  | .null => rfl
  | .bool true => rfl
  | .bool false => rfl
  | .number n => run_number n
  | .text s => run_quote s
  | .array xs => by
    show run .outside (Tree.itemsChars true xs ++ [']']) = _
    rw [run_append_of_run (run_itemsChars true xs)]
    rfl
  | .object ms => by
    show run .outside (Tree.membersChars true ms ++ ['}']) = _
    rw [run_append_of_run (run_membersChars true ms)]
    rfl

theorem run_itemsChars (first : Bool) : (xs : List Tree) →
    run .outside (Tree.itemsChars first xs) = some .outside
  | [] => rfl
  | x :: xs => by
    rw [Tree.itemsChars, List.append_assoc, run_append_of_run (run_comma first),
      run_append_of_run (run_chars x), run_itemsChars false xs]

theorem run_membersChars (first : Bool) : (ms : List (String × Tree)) →
    run .outside (Tree.membersChars first ms) = some .outside
  | [] => rfl
  | (k, x) :: ms => by
    rw [Tree.membersChars, List.append_assoc, List.append_assoc,
      run_append_of_run (run_comma first), run_append_of_run (run_quote k)]
    show run .outside (x.chars ++ Tree.membersChars false ms) = _
    rw [run_append_of_run (run_chars x), run_membersChars false ms]

end

/-! ## Two ways to scan a text -/

/-- Of two places one is outside of strings and the other one inside. -/
inductive Opposite : Scan → Scan → Prop where
  | outside : Opposite .outside .inside
  | inside : Opposite .inside .outside

/-- A quote takes opposite places to opposite places, a backslash is refused outside of strings, and
nothing else changes anything. -/
theorem Opposite.step {s t s' t' : Scan} {c : Char} (h : Opposite s t)
    (hs : s.step c = some s') (ht : t.step c = some t') : Opposite s' t' := by
  by_cases hquote : c = '"'
  · subst hquote
    cases h <;> cases hs <;> cases ht
    · exact .inside
    · exact .outside
  · by_cases hback : c = '\\'
    · subst hback
      cases h
      · cases hs
      · cases ht
    · have houtside : ∀ {u : Scan}, Scan.outside.step c = some u → u = .outside := by
        intro u hu
        rw [Scan.step, if_neg hquote] at hu
        split at hu
        · cases hu
        · exact (Option.some.inj hu).symm
      have hinside : ∀ {u : Scan}, Scan.inside.step c = some u → u = .inside := by
        intro u hu
        rw [Scan.step, if_neg hquote, if_neg hback] at hu
        exact (Option.some.inj hu).symm
      cases h
      · rw [houtside hs, hinside ht]
        exact .outside
      · rw [hinside hs, houtside ht]
        exact .inside

theorem Opposite.run {s t s' t' : Scan} {cs : List Char} (h : Opposite s t)
    (hs : s.run cs = some s') (ht : t.run cs = some t') : Opposite s' t' := by
  induction cs generalizing s t with
  | nil =>
    cases hs
    cases ht
    exact h
  | cons c cs ih =>
    obtain ⟨u, hu, hs⟩ := Option.bind_eq_some_iff.mp hs
    obtain ⟨v, hv, ht⟩ := Option.bind_eq_some_iff.mp ht
    exact ih (h.step hu hv) hs ht

end Scan

namespace Tree

/-- No document ends in a question mark and a document. -/
theorem chars_ne (t u : Tree) (front : List Char) : t.chars ≠ front ++ '?' :: u.chars := by
  intro heq
  have hwhole := Scan.run_chars t
  rw [heq, Scan.run_append] at hwhole
  obtain ⟨s, -, hrest⟩ := Option.bind_eq_some_iff.mp hwhole
  -- the question mark is inside of a string, and so is the front of the second document
  have hinside : Scan.run .inside u.chars = some .outside := by
    cases s with
    | outside => cases hrest
    | inside => exact hrest
    | escaped => exact hrest
  cases Scan.Opposite.outside.run (Scan.run_chars u) hinside

/-- Different documents have different texts. -/
theorem chars_inj {t u : Tree} (h : t.chars = u.chars) : t = u := by
  have hcompact : t.compact = u.compact := congrArg String.ofList h
  have hreading : Draft.read t.compact.toUTF8 = Draft.read u.compact.toUTF8 := by rw [hcompact]
  rw [Draft.read_compact t.readsBack, Draft.read_compact u.readsBack] at hreading
  have hdraft : Draft.ofTree t = Draft.ofTree u := congrArg Draft.Reading.draft hreading
  have htree := congrArg (Draft.toTree? (max t.depth u.depth)) hdraft
  rw [Draft.toTree?_ofTree, Draft.toTree?_ofTree, if_pos (Nat.le_max_left ..),
    if_pos (Nat.le_max_right ..)] at htree
  exact Option.some.inj htree

/-- A text that ends in a question mark and a document does so in one way only. -/
theorem append_chars_inj {front front' : List Char} {t u : Tree}
    (h : front ++ '?' :: t.chars = front' ++ '?' :: u.chars) : front = front' ∧ t = u := by
  have hfront : ∀ {xs ys : List Char} {t u : Tree}, xs ++ '?' :: t.chars = ys ++ '?' :: u.chars →
      xs.length < ys.length → False := by
    intro xs ys t u h hlt
    obtain ⟨m, hm, hrest⟩ | ⟨m, hm, -⟩ := List.append_eq_append_iff.mp h
    · cases m with
      | nil =>
        rw [hm, List.append_nil] at hlt
        exact absurd hlt (Nat.lt_irrefl _)
      | cons c m => exact t.chars_ne u m (List.cons.inj hrest).2
    · rw [hm, List.length_append] at hlt
      omega
  have hlength : front.length = front'.length := by
    rcases Nat.lt_trichotomy front.length front'.length with hlt | heq | hlt
    · exact (hfront h hlt).elim
    · exact heq
    · exact (hfront h.symm hlt).elim
  obtain ⟨hfirst, hsecond⟩ := List.append_inj h hlength
  exact ⟨hfirst, chars_inj (List.cons.inj hsecond).2⟩

end Tree

end Intake.Json
