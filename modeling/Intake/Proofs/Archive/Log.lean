import Intake.Archive.Directory
import Intake.Proofs.Json.Reading

/-!
# The log of responses

The log of some responses is their lines one after the other (`ResponseLog.ofList`). Reading it
gives back the responses by their keys, the first one under each key (`ResponseLog.read_ofList`),
whatever texts the keys and bodies are: a control character in them is written as an escape, and so
the only line end in a line is the one at its end.
-/

namespace Intake

open Intake.Json (Tree Draft)

namespace LoggedResponse

/-- A response is read back from its document. -/
theorem ofString_encode (r : LoggedResponse) : wire.ofString (wire.encode r) = .ok r := by
  have hread : (wire.write r).ReadsBack := ⟨trivial, trivial, trivial⟩
  rw [Wire.ofString_encode wire hread]
  rfl

end LoggedResponse

namespace Json

theorem le_hexDigit : ∀ n : Fin 16, 0x20 ≤ (Text.hexDigit n).toNat := by
  decide

/-- No control character stands in an escaped one. -/
theorem le_of_mem_escape {c d : Char} (h : d ∈ escape c) : 0x20 ≤ d.toNat := by
  have hshort : ∀ e : Char, 0x20 ≤ e.toNat → d ∈ ['\\', e] → 0x20 ≤ d.toNat := by
    intro e he hd
    simp only [List.mem_cons, List.not_mem_nil, or_false] at hd
    rcases hd with rfl | rfl
    · decide
    · exact he
  unfold escape at h
  split at h
  · exact hshort _ (by decide) h
  split at h
  · exact hshort _ (by decide) h
  split at h
  · exact hshort _ (by decide) h
  split at h
  · exact hshort _ (by decide) h
  split at h
  · exact hshort _ (by decide) h
  split at h
  · exact hshort _ (by decide) h
  split at h
  · exact hshort _ (by decide) h
  split at h
  · simp only [List.mem_cons, List.not_mem_nil, or_false] at h
    rcases h with rfl | rfl | rfl | rfl | rfl | rfl
    · decide
    · decide
    · decide
    · decide
    · exact le_hexDigit _
    · exact le_hexDigit _
  · rw [List.mem_singleton] at h
    rw [h]
    omega

theorem le_of_mem_quote {s : String} {c : Char} (h : c ∈ quote s) : 0x20 ≤ c.toNat := by
  simp only [quote, List.cons_append, List.mem_cons, List.mem_append, List.mem_flatMap,
    List.not_mem_nil, or_false] at h
  rcases h with rfl | ⟨d, -, hd⟩ | rfl
  · decide
  · exact le_of_mem_escape hd
  · decide

end Json

namespace LoggedResponse

theorem toList_encode (r : LoggedResponse) :
    (wire.encode r).toList = '{' :: (Json.quote "key" ++ ':' :: Json.quote r.key
      ++ (',' :: Json.quote "body" ++ ':' :: Json.quote r.body)) ++ ['}'] := by
  rw [Wire.encode, Tree.compact, String.toList_ofList]
  show Tree.chars (.object [("key", .text r.key), ("body", .text r.body)]) = _
  simp [Tree.chars, Tree.membersChars]

theorem isEmpty_encode (r : LoggedResponse) : (wire.encode r).isEmpty = false := by
  rw [Bool.eq_false_iff]
  intro h
  have hempty := congrArg String.toList (String.isEmpty_iff.mp h)
  rw [toList_encode] at hempty
  cases hempty

/-- No control character stands in the document of a response. -/
theorem le_of_mem_encode {r : LoggedResponse} {c : Char} (h : c ∈ (wire.encode r).toList) :
    0x20 ≤ c.toNat := by
  rw [toList_encode] at h
  simp only [List.mem_cons, List.mem_append, List.not_mem_nil, or_false] at h
  rcases h with (rfl | (h | rfl | h) | (rfl | h) | rfl | h) | rfl
  · decide
  · exact Json.le_of_mem_quote h
  · decide
  · exact Json.le_of_mem_quote h
  · decide
  · exact Json.le_of_mem_quote h
  · decide
  · exact Json.le_of_mem_quote h
  · decide

end LoggedResponse

namespace ResponseLog

/-! ## Lines -/

/-- A line without control characters is found again before what follows its end. -/
theorem linesFrom_append (line : List UInt8) (hline : ∀ b ∈ line, 0x20 ≤ b.toNat)
    (rest : List UInt8) (reversed : List UInt8) (hreversed : ∀ b ∈ reversed, 0x20 ≤ b.toNat) :
    linesFrom reversed (line ++ 10 :: rest) = (reversed.reverse ++ line) :: linesFrom [] rest := by
  induction line generalizing reversed with
  | nil =>
    cases reversed with
    | nil => rfl
    | cons b front =>
      have hb : b ≠ 13 := by
        rintro rfl
        exact absurd (hreversed 13 (.head _)) (by decide)
      simp [linesFrom, hb]
  | cons b line ih =>
    have hb : b ≠ 10 := by
      rintro rfl
      exact absurd (hline 10 (.head _)) (by decide)
    have hpushed : ∀ x ∈ b :: reversed, 0x20 ≤ x.toNat := by
      intro x hx
      rcases List.mem_cons.mp hx with rfl | hx
      · exact hline x (.head _)
      · exact hreversed x hx
    have hstep : linesFrom reversed (b :: (line ++ 10 :: rest))
        = linesFrom (b :: reversed) (line ++ 10 :: rest) := by
      rw [linesFrom]
      exact hb
    rw [List.cons_append, hstep, ih (fun x hx => hline x (.tail _ hx)) _ hpushed]
    simp

/-- The octets of a response, without the end of the line. -/
def octets (r : LoggedResponse) : List UInt8 := (LoggedResponse.wire.encode r).toUTF8.data.toList

theorem toList_line (r : LoggedResponse) : (line r).data.toList = octets r ++ [10] := by
  rw [line, Text.toList_toUTF8, String.toList_append, List.flatMap_append, octets,
    Text.toList_toUTF8]
  rfl

theorem le_of_mem_octets {r : LoggedResponse} {b : UInt8} (h : b ∈ octets r) : 0x20 ≤ b.toNat :=
  Text.le_of_mem_toUTF8 (by decide) (fun _ hc => LoggedResponse.le_of_mem_encode hc) h

/-! ## Logs -/

/-- The log of some responses. -/
def ofList (rs : List LoggedResponse) : ByteArray :=
  rs.foldl (fun log r => log ++ line r) ByteArray.empty

/-- The responses by their keys, the first one under each key. -/
def firsts (rs : List LoggedResponse) : Keyed String :=
  rs.foldl (fun known r => known.insertNew r.key r.body) .empty

theorem ofList_append (rs : List LoggedResponse) (r : LoggedResponse) :
    ofList (rs ++ [r]) = ofList rs ++ line r := by
  rw [ofList, List.foldl_append]
  rfl

theorem firsts_append (rs : List LoggedResponse) (r : LoggedResponse) :
    firsts (rs ++ [r]) = (firsts rs).insertNew r.key r.body := by
  rw [firsts, List.foldl_append]
  rfl

theorem get?_foldl_insertNew (rs : List LoggedResponse) (known : Keyed String) (key : String) :
    (rs.foldl (fun known r => known.insertNew r.key r.body) known).get? key
      = (known.get? key).or ((rs.find? (·.key = key)).map (·.body)) := by
  induction rs generalizing known with
  | nil => simp
  | cons r rs ih =>
    rw [List.foldl_cons, ih, Keyed.get?_insertNew, List.find?_cons]
    by_cases hkey : r.key = key
    · rw [if_pos hkey.symm, decide_eq_true hkey, ← hkey]
      cases known.get? r.key <;> rfl
    · rw [if_neg (Ne.symm hkey), decide_eq_false hkey]

/-- What is found under a key is the body of the first response with it. -/
theorem get?_firsts (rs : List LoggedResponse) (key : String) :
    (firsts rs).get? key = (rs.find? (·.key = key)).map (·.body) := by
  rw [firsts, get?_foldl_insertNew, Keyed.get?_empty, Option.none_or]

theorem toList_ofList (rs : List LoggedResponse) :
    (ofList rs).data.toList = rs.flatMap fun r => octets r ++ [10] := by
  have hfold : ∀ log : ByteArray, (rs.foldl (fun log r => log ++ line r) log).data.toList
      = log.data.toList ++ rs.flatMap fun r => octets r ++ [10] := by
    induction rs with
    | nil => simp
    | cons r rs ih =>
      intro log
      rw [List.foldl_cons, ih, ByteArray.toList_data_append, toList_line, List.flatMap_cons,
        List.append_assoc]
  exact hfold ByteArray.empty

/-- The lines of a log are its responses. -/
theorem lines_ofList (rs : List LoggedResponse) :
    linesFrom [] (ofList rs).data.toList = rs.map octets := by
  rw [toList_ofList]
  induction rs with
  | nil => rfl
  | cons r rs ih =>
    rw [List.flatMap_cons, List.append_assoc, List.singleton_append,
      linesFrom_append (octets r) (fun _ => le_of_mem_octets) _ [] (by simp), ih, List.reverse_nil,
      List.nil_append, List.map_cons]

theorem fromUTF8?_octets (r : LoggedResponse) :
    String.fromUTF8? ⟨(octets r).toArray⟩ = some (LoggedResponse.wire.encode r) := by
  have hbytes : (⟨(octets r).toArray⟩ : ByteArray) = (LoggedResponse.wire.encode r).toUTF8 := by
    rw [octets, Array.toArray_toList]
  rw [hbytes, Text.fromUTF8?_toUTF8]

/-- The lines of some responses add them to those known. -/
theorem readLines_octets (known : Keyed String) (rs : List LoggedResponse) :
    readLines known (rs.map octets)
      = .ok (rs.foldl (fun known r => known.insertNew r.key r.body) known) := by
  induction rs generalizing known with
  | nil => rfl
  | cons r rs ih =>
    rw [List.map_cons, readLines, fromUTF8?_octets]
    simp only [LoggedResponse.isEmpty_encode, LoggedResponse.ofString_encode]
    exact ih _

/-- Reading the log of some responses finds them. -/
theorem read_ofList (rs : List LoggedResponse) : read (ofList rs) = .ok (firsts rs) := by
  rw [read, lines_ofList, readLines_octets, firsts]

/-- What is wrong with a log is never that a response is missing. -/
theorem error_of_readLines {known : Keyed String} {lines : List (List UInt8)} {e : ArchiveError}
    (h : readLines known lines = .error e) (key : String) : e ≠ .responseNotFound key := by
  induction lines generalizing known with
  | nil => cases h
  | cons line rest ih =>
    rw [readLines] at h
    split at h
    · cases h
      rintro ⟨⟩
    split at h
    · exact ih h
    split at h
    · cases h
      rintro ⟨⟩
    · exact ih h

end ResponseLog

end Intake
