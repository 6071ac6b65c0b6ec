import Intake.Proofs.Job.ResultMapping
import Intake.Proofs.Wire.Items
import Intake.Proofs.Wire.Settled

/-!
# The identifier of a job

The identifier of a job leaves the program in three places: it is printed, it stands in the object
that shows a result and it is stamped on the items in the queue. All three have one text, which is
read back as the identifier (`JobId.one_text`).

It comes in as a text or as a string of a JSON document. Both readers take the same texts for the
same identifiers, and these texts are the four spellings of its UUID (`JobId.Spelled`). The digits
may be in letters of either case, and so may the mark of a URN, which is why a text may spell an
identifier without being one of the spellings after the mark in lower case
(`JobId.marked_in_either_case`).
-/

namespace Intake

open Intake.Json (Draft Tree)

/-! ## Strings of a document -/

namespace Wire

/-- A document that is read as a text is this string. -/
theorem eq_text_of_read {room : Nat} {d : Draft} {s : String} (h : text.read room d = .ok s) :
    d = .text (some s) := by
  cases d with
  | text found =>
    cases found with
    | none => cases h
    | some found =>
      cases h
      rfl
  | _ => exact absurd h refuse_ne_ok

/-- What a string means to a format of strings, it means in every text that holds the string. -/
theorem ofString_ofText {α : Type} {wanted : Wanted} {write : α → String}
    {read : String → Except DecodeError α} {t s : String} (h : text.ofString t = .ok s) :
    (ofText wanted write read).ofString t = read s := by
  simp only [ofString, ofBytes] at h ⊢
  generalize Draft.read t.toUTF8 = r at h ⊢
  obtain ⟨draft, ended⟩ := r
  cases hdraft : text.read Json.maxDepth draft with
  | error e =>
    rw [hdraft] at h
    cases h
  | ok found =>
    rw [hdraft] at h
    cases ended with
    | false => cases h
    | true =>
      cases h
      rw [eq_text_of_read hdraft]
      show (read s >>= fun a => pure a) = read s
      exact bind_pure (read s)

theorem ofString_encode_text (s : String) : text.ofString (text.encode s) = .ok s :=
  ofString_encode text (Tree.readsBack _)

theorem ofString_via {α β : Type} (w : Wire α) (read : α → β) (write : β → α) (t : String) :
    (w.via read write).ofString t = (w.ofString t).map read := by
  simp only [ofString, ofBytes, via]
  generalize Draft.read t.toUTF8 = r
  cases w.read Json.maxDepth r.draft with
  | error e => rfl
  | ok a => cases r.ended <;> rfl

end Wire

/-- Nothing of a written identifier is escaped in a document. -/
theorem Uuid.quote_text (u : Uuid) : Json.quote u.text = '"' :: u.text.toList ++ ['"'] := by
  have hplain : ∀ d : Fin 16, Json.escape (Text.hexDigit d) = [Text.hexDigit d] := by decide
  have hescape : u.text.toList.flatMap Json.escape = u.text.toList.flatMap fun c => [c] := by
    refine List.flatMap_congr fun c hc => ?_
    rcases Uuid.mem_text hc with rfl | ⟨d, rfl⟩
    · rfl
    · exact hplain d
  rw [Json.quote, hescape, List.flatMap_singleton']

/-- The member of an item's document with the job that forwarded the item. -/
theorem Item.get?_jobId {i : Item} {id : JobId} (h : i.jobId = some id) :
    Entries.get? "job_id" (fields.write i.fixed ++ i.extraTrees) = some (.text id.text) := by
  have hfixed : Entries.get? "job_id" (fields.write i.fixed) = some (.text id.text) := by
    simp only [fields, fixed, Fields.write, Entries.get?_append, Fields.get?_writeField, h]
    rfl
  rw [Entries.get?_append, hfixed, Option.some_or]

/-! ## Spellings -/

namespace JobId

/-- The text is one of the four spellings of the identifier; what marks a URN may be in letters of
either case. -/
def Spelled (id : JobId) (s : String) : Prop :=
  ∃ mark : List Char, mark.map Char.toLower = Uuid.urnMark ∧ Uuid.Spells mark id.uuid s.toList

theorem parse_eq_ok_iff {s : String} {id : JobId} : parse s = .ok id ↔ id.Spelled s := by
  obtain ⟨v⟩ := id
  rw [Spelled, ← Uuid.parse_eq_ok_iff, parse]
  cases Uuid.parse s with
  | error e => exact iff_of_false (by rintro ⟨⟩) (by rintro ⟨⟩)
  | ok u => simp

/-- A string of a document is read for the identifier that its text is read for. -/
theorem ofString_wire {s t : String} (h : Wire.text.ofString t = .ok s) :
    wire.ofString t = ((Uuid.parse s).mapError .badUuid).map mk := by
  rw [wire, Wire.ofString_via, Wire.uuid, Wire.ofString_ofText h]

theorem encode_wire (id : JobId) : wire.encode id = "\"" ++ id.text ++ "\"" := by
  have hquote : Json.quote id.text = '"' :: id.text.toList ++ ['"'] := id.uuid.quote_text
  show String.ofList (Json.quote id.text) = _
  rw [hquote, String.ofList_append, String.ofList_cons, String.ofList_toList]
  rfl

theorem ofString_wire_eq_ok_iff {s t : String} (h : Wire.text.ofString t = .ok s) {id : JobId} :
    wire.ofString t = .ok id ↔ parse s = .ok id := by
  rw [ofString_wire h, parse]
  cases Uuid.parse s with
  | error e => exact iff_of_false (by rintro ⟨⟩) (by rintro ⟨⟩)
  | ok u => exact Iff.rfl.trans (by simp [Except.mapError, Except.map])

/-- A text that spells no identifier is refused by both readers, for one reason. -/
theorem refused_of_not_spelled {s t : String} (h : Wire.text.ofString t = .ok s)
    (hspelled : ∀ id : JobId, ¬ id.Spelled s) :
    ∃ e : UuidError, parse s = .error (.invalidArgument ("JobId: " ++ e.message)) ∧
      wire.ofString t = .error (.badUuid e) := by
  cases huuid : Uuid.parse s with
  | error e =>
    refine ⟨e, ?_, ?_⟩
    · rw [parse, huuid]
    · rw [ofString_wire h, huuid]
      rfl
  | ok u => exact absurd (Uuid.parse_eq_ok_iff.mp huuid) (hspelled ⟨u⟩)

/-- An identifier has one text wherever it is written, and both readers take it for the identifier.
Of all texts they take the same for the same identifier, its spellings, and refuse those that spell
none. -/
theorem one_text (id : JobId) {r : JobResult} (hresult : r.jobId = id) {i : Item}
    (hitem : i.jobId = some id) {s t : String} (htext : Wire.text.ofString t = .ok s) :
    r.mapping.get? "job_id" = some (.text id.text) ∧
    (∃ members, Item.wire.write i = .object members ∧
      Entries.get? "job_id" members = some (.text id.text)) ∧
    wire.encode id = "\"" ++ id.text ++ "\"" ∧
    parse id.text = .ok id ∧
    wire.ofString (wire.encode id) = .ok id ∧
    (parse s = .ok id ↔ wire.ofString t = .ok id) ∧
    (parse s = .ok id ↔ id.Spelled s) ∧
    ((∀ other : JobId, ¬ other.Spelled s) → ∃ e : UuidError,
      parse s = .error (.invalidArgument ("JobId: " ++ e.message)) ∧
      wire.ofString t = .error (.badUuid e)) := by
  have hmember : ("job_id", Json.text r.jobId.text) ∈ r.names := List.mem_cons_self ..
  have hparse : parse id.text = .ok id :=
    parse_eq_ok_iff.mpr (Uuid.parse_eq_ok_iff.mp id.uuid.parse_text)
  refine ⟨?_, ⟨_, rfl, Item.get?_jobId hitem⟩, id.encode_wire, hparse, ?_,
    (ofString_wire_eq_ok_iff htext).symm, parse_eq_ok_iff, refused_of_not_spelled htext⟩
  · rw [← hresult]
    exact r.get?_mapping_name hmember
  · exact (Wire.ofString_encode wire (Tree.readsBack _)).trans id.readsBack_wire

/-- One identifier in a result, and read from its text after the mark of a URN in capitals. -/
theorem one_text_of_urn :
    let id : JobId := ⟨.sequential 0 1⟩
    let r : JobResult := { jobId := id, taskId := ⟨"task"⟩, backend := "b", category := "c" }
    r.mapping.get? "job_id" = some (.text "00000000-0000-7000-8000-000000000001") ∧
    parse "URN:UUID:00000000-0000-7000-8000-000000000001" = .ok id ∧
    wire.ofString (Wire.text.encode "URN:UUID:00000000-0000-7000-8000-000000000001") = .ok id ∧
    id.Spelled "URN:UUID:00000000-0000-7000-8000-000000000001" := by
  intro id r
  let i : Item := {
    backendName := "b", backendVersion := "1", category := "c", origin := "o", uuid := "u"
    updatedOn := 0, timestamp := 0, data := .null, jobId := some id }
  have htext := Wire.ofString_encode_text "URN:UUID:00000000-0000-7000-8000-000000000001"
  have hresult : r.jobId = id := rfl
  have hitem : i.jobId = some id := rfl
  obtain ⟨hmapping, -, -, -, -, hreaders, hspelled, -⟩ := one_text id hresult hitem htext
  have hparse : parse "URN:UUID:00000000-0000-7000-8000-000000000001" = .ok id := rfl
  exact ⟨hmapping, hparse, hreaders.mp hparse, hspelled.mp hparse⟩

/-- The readers take more than the spellings whose mark is in lower case. -/
theorem marked_in_either_case :
    ¬ ∀ (s : String) (id : JobId),
      parse s = .ok id ↔ Uuid.Spells Uuid.urnMark id.uuid s.toList := by
  intro h
  have hparse : parse "Urn:uuid:550E8400-E29B-41D4-A716-446655440000" = .ok
      ⟨⟨[5, 5, 0, 14, 8, 4, 0, 0, 14, 2, 9, 11, 4, 1, 13, 4, 10, 7, 1, 6, 4, 4, 6, 6, 5, 5, 4, 4,
        0, 0, 0, 0], rfl⟩⟩ := rfl
  have hcapital := ((h _ _).mp hparse).mem 'U' (List.mem_cons_self ..)
  exact absurd hcapital (by decide)

end JobId

end Intake
