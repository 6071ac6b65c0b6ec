import Intake.Job.Request
import Intake.Proofs.Wire.Settled
import Intake.Request

/-!
# The form of requests

What a scheduler asks for, what a data source is asked and how a run uses an archive are all sent as
documents. Each of them is read from its own document unless the arguments or parameters in it nest
too deep. A document may spell one in other ways, as an array, without the fields that have a
default, or with fields that mean nothing: what was read is read again from its own document, as it
was (`settles_requests`).
-/

namespace Intake

open Intake.Json (Draft Tree)

variable {room : Nat}

namespace Wire

theorem readsBack_boolean (b : Bool) : boolean.ReadsBack room b := rfl

/-- An object without members reads back wherever an object may open. -/
theorem readsBack_empty : object.ReadsBack (room + 1) .empty :=
  readsBack_object.mpr (Nat.succ_le_succ (Nat.zero_le room))

end Wire

/-! ## Requests to a data source -/

namespace Request

/-- The fields of a request as they are written. -/
def fields : Fields (String × Keyed Json) :=
  .cons (.required "uri" .text) <|
    .last (.defaulted "params" .object .empty)

/-- The parameters are all that nests in a request. -/
theorem depth_write (r : Request) :
    (wire.write r).depth = (Json.object r.params).tree.depth + 1 := by
  have htext : ∀ s, (Wire.text.write s).depth = 0 := fun _ => rfl
  show Tree.membersDepth (fields.write _) + 1 = _
  simp only [fields, Fields.write, Tree.membersDepth_append, Fields.membersDepth_required,
    Fields.membersDepth_defaulted, htext, Nat.zero_max]
  rfl

/-- A request reads back if and only if there is room for its parameters. -/
theorem readsBack_wire_iff {r : Request} :
    wire.ReadsBack (room + 1) r ↔ (wire.write r).depth ≤ room + 1 := by
  have hnames : fields.names.Nodup := by decide
  rw [depth_write, Nat.add_le_add_iff_right]
  refine (Wire.readsBack_via_record_iff hnames (fun _ => rfl) (fun _ => rfl)).trans ?_
  simp only [fields, Fields.ReadsBack, Fields.fieldReadsBack_required,
    Fields.fieldReadsBack_defaulted, Wire.readsBack_text, Wire.readsBack_object, true_and]

/-- A request that was read reads back. -/
theorem stable_wire : wire.Stable (room + 2) := by
  have hfields : fields.Stable (room + 1) :=
    ⟨Fields.fieldStable_required (Wire.stable_of_readsBack Wire.readsBack_text),
      Fields.fieldStable_defaulted Wire.stable_object Wire.readsBack_empty⟩
  have hshorts : fields.ShortsAbsent := ⟨fun _ h => h, fun _ h => h⟩
  exact Wire.stable_via (fun _ => rfl) (Fields.stable_record hfields hshorts (by decide) _)

theorem settles_wire : wire.Settles :=
  Wire.settles_of_stable (fun _ => readsBack_wire_iff) stable_wire

end Request

/-! ## Uses of an archive -/

namespace ArchiveArgs

/-- The fields of the settings as they are written. -/
def fields : Fields (String × Bool × Option Instant) :=
  .cons (.required "archive_path" .text) <|
    .cons (.defaulted "fetch_from_archive" .boolean false) <|
    .last (.omittable "archived_after" .instant)

/-- Nothing nests in the settings. -/
theorem depth_write (a : ArchiveArgs) : (wire.write a).depth = 1 := by
  obtain ⟨path, fromArchive, archivedAfter⟩ := a
  cases archivedAfter <;> rfl

theorem readsBack_wire (a : ArchiveArgs) : wire.ReadsBack (room + 1) a := by
  have hfields : fields.ReadsBack room (a.path, a.fromArchive, a.archivedAfter) :=
    ⟨Wire.readsBack_text a.path, Wire.readsBack_boolean a.fromArchive,
      (Fields.fieldReadsBack_omittable (by rintro t ⟨⟩)).mpr fun t _ => Wire.readsBack_instant t⟩
  exact Wire.readsBack_via rfl (Fields.readsBack_record (by decide) hfields _)

theorem settles_wire : wire.Settles :=
  Wire.settles_of_stable
    (fun a => ⟨fun _ => by rw [depth_write]; decide, fun _ => readsBack_wire a⟩)
    (Wire.stable_of_readsBack readsBack_wire)

end ArchiveArgs

/-! ## Requests for a job -/

namespace FetchJobRequest

/-- The fields of a request as they are written. -/
def fields : Fields (String × BackendArgs × String × TaskId × String × Option ArchiveArgs) :=
  .cons (.required "backend" .text) <|
    .cons (.defaulted "backend_args" .object .empty) <|
    .cons (.required "items_queue" .text) <|
    .cons (.required "task_id" TaskId.wire) <|
    .cons (.required "category" .text) <|
    .last (.defaulted "archive_args" ArchiveArgs.wire.optional none)

theorem nodup_names : fields.names.Nodup := by
  decide

/-- The settings of the archive nest no deeper than arguments without members. -/
theorem depth_write (r : FetchJobRequest) :
    (wire.write r).depth = (Json.object r.backendArgs).tree.depth + 1 := by
  have harchive : (ArchiveArgs.wire.optional.write r.archiveArgs).depth
      ≤ (Json.object r.backendArgs).tree.depth := by
    cases r.archiveArgs with
    | none => exact Nat.zero_le _
    | some a => exact (Nat.le_of_eq a.depth_write).trans (Nat.le_add_left 1 _)
  have htext : ∀ s, (Wire.text.write s).depth = 0 := fun _ => rfl
  have htask : ∀ id, (TaskId.wire.write id).depth = 0 := fun _ => rfl
  show Tree.membersDepth (fields.write _) + 1 = _
  simp only [fields, Fields.write, Tree.membersDepth_append, Fields.membersDepth_required,
    Fields.membersDepth_defaulted, htext, htask, Nat.zero_max]
  exact congrArg (· + 1) (Nat.max_eq_left harchive)

theorem readsBack_archiveArgs (a : Option ArchiveArgs) :
    ArchiveArgs.wire.optional.ReadsBack (room + 1) a :=
  Wire.readsBack_optional_iff.mpr fun a _ => ⟨by rintro ⟨⟩, a.readsBack_wire⟩

/-- A request reads back if and only if there is room for the arguments of the backend. -/
theorem readsBack_wire_iff {r : FetchJobRequest} :
    wire.ReadsBack (room + 2) r ↔ (wire.write r).depth ≤ room + 2 := by
  rw [depth_write, Nat.add_le_add_iff_right]
  refine (Wire.readsBack_via_record_iff nodup_names (fun _ => rfl) (fun _ => rfl)).trans ?_
  simp only [fields, Fields.ReadsBack, Fields.fieldReadsBack_required,
    Fields.fieldReadsBack_defaulted, Wire.readsBack_text, Wire.readsBack_object,
    TaskId.readsBack_wire, readsBack_archiveArgs, true_and, and_true]

/-- A request that was read reads back. -/
theorem stable_wire : wire.Stable (room + 2) := by
  have htext : ∀ {name : String}, Fields.FieldStable (room + 1) (.required name .text) :=
    Fields.fieldStable_required (Wire.stable_of_readsBack Wire.readsBack_text)
  have hfields : fields.Stable (room + 1) :=
    ⟨htext, Fields.fieldStable_defaulted Wire.stable_object Wire.readsBack_empty, htext,
      Fields.fieldStable_required (Wire.stable_of_readsBack TaskId.readsBack_wire), htext,
      Fields.fieldStable_defaulted (Wire.stable_of_readsBack readsBack_archiveArgs)
        Wire.readsBack_none⟩
  have hrequired : ∀ {α : Type} {name : String} {w : Wire α},
      ∀ a ∈ (Field.required name w).short, a ∈ (Field.required name w).absent := by
    rintro α name w a ⟨⟩
  have hshorts : fields.ShortsAbsent :=
    ⟨hrequired, fun _ h => h, hrequired, hrequired, hrequired, fun _ h => h⟩
  exact Wire.stable_via (fun _ => rfl) (Fields.stable_record hfields hshorts nodup_names _)

theorem settles_wire : wire.Settles :=
  Wire.settles_of_stable (fun _ => readsBack_wire_iff) stable_wire

end FetchJobRequest

/-! ## All of them -/

/-- Requests for a job, requests to a data source and uses of an archive are read from their own
texts unless these nest too deep, and what was read from any text is read again from its own. So a
request keeps its key in an archive, and the use of an archive its bound. -/
theorem settles_requests :
    FetchJobRequest.wire.Settles ∧ Request.wire.Settles ∧ ArchiveArgs.wire.Settles
      ∧ (∀ bytes r, Request.wire.ofBytes bytes = .ok r →
        (Request.wire.ofBytes (Request.wire.toBytes r)).map Request.archiveKey
          = .ok r.archiveKey)
      ∧ (∀ bytes a, ArchiveArgs.wire.ofBytes bytes = .ok a →
        (ArchiveArgs.wire.ofBytes (ArchiveArgs.wire.toBytes a)).map ArchiveArgs.replayBound
          = .ok a.replayBound) := by
  refine ⟨FetchJobRequest.settles_wire, Request.settles_wire, ArchiveArgs.settles_wire, ?_, ?_⟩
  · intro bytes r h
    rw [Request.settles_wire.again bytes r h]
    rfl
  · intro bytes a h
    rw [ArchiveArgs.settles_wire.again bytes a h]
    rfl

/-- A request for a job as an array, with the use of an archive as an array that ends early. -/
def FetchJobRequest.spelled : String :=
  " [\"git\", \x7b\"b\": [1e0], \"a\": -0, \"b\": \x7b\"x\": null\x7d\x7d, \"items\",
    \"task\\u002d1\", \"commit\", [\"archive\", true]] "

/-- A request without parameters, with a member that means nothing. -/
def Request.spelled : String :=
  "\x7b\"page\": [1], \"uri\": \"https:\\/\\/example.com?\"\x7d"

/-- The use of an archive with its fields in another order. -/
def ArchiveArgs.spelled : String :=
  "\x7b\"archived_after\": \"2024-01-01T01:00:00+01:00\", \"fetch_from_archive\": true,
    \"archive_path\": \"archive\"\x7d"

/-- The texts above are read, and what is read of each is read again from its own text. -/
theorem settles_spelled_requests :
    (∃ r, FetchJobRequest.wire.ofBytes FetchJobRequest.spelled.toUTF8 = .ok r
      ∧ FetchJobRequest.wire.ofBytes (FetchJobRequest.wire.toBytes r) = .ok r)
      ∧ (∃ r, Request.wire.ofBytes Request.spelled.toUTF8 = .ok r
        ∧ (Request.wire.ofBytes (Request.wire.toBytes r)).map Request.archiveKey
          = .ok r.archiveKey)
      ∧ (∃ a, ArchiveArgs.wire.ofBytes ArchiveArgs.spelled.toUTF8 = .ok a
        ∧ (ArchiveArgs.wire.ofBytes (ArchiveArgs.wire.toBytes a)).map ArchiveArgs.replayBound
          = .ok a.replayBound) := by
  obtain ⟨hjobs, -, -, hrequests, harchives⟩ := settles_requests
  obtain ⟨job, hjob⟩ : ∃ r, FetchJobRequest.wire.ofBytes FetchJobRequest.spelled.toUTF8 = .ok r := by
    apply Wire.exists_ofBytes_eq_ok
    rw [FetchJobRequest.spelled, Wire.ofBytes, Draft.read_ofList]
    decide +kernel
  obtain ⟨request, hrequest⟩ : ∃ r, Request.wire.ofBytes Request.spelled.toUTF8 = .ok r := by
    apply Wire.exists_ofBytes_eq_ok
    rw [Request.spelled, Wire.ofBytes, Draft.read_ofList]
    decide +kernel
  obtain ⟨archive, harchive⟩ : ∃ a, ArchiveArgs.wire.ofBytes ArchiveArgs.spelled.toUTF8 = .ok a := by
    apply Wire.exists_ofBytes_eq_ok
    rw [ArchiveArgs.spelled, Wire.ofBytes, Draft.read_ofList]
    decide +kernel
  exact ⟨⟨job, hjob, hjobs.again _ job hjob⟩,
    ⟨request, hrequest, hrequests _ request hrequest⟩,
    ⟨archive, harchive, harchives _ archive harchive⟩⟩

end Intake
