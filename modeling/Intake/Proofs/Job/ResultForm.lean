import Intake.Job.Result
import Intake.Proofs.Wire.Settled

/-!
# The form of results

The result of a job is stored as a document, in which the summary of the fetch is a document of its
own. Every optional value is written as `null` where there is none. Times, positions and names are
never written as `null`, so each of them is told from none.

The extras are any value, and `null` is one of them. A summary with `null` as its extras has the
text of the summary without extras, and is read as that one (`FetchSummary.reread`). All other
results are read back as they were, unless they nest too deep (`results_read_back_iff`).
-/

namespace Intake

open Intake.Json (Tree)

variable {room : Nat}

theorem Json.tree_eq_null_iff {j : Json} : j.tree = .null ↔ j = .null := by
  refine ⟨fun h => ?_, fun h => congrArg Json.tree h⟩
  obtain ⟨t, ht⟩ := j
  cases h
  rfl

theorem Json.isNull_iff {j : Json} : j.isNull = true ↔ j = .null := by
  rw [← tree_eq_null_iff, isNull]
  cases j.tree <;> simp

theorem Wire.readsBack_uint64 (n : UInt64) : uint64.ReadsBack room n := by
  show (if 0 ≤ (n.toNat : Int) then Except.ok (UInt64.ofNat (n.toNat : Int).toNat)
    else .error (DecodeError.outOfRange n.toNat .uint64)) = .ok n
  rw [if_pos (Int.natCast_nonneg _), Int.toNat_natCast, UInt64.ofNat_toNat]

/-! ## Summaries -/

namespace FetchSummary

/-- What is read from the text of a summary: extras that are `null` count as none. -/
def reread (s : FetchSummary) : FetchSummary :=
  { s with extras := s.extras.filter fun j => !j.isNull }

theorem ne_null_of_mem_reread {s : FetchSummary} {j : Json} (h : j ∈ s.reread.extras) :
    j ≠ .null := by
  rintro rfl
  cases (Option.filter_eq_some_iff.mp h).2

theorem reread_eq_self_iff {s : FetchSummary} : s.reread = s ↔ s.extras ≠ some .null := by
  constructor
  · intro h hnull
    exact ne_null_of_mem_reread (h ▸ hnull) rfl
  · intro hnull
    obtain ⟨fetched, skipped, updates, lastUuid, offsets, _ | j⟩ := s
    · rfl
    · have hj : j.isNull = false := by
        rw [← Bool.not_eq_true, Json.isNull_iff]
        rintro rfl
        exact hnull rfl
      rw [reread, Option.filter_some_pos (by rw [hj]; rfl)]

/-- A summary has the document of what is read from its text. -/
theorem write_reread (s : FetchSummary) : wire.write s.reread = wire.write s := by
  by_cases hnull : s.extras = some .null
  · obtain ⟨fetched, skipped, updates, lastUuid, offsets, extras⟩ := s
    cases hnull
    rfl
  · rw [reread_eq_self_iff.mpr hnull]

theorem nodup_names : fields.names.Nodup := by
  decide

/-- The extras are all that nests in a summary. -/
theorem depth_write (s : FetchSummary) :
    (wire.write s).depth = (Wire.json.optional.write s.extras).depth + 1 := by
  have hflat : ∀ {α : Type} {w : Wire α}, (∀ a, (w.write a).depth = 0) →
      ∀ a, (w.optional.write a).depth = 0 := by
    rintro α w hw (_ | a)
    · rfl
    · exact hw a
  have htext := hflat (w := Wire.text) fun _ => rfl
  have hinstant := hflat (w := Wire.instant) fun _ => rfl
  have hint := hflat (w := Wire.int64) fun _ => rfl
  have hcount : ∀ n, (Wire.uint64.write n).depth = 0 := fun _ => rfl
  show Tree.membersDepth (fields.write _) + 1 = _
  simp only [fields, Fields.write, Tree.membersDepth_append, Fields.membersDepth_required,
    Fields.membersDepth_optional, htext, hinstant, hint, hcount, Nat.zero_max]

/-- A summary reads back if and only if there is room for its extras and they are not `null`. -/
theorem readsBack_wire_iff {s : FetchSummary} : wire.ReadsBack (room + 1) s
    ↔ (wire.write s).depth ≤ room + 1 ∧ s.extras ≠ some .null := by
  have hfields : wire.ReadsBack (room + 1) s ↔ ∀ j ∈ s.extras, j ≠ .null ∧ j.tree.depth ≤ room := by
    have hjson : ∀ j, Wire.json.write j ≠ .null ↔ j ≠ .null :=
      fun _ => not_congr Json.tree_eq_null_iff
    have htext : ∀ s, Wire.text.write s ≠ .null := by rintro s ⟨⟩
    have hinstant : ∀ t, Wire.instant.write t ≠ .null := by rintro t ⟨⟩
    have hint : ∀ n, Wire.int64.write n ≠ .null := by rintro n ⟨⟩
    refine (Wire.readsBack_via_record_iff nodup_names (fun _ => rfl) (fun _ => rfl)).trans ?_
    simp only [fields, Fields.ReadsBack, Fields.fieldReadsBack_required,
      Fields.fieldReadsBack_optional, Wire.readsBack_uint64, Wire.readsBack_text,
      Wire.readsBack_instant, Wire.readsBack_int64, Wire.readsBack_json, hjson, htext, hinstant,
      hint, implies_true, true_and, and_true, ne_eq, not_false_iff]
  rw [hfields, depth_write, Nat.add_le_add_iff_right]
  cases s.extras with
  | none => exact ⟨fun _ => ⟨Nat.zero_le _, by rintro ⟨⟩⟩, fun _ => by rintro j ⟨⟩⟩
  | some j =>
    simp only [Option.mem_some_iff, forall_eq', Option.some.injEq, ne_eq]
    exact and_comm

/-- What is read from the text of a summary reads back if there is room for it. -/
theorem readsBack_reread {s : FetchSummary} (h : (wire.write s).depth ≤ room + 1) :
    wire.ReadsBack (room + 1) s.reread :=
  readsBack_wire_iff.mpr
    ⟨(congrArg Tree.depth (write_reread s)).trans_le h, fun hnull => ne_null_of_mem_reread hnull rfl⟩

end FetchSummary

/-! ## Results -/

namespace JobResult

/-- What is read from the text of a result: its summary as it is read from a text. -/
def reread (r : JobResult) : JobResult := { r with summary := r.summary.map FetchSummary.reread }

/-- The fields of a result as they are written. -/
def fields : Fields (JobId × TaskId × String × String × Option FetchSummary) :=
  .cons (.required "job_id" JobId.wire) <|
    .cons (.required "task_id" TaskId.wire) <|
    .cons (.required "backend" .text) <|
    .cons (.required "category" .text) <|
    .last (.optional "summary" FetchSummary.wire)

theorem write_reread (r : JobResult) : wire.write r.reread = wire.write r := by
  obtain ⟨jobId, taskId, backend, category, _ | s⟩ := r
  · rfl
  · have hwrite (t : FetchSummary) : wire.write ⟨jobId, taskId, backend, category, some t⟩
      = .object [("job_id", .text jobId.text), ("task_id", .text taskId.text),
        ("backend", .text backend), ("category", .text category),
        ("summary", FetchSummary.wire.write t)] := rfl
    show wire.write ⟨jobId, taskId, backend, category, some s.reread⟩ = _
    rw [hwrite, hwrite, FetchSummary.write_reread]

/-- The summary is all that nests in a result. -/
theorem depth_write (r : JobResult) :
    (wire.write r).depth = (FetchSummary.wire.optional.write r.summary).depth + 1 := by
  have htext : ∀ s, (Wire.text.write s).depth = 0 := fun _ => rfl
  have hjob : ∀ id, (JobId.wire.write id).depth = 0 := fun _ => rfl
  have htask : ∀ id, (TaskId.wire.write id).depth = 0 := fun _ => rfl
  show Tree.membersDepth (fields.write _) + 1 = _
  simp only [fields, Fields.write, Tree.membersDepth_append, Fields.membersDepth_required,
    Fields.membersDepth_optional, htext, hjob, htask, Nat.zero_max]

/-- A result reads back if and only if there is room for its summary and the extras in it are not
`null`. -/
theorem readsBack_wire_iff {r : JobResult} : wire.ReadsBack (room + 2) r
    ↔ (wire.write r).depth ≤ room + 2 ∧ ∀ s ∈ r.summary, s.extras ≠ some .null := by
  have hnames : fields.names.Nodup := by decide
  have hfields : wire.ReadsBack (room + 2) r
      ↔ ∀ s ∈ r.summary, FetchSummary.wire.ReadsBack (room + 1) s := by
    have hobject : ∀ s, FetchSummary.wire.write s ≠ .null := by rintro s ⟨⟩
    refine (Wire.readsBack_via_record_iff hnames (fun _ => rfl) (fun _ => rfl)).trans ?_
    simp only [fields, Fields.ReadsBack, Fields.fieldReadsBack_required,
      Fields.fieldReadsBack_optional, Wire.readsBack_text, JobId.readsBack_wire,
      TaskId.readsBack_wire, hobject, true_and, ne_eq, not_false_iff]
  rw [hfields, depth_write, Nat.add_le_add_iff_right]
  cases r.summary with
  | none => exact ⟨fun _ => ⟨Nat.zero_le _, by rintro s ⟨⟩⟩, fun _ => by rintro s ⟨⟩⟩
  | some s =>
    simp only [Option.mem_some_iff, forall_eq']
    exact FetchSummary.readsBack_wire_iff

theorem readsBack_reread {r : JobResult} (h : (wire.write r).depth ≤ room + 2) :
    wire.ReadsBack (room + 2) r.reread := by
  refine readsBack_wire_iff.mpr ⟨(congrArg Tree.depth (write_reread r)).trans_le h, ?_⟩
  intro s hs hnull
  obtain ⟨t, -, rfl⟩ := Option.map_eq_some_iff.mp hs
  exact FetchSummary.ne_null_of_mem_reread hnull rfl

end JobResult

/-! ## Both -/

/-- What is read from the text of a summary or of a result that does not nest too deep: the value
itself, except that extras that are `null` become no extras. So exactly the values without such
extras read back. -/
theorem results_read_back_iff (s : FetchSummary) (r : JobResult) :
    (((FetchSummary.wire.write s).depth ≤ Json.maxDepth →
        FetchSummary.wire.ofBytes (FetchSummary.wire.toBytes s) = .ok s.reread)
      ∧ (FetchSummary.wire.ofBytes (FetchSummary.wire.toBytes s) = .ok s
        ↔ (FetchSummary.wire.write s).depth ≤ Json.maxDepth ∧ s.extras ≠ some .null))
    ∧ ((JobResult.wire.write r).depth ≤ Json.maxDepth →
        JobResult.wire.ofBytes (JobResult.wire.toBytes r) = .ok r.reread)
      ∧ (JobResult.wire.ofBytes (JobResult.wire.toBytes r) = .ok r
        ↔ (JobResult.wire.write r).depth ≤ Json.maxDepth
          ∧ ∀ s ∈ r.summary, s.extras ≠ some .null) := by
  refine ⟨⟨fun h => ?_, ?_⟩, fun h => ?_, ?_⟩
  · rw [Wire.ofBytes_toBytes, ← FetchSummary.write_reread]
    exact FetchSummary.readsBack_reread h
  · rw [Wire.ofBytes_toBytes]
    exact FetchSummary.readsBack_wire_iff
  · rw [Wire.ofBytes_toBytes, ← JobResult.write_reread]
    exact JobResult.readsBack_reread h
  · rw [Wire.ofBytes_toBytes]
    exact JobResult.readsBack_wire_iff

/-- The result of a job whose fetch saw nothing and ended with extras that are `null`. -/
def JobResult.endedWithNull : JobResult where
  jobId := ⟨Uuid.sequential 0 0⟩
  taskId := ⟨"task"⟩
  backend := "git"
  category := "commit"
  summary := some (({} : FetchSummary).setExtras .null)

/-- Extras that are `null` are lost in the text, both of the summary and of the result. -/
theorem null_extras_read_back_as_none :
    FetchSummary.wire.ofBytes (FetchSummary.wire.toBytes (({} : FetchSummary).setExtras .null))
        = .ok {}
      ∧ ({} : FetchSummary).setExtras .null ≠ {}
      ∧ JobResult.wire.ofBytes (JobResult.wire.toBytes JobResult.endedWithNull)
        = .ok { JobResult.endedWithNull with summary := some {} } := by
  obtain ⟨⟨hsummary, -⟩, hresult, -⟩ :=
    results_read_back_iff (({} : FetchSummary).setExtras .null) JobResult.endedWithNull
  refine ⟨hsummary (by decide), fun h => ?_, hresult (by decide)⟩
  cases congrArg FetchSummary.extras h

end Intake
