import Intake.Job.Result
import Intake.Proofs.Json.Parts

/-!
# The flat object of a result

The object that shows a result always has the four names of the job (`JobResult.get?_mapping_name`),
and the number of items that it shows is that of the result, a missing one counting as zero
(`JobResult.fetched_mapping`). Both hold because no statistic stands under a name of the job.
-/

namespace Intake

namespace JobResult

theorem keys_names (r : JobResult) :
    r.names.map (·.1) = ["job_id", "task_id", "backend", "category"] := rfl

theorem keys_statistics (s : FetchSummary) :
    s.statistics.map (·.1) = ["fetched", "skipped", "min_updated_on", "max_updated_on",
      "last_updated_on", "last_uuid", "min_offset", "max_offset", "last_offset", "extras"] := rfl

theorem get?_mapping (r : JobResult) (key : String) :
    r.mapping.get? key = (r.summary.elim none fun s => s.mapping.get? key).or
      ((Keyed.ofList r.names).get? key) := by
  rw [mapping]
  cases r.summary with
  | none => rw [Option.elim_none, Option.elim_none, Option.none_or]
  | some s => rw [Option.elim_some, Option.elim_some, Keyed.get?_union]

/-- The object of a result has the names of the job. -/
theorem get?_mapping_name (r : JobResult) {name : String × Json} (h : name ∈ r.names) :
    r.mapping.get? name.1 = some name.2 := by
  have hmem : name.1 ∈ r.names.map (·.1) := List.mem_map_of_mem h
  have hsummary : (r.summary.elim none fun s => s.mapping.get? name.1) = none := by
    cases r.summary with
    | none => rfl
    | some s =>
      rw [Option.elim_some, FetchSummary.mapping]
      refine Keyed.get?_ofList_of_notMem s.statistics name.1 ?_
      rw [keys_statistics]
      rw [keys_names] at hmem
      revert hmem
      generalize name.1 = key
      revert key
      decide
  have hkeys : (r.names.map (·.1)).Nodup := by
    rw [keys_names]
    decide
  rw [get?_mapping, hsummary, Option.none_or, Keyed.get?_ofList_of_mem hkeys h]

/-- The object of a result shows how many items were fetched, a missing number being zero. -/
theorem fetched_mapping (r : JobResult) :
    ((r.mapping.get? "fetched" >>= Json.uint64?).getD 0) = r.fetched := by
  have hnames : (Keyed.ofList r.names).get? "fetched" = none := by
    apply Keyed.get?_ofList_of_notMem
    rw [keys_names]
    decide
  rw [get?_mapping, hnames, Option.or_none, fetched]
  cases r.summary with
  | none => rfl
  | some s =>
    have hkeys : (s.statistics.map (·.1)).Nodup := by
      rw [keys_statistics]
      decide
    have hmem : ("fetched", Json.ofUInt64 s.fetched) ∈ s.statistics := List.mem_cons_self ..
    have hfetched := Keyed.get?_ofList_of_mem hkeys hmem
    rw [Option.elim_some, Option.elim_some, FetchSummary.mapping, hfetched, Option.bind_eq_bind,
      Option.bind_some, Json.uint64?_ofUInt64, Option.getD_some]

end JobResult

end Intake
