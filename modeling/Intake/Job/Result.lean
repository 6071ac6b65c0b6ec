import Intake.Summary

/-!
# Results of a job

The result of a job names the job and holds the summary of its fetch, once an item was forwarded or
the fetch has ended. From the watermarks of the summary follows where a later job can go on.
-/

namespace Intake

/-- What is known of a job's fetch. -/
structure JobResult where
  jobId : JobId
  taskId : TaskId
  backend : String
  category : String
  summary : Option FetchSummary := none
deriving BEq

/-- Where a fetch can be taken up again. -/
structure ResumePoint where
  fromDate : Option Instant
  offset : Option Int64
deriving DecidableEq

namespace ResumePoint

/-- The document of a resume point. -/
def wire : Wire ResumePoint :=
  ((Fields.cons (.optional "from_date" .instant) <|
    .last (.optional "offset" .int64)).record "ResumePoint").via
    (fun (fromDate, offset) => { fromDate, offset })
    (fun p => (p.fromDate, p.offset))

end ResumePoint

namespace JobResult

/-- How many items the summary counts. -/
def fetched (r : JobResult) : UInt64 := r.summary.elim 0 FetchSummary.fetched

/-- How many skipped records the summary counts. -/
def skipped (r : JobResult) : UInt64 := r.summary.elim 0 FetchSummary.skipped

/-- What names the job, as members of an object. -/
def names (r : JobResult) : List (String × Json) := [
  ("job_id", .text r.jobId.text),
  ("task_id", .text r.taskId.text),
  ("backend", .text r.backend),
  ("category", .text r.category)]

/-- The result as a flat object: always the names, and the statistics once there is a summary. -/
def mapping (r : JobResult) : Keyed Json :=
  let names : Keyed Json := .ofList r.names
  r.summary.elim names fun s => names.union s.mapping

/-- The greatest watermarks, if there are any. -/
def resumePoint (r : JobResult) : Option ResumePoint := do
  let s ← r.summary
  if s.updates.greatest.isNone && s.offsets.greatest.isNone then none
  else some ⟨s.updates.greatest, s.offsets.greatest⟩

/-- The document of a result. -/
def wire : Wire JobResult :=
  ((Fields.cons (.required "job_id" JobId.wire) <|
    .cons (.required "task_id" TaskId.wire) <|
    .cons (.required "backend" .text) <|
    .cons (.required "category" .text) <|
    .last (.optional "summary" FetchSummary.wire)).record "JobResult").via
    (fun (jobId, taskId, backend, category, summary) =>
      { jobId, taskId, backend, category, summary })
    (fun r => (r.jobId, r.taskId, r.backend, r.category, r.summary))

end JobResult

end Intake
