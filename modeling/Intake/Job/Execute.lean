import Intake.Job.Context
import Intake.Job.Fetch
import Intake.Job.Request

/-!
# Executing a request

A worker executes the request for a fetch job within the context of a job. Mistakes in the request
are found before anything runs and leave no trace. A run that fails leaves its partial result in
the document of the job, and the document is saved; that saving may fail too is not told.
-/

namespace Intake

namespace JobContext

/-- Where in the document of a job its partial result stands. -/
def resultKey : String := "result"

/-- The context with the partial result of a job. -/
def withResult (c : JobContext) (result : JobResult) : JobContext :=
  c.insert resultKey (.object result.mapping)

variable {Q M : Type} [ItemQueue Q] [MetaStore M]

/-- Runs the job of a request and leaves its partial result if it fails, unless it was asked for
what its backend cannot do. -/
def runJob (c : JobContext) (job : FetchJob) (request : FetchJobRequest) (worker : Worker Q M) :
    Except JobError JobResult × JobContext × Worker Q M :=
  match job.run request.backendArgs request.archiveArgs ⟨worker.queue, worker.workspace⟩ with
  | (.ok (), job, o) =>
    (.ok job.result, c, { worker with queue := o.queue, workspace := o.workspace })
  | (.error e, job, o) =>
    let worker := { worker with queue := o.queue, workspace := o.workspace }
    if e.isUnsupported then (.error e, c, worker)
    else
      let c := c.withResult job.result
      -- the fault of the run is the answer, whatever becomes of the saving
      let (_, documents) := c.save worker.documents
      (.error e, c, { worker with documents })

/-- Executes a request. -/
def execute (c : JobContext) (registry : BackendRegistry) (request : FetchJobRequest)
    (worker : Worker Q M) : Except JobError JobResult × JobContext × Worker Q M :=
  match FetchJob.create registry request.backend request.category request.itemsQueue c.jobId
      request.taskId with
  | .error e => (.error e, c, worker)
  | .ok job =>
    if !job.backend.capabilities.archiving && request.archiveArgs.isSome then
      (.error (.unsupportedOperation "archive attributes set but archive is not supported"), c,
        worker)
    else c.runJob job request worker

end JobContext

end Intake
