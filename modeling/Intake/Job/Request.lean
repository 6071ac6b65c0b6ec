import Intake.Archive.Args
import Intake.Archive.Metadata
import Intake.Id

/-!
# Requests for a job

What a scheduler asks for: a backend with its arguments, the category of items, the queue to put
them into, the task that this is done for, and perhaps an archive.
-/

namespace Intake

/-- The request for a fetch job. -/
structure FetchJobRequest where
  backend : String
  backendArgs : BackendArgs := .empty
  itemsQueue : String
  taskId : TaskId
  category : String
  archiveArgs : Option ArchiveArgs := none
deriving BEq

namespace FetchJobRequest

/-- The document of a request. -/
def wire : Wire FetchJobRequest :=
  ((Fields.cons (.required "backend" .text) <|
    .cons (.defaulted "backend_args" .object .empty) <|
    .cons (.required "items_queue" .text) <|
    .cons (.required "task_id" TaskId.wire) <|
    .cons (.required "category" .text) <|
    .last (.defaulted "archive_args" ArchiveArgs.wire.optional none)).record
      "FetchJobRequest").via
    (fun (backend, backendArgs, itemsQueue, taskId, category, archiveArgs) =>
      { backend, backendArgs, itemsQueue, taskId, category, archiveArgs })
    (fun r => (r.backend, r.backendArgs, r.itemsQueue, r.taskId, r.category, r.archiveArgs))

end FetchJobRequest

end Intake
