import Intake.Archive.Args
import Intake.Backend.Registry
import Intake.Job.Result
import Intake.Queue
import Intake.Stream

/-!
# Fetch jobs

A fetch job is a backend and a category bound to a queue. Each run goes through a new stream: it
stamps every item with the runner's version and the job, and appends it to the queue in the order of
the stream.

The result of a job tells of the latest run. It counts an item once the queue has taken it: when the
queue refuses an item the result stays as it was after the item before.
-/

namespace Intake

/-- The version that items are stamped with. -/
def runnerVersion : String := "0.1.0"

/-- How far a run is. -/
inductive RunState where
  | idle
  | initializing
  | streaming
  | completed
  | failed
deriving DecidableEq

/-- A fetch job. -/
structure FetchJob where
  jobId : JobId
  taskId : TaskId
  backend : Backend
  category : String
  itemsQueue : String
  /-- The archive that is bound for the current run. -/
  archive : Option ArchiveManager := none
  /-- An archive that is open already, for runs that name its location. -/
  provided : Option ArchiveManager := none
  result : JobResult
  state : RunState := .idle

/-- What a run changes outside of its job: the queues, and the workspace. -/
structure Outside (Q : Type) where
  queue : Q
  workspace : Workspace

namespace FetchJob

/-- A job for the backend with a name. -/
def create (registry : BackendRegistry) (backend category itemsQueue : String) (jobId : JobId)
    (taskId : TaskId) : Except JobError FetchJob := do
  let backend ← registry.resolve backend
  return { jobId, taskId, backend, category, itemsQueue
           result := { jobId, taskId, backend := backend.name, category } }

/-- The job with an archive that is open already. -/
def withArchive (job : FetchJob) (archive : ArchiveManager) : FetchJob :=
  { job with provided := some archive }

/-- The result of a run that has just begun. -/
def blankResult (job : FetchJob) : JobResult where
  jobId := job.jobId
  taskId := job.taskId
  backend := job.backend.name
  category := job.category

/-! ## The archive of a run -/

/-- The archive that was provided, if it is at a location. -/
def providedAt? (job : FetchJob) (location : String) : Option ArchiveManager :=
  job.provided.filter fun archive => !location.isEmpty && archive.location == location

/-- Binds the archive at a location: the one that was provided, or else one that is opened now. -/
def initializeArchive (job : FetchJob) (location : String) (w : Workspace) :
    Except JobError Unit × FetchJob × Workspace :=
  match job.providedAt? location with
  | some archive => (.ok (), { job with archive := some archive }, w)
  | none =>
    let (r, archives) := ArchiveManager.openAt location w.archives
    let w := { w with archives }
    match r with
    | .error e => (.error e, job, w)
    | .ok archive => (.ok (), { job with archive := some archive }, w)

/-- How a run comes by its items. -/
def streamOptions (job : FetchJob) (archiveArgs : Option ArchiveArgs) : StreamOptions where
  archive := job.archive
  fromArchive := archiveArgs.any ArchiveArgs.fromArchive
  archivedAfter := archiveArgs.bind ArchiveArgs.replayBound

/-! ## Runs -/

variable {Q : Type} [ItemQueue Q]

/-- What a stream item becomes in the queue. -/
def stamp (job : FetchJob) (item : Item) : Item := item.annotate runnerVersion job.jobId

/-- Forwards all items of a stream to the queue, and gives the summary for the result. -/
def forward (job : FetchJob) (s : ItemStream) (summary : Option FetchSummary) (o : Outside Q) :
    Except JobError Unit × Option FetchSummary × Outside Q :=
  match _h : s.next o.workspace with
  | (none, s', workspace) => (.ok (), s'.summary, { o with workspace })
  | (some (.error e), s', workspace) => (.error (.backend e), s'.summary, { o with workspace })
  | (some (.ok item), s', workspace) =>
    match ItemQueue.push o.queue job.itemsQueue (job.stamp item).toBytes with
    -- the stream has counted the refused item already, so the summary before it stays
    | (.error e, queue) => (.error (.queue e), summary, { queue, workspace })
    | (.ok (), queue) => job.forward s' s'.summary { queue, workspace }
termination_by s.left
decreasing_by exact ItemStream.lt_of_next_eq_item _h

/-- Begins a stream and forwards its items. -/
def streamItems (job : FetchJob) (args : BackendArgs) (options : StreamOptions) (o : Outside Q) :
    Except JobError Unit × Option FetchSummary × Outside Q :=
  match ItemStream.start job.backend args job.category options o.workspace with
  | (.error e, workspace) => (.error (.backend e), none, { o with workspace })
  | (.ok s, workspace) => job.forward s none { o with workspace }

/-- The state after a run. -/
def stateAfter : Except JobError Unit → RunState
  | .ok () => .completed
  | .error _ => .failed

/-- Runs the stream of a job whose archive is bound. -/
def runStream (job : FetchJob) (args : BackendArgs) (archiveArgs : Option ArchiveArgs)
    (o : Outside Q) : Except JobError Unit × FetchJob × Outside Q :=
  let (r, summary, o) := job.streamItems args (job.streamOptions archiveArgs) o
  (r, { job with result := { job.blankResult with summary }, state := stateAfter r }, o)

/-- Runs a job. An archive that cannot be opened ends the run before there is a new result. -/
def run (job : FetchJob) (args : BackendArgs) (archiveArgs : Option ArchiveArgs) (o : Outside Q) :
    Except JobError Unit × FetchJob × Outside Q :=
  let job := { job with archive := none, state := .initializing }
  match archiveArgs with
  | none => job.runStream args archiveArgs o
  | some a =>
    match job.initializeArchive a.path o.workspace with
    | (.error e, job, workspace) =>
      (.error e, { job with state := .failed }, { o with workspace })
    | (.ok (), job, workspace) => job.runStream args archiveArgs { o with workspace }

end FetchJob

end Intake
