import Intake.Archive.Manager
import Intake.Job.Metadata
import Intake.Queue

/-!
# What a job works with

A worker has queues, a store for the documents of jobs, and a workspace with archives. A job is run
within its context: its identifier and its document as the job changes it.
-/

namespace Intake

/-- What the jobs of a worker share. -/
structure Worker (Q M : Type) where
  queue : Q
  documents : M
  workspace : Workspace

/-- The identifier and the document of a job. -/
structure JobContext where
  jobId : JobId
  document : JobMeta := .empty

namespace JobContext

/-- The context with a document that was saved before. -/
def withDocument (c : JobContext) (document : JobMeta) : JobContext := { c with document }

/-- The context with one member of the document replaced. -/
def insert (c : JobContext) (key : String) (value : Json) : JobContext :=
  { c with document := c.document.insert key value }

/-- Saves the document. -/
def save {M : Type} [MetaStore M] (c : JobContext) (s : M) : Except MetaError Unit × M :=
  MetaStore.save s c.jobId c.document

end JobContext

end Intake
