import Intake.Job.Context
import Intake.Job.Fetch
import Intake.Text.Quoted

/-!
# Values as a log shows them

In a log a value stands with its kind and its parts by name, and two points stand for parts that are
not told. Texts are between quotes.
-/

namespace Intake

namespace Text

/-- Parts between an opening and a closing mark. -/
def listed (opening : String) (parts : List String) (closing : String) : String :=
  opening ++ ", ".intercalate parts ++ closing

/-- The parts of a value by name. -/
def named (parts : List (String × String)) : List String :=
  parts.map fun (name, part) => name ++ ": " ++ part

/-- A value with all of its parts. -/
def shown (kind : String) (parts : List (String × String)) : String :=
  listed (kind ++ " \x7b ") (named parts) " \x7d"

/-- A value with some of its parts. -/
def shownInPart (kind : String) (parts : List (String × String)) : String :=
  listed (kind ++ " \x7b ") (named parts ++ [".."]) " \x7d"

end Text

open Text (quoted listed named shown shownInPart)

/-! ## Documents -/

namespace Json.Tree

mutual

/-- A document with the kind of each of its values. -/
def inspect : Tree → String
  | .null => "Null"
  | .bool b => listed "Bool(" [toString b] ")"
  | .number n => listed "Number(" [n.text] ")"
  | .text s => listed "String(" [quoted s] ")"
  | .array xs => listed "Array [" (inspectItems xs) "]"
  | .object ms => listed "Object \x7b" (inspectMembers ms) "\x7d"

/-- The items of an array. -/
def inspectItems : List Tree → List String
  | [] => []
  | x :: xs => x.inspect :: inspectItems xs

/-- The members of an object with their keys. -/
def inspectMembers : List (String × Tree) → List String
  | [] => []
  | (k, x) :: ms => (quoted k ++ ": " ++ x.inspect) :: inspectMembers ms

end

end Json.Tree

/-! ## Backends and streams -/

/-- The capabilities of a backend. -/
def Capabilities.inspect (c : Capabilities) : String :=
  shown "Capabilities" [("archiving", toString c.archiving), ("resuming", toString c.resuming)]

/-- A backend. -/
def Backend.inspect (b : Backend) : String :=
  shown "BackendHandle" [
    ("name", quoted b.name),
    ("version", quoted b.version),
    ("categories", listed "[" (b.categories.map quoted) "]"),
    ("capabilities", b.capabilities.inspect)]

/-- A backend ready to fetch. -/
def BackendInstance.inspect (b : BackendInstance) : String :=
  shownInPart "BackendInstance" [("origin", quoted b.origin)]

/-- Access to a store. -/
def ArchiveManager.inspect (m : ArchiveManager) : String :=
  shownInPart "ArchiveManager" [("location", quoted m.location)]

/-- The name of a way to come by responses. -/
def SourceMode.name : SourceMode → String
  | .live => "live"
  | .recording _ _ => "recording"
  | .replay _ _ => "replay"

/-- The source of the responses of a fetch. -/
def ResponseSource.inspect (s : ResponseSource) : String :=
  shown "ResponseSource" [("mode", quoted s.mode.name)]

/-- The name of the state of a stream. -/
def StreamState.name : StreamState → String
  | .streaming => "Streaming"
  | .exhausted => "Exhausted"
  | .failed => "Failed"

/-- A stream of items. -/
def ItemStream.inspect (s : ItemStream) : String :=
  shownInPart "ItemStream" [
    ("backend", quoted s.backend.name),
    ("category", quoted s.category),
    ("state", s.state.name),
    ("pending_archives", toString s.pending.length)]

/-! ## Jobs -/

/-- The identifier of a job. -/
def JobId.inspect (id : JobId) : String := listed "JobId(" [id.text] ")"

/-- The name of a task. -/
def TaskId.inspect (id : TaskId) : String := listed "TaskId(" [quoted id.text] ")"

/-- The name of the state of a run. -/
def RunState.name : RunState → String
  | .idle => "Idle"
  | .initializing => "Initializing"
  | .streaming => "Streaming"
  | .completed => "Completed"
  | .failed => "Failed"

/-- A fetch job. -/
def FetchJob.inspect (job : FetchJob) : String :=
  shownInPart "FetchJob" [
    ("job_id", job.jobId.inspect),
    ("task_id", job.taskId.inspect),
    ("backend", quoted job.backend.name),
    ("category", quoted job.category),
    ("items_queue", quoted job.itemsQueue),
    ("state", job.state.name)]

/-- The context of a job. -/
def JobContext.inspect (c : JobContext) : String :=
  let members := c.document.toList.map fun (k, x) => quoted k ++ ": " ++ x.tree.inspect
  shownInPart "JobContext" [
    ("job_id", c.jobId.inspect),
    ("meta", listed "\x7b" members "\x7d")]

end Intake
