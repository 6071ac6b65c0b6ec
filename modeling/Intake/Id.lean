import Intake.Error
import Intake.Wire.Format

/-!
# Identifiers of jobs and tasks

A job has a UUID, which the runtime that starts it gives it. A task is named by whoever schedules
it, with any text.
-/

namespace Intake

/-- The identifier of a job. -/
structure JobId where
  uuid : Uuid
deriving DecidableEq

namespace JobId

/-- The written form. -/
def text (id : JobId) : String := id.uuid.text

/-- Reads an identifier in any spelling of a UUID. -/
def parse (s : String) : Except JobError JobId :=
  match Uuid.parse s with
  | .ok u => .ok ⟨u⟩
  | .error e => .error (.invalidArgument ("JobId: " ++ e.message))

/-- An identifier is a string in a document. -/
def wire : Wire JobId := Wire.uuid.via JobId.mk JobId.uuid

end JobId

/-- The identifier of the task that a job belongs to. -/
structure TaskId where
  text : String
deriving DecidableEq

namespace TaskId

/-- A task's name is a string in a document. -/
def wire : Wire TaskId := Wire.text.via TaskId.mk TaskId.text

/-- Tasks are ordered by their names. -/
def compare (a b : TaskId) : Ordering := Ord.compare a.text b.text

end TaskId

end Intake
