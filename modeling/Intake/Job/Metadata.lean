import Intake.Error
import Intake.Id
import Intake.Json.Value

/-!
# Metadata of jobs

Beside its items a job has a small document that outlives it; a job that failed leaves its partial
result there. Stores keep one document for each job: saving replaces the document before.
-/

namespace Intake

/-- The document of a job. -/
abbrev JobMeta := Keyed Json

/-- Stores of the documents of jobs. -/
class MetaStore (M : Type) where
  /-- Saves the document of a job in the place of the one before. -/
  save : M → JobId → JobMeta → Except MetaError Unit × M
  /-- The document that was saved for a job. -/
  load : M → JobId → Except MetaError (Option JobMeta)

/-- Documents in memory: every one that was saved, from the latest to the first. -/
structure MemoryMeta where
  saved : List (JobId × JobMeta) := []
  /-- Why nothing can be saved, if so; this is how a store that breaks down is tried out. -/
  refusal : Option MetaError := none

namespace MemoryMeta

/-- How many documents were saved. -/
def saveCount (s : MemoryMeta) : Nat := s.saved.length

/-- Saves the document of a job. -/
def save (s : MemoryMeta) (id : JobId) (document : JobMeta) : Except MetaError Unit × MemoryMeta :=
  match s.refusal with
  | some e => (.error e, s)
  | none => (.ok (), { s with saved := (id, document) :: s.saved })

/-- The latest document of a job. -/
def find? (s : MemoryMeta) (id : JobId) : Option JobMeta := s.saved.lookup id

instance : MetaStore MemoryMeta := ⟨save, fun s id => .ok (s.find? id)⟩

end MemoryMeta

end Intake
