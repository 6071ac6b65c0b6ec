import Intake.Archive.Metadata
import Intake.Error
import Intake.Request

/-!
# Archives in memory

A store that keeps its archives in a map. Of the responses to one request the first one stored is
kept.
-/

namespace Intake

/-- An archive: its description, and the responses under the keys of their requests. -/
structure StoredArchive where
  description : ArchiveMetadata
  responses : Keyed String := .empty

/-- Archives by their identifiers. -/
structure MemoryStore where
  archives : Keyed StoredArchive := .empty

/-- Work on a store in memory. -/
abbrev MemoryM := ExceptT ArchiveError (StateM MemoryStore)

namespace MemoryStore

/-- The archive with an identifier. -/
def find (archiveId : String) : MemoryM StoredArchive := do
  match (← get).archives.get? archiveId with
  | some a => return a
  | none => throw (.archiveNotFound archiveId)

/-- Adds a new archive without responses. -/
def create (m : ArchiveMetadata) : MemoryM Unit := do
  let s ← get
  if s.archives.contains m.archiveId then
    throw (.storage ("archive already exists: " ++ m.archiveId))
  set (MemoryStore.mk (s.archives.insert m.archiveId { description := m }))

/-- Stores the response to a request, unless there is one. -/
def store (archiveId : String) (request : Request) (body : String) : MemoryM Unit := do
  let a ← find archiveId
  let a := { a with responses := a.responses.insertNew request.archiveKey body }
  modify fun s => ⟨s.archives.insert archiveId a⟩

/-- The response stored for a request. -/
def retrieve (archiveId : String) (request : Request) : MemoryM String := do
  let a ← find archiveId
  match a.responses.get? request.archiveKey with
  | some body => return body
  | none => throw (.responseNotFound request.archiveKey)

/-- The archives that a query looks for, in their order. -/
def search (query : ArchiveQuery) : MemoryM (List ArchiveMetadata) := do
  return query.select ((← get).archives.values.map (·.description))

/-- How many responses an archive holds. -/
def responseCount (s : MemoryStore) (archiveId : String) : Nat :=
  (s.archives.get? archiveId).elim 0 (·.responses.size)

end MemoryStore

end Intake
