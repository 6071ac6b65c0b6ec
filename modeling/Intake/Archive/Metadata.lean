import Intake.Wire.Record

/-!
# Descriptions of archives

An archive is what one fetch recorded. Its description says which backend ran, with which
arguments, and when; replay builds the backend anew from it. Archives are found by a query and
come in the order in which they were made, those of one instant in the order of their identifiers.
-/

namespace Intake

/-- The arguments of a backend, which only the backend understands. -/
abbrev BackendArgs := Keyed Json

/-- The description of an archive. -/
structure ArchiveMetadata where
  archiveId : String
  origin : String
  backendName : String
  backendVersion : String
  category : String
  /-- The arguments that the backend ran with. -/
  backendArgs : BackendArgs
  createdAt : Instant
deriving BEq

namespace ArchiveMetadata

/-- The document of a description. -/
def wire : Wire ArchiveMetadata :=
  ((Fields.cons (.required "archive_id" .text) <|
    .cons (.required "origin" .text) <|
    .cons (.required "backend_name" .text) <|
    .cons (.required "backend_version" .text) <|
    .cons (.required "category" .text) <|
    .cons (.required "backend_args" .object) <|
    .last (.required "created_at" .instant)).record "ArchiveMetadata").via
    (fun (archiveId, origin, backendName, backendVersion, category, backendArgs, createdAt) =>
      { archiveId, origin, backendName, backendVersion, category, backendArgs, createdAt })
    (fun m => (m.archiveId, m.origin, m.backendName, m.backendVersion, m.category, m.backendArgs,
      m.createdAt))

/-- Whether one archive comes before another one or is the same: the older one first, and of two
made at one instant the one with the lesser identifier. -/
def comesFirst (a b : ArchiveMetadata) : Bool :=
  a.createdAt < b.createdAt || (a.createdAt == b.createdAt && a.archiveId ≤ b.archiveId)

end ArchiveMetadata

/-- What archives are looked for. -/
structure ArchiveQuery where
  origin : String
  backendName : String
  category : String
  /-- Only archives made at this instant or later. -/
  archivedAfter : Option Instant := none
deriving DecidableEq

namespace ArchiveQuery

/-- Whether an archive is one of those looked for. -/
def accepts (q : ArchiveQuery) (m : ArchiveMetadata) : Bool :=
  m.origin == q.origin && m.backendName == q.backendName && m.category == q.category
    && q.archivedAfter.all (· ≤ m.createdAt)

/-- The archives looked for, in their order. -/
def select (q : ArchiveQuery) (archives : List ArchiveMetadata) : List ArchiveMetadata :=
  (archives.filter q.accepts).mergeSort ArchiveMetadata.comesFirst

end ArchiveQuery

end Intake
