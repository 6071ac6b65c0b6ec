import Intake.Wire.Record

/-!
# How a run uses an archive

A run records the responses it gets into the archive at a path, or replays those that are stored
there, perhaps only from archives made since an instant.
-/

namespace Intake

/-- What a run is to do with an archive. -/
structure ArchiveArgs where
  path : String
  /-- Whether stored responses are replayed and the source is left alone. -/
  fromArchive : Bool := false
  /-- Replay only archives made at this instant or later. -/
  archivedAfter : Option Instant := none
deriving DecidableEq

namespace ArchiveArgs

/-- Record into the archive at a path. -/
def capture (path : String) : ArchiveArgs := { path }

/-- Replay the archive at a path. -/
def replay (path : String) (archivedAfter : Option Instant) : ArchiveArgs :=
  { path, fromArchive := true, archivedAfter }

/-- The bound on the archives to replay, which means nothing to a run that records. -/
def replayBound (a : ArchiveArgs) : Option Instant :=
  if a.fromArchive then a.archivedAfter else none

/-- The document of the settings. -/
def wire : Wire ArchiveArgs :=
  ((Fields.cons (.required "archive_path" .text) <|
    .cons (.defaulted "fetch_from_archive" .boolean false) <|
    .last (.omittable "archived_after" .instant)).record "ArchiveArgs").via
    (fun (path, fromArchive, archivedAfter) => { path, fromArchive, archivedAfter })
    (fun a => (a.path, a.fromArchive, a.archivedAfter))

end ArchiveArgs

end Intake
