import Intake.Archive.Store
import Intake.Backend.Basic
import Intake.Supply

/-!
# Archive managers

A job reaches archives through a manager, which knows one open store and where it is. Managers of
one store share it.

What a fetch works on beside its data source is a workspace: the archives, the clock and fresh
identifiers.
-/

namespace Intake

/-- The archives, the clock and fresh identifiers. -/
structure Workspace where
  archives : Archives := {}
  supply : Supply

/-- Access to an open store. -/
structure ArchiveManager where
  location : String
  /-- The number of the store. -/
  store : Nat
deriving DecidableEq

namespace ArchiveManager

/-- Opens the archives in a directory, which is made if it is not there. An empty path is
refused. -/
def openAt (location : String) (a : Archives) : Except JobError ArchiveManager × Archives :=
  if location.isEmpty then
    (.error (.invalidArgument "archive manager path cannot be empty"), a)
  else
    let (r, a) := (Archives.openDirectory location).run a
    (match r with
      | .ok number => .ok ⟨location, number⟩
      | .error e => .error (.archive e), a)

/-- Starts a new archive for a fetch. -/
def createArchive (m : ArchiveManager) (origin : String) (backend : Backend) (category : String)
    (args : BackendArgs) (w : Workspace) : Except ArchiveError ArchiveMetadata × Workspace :=
  let (id, supply) := w.supply.fresh
  let (time, supply) := supply.now
  let description : ArchiveMetadata :=
    { archiveId := id.text, origin, backendName := backend.name, backendVersion := backend.version
      category, backendArgs := args, createdAt := time }
  let (r, archives) := (Archives.create m.store description).run w.archives
  (r.map fun _ => description, { archives, supply })

/-- Stores the response to a request in an archive. -/
def record (m : ArchiveManager) (archiveId : String) (request : Request) (body : String)
    (w : Workspace) : Except ArchiveError Unit × Workspace :=
  let (r, archives) := (Archives.store m.store archiveId request body).run w.archives
  (r, { w with archives })

/-- The response that an archive holds for a request. -/
def retrieve (m : ArchiveManager) (archiveId : String) (request : Request) (w : Workspace) :
    Except ArchiveError String × Workspace :=
  let (r, archives) := (Archives.retrieve m.store archiveId request).run w.archives
  (r, { w with archives })

/-- The archives that a query looks for, in their order. -/
def search (m : ArchiveManager) (query : ArchiveQuery) (w : Workspace) :
    Except ArchiveError (List ArchiveMetadata) × Workspace :=
  let (r, archives) := (Archives.search m.store query).run w.archives
  (r, { w with archives })

end ArchiveManager

end Intake
