import Intake.Archive.Manager

/-!
# Where responses come from

A fetch asks its source. A live source asks the data source; a recording one does the same and
stores each response in an archive; a replaying one takes the responses from an archive and leaves
the data source alone.
-/

namespace Intake

/-- How a source comes by its responses. -/
inductive SourceMode where
  | live
  | recording (archive : ArchiveManager) (archiveId : String)
  | replay (archive : ArchiveManager) (archiveId : String)
deriving DecidableEq

/-- The source of the responses of a fetch. -/
structure ResponseSource where
  transport : Transport
  mode : SourceMode
  /-- The requests that the data source was asked, from the latest to the first. -/
  asked : List Request := []

namespace ResponseSource

/-- Whether responses are taken from an archive. -/
def isReplay (s : ResponseSource) : Bool :=
  match s.mode with
  | .replay _ _ => true
  | _ => false

/-- Asks the data source. -/
def askTransport (s : ResponseSource) (request : Request) :
    Except BackendError String × ResponseSource :=
  (s.transport s.asked request, { s with asked := request :: s.asked })

/-- The response to a request. -/
def fetch (s : ResponseSource) (request : Request) (w : Workspace) :
    Except BackendError String × ResponseSource × Workspace :=
  match s.mode with
  | .live =>
    let (r, s) := s.askTransport request
    (r, s, w)
  | .recording archive archiveId =>
    match s.askTransport request with
    | (.error e, s) => (.error e, s, w)
    | (.ok body, s) =>
      let (r, w) := archive.record archiveId request body w
      ((r.map fun _ => body).mapError .archive, s, w)
  | .replay archive archiveId =>
    let (r, w) := archive.retrieve archiveId request w
    (r.mapError .archive, s, w)

end ResponseSource

end Intake
