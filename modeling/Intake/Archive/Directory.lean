import Intake.Archive.Disk
import Intake.Archive.Metadata
import Intake.Request

/-!
# Archives in a directory

A store that keeps each archive in a directory of its own below a root, named by the archive's
identifier. In it stand the description of the archive, as a document over several lines, and the
log of its responses, one document to a line with the key of the request and the body.

The log only grows. Of the responses under one key the first one counts. A store reads the log of
an archive when it first looks for a response in it, keeps the responses by their keys, and reads
the log again when it does not find a key: another store on the same directory may have added to
it.
-/

namespace Intake

/-- The file with the description of an archive. -/
def metadataFile : String := "metadata.json"

/-- The file with the responses of an archive. -/
def responsesFile : String := "responses.jsonl"

/-- One line of the log of responses. -/
structure LoggedResponse where
  key : String
  body : String
deriving DecidableEq

/-- The document of a line. -/
def LoggedResponse.wire : Wire LoggedResponse :=
  ((Fields.cons (.required "key" .text) <|
    .last (.required "body" .text)).record "StoredResponse").via
    (fun (key, body) => { key, body })
    (fun r => (r.key, r.body))

/-- A store in a directory: where it is, and the responses of the archives that were read. -/
structure DirectoryStore where
  root : String
  index : Keyed (Keyed String) := .empty

/-- Work on a store in a directory and on the disk that holds the directory. -/
abbrev DirectoryM := ExceptT ArchiveError (StateM (DirectoryStore × Disk))

/-! ## The log -/

namespace ResponseLog

/-- The lines of a text, without the ends of lines; `reversed` is the front of the first line,
backwards. -/
def linesFrom (reversed : List UInt8) : List UInt8 → List (List UInt8)
  | [] => if reversed.isEmpty then [] else [reversed.reverse]
  | 10 :: rest =>
    -- a carriage return just before the end of a line belongs to that end
    let line := match reversed with
      | 13 :: front => front.reverse
      | _ => reversed.reverse
    line :: linesFrom [] rest
  | b :: rest => linesFrom (b :: reversed) rest

/-- The responses of some lines added to those known, the first one under each key being kept. Empty
lines are passed over. -/
def readLines (known : Keyed String) : List (List UInt8) → Except ArchiveError (Keyed String)
  | [] => .ok known
  | line :: rest =>
    match String.fromUTF8? ⟨line.toArray⟩ with
    | none => .error (.io .notText)
    | some text =>
      if text.isEmpty then readLines known rest
      else
        match LoggedResponse.wire.ofString text with
        | .error e => .error (.serialization e.message)
        | .ok r => readLines (known.insertNew r.key r.body) rest

/-- The responses of a log by their keys. -/
def read (log : ByteArray) : Except ArchiveError (Keyed String) :=
  readLines .empty (linesFrom [] log.data.toList)

/-- The line that is added for a response. -/
def line (r : LoggedResponse) : ByteArray := (LoggedResponse.wire.encode r ++ "\n").toUTF8

end ResponseLog

/-! ## The store -/

namespace DirectoryStore

/-- Work on the disk; `asError` is what a fault means for the archive. -/
def onDisk (work : DiskM α) (asError : IoFault → ArchiveError := .io) : DirectoryM α :=
  fun (s, d) =>
  let (r, d) := work.run d
  (r.mapError asError, (s, d))

/-- A result that was reached without the store. -/
def ofResult (r : Except ArchiveError α) : DirectoryM α := fun state => (r, state)

/-- The directory of an archive. -/
def directoryOf (s : DirectoryStore) (archiveId : String) : String := Disk.join s.root archiveId

/-- The directory of an archive that is there. -/
def find (archiveId : String) : DirectoryM String := do
  let (s, d) ← get
  let directory := s.directoryOf archiveId
  if d.isFile (Disk.join directory metadataFile) then return directory
  else throw (.archiveNotFound archiveId)

/-- Why the directory of an archive cannot be made. -/
def creationError (archiveId : String) : IoFault → ArchiveError
  | .fileExists => .storage ("archive already exists: " ++ archiveId)
  | fault => .io fault

/-- Adds a new archive without responses. -/
def create (m : ArchiveMetadata) : DirectoryM Unit := do
  let directory := (← get).1.directoryOf m.archiveId
  onDisk (Disk.makeDirectory directory) (creationError m.archiveId)
  let document := (ArchiveMetadata.wire.write m).pretty
  onDisk (Disk.overwrite (Disk.join directory metadataFile) document.toUTF8)
  -- the log is made at once, since responses are only added to a log that is there
  onDisk (Disk.overwrite (Disk.join directory responsesFile) ByteArray.empty)

/-- The index with one more response of an archive, if that archive was read. -/
def note (s : DirectoryStore) (archiveId : String) (r : LoggedResponse) : DirectoryStore :=
  match s.index.get? archiveId with
  | none => s
  | some known => { s with index := s.index.insert archiveId (known.insertNew r.key r.body) }

/-- Stores the response to a request. -/
def store (archiveId : String) (request : Request) (body : String) : DirectoryM Unit := do
  let directory ← find archiveId
  let r : LoggedResponse := ⟨request.archiveKey, body⟩
  onDisk (Disk.extend (Disk.join directory responsesFile) (ResponseLog.line r))
  modify fun (s, d) => (s.note archiveId r, d)

/-- The response under a key, if the archive was read and has it. -/
def known? (s : DirectoryStore) (archiveId key : String) : Option String :=
  (s.index.get? archiveId) >>= (·.get? key)

/-- The response stored for a request. -/
def retrieve (archiveId : String) (request : Request) : DirectoryM String := do
  let key := request.archiveKey
  match (← get).1.known? archiveId key with
  | some body => return body
  | none =>
    let directory ← find archiveId
    let log ← onDisk (Disk.content (Disk.join directory responsesFile))
    let responses ← ofResult (ResponseLog.read log)
    -- also a log without the key is kept: it may have others that are asked for later
    modify fun (s, d) => ({ s with index := s.index.insert archiveId responses }, d)
    match responses.get? key with
    | some body => return body
    | none => throw (.responseNotFound key)

/-- The description of the archive in a directory, if it has one that can be read. -/
def describe? (d : Disk) (directory : String) : Option ArchiveMetadata :=
  match d.stat (Disk.join directory metadataFile) with
  | .ok (_, .file content) => (ArchiveMetadata.wire.ofBytes content).toOption
  | _ => none

/-- The archives that a query looks for, in their order. -/
def search (query : ArchiveQuery) : DirectoryM (List ArchiveMetadata) := do
  let (s, d) ← get
  let names ← onDisk (Disk.list s.root)
  return query.select (names.filterMap fun name => describe? d (Disk.join s.root name))

end DirectoryStore

end Intake
