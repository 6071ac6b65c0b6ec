/-!
# Failures

What can go wrong with a fetch job, by the part that it goes wrong in: the archive, the backend, the
queue, the metadata of the job, the job itself. A failure of an inner part is a case of the outer
part's failures and keeps its message there. `message` is the failure in words.
-/

namespace Intake

/-- Why the file system refuses. -/
inductive IoFault where
  | noSuchFile
  | fileExists
  | notADirectory
  | isADirectory
  | nameTooLong
  | nulInName
  | notText
  /-- A fault that the file system tells in its own words. -/
  | other (text : String)
deriving DecidableEq

/-- The fault in words. -/
def IoFault.message : IoFault → String
  | .noSuchFile => "No such file or directory (os error 2)"
  | .fileExists => "File exists (os error 17)"
  | .notADirectory => "Not a directory (os error 20)"
  | .isADirectory => "Is a directory (os error 21)"
  | .nameTooLong => "File name too long (os error 36)"
  | .nulInName => "file name contained an unexpected NUL byte"
  | .notText => "stream did not contain valid UTF-8"
  | .other text => text

/-- A failure of an archive store. -/
inductive ArchiveError where
  | io (fault : IoFault)
  | serialization (why : String)
  | archiveNotFound (archiveId : String)
  /-- Nothing is stored under the key of a request. -/
  | responseNotFound (key : String)
  | storage (why : String)
deriving DecidableEq

/-- The failure in words. -/
def ArchiveError.message : ArchiveError → String
  | .io fault => "archive I/O error: " ++ fault.message
  | .serialization why => "archive serialization error: " ++ why
  | .archiveNotFound id => "archive not found: " ++ id
  | .responseNotFound key => "no archived response for " ++ key
  | .storage why => "archive storage error: " ++ why

/-- A failure of a backend or of what feeds it. -/
inductive BackendError where
  /-- The backend could not make sense of its arguments or of a response. -/
  | fetch (why : String)
  /-- The data source could not be reached; the reasons from the outermost to the root. -/
  | transport (reasons : List String)
  | unsupportedCategory (backend category : String)
  /-- Replay was asked for without an archive. -/
  | archiveRequired
  | archive (cause : ArchiveError)
deriving DecidableEq

/-- The failure in words. -/
def BackendError.message : BackendError → String
  | .fetch why => "fetch failed: " ++ why
  | .transport reasons => "transport error: " ++ ": ".intercalate reasons
  | .unsupportedCategory backend category =>
    s!"category '{category}' not supported by backend '{backend}'"
  | .archiveRequired => "fetching from the archive requires an archive manager"
  | .archive cause => cause.message

/-- A failure of an item queue. -/
inductive QueueError where
  | serialization (why : String)
  | connection (why : String)
  | command (why : String)
deriving DecidableEq

/-- The failure in words. -/
def QueueError.message : QueueError → String
  | .serialization why => "queue serialization error: " ++ why
  | .connection why => "queue connection error: " ++ why
  | .command why => "queue command error: " ++ why

/-- A failure of a store of job metadata. -/
inductive MetaError where
  | serialization (why : String)
  | connection (why : String)
  | command (why : String)
  | storage (why : String)
deriving DecidableEq

/-- The failure in words. -/
def MetaError.message : MetaError → String
  | .serialization why => "metadata serialization error: " ++ why
  | .connection why => "metadata connection error: " ++ why
  | .command why => "metadata command error: " ++ why
  | .storage why => "metadata storage error: " ++ why

/-- A failure of a fetch job. The first three are mistakes of the caller, found before any item is
produced; the others happen while the job runs. -/
inductive JobError where
  | notFound (element : String)
  | invalidArgument (why : String)
  | unsupportedOperation (why : String)
  | backend (cause : BackendError)
  | queue (cause : QueueError)
  | archive (cause : ArchiveError)
deriving DecidableEq

/-- The failure in words. -/
def JobError.message : JobError → String
  | .notFound element => element ++ " not found"
  | .invalidArgument why => "invalid argument: " ++ why
  | .unsupportedOperation why => "unsupported operation: " ++ why
  | .backend cause => cause.message
  | .queue cause => cause.message
  | .archive cause => cause.message

/-- Whether the job was running when it failed, so that it may be tried again. -/
def JobError.isRunFailure : JobError → Bool
  | .backend _ | .queue _ | .archive _ => true
  | .notFound _ | .invalidArgument _ | .unsupportedOperation _ => false

/-- Whether the job was asked for what its backend cannot do. -/
def JobError.isUnsupported : JobError → Bool
  | .unsupportedOperation _ => true
  | _ => false

end Intake
