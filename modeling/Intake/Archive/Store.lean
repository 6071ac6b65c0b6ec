import Intake.Archive.Directory
import Intake.Archive.Memory

/-!
# Open stores

Archives are kept in stores, in memory or in a directory of the disk. All stores that are open stand
in one list and are known by their numbers; two stores on one directory share the disk and nothing
else.

A store may be limited: of one kind of call it answers only so many more, and refuses all after them
in its own name. This is how a store that breaks down is tried out.
-/

namespace Intake

/-- A store of archives. -/
inductive ArchiveStore where
  | memory (store : MemoryStore)
  | directory (store : DirectoryStore)

/-- The kinds of calls of a store. -/
inductive ArchiveCall where
  | create
  | store
  | retrieve
  | search
deriving DecidableEq

/-- The name of a kind of calls. -/
def ArchiveCall.name : ArchiveCall → String
  | .create => "create"
  | .store => "store"
  | .retrieve => "retrieve"
  | .search => "search"

/-- How many more calls of each kind a store answers, where there is a limit. -/
structure CallLimits where
  create : Option Nat := none
  store : Option Nat := none
  retrieve : Option Nat := none
  search : Option Nat := none
deriving DecidableEq

namespace CallLimits

/-- The limit on calls of one kind. -/
def get (l : CallLimits) : ArchiveCall → Option Nat
  | .create => l.create
  | .store => l.store
  | .retrieve => l.retrieve
  | .search => l.search

/-- The limits with another one on calls of one kind. -/
def set (l : CallLimits) (limit : Option Nat) : ArchiveCall → CallLimits
  | .create => { l with create := limit }
  | .store => { l with store := limit }
  | .retrieve => { l with retrieve := limit }
  | .search => { l with search := limit }

/-- The limits after one call; `none` if it is one too many. -/
def spend (l : CallLimits) (call : ArchiveCall) : Option CallLimits :=
  match l.get call with
  | none => some l
  | some 0 => none
  | some (n + 1) => some (l.set (some n) call)

end CallLimits

/-- An open store with its limits. -/
structure OpenStore where
  store : ArchiveStore
  limits : CallLimits := {}

/-- The open stores, and the disk under those that are in directories. -/
structure Archives where
  disk : Disk := {}
  stores : List OpenStore := []

/-- Work on archives. -/
abbrev ArchiveM := ExceptT ArchiveError (StateM Archives)

namespace Archives

/-- One more store; its number is how many there were before. -/
def add (a : Archives) (s : ArchiveStore) : Archives :=
  { a with stores := a.stores ++ [{ store := s }] }

/-- The archives with one store replaced. -/
def replace (a : Archives) (number : Nat) (s : OpenStore) : Archives :=
  { a with stores := a.stores.set number s }

/-- A call of one store: how it is done in memory, and how in a directory. -/
def call (number : Nat) (kind : ArchiveCall) (inMemory : MemoryM α)
    (inDirectory : DirectoryM α) : ArchiveM α := fun a =>
  match a.stores[number]? with
  | none => (.error (.storage "store is not open"), a)
  | some entry =>
    match entry.limits.spend kind with
    | none => (.error (.storage ("injected " ++ kind.name)), a)
    | some limits =>
      match entry.store with
      | .memory s =>
        let (r, s) := inMemory.run s
        (r, a.replace number ⟨.memory s, limits⟩)
      | .directory s =>
        let (r, (s, disk)) := inDirectory.run (s, a.disk)
        (r, { a with disk }.replace number ⟨.directory s, limits⟩)

/-- Adds a new archive to a store. -/
def create (number : Nat) (m : ArchiveMetadata) : ArchiveM Unit :=
  call number .create (MemoryStore.create m) (DirectoryStore.create m)

/-- Stores the response to a request in an archive. -/
def store (number : Nat) (archiveId : String) (request : Request) (body : String) :
    ArchiveM Unit :=
  call number .store (MemoryStore.store archiveId request body)
    (DirectoryStore.store archiveId request body)

/-- The response that an archive holds for a request. -/
def retrieve (number : Nat) (archiveId : String) (request : Request) : ArchiveM String :=
  call number .retrieve (MemoryStore.retrieve archiveId request)
    (DirectoryStore.retrieve archiveId request)

/-- The archives of a store that a query looks for, in their order. -/
def search (number : Nat) (query : ArchiveQuery) : ArchiveM (List ArchiveMetadata) :=
  call number .search (MemoryStore.search query) (DirectoryStore.search query)

/-- Opens a store in a directory, which is made if it is not there; gives the store's number. -/
def openDirectory (root : String) : ArchiveM Nat := fun a =>
  let (r, disk) := (Disk.makeDirectories root).run a.disk
  match r with
  | .error fault => (.error (.io fault), { a with disk })
  | .ok () => (.ok a.stores.length, { a with disk }.add (.directory { root }))

/-- The archives with calls of one kind limited at one store, or not limited any more. -/
def limit (a : Archives) (number : Nat) (kind : ArchiveCall) (calls : Option Nat) : Archives :=
  match a.stores[number]? with
  | none => a
  | some entry => a.replace number { entry with limits := entry.limits.set calls kind }

end Archives

end Intake
