import Intake.Archive.Store
import Intake.Proofs.Archive.Files
import Intake.Proofs.Archive.Log

/-!
# What one store does in its directory

The lemmas here say of each call of a store what it answers and what it leaves, as the cases of its
run: storing adds a line to the log of the archive (`DirectoryStore.store_cases`), retrieving looks
into the index and reads the log if the key is not there (`DirectoryStore.retrieve_run`), and
creating an archive leaves the logs of all others as they are (`DirectoryStore.Created.keepsLogs`).
-/

namespace Intake

open Disk

theorem isFileName_metadataFile : IsFileName metadataFile := by
  constructor <;> decide

theorem isFileName_responsesFile : IsFileName responsesFile := by
  constructor <;> decide

/-! ## Logs on a disk -/

namespace Disk

variable {d d' : Disk}

/-- The log of the archive at a place, if there is one. -/
def logAt (d : Disk) (at_ : Place) : Option ByteArray :=
  match d.node? (at_ ++ [responsesFile]) with
  | some (.file content) => some content
  | _ => none

theorem logAt_eq_some {at_ : Place} {log : ByteArray} :
    d.logAt at_ = some log ↔ d.node? (at_ ++ [responsesFile]) = some (.file log) := by
  unfold logAt
  split
  · rename_i content h
    rw [h, Option.some.injEq, Option.some.injEq, Node.file.injEq]
  · rename_i h
    constructor
    · intro hlog
      cases hlog
    · intro hnode
      exact absurd hnode (h log)

/-- The disk has grown and the logs in it are what they were; the new ones are empty. -/
structure KeepsLogs (d d' : Disk) : Prop where
  grown : d.Extends d'
  kept : ∀ {at_}, IsPlace at_ → d.node? at_ = some .directory → ∀ log,
    d.logAt at_ = some log → d'.logAt at_ = some log
  fresh : ∀ {at_}, IsPlace at_ → ∀ log, d'.logAt at_ = some log →
    d.logAt at_ = some log ∨ log = ByteArray.empty

theorem KeepsLogs.refl (d : Disk) : d.KeepsLogs d :=
  ⟨.refl d, fun _ _ _ h => h, fun _ _ h => .inl h⟩

theorem SameFiles.keepsLogs (h : d.SameFiles d') : d.KeepsLogs d' where
  grown := h.extends
  kept hat _ log hlog := by
    rw [logAt_eq_some] at hlog ⊢
    exact (h.file (hat.concat isFileName_responsesFile.slash) log).mpr hlog
  fresh hat log hlog := by
    rw [logAt_eq_some] at hlog ⊢
    exact .inl ((h.file (hat.concat isFileName_responsesFile.slash) log).mp hlog)

/-! ## What is put on a disk and the logs -/

theorem logAt_put {p at_ : Place} (hp : IsPlace p) (hroot : p ≠ []) (hat : IsPlace at_) (n : Node) :
    (d.put p n).logAt at_ = if at_ ++ [responsesFile] = p then
      match n with
      | .file content => some content
      | .directory => none
    else d.logAt at_ := by
  rw [logAt, node?_put d hp (hat.concat isFileName_responsesFile.slash) hroot]
  by_cases h : at_ ++ [responsesFile] = p
  · rw [if_pos h, if_pos h]
    cases n <;> rfl
  · rw [if_neg h, if_neg h]
    rfl

theorem logAt_put_directory {p at_ : Place} (hp : IsPlace p) (hroot : p ≠ [])
    (hnone : d.node? p = none) (hat : IsPlace at_) :
    (d.put p .directory).logAt at_ = d.logAt at_ := by
  rw [logAt_put hp hroot hat]
  split
  · rename_i heq
    rw [logAt, heq, hnone]
  · rfl

theorem logAt_put_other {p at_ : Place} (hp : IsPlace p) {name : String} (hname : '/' ∉ name.toList)
    (hne : name ≠ responsesFile) (hat : IsPlace at_) (n : Node) :
    (d.put (p ++ [name]) n).logAt at_ = d.logAt at_ := by
  rw [logAt_put (hp.concat hname) (by simp) hat, if_neg]
  intro heq
  have hlast := (List.append_inj' heq rfl).2
  exact hne (List.cons.inj hlast).1.symm

theorem logAt_put_log {p at_ : Place} (hp : IsPlace p) (hat : IsPlace at_) (log : ByteArray) :
    (d.put (p ++ [responsesFile]) (.file log)).logAt at_
      = if at_ = p then some log else d.logAt at_ := by
  rw [logAt_put (hp.concat isFileName_responsesFile.slash) (by simp) hat]
  by_cases heq : at_ = p
  · rw [if_pos heq, if_pos (by rw [heq])]
  · rw [if_neg heq, if_neg fun h => heq (List.append_inj' h rfl).1]

/-- A disk that has grown keeps its logs if only one of them is new, where no directory stood. -/
theorem keepsLogs_of_new {p : Place} (hgrown : d.Extends d') (hnone : d.node? p = none)
    (hother : ∀ {at_}, IsPlace at_ → at_ ≠ p → d'.logAt at_ = d.logAt at_)
    (hnew : ∀ log, d'.logAt p = some log → d.logAt p = some log ∨ log = ByteArray.empty) :
    d.KeepsLogs d' where
  grown := hgrown
  kept {at_} hat hdir log hlog := by
    have hne : at_ ≠ p := by
      rintro rfl
      rw [hnone] at hdir
      cases hdir
    rw [hother hat hne]
    exact hlog
  fresh {at_} hat log hlog := by
    by_cases heq : at_ = p
    · subst heq
      exact hnew log hlog
    · rw [hother hat heq] at hlog
      exact .inl hlog

/-! ## Archives -/

/-- An archive at the end of a path: the directory that the path leads to, with a description and a
log. -/
structure Holds (d : Disk) (path : String) (at_ : Place) (log : ByteArray) : Prop where
  leads : d.LeadsTo path at_
  described : IsPath (join path metadataFile)
    ∧ ∃ content, d.node? (at_ ++ [metadataFile]) = some (.file content)
  logged : IsPath (join path responsesFile) ∧ d.logAt at_ = some log

/-- An archive is still there when the disk has grown. -/
theorem Extends.holds (h : d.Extends d') {path : String} {at_ : Place} {log : ByteArray}
    (hholds : d.Holds path at_ log) : ∃ new, d'.Holds path at_ new := by
  have hat := hholds.leads.isPlace
  obtain ⟨hdescribedPath, content, hfile⟩ := hholds.described
  obtain ⟨new, hnew⟩ := (h _ (hat.concat isFileName_responsesFile.slash)).2 log
    (logAt_eq_some.mp hholds.logged.2)
  exact ⟨new, h.leadsTo hholds.leads,
    ⟨hdescribedPath, (h _ (hat.concat isFileName_metadataFile.slash)).2 content hfile⟩,
    hholds.logged.1, logAt_eq_some.mpr hnew⟩

/-- What is in the log of an archive that is still there. -/
theorem Extends.holds_of_logAt (h : d.Extends d') {path : String} {at_ : Place}
    {log new : ByteArray} (hholds : d.Holds path at_ log) (hlog : d'.logAt at_ = some new) :
    d'.Holds path at_ new := by
  obtain ⟨found, hfound⟩ := h.holds hholds
  exact ⟨hfound.leads, hfound.described, hfound.logged.1, hlog⟩

/-- Writing the log of an archive is growing. -/
theorem Holds.extends_put_log {path : String} {at_ : Place} {log : ByteArray}
    (h : d.Holds path at_ log) (new : ByteArray) :
    d.Extends (d.put (at_ ++ [responsesFile]) (.file new)) := by
  refine extends_put (h.leads.isPlace.concat isFileName_responsesFile.slash) (by simp)
    (.inr ⟨?_, new, rfl⟩)
  rw [logAt_eq_some.mp h.logged.2]
  rintro ⟨⟩

theorem Holds.put_log {path : String} {at_ : Place} {log : ByteArray} (h : d.Holds path at_ log)
    (new : ByteArray) : (d.put (at_ ++ [responsesFile]) (.file new)).Holds path at_ new := by
  refine (h.extends_put_log new).holds_of_logAt h ?_
  rw [logAt_put_log h.leads.isPlace h.leads.isPlace, if_pos rfl]

/-- The description of an archive that is there is a file. -/
theorem Holds.isFile_metadataFile {path : String} {at_ : Place} {log : ByteArray}
    (h : d.Holds path at_ log) : d.isFile (join path metadataFile) = true := by
  obtain ⟨hpath, content, hfile⟩ := h.described
  exact (isFile_join isFileName_metadataFile).mpr ⟨hpath, at_, content, h.leads, hfile⟩

/-! ## A new archive -/

theorem IsNew.extends {path : String} {outer : Place} {name : String}
    (h : d.IsNew path outer name) : d.Extends (d.put (outer ++ [name]) .directory) :=
  extends_put (h.place.concat h.fileName.slash) (by simp) (.inl h.free)

/-- Putting a file where no directory stands is growing. -/
theorem extends_put_file {at_ : Place} {file : String} (hat : IsPlace (at_ ++ [file]))
    (h : d.node? (at_ ++ [file]) ≠ some .directory) (content : ByteArray) :
    d.Extends (d.put (at_ ++ [file]) (.file content)) :=
  extends_put hat (by simp) (.inr ⟨h, content, rfl⟩)

/-- The disk with a new directory and the description of an archive in it. -/
def withDescription (d : Disk) (at_ : Place) (m : ArchiveMetadata) : Disk :=
  (d.put at_ .directory).put (at_ ++ [metadataFile])
    (.file (ArchiveMetadata.wire.write m).pretty.toUTF8)

/-- The disk with the files of a new archive in a new directory. -/
def withArchive (d : Disk) (at_ : Place) (m : ArchiveMetadata) : Disk :=
  ((d.put at_ .directory).put (at_ ++ [metadataFile])
    (.file (ArchiveMetadata.wire.write m).pretty.toUTF8)).put
      (at_ ++ [responsesFile]) (.file ByteArray.empty)

theorem withArchive_eq (d : Disk) (at_ : Place) (m : ArchiveMetadata) : d.withArchive at_ m
    = (d.withDescription at_ m).put (at_ ++ [responsesFile]) (.file ByteArray.empty) := rfl

end Disk

namespace DirectoryStore

/-! ## Calls -/

theorem find_run (s : DirectoryStore) (d : Disk) (archiveId : String) :
    (find archiveId).run (s, d) =
      if d.isFile (join (s.directoryOf archiveId) metadataFile) then
        (.ok (s.directoryOf archiveId), (s, d))
      else (.error (.archiveNotFound archiveId), (s, d)) := by
  simp only [find, Work.run_bind, Work.run_get]
  split <;> rfl

theorem onDisk_run {α : Type} (work : DiskM α) (asError : IoFault → ArchiveError)
    (s : DirectoryStore) (d : Disk) :
    (onDisk work asError).run (s, d) = ((work.run d).1.mapError asError, (s, (work.run d).2)) := rfl

theorem ofResult_run {α : Type} (r : Except ArchiveError α) (state : DirectoryStore × Disk) :
    (ofResult r).run state = (r, state) := rfl

theorem find_of_holds {s : DirectoryStore} {d : Disk} {archiveId : String} {at_ : Place}
    {log : ByteArray} (h : d.Holds (s.directoryOf archiveId) at_ log) :
    (find archiveId).run (s, d) = (.ok (s.directoryOf archiveId), (s, d)) := by
  rw [find_run, if_pos h.isFile_metadataFile]

theorem root_note (s : DirectoryStore) (archiveId : String) (r : LoggedResponse) :
    (s.note archiveId r).root = s.root := by
  rw [note]
  split <;> rfl

/-- Storing a response in an archive that is there adds a line to its log and notes the response. -/
theorem store_of_holds {s : DirectoryStore} {d : Disk} {archiveId : String} {at_ : Place}
    {log : ByteArray} (h : d.Holds (s.directoryOf archiveId) at_ log) (request : Request)
    (body : String) : (store archiveId request body).run (s, d)
      = (.ok (), (s.note archiveId ⟨request.archiveKey, body⟩,
          d.put (at_ ++ [responsesFile])
            (.file (log ++ ResponseLog.line ⟨request.archiveKey, body⟩)))) := by
  have hextend := extend_join isFileName_responsesFile h.logged.1 h.leads
    (logAt_eq_some.mp h.logged.2) (ResponseLog.line ⟨request.archiveKey, body⟩)
  simp only [store, Work.run_bind, find_of_holds h, onDisk_run, hextend, Work.mapError_ok,
    Work.run_modify]

/-- Storing a response fails, or adds a line to the log of the archive and notes the response. -/
theorem store_cases (s : DirectoryStore) (d : Disk) (archiveId : String) (request : Request)
    (body : String) :
    (∃ e, (store archiveId request body).run (s, d) = (.error e, (s, d)))
      ∨ ∃ at_ log, d.Holds (s.directoryOf archiveId) at_ log
        ∧ (store archiveId request body).run (s, d)
          = (.ok (), (s.note archiveId ⟨request.archiveKey, body⟩,
              d.put (at_ ++ [responsesFile])
                (.file (log ++ ResponseLog.line ⟨request.archiveKey, body⟩)))) := by
  simp only [store, Work.run_bind, find_run]
  by_cases hfound : d.isFile (join (s.directoryOf archiveId) metadataFile) = true
  · rw [if_pos hfound]
    obtain ⟨hpath, outer, content, hleads, hmeta⟩ := (isFile_join isFileName_metadataFile).mp hfound
    simp only [onDisk_run]
    rcases extend_cases _ isFileName_responsesFile (ResponseLog.line ⟨request.archiveKey, body⟩) d
      with ⟨fault, hrun⟩ | ⟨at_, old, hlogPath, hleads', hlog, hrun⟩
    · left
      rw [hrun]
      exact ⟨.io fault, rfl⟩
    · right
      rw [hrun]
      obtain rfl := hleads.unique hleads'
      exact ⟨outer, old, ⟨hleads, ⟨hpath, content, hmeta⟩, hlogPath, logAt_eq_some.mpr hlog⟩, rfl⟩
  · left
    rw [if_neg hfound]
    exact ⟨_, rfl⟩

/-- The store with the responses of an archive in its index. -/
def withIndex (s : DirectoryStore) (archiveId : String) (responses : Keyed String) :
    DirectoryStore :=
  { s with index := s.index.insert archiveId responses }

@[simp]
theorem index_withIndex_self (s : DirectoryStore) (archiveId : String) (responses : Keyed String) :
    (s.withIndex archiveId responses).index.get? archiveId = some responses :=
  Keyed.get?_insert_self ..

/-- What is answered for a key that some responses hold or do not hold. -/
def answer (responses : Keyed String) (key : String) : Except ArchiveError String :=
  (responses.get? key).elim (.error (.responseNotFound key)) .ok

/-- The responses that the log of an archive holds, if it can be read. -/
def logged (root : String) (d : Disk) (archiveId : String) : Except ArchiveError (Keyed String) :=
  if d.isFile (join (join root archiveId) metadataFile) then
    match ((Disk.content (join (join root archiveId) responsesFile)).run d).1 with
    | .error fault => .error (.io fault)
    | .ok log => ResponseLog.read log
  else .error (.archiveNotFound archiveId)

/-- What is answered for a key of an archive, and the store after that: the index answers if it can,
and else the log is read. -/
def lookUp (s : DirectoryStore) (d : Disk) (archiveId key : String) :
    Except ArchiveError String × DirectoryStore :=
  match s.known? archiveId key with
  | some body => (.ok body, s)
  | none =>
    match logged s.root d archiveId with
    | .error e => (.error e, s)
    | .ok responses => (answer responses key, s.withIndex archiveId responses)

/-- Retrieving is looking up; it leaves the disk as it is. -/
theorem retrieve_run (s : DirectoryStore) (d : Disk) (archiveId : String) (request : Request) :
    (retrieve archiveId request).run (s, d)
      = ((s.lookUp d archiveId request.archiveKey).1,
        (s.lookUp d archiveId request.archiveKey).2, d) := by
  cases hknown : s.known? archiveId request.archiveKey with
  | some body =>
    rw [lookUp, hknown]
    simp only [retrieve, Work.run_bind, Work.run_get, hknown, Work.run_pure]
  | none =>
    rw [lookUp, hknown]
    by_cases hfound : d.isFile (join (s.directoryOf archiveId) metadataFile) = true
    · have hfind : (find archiveId).run (s, d) = (.ok (s.directoryOf archiveId), (s, d)) := by
        rw [find_run, if_pos hfound]
      have hlogged : logged s.root d archiveId
          = match ((Disk.content (join (s.directoryOf archiveId) responsesFile)).run d).1 with
            | .error fault => .error (.io fault)
            | .ok log => ResponseLog.read log := if_pos hfound
      obtain ⟨fault, hrun⟩ | ⟨at_, log, -, -, -, hrun⟩ :=
        content_cases (s.directoryOf archiveId) isFileName_responsesFile d
      · simp only [hlogged, retrieve, Work.run_bind, Work.run_get, hknown, hfind, onDisk_run, hrun,
          Work.mapError_error]
      · rw [hlogged, hrun]
        cases hread : ResponseLog.read log with
        | error e =>
          simp only [retrieve, Work.run_bind, Work.run_get, hknown, hfind, onDisk_run, hrun,
            Work.mapError_ok, ofResult_run, hread]
        | ok responses =>
          simp only [retrieve, Work.run_bind, Work.run_get, hknown, hfind, onDisk_run, hrun,
            Work.mapError_ok, ofResult_run, hread, Work.run_modify, answer]
          cases responses.get? request.archiveKey <;> rfl
    · have hlogged : logged s.root d archiveId = .error (.archiveNotFound archiveId) :=
        if_neg hfound
      simp only [hlogged, retrieve, Work.run_bind, Work.run_get, hknown, find_run]
      rw [if_neg hfound]

theorem retrieve_of_known {s : DirectoryStore} {archiveId : String} {request : Request}
    {body : String} (h : s.known? archiveId request.archiveKey = some body) (d : Disk) :
    (retrieve archiveId request).run (s, d) = (.ok body, (s, d)) := by
  rw [retrieve_run, lookUp, h]

/-- Of an archive that is there the log is read. -/
theorem logged_of_holds {root : String} {d : Disk} {archiveId : String} {at_ : Place}
    {log : ByteArray} (h : d.Holds (join root archiveId) at_ log) :
    logged root d archiveId = ResponseLog.read log := by
  rw [logged, if_pos h.isFile_metadataFile, content_join isFileName_responsesFile h.logged.1 h.leads
    (logAt_eq_some.mp h.logged.2)]

/-- The log of an archive that is not there, or that is not one, is not read. -/
theorem logged_cases (root : String) (d : Disk) (archiveId : String) :
    (∃ e, (∀ key, e ≠ .responseNotFound key) ∧ logged root d archiveId = .error e)
      ∨ ∃ at_ log responses, d.Holds (join root archiveId) at_ log
        ∧ ResponseLog.read log = .ok responses ∧ logged root d archiveId = .ok responses := by
  rw [logged]
  by_cases hfound : d.isFile (join (join root archiveId) metadataFile) = true
  · rw [if_pos hfound]
    obtain ⟨hpath, outer, content, hleads, hmeta⟩ :=
      (isFile_join isFileName_metadataFile).mp hfound
    rcases content_cases (join root archiveId) isFileName_responsesFile d
      with ⟨fault, hrun⟩ | ⟨at_, log, hlogPath, hleads', hlog, hrun⟩
    · rw [hrun]
      exact .inl ⟨.io fault, by rintro key ⟨⟩, rfl⟩
    · rw [hrun]
      obtain rfl := hleads.unique hleads'
      have hholds : d.Holds (join root archiveId) outer log :=
        ⟨hleads, ⟨hpath, content, hmeta⟩, hlogPath, logAt_eq_some.mpr hlog⟩
      cases hread : ResponseLog.read log with
      | error e => exact .inl ⟨e, ResponseLog.error_of_readLines hread, hread⟩
      | ok responses => exact .inr ⟨outer, log, responses, hholds, hread, hread⟩
  · rw [if_neg hfound]
    exact .inl ⟨.archiveNotFound archiveId, by rintro key ⟨⟩, rfl⟩

/-- A key that is not in the index is looked for in the log of the archive. -/
theorem retrieve_of_holds {s : DirectoryStore} {d : Disk} {archiveId : String} {at_ : Place}
    {log : ByteArray} (h : d.Holds (s.directoryOf archiveId) at_ log) {responses : Keyed String}
    (hread : ResponseLog.read log = .ok responses) {request : Request}
    (hknown : s.known? archiveId request.archiveKey = none) :
    (retrieve archiveId request).run (s, d)
      = (answer responses request.archiveKey, (s.withIndex archiveId responses, d)) := by
  rw [retrieve_run, lookUp, hknown, logged_of_holds h, hread]

/-- Retrieving answers from the index, or fails and leaves everything as it is, or reads the log. -/
theorem retrieve_cases (s : DirectoryStore) (d : Disk) (archiveId : String) (request : Request) :
    (∃ body, s.known? archiveId request.archiveKey = some body
        ∧ (retrieve archiveId request).run (s, d) = (.ok body, (s, d)))
      ∨ (s.known? archiveId request.archiveKey = none
        ∧ ∃ e, (∀ key, e ≠ .responseNotFound key)
          ∧ (retrieve archiveId request).run (s, d) = (.error e, (s, d)))
      ∨ s.known? archiveId request.archiveKey = none
        ∧ ∃ at_ log responses, d.Holds (s.directoryOf archiveId) at_ log
          ∧ ResponseLog.read log = .ok responses
          ∧ (retrieve archiveId request).run (s, d)
            = (answer responses request.archiveKey, (s.withIndex archiveId responses, d)) := by
  rw [retrieve_run, lookUp]
  cases hknown : s.known? archiveId request.archiveKey with
  | some body => exact .inl ⟨body, rfl, rfl⟩
  | none =>
    right
    obtain ⟨e, he, hlogged⟩ | ⟨at_, log, responses, hholds, hread, hlogged⟩ :=
      logged_cases s.root d archiveId
    · rw [hlogged]
      exact .inl ⟨rfl, e, he, rfl⟩
    · rw [hlogged]
      exact .inr ⟨rfl, at_, log, responses, hholds, hread, rfl⟩

/-- What creating an archive gives and leaves on the disk: nothing new, or a directory where nothing
stood, and in it the description and then the log, as far as they could be written. -/
inductive Created (s : DirectoryStore) (d : Disk) (m : ArchiveMetadata) :
    Except ArchiveError Unit → Disk → Prop where
  | refused (e : ArchiveError) : Created s d m (.error e) d
  | directory {outer : Place} {name : String}
      (hnew : d.IsNew (s.directoryOf m.archiveId) outer name) (e : ArchiveError) :
      Created s d m (.error e) (d.put (outer ++ [name]) .directory)
  | description {outer : Place} {name : String}
      (hnew : d.IsNew (s.directoryOf m.archiveId) outer name)
      (hfile : (d.put (outer ++ [name]) .directory).node? (outer ++ [name] ++ [metadataFile])
        ≠ some .directory) (e : ArchiveError) :
      Created s d m (.error e) (d.withDescription (outer ++ [name]) m)
  | complete {outer : Place} {name : String}
      (hnew : d.IsNew (s.directoryOf m.archiveId) outer name)
      (hfile : (d.put (outer ++ [name]) .directory).node? (outer ++ [name] ++ [metadataFile])
        ≠ some .directory)
      (hlog : (d.withDescription (outer ++ [name]) m).node? (outer ++ [name] ++ [responsesFile])
        ≠ some .directory)
      (hpath : IsPath (join (s.directoryOf m.archiveId) metadataFile))
      (hlogPath : IsPath (join (s.directoryOf m.archiveId) responsesFile)) :
      Created s d m (.ok ()) (d.withArchive (outer ++ [name]) m)

/-- Creating an archive leaves the store as it is, and the disk as one of these. -/
theorem create_created (s : DirectoryStore) (d : Disk) (m : ArchiveMetadata) :
    ∃ r d', (create m).run (s, d) = (r, (s, d')) ∧ s.Created d m r d' := by
  simp only [create, Work.run_bind, Work.run_get, onDisk_run]
  rcases makeDirectory_cases (s.directoryOf m.archiveId) d
    with ⟨fault, hmake⟩ | ⟨outer, name, hnew, hmake⟩
  · rw [hmake]
    exact ⟨_, d, rfl, .refused _⟩
  rw [hmake]
  simp only [Work.mapError_ok, onDisk_run]
  rcases overwrite_cases (s.directoryOf m.archiveId) isFileName_metadataFile
    (ArchiveMetadata.wire.write m).pretty.toUTF8 (d.put (outer ++ [name]) .directory)
    with ⟨fault, hwrite⟩ | ⟨p, hpath, hp, hfile, hwrite⟩
  · rw [hwrite]
    exact ⟨_, _, rfl, .directory hnew _⟩
  obtain rfl := hnew.leads.unique hp
  have hplace := (hnew.place.concat hnew.fileName.slash).concat isFileName_metadataFile.slash
  have hgrown : (d.put (outer ++ [name]) .directory).Extends
      (d.withDescription (outer ++ [name]) m) :=
    extends_put_file hplace hfile _
  rw [hwrite]
  simp only [Work.mapError_ok, onDisk_run]
  rcases overwrite_cases (s.directoryOf m.archiveId) isFileName_responsesFile
    ByteArray.empty (d.withDescription (outer ++ [name]) m)
    with ⟨fault, hwrite'⟩ | ⟨q, hlogPath, hq, hlog, hwrite'⟩
  · rw [← withDescription, hwrite']
    exact ⟨_, _, rfl, .description hnew hfile _⟩
  obtain rfl := (hgrown.leadsTo hnew.leads).unique hq
  rw [← withDescription, hwrite']
  exact ⟨_, _, rfl, .complete hnew hfile hlog hpath hlogPath⟩

/-- Creating an archive lets the disk grow. -/
theorem Created.extends {s : DirectoryStore} {d d' : Disk} {m : ArchiveMetadata}
    {r : Except ArchiveError Unit} (h : s.Created d m r d') : d.Extends d' := by
  have hdescription : ∀ {outer : Place} {name : String},
      d.IsNew (s.directoryOf m.archiveId) outer name →
      (d.put (outer ++ [name]) .directory).node? (outer ++ [name] ++ [metadataFile])
        ≠ some .directory → d.Extends (d.withDescription (outer ++ [name]) m) := by
    intro outer name hnew hfile
    have hplace := hnew.place.concat hnew.fileName.slash
    exact hnew.extends.trans
      (extends_put_file (hplace.concat isFileName_metadataFile.slash) hfile _)
  cases h with
  | refused e => exact .refl d
  | directory hnew e => exact hnew.extends
  | description hnew hfile e => exact hdescription hnew hfile
  | complete hnew hfile hlog hpath hlogPath =>
    have hplace := hnew.place.concat hnew.fileName.slash
    exact (hdescription hnew hfile).trans
      (extends_put_file (hplace.concat isFileName_responsesFile.slash) hlog _)

/-- Creating an archive changes no log, and a log that is new is empty. -/
theorem Created.keepsLogs {s : DirectoryStore} {d d' : Disk} {m : ArchiveMetadata}
    {r : Except ArchiveError Unit} (h : s.Created d m r d') : d.KeepsLogs d' := by
  have hgrown := h.extends
  have hlogs : ∀ {outer : Place} {name : String},
      d.IsNew (s.directoryOf m.archiveId) outer name → ∀ {at_}, IsPlace at_ →
      (d.put (outer ++ [name]) .directory).logAt at_ = d.logAt at_
        ∧ (d.withDescription (outer ++ [name]) m).logAt at_ = d.logAt at_ := by
    intro outer name hnew at_ hat
    have hplace := hnew.place.concat hnew.fileName.slash
    have hdirectory := logAt_put_directory hplace (by simp) hnew.free hat
    refine ⟨hdirectory, ?_⟩
    rw [withDescription, logAt_put_other hplace isFileName_metadataFile.slash (by decide) hat,
      hdirectory]
  cases h with
  | refused e => exact .refl d
  | directory hnew e =>
    refine keepsLogs_of_new hgrown hnew.free (fun hat _ => (hlogs hnew hat).1) fun log hlog => ?_
    rw [(hlogs hnew (hnew.place.concat hnew.fileName.slash)).1] at hlog
    exact .inl hlog
  | description hnew hfile e =>
    refine keepsLogs_of_new hgrown hnew.free (fun hat _ => (hlogs hnew hat).2) fun log hlog => ?_
    rw [(hlogs hnew (hnew.place.concat hnew.fileName.slash)).2] at hlog
    exact .inl hlog
  | complete hnew hfile hlog hpath hlogPath =>
    have hplace := hnew.place.concat hnew.fileName.slash
    refine keepsLogs_of_new hgrown hnew.free (fun hat hne => ?_) fun log hfound => ?_
    · rw [withArchive_eq, logAt_put_log hplace hat, if_neg hne, (hlogs hnew hat).2]
    · rw [withArchive_eq, logAt_put_log hplace hplace, if_pos rfl, Option.some.injEq] at hfound
      exact .inr hfound.symm

/-- An archive that was created is there, with an empty log. -/
theorem Created.holds {s : DirectoryStore} {d d' : Disk} {m : ArchiveMetadata}
    (h : s.Created d m (.ok ()) d') :
    ∃ at_, d'.Holds (s.directoryOf m.archiveId) at_ ByteArray.empty := by
  cases h with
  | @complete outer name hnew hfile hlog hpath hlogPath =>
    have hplace := hnew.place.concat hnew.fileName.slash
    have hdescription := hplace.concat isFileName_metadataFile.slash
    have hlogPlace := hplace.concat isFileName_responsesFile.slash
    have hgrown := extends_put_file hdescription hfile (ArchiveMetadata.wire.write m).pretty.toUTF8
    have hgrown' := extends_put_file hlogPlace hlog ByteArray.empty
    have hwritten := node?_put (d.put (outer ++ [name]) .directory) hdescription hdescription
      (by simp) (.file (ArchiveMetadata.wire.write m).pretty.toUTF8)
    rw [if_pos rfl] at hwritten
    refine ⟨outer ++ [name], hgrown'.leadsTo (hgrown.leadsTo hnew.leads), ⟨hpath, ?_⟩, hlogPath, ?_⟩
    · exact (hgrown' _ hdescription).2 _ hwritten
    · rw [withArchive_eq, logAt_put_log hplace hplace, if_pos rfl]

/-- Creating an archive changes no log. If it succeeds the archive is there, with an empty log. -/
theorem create_cases (s : DirectoryStore) (d : Disk) (m : ArchiveMetadata) :
    ∃ r d', (create m).run (s, d) = (r, (s, d')) ∧ d.KeepsLogs d'
      ∧ (r = .ok () → ∃ at_, d'.Holds (s.directoryOf m.archiveId) at_ ByteArray.empty) := by
  obtain ⟨r, d', hrun, hcreated⟩ := s.create_created d m
  refine ⟨r, d', hrun, hcreated.keepsLogs, ?_⟩
  rintro rfl
  exact hcreated.holds

end DirectoryStore

/-! ## Calls by number -/

namespace CallLimits

/-- Calls without a limit spend nothing. -/
theorem spend_of_get {l : CallLimits} {kind : ArchiveCall} (h : l.get kind = none) :
    l.spend kind = some l := by
  rw [spend, h]

theorem get_empty (kind : ArchiveCall) : ({} : CallLimits).get kind = none := by
  cases kind <;> rfl

end CallLimits

namespace Archives

variable {α : Type} {a : Archives} {number : Nat}

theorem set_of_getElem? {xs : List α} {i : Nat} {x : α} (h : xs[i]? = some x) :
    xs.set i x = xs := by
  obtain ⟨hi, rfl⟩ := List.getElem?_eq_some_iff.mp h
  exact List.set_getElem_self hi

theorem getElem?_set_of_getElem? {xs : List α} {i : Nat} {x : α} (h : xs[i]? = some x) (y : α) :
    (xs.set i y)[i]? = some y :=
  List.getElem?_set_self (List.getElem?_eq_some_iff.mp h).1

theorem call_of_none (h : a.stores[number]? = none) (kind : ArchiveCall) (inMemory : MemoryM α)
    (inDirectory : DirectoryM α) :
    (call number kind inMemory inDirectory).run a = (.error (.storage "store is not open"), a) := by
  show call number kind inMemory inDirectory a = _
  rw [call, h]

/-- The ways in which a store does a call: it refuses to, or it does it in memory or in its
directory. -/
inductive Called (a : Archives) (number : Nat) (kind : ArchiveCall) (inMemory : MemoryM α)
    (inDirectory : DirectoryM α) : Except ArchiveError α → Archives → Prop where
  | refused (e : ArchiveError) : Called a number kind inMemory inDirectory (.error e) a
  | memory {s s' : MemoryStore} {limits limits' : CallLimits} {r : Except ArchiveError α}
      (hopen : a.stores[number]? = some ⟨.memory s, limits⟩)
      (hspend : limits.spend kind = some limits') (hrun : inMemory.run s = (r, s')) :
      Called a number kind inMemory inDirectory r (a.replace number ⟨.memory s', limits'⟩)
  | directory {s s' : DirectoryStore} {limits limits' : CallLimits} {r : Except ArchiveError α}
      {disk : Disk} (hopen : a.stores[number]? = some ⟨.directory s, limits⟩)
      (hspend : limits.spend kind = some limits')
      (hrun : inDirectory.run (s, a.disk) = (r, (s', disk))) :
      Called a number kind inMemory inDirectory r
        ({ a with disk }.replace number ⟨.directory s', limits'⟩)

theorem called_call (a : Archives) (number : Nat) (kind : ArchiveCall) (inMemory : MemoryM α)
    (inDirectory : DirectoryM α) : Called a number kind inMemory inDirectory
      ((call number kind inMemory inDirectory).run a).1
      ((call number kind inMemory inDirectory).run a).2 := by
  show Called a number kind inMemory inDirectory (call number kind inMemory inDirectory a).1
    (call number kind inMemory inDirectory a).2
  unfold call
  rcases hopen : a.stores[number]? with _ | ⟨s | s, limits⟩
  · exact .refused _
  · dsimp only
    cases hspend : limits.spend kind with
    | none => exact .refused _
    | some limits' => exact .memory hopen hspend rfl
  · dsimp only
    cases hspend : limits.spend kind with
    | none => exact .refused _
    | some limits' => exact .directory hopen hspend rfl

theorem openDirectory_run (root : String) (a : Archives) :
    (openDirectory root).run a = match (Disk.makeDirectories root).run a.disk with
      | (.error fault, disk) => (.error (.io fault), { a with disk })
      | (.ok (), disk) => (.ok a.stores.length, { a with disk }.add (.directory { root })) := by
  show openDirectory root a = _
  rw [openDirectory]
  rcases (Disk.makeDirectories root).run a.disk with ⟨fault | _, disk⟩ <;> rfl

/-- A store in memory does a call that is not limited in memory. -/
theorem call_of_memory_of_free {s : MemoryStore} {limits : CallLimits}
    (h : a.stores[number]? = some ⟨.memory s, limits⟩) {kind : ArchiveCall}
    (hfree : limits.get kind = none) (inMemory : MemoryM α) (inDirectory : DirectoryM α)
    {r : Except ArchiveError α} {s' : MemoryStore} (hrun : inMemory.run s = (r, s')) :
    (call number kind inMemory inDirectory).run a
      = (r, { a with stores := a.stores.set number ⟨.memory s', limits⟩ }) := by
  show call number kind inMemory inDirectory a = _
  rw [call, h]
  dsimp only
  rw [CallLimits.spend_of_get hfree, hrun]
  rfl

/-- A store in a directory does a call that is not limited on the disk of all. -/
theorem call_of_directory_of_free {s : DirectoryStore} {limits : CallLimits}
    (h : a.stores[number]? = some ⟨.directory s, limits⟩) {kind : ArchiveCall}
    (hfree : limits.get kind = none) (inMemory : MemoryM α) (inDirectory : DirectoryM α)
    {r : Except ArchiveError α} {s' : DirectoryStore} {disk : Disk}
    (hrun : inDirectory.run (s, a.disk) = (r, (s', disk))) :
    (call number kind inMemory inDirectory).run a
      = (r, { disk, stores := a.stores.set number ⟨.directory s', limits⟩ }) := by
  show call number kind inMemory inDirectory a = _
  rw [call, h]
  dsimp only
  rw [CallLimits.spend_of_get hfree, hrun]
  rfl

theorem call_of_memory {s : MemoryStore} (h : a.stores[number]? = some ⟨.memory s, {}⟩)
    (kind : ArchiveCall) (inMemory : MemoryM α) (inDirectory : DirectoryM α)
    {r : Except ArchiveError α} {s' : MemoryStore} (hrun : inMemory.run s = (r, s')) :
    (call number kind inMemory inDirectory).run a
      = (r, { a with stores := a.stores.set number ⟨.memory s', {}⟩ }) :=
  call_of_memory_of_free h (CallLimits.get_empty kind) inMemory inDirectory hrun

theorem call_of_directory {s : DirectoryStore} (h : a.stores[number]? = some ⟨.directory s, {}⟩)
    (kind : ArchiveCall) (inMemory : MemoryM α) (inDirectory : DirectoryM α)
    {r : Except ArchiveError α} {s' : DirectoryStore} {disk : Disk}
    (hrun : inDirectory.run (s, a.disk) = (r, (s', disk))) :
    (call number kind inMemory inDirectory).run a
      = (r, { disk, stores := a.stores.set number ⟨.directory s', {}⟩ }) :=
  call_of_directory_of_free h (CallLimits.get_empty kind) inMemory inDirectory hrun

end Archives

end Intake
