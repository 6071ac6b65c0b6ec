import Intake.Archive.Manager
import Intake.Proofs.Archive.Handles

/-!
# What an archive keeps

An archive keeps the responses that are stored in it, of those under one key the first one.
`Archives.Keeps` says so of an archive in a store in memory and of one in a directory alike: an
archive that was just created keeps nothing (`Archives.keeps_create`), storing a response adds it
(`Archives.Keeps.store`), and retrieving answers from what is kept and leaves it
(`Archives.Keeps.retrieve`). In a directory the store may hold what it has read of the archive in
its index, which is no part of the archives (`Archives.unread`).
-/

namespace Intake

open Disk

/-! ## Stores in memory -/

namespace MemoryStore

theorem find_of_get? {s : MemoryStore} {archiveId : String} {archive : StoredArchive}
    (h : s.archives.get? archiveId = some archive) :
    (find archiveId).run s = (.ok archive, s) := by
  simp only [find, Work.run_bind, Work.run_get, h, Work.run_pure]

theorem find_of_get?_eq_none {s : MemoryStore} {archiveId : String}
    (h : s.archives.get? archiveId = none) :
    (find archiveId).run s = (.error (.archiveNotFound archiveId), s) := by
  simp only [find, Work.run_bind, Work.run_get, h, Work.run_throw]

theorem store_of_get? {s : MemoryStore} {archiveId : String} {archive : StoredArchive}
    (h : s.archives.get? archiveId = some archive) (request : Request) (body : String) :
    (store archiveId request body).run s = (.ok (), ⟨s.archives.insert archiveId
      { archive with responses := archive.responses.insertNew request.archiveKey body }⟩) := by
  simp only [store, Work.run_bind, find_of_get? h, Work.run_modify]

theorem store_of_get?_eq_none {s : MemoryStore} {archiveId : String}
    (h : s.archives.get? archiveId = none) (request : Request) (body : String) :
    (store archiveId request body).run s = (.error (.archiveNotFound archiveId), s) := by
  simp only [store, Work.run_bind, find_of_get?_eq_none h]

theorem retrieve_of_get?_eq_none {s : MemoryStore} {archiveId : String}
    (h : s.archives.get? archiveId = none) (request : Request) :
    (retrieve archiveId request).run s = (.error (.archiveNotFound archiveId), s) := by
  simp only [retrieve, Work.run_bind, find_of_get?_eq_none h]

theorem retrieve_of_get? {s : MemoryStore} {archiveId : String} {archive : StoredArchive}
    (h : s.archives.get? archiveId = some archive) (request : Request) :
    (retrieve archiveId request).run s
      = (DirectoryStore.answer archive.responses request.archiveKey, s) := by
  simp only [retrieve, Work.run_bind, find_of_get? h, DirectoryStore.answer]
  cases archive.responses.get? request.archiveKey <;> rfl

/-- What is answered for a key of an archive. -/
def lookUp (s : MemoryStore) (archiveId key : String) : Except ArchiveError String :=
  (s.archives.get? archiveId).elim (.error (.archiveNotFound archiveId)) fun archive =>
    DirectoryStore.answer archive.responses key

/-- Retrieving is looking up; it leaves the store as it is. -/
theorem retrieve_run (s : MemoryStore) (archiveId : String) (request : Request) :
    (retrieve archiveId request).run s = (s.lookUp archiveId request.archiveKey, s) := by
  rw [lookUp]
  cases hfound : s.archives.get? archiveId with
  | none => exact retrieve_of_get?_eq_none hfound request
  | some archive => exact retrieve_of_get? hfound request

theorem create_of_get? {s : MemoryStore} {m : ArchiveMetadata} {archive : StoredArchive}
    (h : s.archives.get? m.archiveId = some archive) : (create m).run s
      = (.error (.storage ("archive already exists: " ++ m.archiveId)), s) := by
  simp only [create, Work.run_bind, Work.run_get, Keyed.contains, h, Option.isSome_some, if_true,
    Work.run_throw]

theorem create_of_get?_eq_none {s : MemoryStore} {m : ArchiveMetadata}
    (h : s.archives.get? m.archiveId = none) :
    (create m).run s = (.ok (), ⟨s.archives.insert m.archiveId { description := m }⟩) := by
  simp only [create, Work.run_bind, Work.run_get, Keyed.contains, h, Option.isSome_none,
    Bool.false_eq_true, if_false, Work.run_set]

/-- A new archive is there without responses. -/
theorem create_eq_ok {s s' : MemoryStore} {m : ArchiveMetadata}
    (h : (create m).run s = (.ok (), s')) :
    s'.archives.get? m.archiveId = some { description := m } := by
  cases hfound : s.archives.get? m.archiveId with
  | some archive =>
    rw [create_of_get? hfound] at h
    cases h
  | none =>
    rw [create_of_get?_eq_none hfound] at h
    cases h
    exact Keyed.get?_insert_self _ _ _

end MemoryStore

/-- An index that holds what was stored holds it with a response that was noted. -/
theorem DirectoryStore.index_note {s : DirectoryStore} {archiveId : String}
    {rs : List LoggedResponse}
    (h : ∀ known, s.index.get? archiveId = some known → known = ResponseLog.firsts rs)
    (r : LoggedResponse) : ∀ known, (s.note archiveId r).index.get? archiveId = some known →
      known = ResponseLog.firsts (rs ++ [r]) := by
  intro known hknown
  rw [note] at hknown
  cases hindexed : s.index.get? archiveId with
  | none =>
    rw [hindexed] at hknown
    dsimp only at hknown
    rw [hindexed] at hknown
    cases hknown
  | some old =>
    rw [hindexed] at hknown
    dsimp only at hknown
    rw [Keyed.get?_insert_self, Option.some.injEq] at hknown
    rw [← hknown, h old hindexed, ResponseLog.firsts_append]

theorem DirectoryStore.index_note_of_ne {s : DirectoryStore} {archiveId other : String}
    (hne : other ≠ archiveId) (r : LoggedResponse) :
    (s.note archiveId r).index.get? other = s.index.get? other := by
  rw [note]
  split
  · rfl
  · exact (Keyed.get?_insert ..).trans (if_neg hne)

/-- Looking for archives in a directory leaves everything as it is. -/
theorem DirectoryStore.search_run (s : DirectoryStore) (d : Disk) (query : ArchiveQuery) :
    ∃ r, (search query).run (s, d) = (r, (s, d)) := by
  have hlist : ((Disk.list s.root).run d).2 = d := by
    simp only [Disk.list, Work.run_bind, Work.run_get, Work.run_liftM]
    rcases d.stat s.root with fault | ⟨at_, content | _⟩ <;> rfl
  simp only [search, Work.run_bind, Work.run_get, onDisk_run]
  rcases hrun : (Disk.list s.root).run d with ⟨fault | names, d'⟩
  · rw [hrun] at hlist
    subst hlist
    exact ⟨_, rfl⟩
  · rw [hrun] at hlist
    subst hlist
    exact ⟨_, rfl⟩

namespace Archives

variable {α : Type} {a a' : Archives} {number : Nat} {archiveId : String}

/-! ## Archives -/

/-- A store that is open without a limit. -/
def IsOpen (a : Archives) (number : Nat) : Prop := ∃ s, a.stores[number]? = some ⟨s, {}⟩

/-- A store that is open without a limit, and that has not read an archive with the identifier. -/
inductive Ready (a : Archives) (number : Nat) (archiveId : String) : Prop where
  | memory {s : MemoryStore} (hopen : a.stores[number]? = some ⟨.memory s, {}⟩)
  | directory {s : DirectoryStore} (hopen : a.stores[number]? = some ⟨.directory s, {}⟩)
      (hindex : s.index.get? archiveId = none)

/-- An archive in a store that is open without a limit keeps some responses. -/
inductive Keeps (a : Archives) (number : Nat) (archiveId : String) (rs : List LoggedResponse) :
    Prop where
  | memory {s : MemoryStore} {archive : StoredArchive}
      (hopen : a.stores[number]? = some ⟨.memory s, {}⟩)
      (hfound : s.archives.get? archiveId = some archive)
      (hresponses : archive.responses = ResponseLog.firsts rs)
  | directory {s : DirectoryStore} {at_ : Place}
      (hopen : a.stores[number]? = some ⟨.directory s, {}⟩)
      (hholds : a.disk.Holds (s.directoryOf archiveId) at_ (ResponseLog.ofList rs))
      (hindex : ∀ known, s.index.get? archiveId = some known → known = ResponseLog.firsts rs)

/-- The archives, apart from what stores in directories have read of them. -/
def unread (a : Archives) : Archives where
  disk := a.disk
  stores := a.stores.map fun entry =>
    { entry with store := match entry.store with
      | .memory s => .memory s
      | .directory s => .directory { root := s.root } }

/-- What a store in a directory has in its index is no part of the archives. -/
theorem unread_set {s s' : DirectoryStore} (hopen : a.stores[number]? = some ⟨.directory s, {}⟩)
    (hroot : s'.root = s.root) :
    unread { a with stores := a.stores.set number ⟨.directory s', {}⟩ } = a.unread := by
  rw [unread, unread, List.map_set]
  dsimp only
  rw [hroot, set_of_getElem? (by rw [List.getElem?_map, hopen]; rfl)]

theorem keeps_create {m : ArchiveMetadata} (h : a.Ready number m.archiveId)
    (hcreate : (create number m).run a = (.ok (), a')) : a'.Keeps number m.archiveId [] := by
  cases h with
  | @memory s hopen =>
    rcases hrun : (MemoryStore.create m).run s with ⟨r, s'⟩
    rw [create, call_of_memory hopen _ _ _ hrun] at hcreate
    cases hcreate
    exact .memory (getElem?_set_of_getElem? hopen _) (MemoryStore.create_eq_ok hrun) rfl
  | @directory s hopen hindex =>
    obtain ⟨r, disk, hrun, -, hholds⟩ := s.create_cases a.disk m
    rw [create, call_of_directory hopen _ _ _ hrun] at hcreate
    cases hcreate
    obtain ⟨at_, hholds⟩ := hholds rfl
    refine .directory (getElem?_set_of_getElem? hopen _) hholds fun known hknown => ?_
    rw [hindex] at hknown
    cases hknown

/-- A response that is stored is kept. -/
theorem Keeps.store {rs : List LoggedResponse} (h : a.Keeps number archiveId rs) (request : Request)
    (body : String) : ∃ a', (Archives.store number archiveId request body).run a = (.ok (), a')
      ∧ a'.Keeps number archiveId (rs ++ [⟨request.archiveKey, body⟩]) := by
  cases h with
  | @memory s archive hopen hfound hresponses =>
    refine ⟨_, call_of_memory hopen _ _ _ (MemoryStore.store_of_get? hfound request body), ?_⟩
    refine .memory (getElem?_set_of_getElem? hopen _) (Keyed.get?_insert_self _ _ _) ?_
    rw [ResponseLog.firsts_append, hresponses]
  | @directory s at_ hopen hholds hindex =>
    refine ⟨_, call_of_directory hopen _ _ _
      (DirectoryStore.store_of_holds hholds request body), ?_⟩
    generalize (⟨request.archiveKey, body⟩ : LoggedResponse) = r
    have hstored : (a.disk.put (at_ ++ [responsesFile])
        (.file (ResponseLog.ofList rs ++ ResponseLog.line r))).Holds
          ((s.note archiveId r).directoryOf archiveId) at_ (ResponseLog.ofList (rs ++ [r])) := by
      rw [ResponseLog.ofList_append, DirectoryStore.directoryOf, DirectoryStore.root_note]
      exact hholds.put_log _
    exact .directory (getElem?_set_of_getElem? hopen _) hstored (DirectoryStore.index_note hindex r)

/-- What is retrieved is what is kept under the key, and the archives stay. -/
theorem Keeps.retrieve {rs : List LoggedResponse} (h : a.Keeps number archiveId rs)
    (request : Request) : ∃ a', (Archives.retrieve number archiveId request).run a
        = (DirectoryStore.answer (ResponseLog.firsts rs) request.archiveKey, a')
      ∧ a'.Keeps number archiveId rs ∧ a'.unread = a.unread := by
  cases h with
  | @memory s archive hopen hfound hresponses =>
    refine ⟨a, ?_, .memory hopen hfound hresponses, rfl⟩
    rw [Archives.retrieve, call_of_memory hopen _ _ _ (MemoryStore.retrieve_of_get? hfound request),
      hresponses, set_of_getElem? hopen]
  | @directory s at_ hopen hholds hindex =>
    cases hknown : s.known? archiveId request.archiveKey with
    | some body =>
      obtain ⟨known, hindexed, hbody⟩ := Option.bind_eq_some_iff.mp hknown
      refine ⟨a, ?_, .directory hopen hholds hindex, rfl⟩
      rw [Archives.retrieve, call_of_directory hopen _ _ _
        (DirectoryStore.retrieve_of_known hknown a.disk), set_of_getElem? hopen,
        DirectoryStore.answer, ← hindex known hindexed, hbody]
      rfl
    | none =>
      refine ⟨_, call_of_directory hopen _ _ _ (DirectoryStore.retrieve_of_holds hholds
        (ResponseLog.read_ofList rs) hknown), ?_, unread_set hopen rfl⟩
      refine .directory (getElem?_set_of_getElem? hopen _) hholds fun known hindexed => ?_
      rw [DirectoryStore.index_withIndex_self, Option.some.injEq] at hindexed
      exact hindexed.symm

/-- Looking for archives leaves them as they are. -/
theorem IsOpen.search (h : a.IsOpen number) (query : ArchiveQuery) :
    ((Archives.search number query).run a).2 = a := by
  obtain ⟨s | s, hopen⟩ := h
  · have hrun : (MemoryStore.search query).run s
        = (.ok (query.select (s.archives.values.map (·.description))), s) := rfl
    rw [Archives.search, call_of_memory hopen _ _ _ hrun, set_of_getElem? hopen]
  · obtain ⟨r, hrun⟩ := s.search_run a.disk query
    rw [Archives.search, call_of_directory hopen _ _ _ hrun, set_of_getElem? hopen]

theorem Keeps.isOpen {rs : List LoggedResponse} (h : a.Keeps number archiveId rs) :
    a.IsOpen number := by
  cases h with
  | memory hopen hfound hresponses => exact ⟨_, hopen⟩
  | directory hopen hholds hindex => exact ⟨_, hopen⟩

theorem Keeps.search {rs : List LoggedResponse} (h : a.Keeps number archiveId rs)
    (query : ArchiveQuery) : ((Archives.search number query).run a).2 = a :=
  h.isOpen.search query

end Archives

/-- A new archive that a manager has created keeps nothing. -/
theorem ArchiveManager.keeps_createArchive {archive : ArchiveManager} {origin : String}
    {b : Backend} {category : String} {args : BackendArgs} {w v : Workspace} {m : ArchiveMetadata}
    (hready : w.archives.Ready archive.store w.supply.fresh.1.text)
    (h : archive.createArchive origin b category args w = (.ok m, v)) :
    m.backendArgs = args ∧ v.archives.Keeps archive.store m.archiveId [] := by
  simp only [createArchive] at h
  generalize hdescription : ArchiveMetadata.mk .. = description at h
  have hid : description.archiveId = w.supply.fresh.1.text := by rw [← hdescription]
  have hargs : description.backendArgs = args := by rw [← hdescription]
  rcases hrun : (Archives.create archive.store description).run w.archives with ⟨e | _, archives⟩
  · rw [hrun] at h
    cases h
  · rw [hrun] at h
    cases h
    rw [← hid] at hready
    exact ⟨hargs, Archives.keeps_create hready hrun⟩

end Intake
