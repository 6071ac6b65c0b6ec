import Intake.Proofs.Archive.Seen

/-!
# Archives that are added

Beside being read, archives change in two ways here. Stores are opened at a location, for which
directories may be made (`Archives.Opens`); and an archive is added to a store, with the responses
that are then stored in it (`Archives.Adds`). Both leave all that was there as it was
(`Archives.Retains`), and identifiers that are not in use stay so (`Archives.IsUnused`), apart from
that of the new archive.

A store that takes new archives (`Archives.Accepts`) adds one under every identifier that is not in
use (`Archives.Accepts.create`).
-/

namespace Intake

open Disk

namespace Disk

variable {d d' : Disk} {at_ : Place} {name id : String} {m : ArchiveMetadata}
  {rs : List LoggedResponse}

theorem put_put (d : Disk) (at_ : Place) (old new : Node) :
    (d.put at_ old).put at_ new = d.put at_ new :=
  congrArg Disk.mk (Keyed.insert_insert ..)

/-! ## What stays -/

/-- All that stands on the disk is still there, unchanged. -/
def Retains (d d' : Disk) : Prop :=
  ∀ at_, IsPlace at_ → ∀ n, d.node? at_ = some n → d'.node? at_ = some n

theorem Retains.refl (d : Disk) : d.Retains d := fun _ _ _ h => h

theorem Retains.trans {d'' : Disk} (h : d.Retains d') (h' : d'.Retains d'') : d.Retains d'' :=
  fun at_ hat n hnode => h' at_ hat n (h at_ hat n hnode)

theorem Retains.extends (h : d.Retains d') : d.Extends d' :=
  fun at_ hat => ⟨h at_ hat _, fun content hfile => ⟨content, h at_ hat _ hfile⟩⟩

theorem SameFiles.retains (h : d.SameFiles d') : d.Retains d' := by
  intro at_ hat n hnode
  cases n with
  | directory => exact h.directory hat hnode
  | file content => exact (h.file hat content).mpr hnode

theorem retains_put (hat : IsPlace at_) (hroot : at_ ≠ []) (hnone : d.node? at_ = none) (n : Node) :
    d.Retains (d.put at_ n) := by
  intro other hother old hnode
  rw [node?_put d hat hother hroot, if_neg]
  · exact hnode
  · rintro rfl
    rw [hnone] at hnode
    cases hnode

/-! ## Names that are not in use -/

/-- The name stands nowhere on the disk. -/
def Lacks (d : Disk) (name : String) : Prop :=
  ∀ at_, IsPlace at_ → name ∈ at_ → d.node? at_ = none

theorem Lacks.isFree (h : d.Lacks name) (at_ : Place) : d.IsFree (at_ ++ [name]) :=
  fun _ hplace => h _ hplace (by simp)

theorem Lacks.notMem (h : d.Lacks name) (hat : IsPlace at_) {n : Node}
    (hnode : d.node? at_ = some n) : name ∉ at_ := by
  intro hmem
  rw [h at_ hat hmem] at hnode
  cases hnode

theorem Lacks.put (h : d.Lacks name) (hat : IsPlace at_) (hroot : at_ ≠ []) (hnot : name ∉ at_)
    (n : Node) : (d.put at_ n).Lacks name := by
  intro other hother hmem
  rw [node?_put d hat hother hroot, if_neg]
  · exact h other hother hmem
  · rintro rfl
    exact hnot hmem

theorem NewDirectories.lacks {names : List String} (hnew : NewDirectories names d d')
    (h : d.Lacks name) (hnot : name ∉ names) : d'.Lacks name := by
  induction hnew with
  | refl => exact h
  | make before hplace hdir hname hmem hnone ih =>
    refine ih.put (hplace.concat hname.slash) (by simp) ?_ _
    rw [List.mem_append, List.mem_singleton, not_or]
    exact ⟨ih.notMem hplace hdir, fun heq => hnot (heq ▸ hmem)⟩

/-! ## An archive with responses -/

/-- The disk with a new archive in which some responses were stored. -/
def withResponses (d : Disk) (at_ : Place) (m : ArchiveMetadata) (rs : List LoggedResponse) :
    Disk :=
  (d.withDescription at_ m).put (at_ ++ [responsesFile]) (.file (ResponseLog.ofList rs))

theorem withResponses_nil (d : Disk) (at_ : Place) (m : ArchiveMetadata) :
    d.withResponses at_ m [] = d.withArchive at_ m := rfl

/-- Of the logs that are written one after the other the last one stays. -/
theorem put_withResponses (d : Disk) (at_ : Place) (m : ArchiveMetadata)
    (rs rs' : List LoggedResponse) :
    (d.withResponses at_ m rs).put (at_ ++ [responsesFile]) (.file (ResponseLog.ofList rs'))
      = d.withResponses at_ m rs' :=
  put_put ..

theorem holds_withResponses {base : String} (hname : IsArchiveName base id)
    (hleads : d.LeadsTo base at_) (hfree : d.IsFree (at_ ++ [id])) (m : ArchiveMetadata)
    (rs : List LoggedResponse) :
    (d.withResponses (at_ ++ [id]) m rs).Holds (join base id) (at_ ++ [id])
      (ResponseLog.ofList rs) := by
  have hholds := (holds_withArchive (m := m) hname hleads hfree).put_log (ResponseLog.ofList rs)
  rwa [← withResponses_nil, put_withResponses] at hholds

theorem IsFree.retains_withResponses (h : d.IsFree at_) (hat : IsPlace at_) (hroot : at_ ≠ [])
    (m : ArchiveMetadata) (rs : List LoggedResponse) : d.Retains (d.withResponses at_ m rs) := by
  have hdescription := hat.concat isFileName_metadataFile.slash
  have hlog := hat.concat isFileName_responsesFile.slash
  have hempty : ∀ {file}, IsPlace (at_ ++ [file]) →
      (d.put at_ .directory).node? (at_ ++ [file]) = none := by
    intro file hfile
    rw [node?_put d hat hfile hroot, if_neg (by simp), h _ hfile]
  refine ((retains_put hat hroot (h.node?_eq_none hat) _).trans
    (retains_put hdescription (by simp) (hempty hdescription) _)).trans
    (retains_put hlog (by simp) ?_ _)
  rw [node?_put _ hdescription hlog (by simp), if_neg (description_ne_log at_).symm, hempty hlog]

theorem Lacks.withResponses (h : d.Lacks name) (hat : IsPlace at_) (hroot : at_ ≠ [])
    (hnot : name ∉ at_) (hdescription : name ≠ metadataFile) (hlog : name ≠ responsesFile)
    (m : ArchiveMetadata) (rs : List LoggedResponse) : (d.withResponses at_ m rs).Lacks name := by
  refine ((h.put hat hroot hnot _).put (hat.concat isFileName_metadataFile.slash) (by simp) ?_
    _).put (hat.concat isFileName_responsesFile.slash) (by simp) ?_ _
  · simp [hnot, hdescription]
  · simp [hnot, hlog]

end Disk

/-- Archives with generated identifiers can be made in the directory at a path: the paths of their
files are not too long. -/
def HasRoom (root : String) : Prop := ∀ id : Uuid, IsArchiveName root id.text

/-- A generated identifier is none of the names that the files of an archive have. -/
theorem Uuid.text_ne (u : Uuid) : u.text ≠ metadataFile ∧ u.text ≠ responsesFile := by
  have hsize := u.utf8ByteSize_text
  constructor
  · intro h
    rw [h] at hsize
    exact absurd hsize (by decide)
  · intro h
    rw [h] at hsize
    exact absurd hsize (by decide)

namespace Archives

variable {a a' a'' : Archives} {number : Nat} {name location : String} {m : ArchiveMetadata}

/-! ## What was read -/

theorem getElem?_unread_memory {s : MemoryStore} {limits : CallLimits} :
    a.unread.stores[number]? = some ⟨.memory s, limits⟩
      ↔ a.stores[number]? = some ⟨.memory s, limits⟩ := by
  rw [unread, List.getElem?_map]
  cases a.stores[number]? with
  | none => simp
  | some entry =>
    obtain ⟨t | t, limits'⟩ := entry
    · simp
    · simp

theorem getElem?_unread_directory {t : DirectoryStore} {limits : CallLimits} :
    a.unread.stores[number]? = some ⟨.directory t, limits⟩
      ↔ ∃ s, a.stores[number]? = some ⟨.directory s, limits⟩ ∧ t = { root := s.root } := by
  rw [unread, List.getElem?_map]
  cases a.stores[number]? with
  | none => simp
  | some entry =>
    obtain ⟨s | s, limits'⟩ := entry
    · simp
    · simp only [Option.map_some, Option.some.injEq, OpenStore.mk.injEq,
        ArchiveStore.directory.injEq]
      constructor
      · rintro ⟨rfl, rfl⟩
        exact ⟨s, ⟨rfl, rfl⟩, rfl⟩
      · rintro ⟨s', ⟨rfl, rfl⟩, rfl⟩
        exact ⟨rfl, rfl⟩

/-- A store in memory has nothing that was read. -/
theorem unread_replace_memory (a : Archives) (number : Nat) (s : MemoryStore)
    (limits : CallLimits) :
    (a.replace number ⟨.memory s, limits⟩).unread
      = a.unread.replace number ⟨.memory s, limits⟩ := by
  rw [unread, unread, replace, replace, List.map_set]

theorem disk_of_unread (h : a'.unread = a.unread) : a'.disk = a.disk := by
  have hdisk := congrArg Archives.disk h
  exact hdisk

/-- Retrieving leaves the archives as they are. -/
theorem IsOpen.unread_retrieve (h : a.IsOpen number) (archiveId : String) (request : Request) :
    ((Archives.retrieve number archiveId request).run a).2.unread = a.unread := by
  obtain ⟨s | s, hopen⟩ := h
  · rw [retrieve_of_memory hopen rfl]
  · rw [retrieve_of_directory hopen rfl]
    exact unread_set hopen (DirectoryStore.root_lookUp ..)

theorem IsOpen.of_unread (h : a.IsOpen number) (hread : a'.unread = a.unread) :
    a'.IsOpen number := by
  obtain ⟨s | s, hopen⟩ := h
  · rw [← getElem?_unread_memory, ← hread, getElem?_unread_memory] at hopen
    exact ⟨_, hopen⟩
  · have hunread := getElem?_unread_directory.mpr ⟨s, hopen, rfl⟩
    rw [← hread, getElem?_unread_directory] at hunread
    obtain ⟨s', hopen', -⟩ := hunread
    exact ⟨_, hopen'⟩

/-! ## What stays -/

/-- All that stands on the disk and all that is in memory is still there, unchanged, and the stores
are still open. -/
structure Retains (a a' : Archives) : Prop where
  disk : a.disk.Retains a'.disk
  memory : ∀ {number : Nat} {s : MemoryStore} {limits : CallLimits},
    a.stores[number]? = some ⟨.memory s, limits⟩ →
      ∃ s', a'.stores[number]? = some ⟨.memory s', limits⟩
        ∧ ∀ id archive, s.archives.get? id = some archive → s'.archives.get? id = some archive
  directory : ∀ {number : Nat} {s : DirectoryStore} {limits : CallLimits},
    a.stores[number]? = some ⟨.directory s, limits⟩ →
      ∃ s', a'.stores[number]? = some ⟨.directory s', limits⟩ ∧ s'.root = s.root

theorem Retains.trans (h : a.Retains a') (h' : a'.Retains a'') : a.Retains a'' where
  disk := h.disk.trans h'.disk
  memory hopen := by
    obtain ⟨s', hopen', hkept⟩ := h.memory hopen
    obtain ⟨s'', hopen'', hkept'⟩ := h'.memory hopen'
    exact ⟨s'', hopen'', fun id archive hfound => hkept' id archive (hkept id archive hfound)⟩
  directory hopen := by
    obtain ⟨s', hopen', hroot⟩ := h.directory hopen
    obtain ⟨s'', hopen'', hroot'⟩ := h'.directory hopen'
    exact ⟨s'', hopen'', hroot'.trans hroot⟩

/-- What stays on the disk, and the stores that stay where they are. -/
theorem retains_of_stores (hdisk : a.disk.Retains a'.disk)
    (hstores : ∀ {number : Nat} {entry : OpenStore}, a.unread.stores[number]? = some entry →
      a'.unread.stores[number]? = some entry) : a.Retains a' where
  disk := hdisk
  memory hopen := ⟨_, getElem?_unread_memory.mp (hstores (getElem?_unread_memory.mpr hopen)),
    fun _ _ hfound => hfound⟩
  directory {number s limits} hopen := by
    obtain ⟨s', hopen', hroot⟩ := getElem?_unread_directory.mp
      (hstores (getElem?_unread_directory.mpr ⟨s, hopen, rfl⟩))
    exact ⟨s', hopen', (congrArg DirectoryStore.root hroot).symm⟩

theorem retains_of_unread (h : a'.unread = a.unread) : a.Retains a' := by
  refine retains_of_stores ?_ (by rw [h]; exact id)
  rw [disk_of_unread h]
  exact .refl _

/-! ## Identifiers that are not in use -/

/-- Nothing on the disk has the name, and no archive in memory. -/
structure IsUnused (a : Archives) (name : String) : Prop where
  disk : a.disk.Lacks name
  memory : ∀ {number : Nat} {s : MemoryStore} {limits : CallLimits},
    a.stores[number]? = some ⟨.memory s, limits⟩ → s.archives.get? name = none

theorem IsUnused.of_unread (h : a.IsUnused name) (hread : a'.unread = a.unread) :
    a'.IsUnused name where
  disk := by
    rw [disk_of_unread hread]
    exact h.disk
  memory hopen := by
    rw [← getElem?_unread_memory, hread, getElem?_unread_memory] at hopen
    exact h.memory hopen

/-! ## Opening stores -/

/-- Stores were opened at a location. Directories may have been made for them under the names of the
location; nothing else on the disk is new, and no store that was open has changed but for what was
read. -/
structure Opens (location : String) (a a' : Archives) : Prop where
  disk : NewDirectories (segments location) a.disk a'.disk
  stores : ∃ n, a'.unread.stores
    = a.unread.stores ++ List.replicate n ⟨.directory { root := location }, {}⟩

theorem opens_of_unread (h : a'.unread = a.unread) : a.Opens location a' where
  disk := by
    rw [disk_of_unread h]
    exact .refl
  stores := ⟨0, by rw [h, List.replicate_zero, List.append_nil]⟩

theorem Opens.of_unread (h : a.Opens location a') (hread : a''.unread = a'.unread) :
    a.Opens location a'' where
  disk := by
    rw [disk_of_unread hread]
    exact h.disk
  stores := by
    rw [hread]
    exact h.stores

theorem Opens.retains (h : a.Opens location a') : a.Retains a' := by
  obtain ⟨n, hstores⟩ := h.stores
  refine retains_of_stores h.disk.sameFiles.retains fun {number entry} hentry => ?_
  rw [hstores, List.getElem?_append_left (List.getElem?_eq_some_iff.mp hentry).1, hentry]

theorem Opens.isUnused (h : a.Opens location a') (hunused : a.IsUnused name)
    (hnot : name ∉ segments location) : a'.IsUnused name where
  disk := h.disk.lacks hunused.disk hnot
  memory {number s limits} hopen := by
    obtain ⟨n, hstores⟩ := h.stores
    rw [← getElem?_unread_memory, hstores, List.getElem?_append] at hopen
    split at hopen
    · exact hunused.memory (getElem?_unread_memory.mp hopen)
    · cases List.eq_of_mem_replicate (List.mem_of_getElem? hopen)

/-- Opening a store at a location, also when it fails. The location of a store that was opened is a
path that leads to a directory. -/
theorem opens_openDirectory (a : Archives) (location : String) :
    a.Opens location ((openDirectory location).run a).2
      ∧ ∀ number, ((openDirectory location).run a).1 = .ok number →
        IsPath location
          ∧ ((openDirectory location).run a).2.stores[number]?
            = some ⟨.directory { root := location }, {}⟩
          ∧ ∃ at_, ((openDirectory location).run a).2.disk.LeadsTo location at_ := by
  have hnew := newDirectories_makeDirectories location a.disk
  rw [openDirectory_run]
  rcases hrun : (makeDirectories location).run a.disk with ⟨fault | ⟨⟩, disk⟩ <;> rw [hrun] at hnew
  · exact ⟨⟨hnew, 0, (List.append_nil _).symm⟩, by rintro number ⟨⟩⟩
  · refine ⟨⟨hnew, 1, List.map_append⟩, ?_⟩
    rintro number ⟨⟩
    obtain ⟨hpath, hleads⟩ := leadsTo_of_makeDirectories hrun
    exact ⟨hpath, List.getElem?_concat_length, hleads⟩

/-! ## Adding an archive -/

/-- An archive with a description was added to a store, under an identifier that was free, and some
responses were stored in it. Nothing else has changed but for what was read. -/
inductive Adds (a : Archives) (number : Nat) (m : ArchiveMetadata) (a' : Archives) : Prop where
  | memory {s : MemoryStore} (responses : Keyed String)
      (hopen : a.stores[number]? = some ⟨.memory s, {}⟩)
      (hnew : s.archives.get? m.archiveId = none)
      (hafter : a'.unread = (a.replace number
        ⟨.memory ⟨s.archives.insert m.archiveId { description := m, responses }⟩, {}⟩).unread)
  | directory {s : DirectoryStore} {at_ : Place} (rs : List LoggedResponse)
      (hopen : a.stores[number]? = some ⟨.directory s, {}⟩)
      (hleads : a.disk.LeadsTo s.root at_) (hname : IsArchiveName s.root m.archiveId)
      (hnew : a.disk.IsFree (at_ ++ [m.archiveId]))
      (hafter : a'.unread
        = unread { a with disk := a.disk.withResponses (at_ ++ [m.archiveId]) m rs })

theorem Adds.retains (h : a.Adds number m a') : a.Retains a' := by
  cases h with
  | @memory s responses hopen hnew hafter =>
    refine Retains.trans ?_ (retains_of_unread hafter)
    refine ⟨.refl _, fun {other t limits} hother => ?_, fun {other t limits} hother => ?_⟩
    · by_cases heq : number = other
      · subst heq
        cases hopen.symm.trans hother
        refine ⟨_, getElem?_set_of_getElem? hopen _, fun id archive hfound => ?_⟩
        rw [Keyed.get?_insert, if_neg]
        · exact hfound
        · rintro rfl
          rw [hnew] at hfound
          cases hfound
      · exact ⟨t, (List.getElem?_set_ne heq).trans hother, fun _ _ hfound => hfound⟩
    · have hne : number ≠ other := by
        rintro rfl
        cases hopen.symm.trans hother
      exact ⟨t, (List.getElem?_set_ne hne).trans hother, rfl⟩
  | @directory s at_ rs hopen hleads hname hnew hafter =>
    refine Retains.trans ?_ (retains_of_unread hafter)
    have hplace := hleads.isPlace.concat hname.fileName.slash
    exact ⟨hnew.retains_withResponses hplace (by simp) m rs,
      fun hother => ⟨_, hother, fun _ _ hfound => hfound⟩, fun hother => ⟨_, hother, rfl⟩⟩

/-- Identifiers that are not in use stay so when an archive with another one is added. -/
theorem Adds.isUnused (h : a.Adds number m a') (hunused : a.IsUnused name)
    (hne : name ≠ m.archiveId) (hdescription : name ≠ metadataFile)
    (hlog : name ≠ responsesFile) : a'.IsUnused name := by
  cases h with
  | @memory s responses hopen hnew hafter =>
    have hadded : (a.replace number ⟨.memory ⟨s.archives.insert m.archiveId
        { description := m, responses }⟩, {}⟩).IsUnused name := by
      refine ⟨hunused.disk, fun {other t limits} hother => ?_⟩
      by_cases heq : number = other
      · subst heq
        cases (getElem?_set_of_getElem? hopen _).symm.trans hother
        rw [Keyed.get?_insert, if_neg hne]
        exact hunused.memory hopen
      · exact hunused.memory ((List.getElem?_set_ne heq).symm.trans hother)
    exact hadded.of_unread hafter
  | @directory s at_ rs hopen hleads hname hnew hafter =>
    have hplace := hleads.isPlace.concat hname.fileName.slash
    have hnot : name ∉ at_ ++ [m.archiveId] := by
      rw [List.mem_append, List.mem_singleton, not_or]
      exact ⟨hunused.disk.notMem hleads.isPlace hleads.2, hne⟩
    have hlacks := hunused.disk.withResponses hplace (by simp) hnot hdescription hlog m rs
    have hadded : IsUnused { a with disk := a.disk.withResponses (at_ ++ [m.archiveId]) m rs }
        name := ⟨hlacks, hunused.memory⟩
    exact hadded.of_unread hafter

/-- Storing a response in the archive that was added changes nothing else. -/
theorem Adds.store (h : a.Adds number m a') (request : Request) (body : String) :
    a.Adds number m ((Archives.store number m.archiveId request body).run a').2 := by
  cases h with
  | @memory s responses hopen hnew hafter =>
    have hopen' : a'.stores[number]? = some ⟨.memory ⟨s.archives.insert m.archiveId
        { description := m, responses }⟩, {}⟩ := by
      rw [← getElem?_unread_memory, hafter, getElem?_unread_memory]
      exact getElem?_set_of_getElem? hopen _
    have hstored := MemoryStore.store_of_get?
      (s := ⟨s.archives.insert m.archiveId { description := m, responses }⟩)
      (Keyed.get?_insert_self ..) request body
    rw [Keyed.insert_insert] at hstored
    rw [Archives.store, call_of_memory hopen' _ _ _ hstored]
    refine .memory (responses.insertNew request.archiveKey body) hopen hnew ?_
    show (a'.replace number _).unread = _
    rw [unread_replace_memory, unread_replace_memory, hafter, unread_replace_memory, replace,
      replace, List.set_set]
    rfl
  | @directory s at_ rs hopen hleads hname hnew hafter =>
    have hdisk := disk_of_unread hafter
    obtain ⟨s', hopen', hroot⟩ : ∃ s', a'.stores[number]? = some ⟨.directory s', {}⟩
        ∧ ({ root := s.root } : DirectoryStore) = { root := s'.root } := by
      rw [← getElem?_unread_directory, hafter, getElem?_unread_directory]
      exact ⟨s, hopen, rfl⟩
    have hholds : a'.disk.Holds (s'.directoryOf m.archiveId) (at_ ++ [m.archiveId])
        (ResponseLog.ofList rs) := by
      rw [hdisk, DirectoryStore.directoryOf, ← congrArg DirectoryStore.root hroot]
      exact holds_withResponses hname hleads hnew m rs
    rw [Archives.store, call_of_directory hopen' _ _ _
      (DirectoryStore.store_of_holds hholds request body), hdisk, ← ResponseLog.ofList_append,
      put_withResponses]
    refine .directory (rs ++ [⟨request.archiveKey, body⟩]) hopen hleads hname hnew ?_
    have hread := congrArg Archives.stores (unread_set hopen' (s'.root_note m.archiveId
      ⟨request.archiveKey, body⟩))
    have hstores := congrArg Archives.stores hafter
    exact congrArg (Archives.mk _) (hread.trans hstores)

/-- A store that is open without a limit, in memory or in a directory with room. -/
inductive Accepts (a : Archives) (number : Nat) : Prop where
  | memory {s : MemoryStore} (hopen : a.stores[number]? = some ⟨.memory s, {}⟩)
  | directory {s : DirectoryStore} {at_ : Place}
      (hopen : a.stores[number]? = some ⟨.directory s, {}⟩) (hleads : a.disk.LeadsTo s.root at_)
      (hroom : HasRoom s.root)

theorem Accepts.isOpen (h : a.Accepts number) : a.IsOpen number := by
  cases h with
  | memory hopen => exact ⟨_, hopen⟩
  | directory hopen hleads hroom => exact ⟨_, hopen⟩

theorem Accepts.retained (h : a.Accepts number) (hkept : a.Retains a') : a'.Accepts number := by
  cases h with
  | memory hopen =>
    obtain ⟨s', hopen', -⟩ := hkept.memory hopen
    exact .memory hopen'
  | directory hopen hleads hroom =>
    obtain ⟨s', hopen', hroot⟩ := hkept.directory hopen
    rw [← hroot] at hleads hroom
    exact .directory hopen' (hkept.disk.extends.leadsTo hleads) hroom

/-- A store that accepts archives adds one under an identifier that is not in use. -/
theorem Accepts.create (h : a.Accepts number) {id : Uuid} (hid : m.archiveId = id.text)
    (hunused : a.IsUnused m.archiveId) :
    ∃ a', (Archives.create number m).run a = (.ok (), a') ∧ a.Adds number m a' := by
  cases h with
  | @memory s hopen =>
    have hnew := hunused.memory hopen
    exact ⟨_, call_of_memory hopen _ _ _ (MemoryStore.create_of_get?_eq_none hnew),
      .memory .empty hopen hnew rfl⟩
  | @directory s at_ hopen hleads hroom =>
    have hname : IsArchiveName s.root m.archiveId := hid ▸ hroom id
    have hfree := hunused.disk.isFree at_
    have hrun := call_of_directory hopen .create (MemoryStore.create m) _
      (DirectoryStore.create_of_isFree hname hleads hfree)
    rw [set_of_getElem? hopen, ← withResponses_nil] at hrun
    exact ⟨_, hrun, .directory [] hopen hleads hname hfree rfl⟩

end Archives

/-! ## Managers -/

namespace ArchiveManager

variable {manager : ArchiveManager} {w : Workspace} {a : Archives} {m : ArchiveMetadata}

theorem record_of_adds (h : a.Adds manager.store m w.archives) (request : Request) (body : String) :
    a.Adds manager.store m (manager.record m.archiveId request body w).2.archives
      ∧ (manager.record m.archiveId request body w).2.supply = w.supply := by
  have hstored := h.store request body
  rw [record]
  rcases hrun : (Archives.store manager.store m.archiveId request body).run w.archives with ⟨r, a'⟩
  rw [hrun] at hstored
  exact ⟨hstored, rfl⟩

theorem retrieve_of_isOpen (h : w.archives.IsOpen manager.store) (archiveId : String)
    (request : Request) :
    (manager.retrieve archiveId request w).2.archives.unread = w.archives.unread
      ∧ (manager.retrieve archiveId request w).2.supply = w.supply := by
  have hread := h.unread_retrieve archiveId request
  rw [retrieve]
  rcases hrun : (Archives.retrieve manager.store archiveId request).run w.archives with ⟨r, a'⟩
  rw [hrun] at hread
  exact ⟨hread, rfl⟩

theorem search_of_isOpen (h : w.archives.IsOpen manager.store) (query : ArchiveQuery) :
    ∃ r, manager.search query w = (r, w) := by
  have hsame := h.search query
  rw [search]
  rcases hrun : (Archives.search manager.store query).run w.archives with ⟨r, a'⟩
  rw [hrun] at hsame
  obtain rfl : a' = w.archives := hsame
  exact ⟨r, rfl⟩

end ArchiveManager

end Intake
