import Intake.Proofs.Archive.Description
import Intake.Proofs.Archive.Directories
import Intake.Proofs.Archive.Kept

/-!
# Archives in memory and in a directory

A store in a directory mirrors a store in memory if it has the same archives with the same
descriptions and responses, in files, and if what it has read of them before is still what is in the
files (`DirectoryStore.Mirrors`). Each call is answered alike by both, and they still mirror each
other afterwards (`DirectoryStore.Mirrors.create` and the lemmas after it).

This is so for archives whose names are file names that make paths of no more than the length that
is taken (`IsArchiveName`), and descriptions that do not nest deeper than documents are read.
-/

namespace Intake

open Disk

/-- What is found under the keys are the values. -/
theorem Keyed.filterMap_keys {α β : Type} (m : Keyed α) (f : α → β) :
    m.keys.filterMap (fun key => (m.get? key).map f) = m.values.map f := by
  rw [Keyed.keys, Keyed.values, List.filterMap_map, List.map_map, ← List.filterMap_eq_map]
  refine List.filterMap_congr fun e he => ?_
  have hfound : m.get? e.1 = some e.2 := Entries.get?_of_mem m.ascending he
  rw [Function.comp_apply, hfound]
  rfl

/-- A name that an archive below a root can have: a file name, with which the paths of the two files
of the archive are paths. -/
structure IsArchiveName (root name : String) : Prop where
  fileName : IsFileName name
  description : IsPath (join (join root name) metadataFile)
  log : IsPath (join (join root name) responsesFile)

theorem IsArchiveName.directory {root name : String} (h : IsArchiveName root name) :
    IsPath (join root name) :=
  isPath_of_join isFileName_responsesFile h.log

/-- A file name is the name of an archive below any root that is not nearly as long as a path can
be. -/
theorem isArchiveName_of_short {root name : String} (hname : IsFileName name)
    (hroot : Char.ofNat 0 ∉ root.toList) (hnul : Char.ofNat 0 ∉ name.toList)
    (hshort : root.utf8ByteSize + name.utf8ByteSize + 17 < 4096) : IsArchiveName root name := by
  have hpath : ∀ {file}, Char.ofNat 0 ∉ file.toList → file.utf8ByteSize ≤ 15 →
      IsPath (join (join root name) file) := by
    intro file hfile hsize
    constructor
    · rw [List.contains_eq_mem, decide_eq_false_iff_not]
      intro hmem
      rcases mem_join hmem with hmem | hmem | hmem
      · rcases mem_join hmem with hmem | hmem | hmem
        · exact hroot hmem
        · exact absurd hmem (by decide)
        · exact hnul hmem
      · exact absurd hmem (by decide)
      · exact hfile hmem
    · have houter := utf8ByteSize_join_le root name
      have hinner := utf8ByteSize_join_le (join root name) file
      omega
  exact ⟨hname, hpath (by decide) (by decide), hpath (by decide) (by decide)⟩

namespace Disk

variable {d d' : Disk} {at_ : Place} {id : String}

/-! ## What is below a place -/

/-- What stands at a place and below it is the same on both disks. -/
def SameBelow (d d' : Disk) (at_ : Place) : Prop :=
  ∀ rest, IsPlace (at_ ++ rest) → d'.node? (at_ ++ rest) = d.node? (at_ ++ rest)

theorem SameBelow.trans {d'' : Disk} (h : d.SameBelow d' at_) (h' : d'.SameBelow d'' at_) :
    d.SameBelow d'' at_ :=
  fun rest hplace => (h' rest hplace).trans (h rest hplace)

/-- What is put into one directory is nothing to the one beside it. -/
theorem sameBelow_put {other : String} (hne : id ≠ other) {rest : Place}
    (hplace : IsPlace (at_ ++ [other] ++ rest)) (n : Node) :
    d.SameBelow (d.put (at_ ++ [other] ++ rest) n) (at_ ++ [id]) := by
  intro below hbelow
  rw [node?_put d hplace hbelow (by simp), if_neg]
  intro heq
  rw [List.append_assoc, List.append_assoc, List.append_right_inj] at heq
  exact hne (List.cons.inj heq).1

theorem description_ne_log (at_ : Place) : at_ ++ [metadataFile] ≠ at_ ++ [responsesFile] := by
  intro heq
  have hname : metadataFile = responsesFile := (List.cons.inj (List.append_cancel_left heq)).1
  exact absurd hname (by decide)

/-! ## A new archive -/

/-- Nothing stands at a place or below it. -/
def IsFree (d : Disk) (at_ : Place) : Prop :=
  ∀ rest, IsPlace (at_ ++ rest) → d.node? (at_ ++ rest) = none

theorem IsFree.node?_eq_none (h : d.IsFree at_) (hat : IsPlace at_) : d.node? at_ = none := by
  have hself := h []
  rw [List.append_nil] at hself
  exact hself hat

variable {m : ArchiveMetadata}

theorem node?_withArchive (hat : IsPlace at_) (hroot : at_ ≠ []) {p : Place} (hp : IsPlace p) :
    (d.withArchive at_ m).node? p =
      if p = at_ ++ [responsesFile] then some (.file ByteArray.empty)
      else if p = at_ ++ [metadataFile] then
        some (.file (ArchiveMetadata.wire.write m).pretty.toUTF8)
      else if p = at_ then some .directory
      else d.node? p := by
  have hdescription := hat.concat isFileName_metadataFile.slash
  have hlog := hat.concat isFileName_responsesFile.slash
  rw [withArchive, node?_put _ hlog hp (by simp), node?_put _ hdescription hp (by simp),
    node?_put _ hat hp hroot]

theorem extends_withArchive (hat : IsPlace at_) (hroot : at_ ≠ []) (hfree : d.IsFree at_) :
    d.Extends (d.withArchive at_ m) := by
  have hnew : ∀ {p}, d.node? p = none → ∀ n : Option Node,
      (d.node? p = some .directory → n = some .directory)
        ∧ ∀ content, d.node? p = some (.file content) → ∃ new, n = some (.file new) := by
    intro p hnone n
    rw [hnone]
    exact ⟨by rintro ⟨⟩, by rintro content ⟨⟩⟩
  intro p hp
  rw [node?_withArchive hat hroot hp]
  split
  · rename_i heq
    exact hnew (heq ▸ hfree _ (heq ▸ hp)) _
  split
  · rename_i heq
    exact hnew (heq ▸ hfree _ (heq ▸ hp)) _
  split
  · rename_i heq
    exact hnew (heq ▸ hfree.node?_eq_none hat) _
  · exact ⟨id, fun content hfile => ⟨content, hfile⟩⟩

theorem sameBelow_withArchive {other : String} (hother : '/' ∉ other.toList) (hat : IsPlace at_)
    (hne : id ≠ other) : d.SameBelow (d.withArchive (at_ ++ [other]) m) (at_ ++ [id]) := by
  have hplace := hat.concat hother
  have hdirectory : d.SameBelow (d.put (at_ ++ [other] ++ []) .directory) (at_ ++ [id]) :=
    sameBelow_put hne (by rwa [List.append_nil]) _
  rw [List.append_nil] at hdirectory
  exact (hdirectory.trans (sameBelow_put hne (hplace.concat isFileName_metadataFile.slash) _)).trans
    (sameBelow_put hne (hplace.concat isFileName_responsesFile.slash) _)

theorem described_withArchive (hat : IsPlace at_) (hroot : at_ ≠ []) :
    (d.withArchive at_ m).node? (at_ ++ [metadataFile])
      = some (.file (ArchiveMetadata.wire.write m).pretty.toUTF8) := by
  rw [node?_withArchive hat hroot (hat.concat isFileName_metadataFile.slash),
    if_neg (description_ne_log at_), if_pos rfl]

theorem holds_withArchive {base : String} (hname : IsArchiveName base id)
    (hleads : d.LeadsTo base at_) (hfree : d.IsFree (at_ ++ [id])) :
    (d.withArchive (at_ ++ [id]) m).Holds (join base id) (at_ ++ [id]) ByteArray.empty := by
  have hplace := hleads.isPlace.concat hname.fileName.slash
  have hroot : at_ ++ [id] ≠ [] := by simp
  have hgrown := extends_withArchive (m := m) hplace hroot hfree
  refine ⟨(leadsTo_join hname.fileName).mpr ⟨at_, hgrown.leadsTo hleads, rfl, ?_⟩,
    ⟨hname.description, _, described_withArchive hplace hroot⟩, hname.log, logAt_eq_some.mpr ?_⟩
  · rw [node?_withArchive hplace hroot hplace]
    simp
  · rw [node?_withArchive hplace hroot (hplace.concat isFileName_responsesFile.slash), if_pos rfl]

end Disk

namespace DirectoryStore

variable {s s' : DirectoryStore} {d d' : Disk} {at_ : Place} {m : ArchiveMetadata} {id : String}

/-- Creating an archive where nothing stands makes its directory and its files. -/
theorem create_of_isFree (hname : IsArchiveName s.root m.archiveId) (hleads : d.LeadsTo s.root at_)
    (hfree : d.IsFree (at_ ++ [m.archiveId])) :
    (create m).run (s, d) = (.ok (), (s, d.withArchive (at_ ++ [m.archiveId]) m)) := by
  have hplace := hleads.isPlace.concat hname.fileName.slash
  have hdescription := hplace.concat isFileName_metadataFile.slash
  have hlog := hplace.concat isFileName_responsesFile.slash
  have hnone := hfree.node?_eq_none hplace
  -- three operations, each on the disk that the one before it has left
  have hmade := makeDirectory_join hname.fileName hname.directory hleads
  rw [if_neg (by rw [hnone]; rintro ⟨⟩)] at hmade
  have hgrown := extends_put hplace (by simp) (n := .directory) (.inl hnone)
  have hthere : (d.put (at_ ++ [m.archiveId]) .directory).LeadsTo (join s.root m.archiveId)
      (at_ ++ [m.archiveId]) := by
    refine (leadsTo_join hname.fileName).mpr ⟨at_, hgrown.leadsTo hleads, rfl, ?_⟩
    rw [node?_put d hplace hplace (by simp), if_pos rfl]
  have hempty : ∀ {file}, IsPlace (at_ ++ [m.archiveId] ++ [file]) →
      (d.put (at_ ++ [m.archiveId]) .directory).node? (at_ ++ [m.archiveId] ++ [file]) = none := by
    intro file hfile
    rw [node?_put d hplace hfile (by simp), if_neg (by simp), hfree _ hfile]
  have hwritten := overwrite_join isFileName_metadataFile hname.description hthere
    (by rw [hempty hdescription]; rintro ⟨⟩) (ArchiveMetadata.wire.write m).pretty.toUTF8
  have hgrown' := extends_put hdescription (by simp)
    (n := .file (ArchiveMetadata.wire.write m).pretty.toUTF8) (.inl (hempty hdescription))
  have hlogged := overwrite_join isFileName_responsesFile hname.log (hgrown'.leadsTo hthere)
    (by
      rw [node?_put _ hdescription hlog (by simp), hempty hlog]
      split <;> rintro ⟨⟩) ByteArray.empty
  simp only [create, Work.run_bind, Work.run_get, onDisk_run, directoryOf, hmade, hwritten,
    hlogged, Work.mapError_ok]
  rfl

/-- Creating an archive where there is a directory is refused. -/
theorem create_of_directory (hname : IsArchiveName s.root m.archiveId)
    (hleads : d.LeadsTo s.root at_) (hdir : d.node? (at_ ++ [m.archiveId]) = some .directory) :
    (create m).run (s, d)
      = (.error (.storage ("archive already exists: " ++ m.archiveId)), (s, d)) := by
  have hmade := makeDirectory_join hname.fileName hname.directory hleads
  rw [if_pos (by rw [hdir]; rfl)] at hmade
  simp only [create, Work.run_bind, Work.run_get, onDisk_run, directoryOf, hmade,
    Work.mapError_error, creationError]

/-- What is not there is not found. -/
theorem find_of_isFree (hname : IsFileName id) (hleads : d.LeadsTo s.root at_)
    (hfree : d.IsFree (at_ ++ [id])) :
    (find id).run (s, d) = (.error (.archiveNotFound id), (s, d)) := by
  rw [find_run, if_neg]
  intro hfound
  obtain ⟨-, outer, content, hthere, hnode⟩ := (isFile_join isFileName_metadataFile).mp hfound
  obtain ⟨outer', houter, rfl, hdir⟩ := (leadsTo_join hname).mp hthere
  rw [houter.unique hleads, hfree.node?_eq_none (hleads.isPlace.concat hname.slash)] at hdir
  cases hdir

/-! ## Mirroring -/

/-- An archive in a directory has the description of an archive in memory and the same responses,
which are also the ones in the index if the archive was read. -/
structure Matches (s : DirectoryStore) (d : Disk) (at_ : Place) (id : String)
    (archive : StoredArchive) (rs : List LoggedResponse) : Prop where
  name : IsArchiveName s.root id
  archiveId : archive.description.archiveId = id
  holds : d.Holds (s.directoryOf id) (at_ ++ [id]) (ResponseLog.ofList rs)
  responses : archive.responses = ResponseLog.firsts rs
  index : ∀ known, s.index.get? id = some known → known = ResponseLog.firsts rs
  described : d.node? (at_ ++ [id] ++ [metadataFile])
    = some (.file (ArchiveMetadata.wire.write archive.description).pretty.toUTF8)
  depth : (ArchiveMetadata.wire.write archive.description).depth ≤ Json.maxDepth

/-- A store in a directory has the same archives as a store in memory, and nothing else stands in
its directory. -/
structure Mirrors (s : DirectoryStore) (d : Disk) (at_ : Place) (ms : MemoryStore) : Prop where
  opened : d.stat s.root = .ok (at_, .directory)
  archive : ∀ {id archive}, ms.archives.get? id = some archive → ∃ rs, s.Matches d at_ id archive rs
  free : ∀ {id}, ms.archives.get? id = none → d.IsFree (at_ ++ [id])
  unread : ∀ {id}, ms.archives.get? id = none → s.index.get? id = none

/-- A call gives the same in memory and in a directory, and the stores mirror each other after
it. -/
def AnswersAlike {α : Type} (s : DirectoryStore) (d : Disk) (at_ : Place) (ms : MemoryStore)
    (inMemory : MemoryM α) (inDirectory : DirectoryM α) : Prop :=
  ∃ r ms' s' d', inMemory.run ms = (r, ms') ∧ inDirectory.run (s, d) = (r, (s', d'))
    ∧ s'.root = s.root ∧ s'.Mirrors d' at_ ms'

variable {ms ms' : MemoryStore} {archive : StoredArchive} {rs : List LoggedResponse}

theorem Mirrors.leads (h : s.Mirrors d at_ ms) : d.LeadsTo s.root at_ :=
  (stat_eq_directory.mp h.opened).2.2

/-- An archive stays as it is when the disk grows elsewhere. -/
theorem Matches.of_sameBelow (h : s.Matches d at_ id archive rs) (hgrown : d.Extends d')
    (hsame : d.SameBelow d' (at_ ++ [id])) (hroot : s'.root = s.root)
    (hindex : s'.index.get? id = s.index.get? id) : s'.Matches d' at_ id archive rs where
  name := hroot ▸ h.name
  archiveId := h.archiveId
  holds := by
    have hlog := h.holds.leads.isPlace.concat isFileName_responsesFile.slash
    rw [directoryOf, hroot]
    obtain ⟨new, hnew⟩ := hgrown.holds h.holds
    have hlogged := hsame _ hlog
    rw [logAt_eq_some.mp h.holds.logged.2] at hlogged
    exact ⟨hnew.leads, hnew.described, h.holds.logged.1, logAt_eq_some.mpr hlogged⟩
  responses := h.responses
  index := by
    rw [hindex]
    exact h.index
  described := by
    rw [hsame _ (h.holds.leads.isPlace.concat isFileName_metadataFile.slash)]
    exact h.described
  depth := h.depth

/-- The stores still mirror each other when one archive is the same in both and all the others are
as they were. -/
theorem Mirrors.of_matches (h : s.Mirrors d at_ ms) (hgrown : d.Extends d')
    (hroot : s'.root = s.root) (hself : ms'.archives.get? id = some archive)
    (hmatches : s'.Matches d' at_ id archive rs)
    (hothers : ∀ other ≠ id, ms'.archives.get? other = ms.archives.get? other
      ∧ d.SameBelow d' (at_ ++ [other]) ∧ s'.index.get? other = s.index.get? other) :
    s'.Mirrors d' at_ ms' := by
  have hne : ∀ {other}, ms'.archives.get? other = none → other ≠ id := by
    rintro other hnone rfl
    rw [hself] at hnone
    cases hnone
  constructor
  case opened =>
    obtain ⟨hempty, hpath, hleads⟩ := stat_eq_directory.mp h.opened
    rw [hroot]
    exact stat_eq_directory.mpr ⟨hempty, hpath, hgrown.leadsTo hleads⟩
  case archive =>
    intro other found hfound
    by_cases hother : other = id
    · subst hother
      rw [hself, Option.some.injEq] at hfound
      exact ⟨rs, hfound ▸ hmatches⟩
    · obtain ⟨hmemory, hsame, hindex⟩ := hothers other hother
      obtain ⟨rs', hmatches'⟩ := h.archive (hmemory ▸ hfound)
      exact ⟨rs', hmatches'.of_sameBelow hgrown hsame hroot hindex⟩
  case free =>
    intro other hnone rest hplace
    obtain ⟨hmemory, hsame, -⟩ := hothers other (hne hnone)
    rw [hsame rest hplace]
    exact h.free (hmemory ▸ hnone) rest hplace
  case unread =>
    intro other hnone
    obtain ⟨hmemory, -, hindex⟩ := hothers other (hne hnone)
    exact hindex.trans (h.unread (hmemory ▸ hnone))

/-! ## Calls -/

theorem Mirrors.create (h : s.Mirrors d at_ ms) (hname : IsArchiveName s.root m.archiveId)
    (hdepth : (ArchiveMetadata.wire.write m).depth ≤ Json.maxDepth) :
    AnswersAlike s d at_ ms (MemoryStore.create m) (DirectoryStore.create m) := by
  cases hfound : ms.archives.get? m.archiveId with
  | some archive =>
    obtain ⟨rs, hmatches⟩ := h.archive hfound
    exact ⟨_, ms, s, d, MemoryStore.create_of_get? hfound,
      create_of_directory hname h.leads hmatches.holds.leads.2, rfl, h⟩
  | none =>
    have hfree := h.free hfound
    have hplace := h.leads.isPlace.concat hname.fileName.slash
    have hmatches : s.Matches (d.withArchive (at_ ++ [m.archiveId]) m) at_ m.archiveId
        { description := m } [] := by
      refine ⟨hname, rfl, holds_withArchive hname h.leads hfree, rfl, ?_,
        described_withArchive hplace (by simp), hdepth⟩
      rw [h.unread hfound]
      rintro known ⟨⟩
    refine ⟨_, _, s, _, MemoryStore.create_of_get?_eq_none hfound,
      create_of_isFree hname h.leads hfree, rfl, ?_⟩
    refine h.of_matches (extends_withArchive hplace (by simp) hfree) rfl
      (Keyed.get?_insert_self ..) hmatches fun other hother => ?_
    exact ⟨(Keyed.get?_insert ..).trans (if_neg hother),
      sameBelow_withArchive hname.fileName.slash h.leads.isPlace hother, rfl⟩

/-- A response that is stored adds a line to the log. -/
theorem Matches.store (h : s.Matches d at_ id archive rs) (r : LoggedResponse) :
    (s.note id r).Matches (d.put (at_ ++ [id] ++ [responsesFile])
        (.file (ResponseLog.ofList rs ++ ResponseLog.line r))) at_ id
      { archive with responses := archive.responses.insertNew r.key r.body } (rs ++ [r]) where
  name := by
    rw [root_note]
    exact h.name
  archiveId := h.archiveId
  holds := by
    rw [ResponseLog.ofList_append, directoryOf, root_note]
    exact h.holds.put_log _
  responses := by rw [ResponseLog.firsts_append, h.responses]
  index := index_note h.index r
  described := by
    have hplace := h.holds.leads.isPlace
    rw [node?_put d (hplace.concat isFileName_responsesFile.slash)
      (hplace.concat isFileName_metadataFile.slash) (by simp), if_neg (description_ne_log _),
      h.described]
  depth := h.depth

theorem Mirrors.store (h : s.Mirrors d at_ ms) (hname : IsArchiveName s.root id) (request : Request)
    (body : String) : AnswersAlike s d at_ ms (MemoryStore.store id request body)
      (DirectoryStore.store id request body) := by
  cases hfound : ms.archives.get? id with
  | none =>
    have hmissing := find_of_isFree hname.fileName h.leads (h.free hfound)
    refine ⟨_, ms, s, d, MemoryStore.store_of_get?_eq_none hfound request body, ?_, rfl, h⟩
    simp only [DirectoryStore.store, Work.run_bind, hmissing]
  | some archive =>
    obtain ⟨rs, hmatches⟩ := h.archive hfound
    refine ⟨_, _, _, _, MemoryStore.store_of_get? hfound request body,
      store_of_holds hmatches.holds request body, root_note .., ?_⟩
    refine h.of_matches (hmatches.holds.extends_put_log _) (root_note ..)
      (Keyed.get?_insert_self ..) (hmatches.store _) fun other hne => ?_
    exact ⟨(Keyed.get?_insert ..).trans (if_neg hne),
      sameBelow_put hne (hmatches.holds.leads.isPlace.concat isFileName_responsesFile.slash) _,
      index_note_of_ne hne _⟩

theorem Mirrors.retrieve (h : s.Mirrors d at_ ms) (hname : IsArchiveName s.root id)
    (request : Request) : AnswersAlike s d at_ ms (MemoryStore.retrieve id request)
      (DirectoryStore.retrieve id request) := by
  cases hfound : ms.archives.get? id with
  | none =>
    have hmissing := find_of_isFree hname.fileName h.leads (h.free hfound)
    have hknown : s.known? id request.archiveKey = none := by
      rw [known?, h.unread hfound]
      rfl
    refine ⟨_, ms, s, d, MemoryStore.retrieve_of_get?_eq_none hfound request, ?_, rfl, h⟩
    simp only [DirectoryStore.retrieve, Work.run_bind, Work.run_get, hknown, hmissing]
  | some archive =>
    obtain ⟨rs, hmatches⟩ := h.archive hfound
    have hmemory := MemoryStore.retrieve_of_get? hfound request
    rw [hmatches.responses] at hmemory
    cases hknown : s.known? id request.archiveKey with
    | some body =>
      obtain ⟨known, hindexed, hbody⟩ := Option.bind_eq_some_iff.mp hknown
      -- the answer comes from the index, where it is what the log would give
      have hanswer : answer (ResponseLog.firsts rs) request.archiveKey = .ok body := by
        rw [answer, ← hmatches.index known hindexed, hbody]
        rfl
      rw [hanswer] at hmemory
      exact ⟨_, ms, s, d, hmemory, retrieve_of_known hknown d, rfl, h⟩
    | none =>
      refine ⟨_, ms, _, d, hmemory,
        retrieve_of_holds hmatches.holds (ResponseLog.read_ofList rs) hknown, rfl, ?_⟩
      refine h.of_matches (.refl d) rfl hfound { hmatches with index := ?_ } fun other hne => ?_
      · intro known hindexed
        rw [index_withIndex_self, Option.some.injEq] at hindexed
        exact hindexed.symm
      · exact ⟨rfl, fun _ _ => rfl, (Keyed.get?_insert ..).trans (if_neg hne)⟩

/-! ## Searching -/

/-- The names in the directory are the identifiers of the archives. -/
theorem Mirrors.namesIn_perm (h : s.Mirrors d at_ ms) : (d.namesIn at_).Perm ms.archives.keys := by
  rw [List.perm_ext_iff_of_nodup (nodup_namesIn d at_) ms.archives.nodup_keys]
  intro name
  rw [mem_namesIn, Keyed.mem_keys]
  cases hfound : ms.archives.get? name with
  | none =>
    refine ⟨fun ⟨hslash, hsome⟩ => ?_, by rintro ⟨⟩⟩
    rw [(h.free hfound).node?_eq_none (h.leads.isPlace.concat hslash)] at hsome
    exact hsome
  | some archive =>
    obtain ⟨rs, hmatches⟩ := h.archive hfound
    refine ⟨fun _ => rfl, fun _ => ⟨hmatches.name.fileName.slash, ?_⟩⟩
    rw [hmatches.holds.leads.2]
    rfl

/-- The description that is read from a directory is that of the archive. -/
theorem Matches.describe?_eq (h : s.Matches d at_ id archive rs) :
    describe? d (join s.root id) = some archive.description := by
  have hstat := (stat_join isFileName_metadataFile).mpr
    ⟨h.name.description, _, h.holds.leads, rfl, h.described⟩
  rw [describe?, hstat]
  dsimp only
  rw [ArchiveMetadata.ofBytes_pretty h.depth]
  rfl

theorem Mirrors.search (h : s.Mirrors d at_ ms) (query : ArchiveQuery) :
    AnswersAlike s d at_ ms (MemoryStore.search query) (DirectoryStore.search query) := by
  have hvalues : ms.archives.keys.filterMap (fun name => describe? d (join s.root name))
      = ms.archives.values.map (·.description) := by
    rw [← Keyed.filterMap_keys]
    refine List.filterMap_congr fun name hname => ?_
    obtain ⟨archive, hfound⟩ := Option.isSome_iff_exists.mp (Keyed.mem_keys.mp hname)
    obtain ⟨rs, hmatches⟩ := h.archive hfound
    rw [hmatches.describe?_eq, hfound, Option.map_some]
  -- the names are not listed as the map has them, but a query puts what it selects in order
  have hids : (ms.archives.values.map (·.description)).map (·.archiveId) = ms.archives.keys := by
    rw [Keyed.values, Keyed.keys, List.map_map, List.map_map]
    refine List.map_congr_left fun e he => ?_
    obtain ⟨rs, hmatches⟩ := h.archive (Entries.get?_of_mem ms.archives.ascending he)
    exact hmatches.archiveId
  have hperm := h.namesIn_perm.filterMap fun name => describe? d (join s.root name)
  rw [hvalues] at hperm
  have hselect := query.select_of_perm hperm.symm (by rw [hids]; exact ms.archives.nodup_keys)
  refine ⟨_, ms, s, d, rfl, ?_, rfl, h⟩
  simp only [DirectoryStore.search, Work.run_bind, Work.run_get, onDisk_run, list_run h.opened,
    Work.mapError_ok, ← hselect]
  rfl

end DirectoryStore

end Intake
