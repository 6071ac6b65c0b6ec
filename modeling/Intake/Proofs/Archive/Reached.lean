import Intake.Proofs.Archive.Refinement
import Intake.Proofs.Archive.Tree
import Intake.Proofs.Archive.Views

/-!
# Archives that come about

Archives come about on a disk that has none by opening stores, in memory and in directories, and by
calling them (`Archives.IsReached`). Throughout, a store in memory has each archive under its
identifier, the root of a store in a directory leads to a directory, and the disk is orderly
(`Archives.IsSound`): each step keeps it so (`Archives.IsSound.step`), and so do all
(`Archives.IsSound.after`). No step changes a description that is on the disk.
-/

namespace Intake

open Disk

/-- What is done with archives: a store is opened, or one is called. -/
inductive ArchiveStep where
  | openMemory
  | openDirectory (root : String)
  | call (number : Nat) (op : ArchiveOp)

/-- A disk without archives: whatever is on it stands in directories, and nothing is a description
or a log. -/
structure Disk.IsBlank (d : Disk) : Prop where
  tree : d.IsTree
  description : ∀ at_, IsPlace at_ → ∀ content,
    d.node? (at_ ++ [metadataFile]) ≠ some (.file content)
  log : ∀ at_, IsPlace at_ → d.logAt at_ = none

theorem Disk.isBlank_empty : IsBlank {} where
  tree := isTree_empty
  description at_ _ content h := by
    rw [node?_empty (by simp)] at h
    cases h
  log at_ _ := by rw [logAt, node?_empty (by simp)]

theorem Disk.IsBlank.isOrderly {d : Disk} (h : d.IsBlank) : d.IsOrderly where
  tree := h.tree
  named at_ hat content _ hfile _ := absurd hfile (h.description at_ hat content)
  logged at_ hat log hlog := by
    rw [h.log at_ hat] at hlog
    cases hlog

/-! ## Stores in memory -/

namespace MemoryStore

/-- Each archive stands under its identifier. -/
def IsSound (s : MemoryStore) : Prop :=
  ∀ id archive, s.archives.get? id = some archive → archive.description.archiveId = id

theorem isSound_empty : IsSound {} := by
  rintro id archive ⟨⟩

theorem IsSound.insert {s : MemoryStore} (h : s.IsSound) {id : String} {archive : StoredArchive}
    (hid : archive.description.archiveId = id) : IsSound ⟨s.archives.insert id archive⟩ := by
  intro other found hfound
  rw [Keyed.get?_insert] at hfound
  split at hfound
  · rename_i heq
    cases hfound
    rw [hid, heq]
  · exact h other found hfound

theorem IsSound.create {s : MemoryStore} (h : s.IsSound) (m : ArchiveMetadata) :
    ((create m).run s).2.IsSound := by
  cases hfound : s.archives.get? m.archiveId with
  | some archive =>
    rw [create_of_get? hfound]
    exact h
  | none =>
    rw [create_of_get?_eq_none hfound]
    exact h.insert rfl

theorem IsSound.store {s : MemoryStore} (h : s.IsSound) (archiveId : String) (request : Request)
    (body : String) : ((store archiveId request body).run s).2.IsSound := by
  cases hfound : s.archives.get? archiveId with
  | none =>
    rw [store_of_get?_eq_none hfound]
    exact h
  | some archive =>
    rw [store_of_get? hfound]
    exact h.insert (h archiveId archive hfound)

theorem IsSound.retrieve {s : MemoryStore} (h : s.IsSound) (archiveId : String)
    (request : Request) : ((retrieve archiveId request).run s).2.IsSound := by
  cases hfound : s.archives.get? archiveId with
  | none =>
    rw [retrieve_of_get?_eq_none hfound]
    exact h
  | some archive =>
    rw [retrieve_of_get? hfound]
    exact h

end MemoryStore

/-! ## Stores in directories -/

namespace DirectoryStore

/-- A call through a store keeps the disk orderly, and all descriptions, as long as the root of the
store leads to a directory. -/
def KeepsOrder {α : Type} (work : DirectoryM α) : Prop :=
  ∀ {s : DirectoryStore} {d : Disk} {at_ : Place}, d.IsOrderly → d.LeadsTo s.root at_ →
    ∃ r s' d', work.run (s, d) = (r, (s', d')) ∧ s'.root = s.root ∧ d'.IsOrderly
      ∧ d.KeepsDescriptions d'

theorem keepsOrder_create (m : ArchiveMetadata) : KeepsOrder (create m) := by
  intro s d at_ horderly hleads
  obtain ⟨r, d', hrun, hcreated⟩ := s.create_created d m
  exact ⟨r, s, d', hrun, rfl, hcreated.isOrderly horderly hleads⟩

theorem keepsOrder_store (archiveId : String) (request : Request) (body : String) :
    KeepsOrder (store archiveId request body) := by
  intro s d at_ horderly _
  rcases s.store_cases d archiveId request body with ⟨e, hrun⟩ | ⟨there, log, hholds, hrun⟩
  · exact ⟨_, s, d, hrun, rfl, horderly, .refl d⟩
  · obtain ⟨rs, rfl⟩ := horderly.logged there hholds.leads.isPlace log hholds.logged.2
    rw [← ResponseLog.ofList_append] at hrun
    exact ⟨_, _, _, hrun, root_note .., horderly.put_log hholds.leads.isPlace hholds.leads.2 _
      (hholds.extends_put_log _)⟩

theorem keepsOrder_retrieve (archiveId : String) (request : Request) :
    KeepsOrder (retrieve archiveId request) := by
  intro s d at_ horderly _
  exact ⟨_, _, d, s.retrieve_run d archiveId request, root_lookUp .., horderly, .refl d⟩

theorem keepsOrder_search (query : ArchiveQuery) : KeepsOrder (search query) := by
  intro s d at_ horderly _
  obtain ⟨r, hrun⟩ := s.search_run d query
  exact ⟨r, s, d, hrun, rfl, horderly, .refl d⟩

end DirectoryStore

/-! ## Open stores -/

/-- A store without limits, which is in memory and has each archive under its identifier, or has a
root that leads to a directory. -/
inductive OpenStore.IsSound (d : Disk) : OpenStore → Prop where
  | memory {s : MemoryStore} (hsound : s.IsSound) : IsSound d ⟨.memory s, {}⟩
  | directory {s : DirectoryStore} {at_ : Place} (hpath : IsPath s.root)
      (hleads : d.LeadsTo s.root at_) : IsSound d ⟨.directory s, {}⟩

theorem OpenStore.IsSound.grown {d d' : Disk} {entry : OpenStore} (h : entry.IsSound d)
    (hgrown : d.Extends d') : entry.IsSound d' := by
  cases h with
  | memory hsound => exact .memory hsound
  | directory hpath hleads => exact .directory hpath (hgrown.leadsTo hleads)

namespace Archives

/-- One step. -/
def step (a : Archives) : ArchiveStep → Archives
  | .openMemory => a.add (.memory {})
  | .openDirectory root => ((openDirectory root).run a).2
  | .call number op => ((op.perform number).run a).2

/-- The archives after some steps. -/
def after (a : Archives) (steps : List ArchiveStep) : Archives := steps.foldl step a

/-- The archives come about by some steps on a disk that has none. -/
def IsReached (a : Archives) : Prop :=
  ∃ disk steps, disk.IsBlank ∧ a = after { disk } steps

/-- The disk is orderly, and every open store is sound. -/
structure IsSound (a : Archives) : Prop where
  disk : a.disk.IsOrderly
  stores : ∀ entry ∈ a.stores, entry.IsSound a.disk

variable {a : Archives}

theorem IsSound.start {disk : Disk} (h : disk.IsBlank) : IsSound { disk } where
  disk := h.isOrderly
  stores _ hentry := by cases hentry

/-- The archives stay sound when the disk grows and one store is replaced by a sound one. -/
theorem IsSound.replace (h : a.IsSound) {disk : Disk} (hdisk : disk.IsOrderly)
    (hgrown : a.disk.Extends disk) (number : Nat) {entry : OpenStore}
    (hentry : entry.IsSound disk) :
    IsSound { disk, stores := a.stores.set number entry } where
  disk := hdisk
  stores other hother := by
    rcases List.mem_or_eq_of_mem_set hother with hmem | rfl
    · exact (h.stores other hmem).grown hgrown
    · exact hentry

theorem IsSound.add (h : a.IsSound) {disk : Disk} (hdisk : disk.IsOrderly)
    (hgrown : a.disk.Extends disk) {s : ArchiveStore} (hstore : OpenStore.IsSound disk ⟨s, {}⟩) :
    IsSound ({ a with disk }.add s) where
  disk := hdisk
  stores entry hentry := by
    rcases List.mem_append.mp hentry with hmem | hmem
    · exact (h.stores entry hmem).grown hgrown
    · rw [List.mem_singleton.mp hmem]
      exact hstore

/-! ## One step -/

/-- The archives are sound after a step as well, and the disk keeps its descriptions. -/
def StaysSound (a a' : Archives) : Prop := a'.IsSound ∧ a.disk.KeepsDescriptions a'.disk

theorem IsSound.openDirectory (h : a.IsSound) (root : String) :
    a.StaysSound ((openDirectory root).run a).2 := by
  have hnew := newDirectories_makeDirectories root a.disk
  have hgrown := hnew.sameFiles.extends
  rw [openDirectory_run]
  rcases hrun : (makeDirectories root).run a.disk with ⟨fault | ⟨⟩, disk⟩
  · rw [hrun] at hnew hgrown
    refine ⟨⟨hnew.isOrderly h.disk, fun entry hentry => ?_⟩, hnew.sameFiles.keepsDescriptions⟩
    exact (h.stores entry hentry).grown hgrown
  · rw [hrun] at hnew hgrown
    obtain ⟨hpath, at_, hleads⟩ := leadsTo_of_makeDirectories hrun
    exact ⟨h.add (hnew.isOrderly h.disk) hgrown (.directory hpath hleads),
      hnew.sameFiles.keepsDescriptions⟩

/-- A call that keeps stores sound keeps the archives sound. -/
theorem IsSound.call {α : Type} (h : a.IsSound) (number : Nat) (kind : ArchiveCall)
    {inMemory : MemoryM α} {inDirectory : DirectoryM α}
    (hmemory : ∀ {s : MemoryStore}, s.IsSound → (inMemory.run s).2.IsSound)
    (hdirectory : DirectoryStore.KeepsOrder inDirectory) :
    a.StaysSound ((Archives.call number kind inMemory inDirectory).run a).2 := by
  cases hopen : a.stores[number]? with
  | none =>
    rw [call_of_none hopen]
    exact ⟨h, .refl _⟩
  | some entry =>
    cases h.stores entry (List.mem_of_getElem? hopen) with
    | @memory s hsound =>
      rw [call_of_memory hopen kind inMemory inDirectory rfl]
      exact ⟨h.replace h.disk (.refl _) number (.memory (hmemory hsound)), .refl _⟩
    | @directory s at_ hpath hleads =>
      obtain ⟨r, s', d', hrun, hroot, horderly, hkept⟩ := hdirectory h.disk hleads
      rw [call_of_directory hopen kind inMemory inDirectory hrun]
      rw [← hroot] at hpath hleads
      exact ⟨h.replace horderly hkept.grown number
        (.directory hpath (hkept.grown.leadsTo hleads)), hkept⟩

/-- What is answered says nothing about what is left. -/
theorem snd_run_bind_pure {α β : Type} (x : ArchiveM α) (f : α → β) (a : Archives) :
    ((x >>= fun v => pure (f v)).run a).2 = (x.run a).2 := by
  rw [Work.run_bind]
  rcases x.run a with ⟨e | v, a'⟩ <;> rfl

/-- Each step keeps the archives sound, and the descriptions on the disk. -/
theorem IsSound.step (h : a.IsSound) (st : ArchiveStep) : a.StaysSound (a.step st) := by
  cases st with
  | openMemory => exact ⟨h.add h.disk (.refl _) (.memory MemoryStore.isSound_empty), .refl _⟩
  | openDirectory root => exact h.openDirectory root
  | call number op =>
    rw [Archives.step]
    cases op with
    | create m =>
      rw [ArchiveOp.perform, snd_run_bind_pure]
      exact h.call number .create (·.create m) (DirectoryStore.keepsOrder_create m)
    | store archiveId request body =>
      rw [ArchiveOp.perform, snd_run_bind_pure]
      exact h.call number .store (·.store archiveId request body)
        (DirectoryStore.keepsOrder_store archiveId request body)
    | retrieve archiveId request =>
      rw [ArchiveOp.perform, snd_run_bind_pure]
      exact h.call number .retrieve (·.retrieve archiveId request)
        (DirectoryStore.keepsOrder_retrieve archiveId request)
    | search query =>
      rw [ArchiveOp.perform, snd_run_bind_pure]
      exact h.call number .search id (DirectoryStore.keepsOrder_search query)

/-! ## All steps -/

theorem IsSound.after (h : a.IsSound) (steps : List ArchiveStep) :
    a.StaysSound (a.after steps) := by
  induction steps generalizing a with
  | nil => exact ⟨h, .refl _⟩
  | cons st steps ih =>
    obtain ⟨hsound, hkept⟩ := h.step st
    obtain ⟨hsound', hkept'⟩ := ih hsound
    exact ⟨hsound', hkept.trans hkept'⟩

/-- Archives that come about are sound. -/
theorem IsReached.isSound (h : a.IsReached) : a.IsSound := by
  obtain ⟨disk, steps, hblank, rfl⟩ := h
  exact ((IsSound.start hblank).after steps).1

end Archives

end Intake
