import Intake.Proofs.Archive.Search
import Intake.Proofs.Archive.Session

/-!
# Finding what was created

Whether an archive that was created in a directory is found later, by any store on the directory and
whatever was done between (`Archives.search_created`). It is found if its description can be read.
That fails in two cases, and then the archive is passed over without a word: the store has so long a
path for the directory that the path of the description is not taken, or the description nests
deeper than documents are read. A store whose root is the empty path finds nothing at all.
-/

namespace Intake

open Disk

namespace Archives

variable {a created : Archives} {number other : Nat} {s t : DirectoryStore} {m : ArchiveMetadata}
  {root : Place}

/-- An archive that was created stands in the directory of the store, under its identifier. -/
theorem described_of_create
    (hopen : a.stores[number]? = some ⟨.directory s, {}⟩) (hleads : a.disk.LeadsTo s.root root)
    (hname : IsFileName m.archiveId) (hcreate : (create number m).run a = (.ok (), created)) :
    IsPath (join (join s.root m.archiveId) metadataFile)
      ∧ a.disk.Extends created.disk
      ∧ created.disk.node? (root ++ [m.archiveId]) = some .directory
      ∧ created.disk.node? (root ++ [m.archiveId] ++ [metadataFile])
        = some (.file (ArchiveMetadata.wire.write m).pretty.toUTF8) := by
  obtain ⟨r, disk, hrun, hcreated⟩ := s.create_created a.disk m
  rw [create, call_of_directory hopen _ _ _ hrun, Prod.mk.injEq] at hcreate
  obtain ⟨rfl, rfl⟩ := hcreate
  have hgrown := hcreated.extends
  cases hcreated with
  | @complete outer name hnew hfile hlog hpath hlogPath =>
    have hlast := DirectoryStore.last_of_isNew hnew hleads
    rw [hname.segments, List.getLast?_singleton, Option.some.injEq] at hlast
    subst hlast
    obtain ⟨there, hthere, hplace, -⟩ := (leadsTo_join hname).mp hnew.leads
    obtain rfl := (hnew.extends.leadsTo hleads).unique hthere
    obtain ⟨rfl, -⟩ := List.append_inj' hplace rfl
    have hat := hnew.place.concat hname.slash
    refine ⟨hpath, hgrown, ?_, described_withArchive hat (by simp)⟩
    show (a.disk.withArchive _ m).node? _ = _
    rw [node?_withArchive hat (by simp) hat]
    simp

/-- What a store with another root for the directory finds of an archive whose description stands
there. -/
theorem mem_lists_iff (h : a.IsSound) (hleads : a.disk.LeadsTo t.root root)
    (hname : IsFileName m.archiveId)
    (hdir : a.disk.node? (root ++ [m.archiveId]) = some .directory)
    (hfile : a.disk.node? (root ++ [m.archiveId] ++ [metadataFile])
      = some (.file (ArchiveMetadata.wire.write m).pretty.toUTF8)) :
    m ∈ (a.disk.namesIn root).filterMap
        (fun name => DirectoryStore.describe? a.disk (join t.root name))
      ↔ IsPath (join (join t.root m.archiveId) metadataFile)
        ∧ (ArchiveMetadata.wire.write m).depth ≤ Json.maxDepth := by
  have hthere : a.disk.LeadsTo (join t.root m.archiveId) (root ++ [m.archiveId]) :=
    (leadsTo_join hname).mpr ⟨root, hleads, rfl, hdir⟩
  rw [List.mem_filterMap]
  constructor
  · rintro ⟨name, hlisted, hread⟩
    obtain ⟨hslash, hsome⟩ := mem_namesIn.mp hlisted
    have hfileName := (h.disk.tree root name (hleads.isPlace.concat hslash) hsome).1
    -- the identifier that is read is the name under which it is read
    have hlast := DirectoryStore.last_of_describe? h.disk hfileName hread
    rw [hname.segments, List.getLast?_singleton, Option.some.injEq] at hlast
    subst hlast
    obtain ⟨hpath, outer, content, houter, hnode, hdecoded⟩ :=
      DirectoryStore.describe?_eq_some.mp hread
    obtain rfl := houter.unique hthere
    rw [hfile, Option.some.injEq, Node.file.injEq] at hnode
    rw [← hnode] at hdecoded
    exact ⟨hpath, (ArchiveMetadata.ofBytes_pretty_eq_ok.mp hdecoded).2⟩
  · rintro ⟨hpath, hdepth⟩
    refine ⟨m.archiveId, mem_namesIn.mpr ⟨hname.slash, by rw [hdir]; rfl⟩, ?_⟩
    exact DirectoryStore.describe?_eq_some.mpr
      ⟨hpath, _, _, hthere, hfile, ArchiveMetadata.ofBytes_pretty hdepth⟩

/-- A store whose root is the empty path cannot list it. -/
theorem search_of_empty_root (hopen : a.stores[number]? = some ⟨.directory s, {}⟩)
    (hroot : s.root = "") (q : ArchiveQuery) :
    (search number q).run a = (.error (.io .noSuchFile), a) := by
  have hrun : (DirectoryStore.search q).run (s, a.disk)
      = (.error (.io .noSuchFile), (s, a.disk)) := by
    have hstat : a.disk.stat "" = .error .noSuchFile := rfl
    have hlist : (Disk.list "").run a.disk = (.error .noSuchFile, a.disk) := by
      simp only [Disk.list, Work.run_bind, Work.run_get, Work.run_liftM, hstat]
    simp only [DirectoryStore.search, Work.run_bind, Work.run_get, DirectoryStore.onDisk_run,
      hroot, hlist, Work.mapError_error]
  rw [search, call_of_directory hopen _ _ _ hrun, set_of_getElem? hopen]

/-- An archive that was created in a directory under a file name, whatever is done afterwards, is
found by a store on the directory if and only if the path that the store has for its description is
taken and the description nests no deeper than documents are read. For a store with the same root
the path is taken. -/
theorem search_created (h : a.IsReached) (hopen : a.stores[number]? = some ⟨.directory s, {}⟩)
    (hleads : a.disk.LeadsTo s.root root) (hname : IsFileName m.archiveId)
    (hcreate : (create number m).run a = (.ok (), created)) (steps : List ArchiveStep)
    (hother : (created.after steps).stores[other]? = some ⟨.directory t, {}⟩)
    (hleads' : (created.after steps).disk.LeadsTo t.root root)
    {q : ArchiveQuery} (hq : q.accepts m = true) :
    (t.root = "" → (search other q).run (created.after steps)
      = (.error (.io .noSuchFile), created.after steps))
    ∧ (t.root ≠ "" → ∃ found,
      (search other q).run (created.after steps) = (.ok found, created.after steps)
        ∧ (m ∈ found ↔ IsPath (join (join t.root m.archiveId) metadataFile)
          ∧ (ArchiveMetadata.wire.write m).depth ≤ Json.maxDepth))
    ∧ (t.root = s.root → IsPath (join (join t.root m.archiveId) metadataFile)) := by
  obtain ⟨hpath, -, hdir, hfile⟩ := described_of_create hopen hleads hname hcreate
  have hstep : a.step (.call number (.create m)) = created := by
    rw [step, ArchiveOp.perform, snd_run_bind_pure, hcreate]
  have hcreated : created.IsSound := hstep ▸ (h.isSound.step (.call number (.create m))).1
  obtain ⟨hsound, hkept⟩ := hcreated.after steps
  have hat : IsPlace (root ++ [m.archiveId]) := hleads.isPlace.concat hname.slash
  have hdir' := (hkept.grown _ hat).1 hdir
  have hfile' := hkept.kept hat hfile
  refine ⟨fun hroot => search_of_empty_root hother hroot q, fun hroot => ?_, fun hroot => ?_⟩
  · have hsome : t.root.isEmpty = false := by
      rw [Bool.eq_false_iff]
      exact fun hempty => hroot (String.isEmpty_iff.mp hempty)
    have hopened : OpenStore.IsSound (created.after steps).disk ⟨.directory t, {}⟩ :=
      hsound.stores _ (List.mem_of_getElem? hother)
    cases hopened with
    | directory hroot' _ =>
      have hlists := Lists.directory hother
        (stat_eq_directory.mpr ⟨hsome, hroot', hleads'⟩) (.refl _)
      refine ⟨_, hlists.search_eq hsound q, ?_⟩
      rw [ArchiveQuery.mem_select, and_iff_left hq]
      exact mem_lists_iff hsound hleads' hname hdir' hfile'
  · rw [hroot]
    exact hpath

/-- So many arrays, each in the next one. -/
def nested : Nat → Json
  | 0 => .null
  | levels + 1 => .array [nested levels]

theorem depth_nested (levels : Nat) : (nested levels).tree.depth = levels := by
  induction levels with
  | zero => rfl
  | succ levels ih =>
    show max (nested levels).tree.depth 0 + 1 = levels + 1
    rw [ih, Nat.max_zero]

/-- An archive of a fetch with an argument that nests less deep than documents may, but not in the
description, where it stands two levels down. -/
def deepFetch : ArchiveMetadata :=
  { oneFetch with backendArgs := Keyed.empty.insert "k" (nested 126) }

theorem depth_deepFetch : (ArchiveMetadata.wire.write deepFetch).depth = 128 := by
  rw [ArchiveMetadata.depth_write]
  show max (nested 126).tree.depth 0 + 1 + 1 = 128
  rw [depth_nested]
  rfl

/-- Two stores on one directory. -/
def beside : Archives := after {} [.openDirectory "root", .openDirectory "root"]

theorem search_deepFetch : ∃ created found,
    (create 0 deepFetch).run beside = (.ok (), created)
      ∧ (search 1 { origin := "origin", backendName := "backend", category := "category" }).run
        created = (.ok found, created)
      ∧ deepFetch ∉ found := by
  have hreached : beside.IsReached := ⟨{}, _, isBlank_empty, rfl⟩
  have hopen : beside.stores[0]? = some ⟨.directory { root := "root" }, {}⟩ := by rfl
  have hleads : beside.disk.LeadsTo "root" ["root"] :=
    directoryAt_eq_some.mp (by decide +kernel)
  have hname : IsFileName "x" := by constructor <;> decide
  have hok : ((create 0 deepFetch).run beside).1.toOption = some () := by decide +kernel
  rcases hcreate : (create 0 deepFetch).run beside with ⟨e | ⟨⟩, created⟩
  · rw [hcreate] at hok
    cases hok
  obtain ⟨-, hgrown, -⟩ := described_of_create hopen hleads hname hcreate
  have hother : created.stores[1]? = some ⟨.directory { root := "root" }, {}⟩ := by
    have hstores : ((create 0 deepFetch).run beside).2.stores[1]?
        = some ⟨.directory { root := "root" }, {}⟩ := by rfl
    rwa [hcreate] at hstores
  obtain ⟨-, hsearch, -⟩ := search_created hreached hopen hleads hname hcreate [] hother
    (hgrown.leadsTo hleads)
    (q := { origin := "origin", backendName := "backend", category := "category" }) rfl
  obtain ⟨found, hfound, hiff⟩ := hsearch (by decide)
  refine ⟨created, found, rfl, hfound, fun hmem => ?_⟩
  have hdepth := (hiff.mp hmem).2
  rw [depth_deepFetch] at hdepth
  exact absurd hdepth (by decide)

end Archives

end Intake
