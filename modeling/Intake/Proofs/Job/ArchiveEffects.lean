import Intake.Proofs.Archive.Added
import Intake.Proofs.Job.Forward
import Intake.Proofs.Stream.Workspace

/-!
# What the calls of a job do to archives

A run that names no archive goes the same way whatever the archives are, and leaves them
(`FetchJob.run_of_no_archive`). A run that records adds one archive to the location it names, and
stores responses in no other one. Every other run, and every archive that is bound, opens a store at
most. `FetchJob.CallCourse` are these three courses of a call, and `FetchJob.IsSupplied.course` says
that there is no fourth one.

So it is for all calls of a job, one after the other (`FetchJob.archives_after_calls`), if the
identifiers that are generated meanwhile are new and the stores have room for archives.
-/

namespace Intake

open Disk

/-- A call of a job. -/
inductive JobCall where
  | run (args : BackendArgs) (archiveArgs : Option ArchiveArgs)
  | initializeArchive (location : String)

/-- The location that a call names, if it names one. -/
def JobCall.location? : JobCall → Option String
  | .run _ archiveArgs => archiveArgs.map ArchiveArgs.path
  | .initializeArchive location => some location

namespace Supply

/-- The identifiers that come next. -/
def upcoming (s : Supply) : Nat → List String
  | 0 => []
  | n + 1 => s.fresh.1.text :: s.fresh.2.upcoming n

/-- So many identifiers were taken. -/
structure Issues (s : Supply) (n : Nat) (s' : Supply) : Prop where
  identifiers : s'.identifiers = s.identifiers
  issued : s'.issued = s.issued + n

variable {s s' : Supply} {n k : Nat} {id : String}

theorem issues_zero (s : Supply) : s.Issues 0 s := ⟨rfl, rfl⟩

theorem Issues.now (h : s.Issues n s') : s.Issues n s'.now.2 := ⟨h.identifiers, h.issued⟩

theorem Issues.upcoming_eq (h : s.Issues 0 s') (k : Nat) : s'.upcoming k = s.upcoming k := by
  induction k generalizing s s' with
  | zero => rfl
  | succ k ih =>
    have hfresh : s'.fresh.1 = s.fresh.1 := by
      rw [fresh, fresh, h.identifiers, h.issued, Nat.add_zero]
    have hrest : s.fresh.2.Issues 0 s'.fresh.2 := ⟨h.identifiers, congrArg (· + 1) h.issued⟩
    rw [upcoming, upcoming, hfresh, ih hrest]

/-- When an identifier was taken the others come next. -/
theorem Issues.upcoming_succ (h : s.Issues 1 s') (k : Nat) :
    s.upcoming (k + 1) = s.fresh.1.text :: s'.upcoming k := by
  have hrest : s.fresh.2.Issues 0 s' := ⟨h.identifiers, h.issued⟩
  rw [upcoming, hrest.upcoming_eq]

theorem prefix_upcoming_succ (s : Supply) (k : Nat) : s.upcoming k <+: s.upcoming (k + 1) := by
  induction k generalizing s with
  | zero => exact List.nil_prefix
  | succ k ih =>
    rw [upcoming, upcoming]
    exact List.cons_prefix_cons.mpr ⟨rfl, ih s.fresh.2⟩

theorem exists_of_mem_upcoming (h : id ∈ s.upcoming k) : ∃ u : Uuid, id = u.text := by
  induction k generalizing s with
  | zero => cases h
  | succ k ih =>
    rcases List.mem_cons.mp h with rfl | hmem
    · exact ⟨_, rfl⟩
    · exact ih hmem

end Supply

namespace FetchJob

variable {Q : Type} [ItemQueue Q]

/-! ## Calls -/

/-- What a call answers and leaves. -/
def perform (job : FetchJob) (o : Outside Q) :
    JobCall → Except JobError Unit × FetchJob × Outside Q
  | .run args archiveArgs => job.run args archiveArgs o
  | .initializeArchive location =>
    let (r, job, workspace) := job.initializeArchive location o.workspace
    (r, job, { o with workspace })

/-- A job and what is outside of it after some calls. -/
def afterCalls (job : FetchJob) (o : Outside Q) : List JobCall → FetchJob × Outside Q
  | [] => (job, o)
  | call :: calls => (job.perform o call).2.1.afterCalls (job.perform o call).2.2 calls

/-! ## Runs without an archive -/

/-- A stream that was begun without an archive is live, and what begins it is nothing to the
workspace. -/
theorem start_of_no_archive (backend : Backend) (args : BackendArgs) (category : String) :
    ∃ r, (∀ w, ItemStream.start backend args category {} w = (r, w))
      ∧ ∀ s, r = .ok s → s.IsLive := by
  unfold ItemStream.start
  by_cases hcategory : backend.supportsCategory category = true
  · simp only [hcategory, if_true]
    cases backend.build args with
    | error e => exact ⟨_, fun _ => rfl, by rintro s ⟨⟩⟩
    | ok built =>
      refine ⟨_, fun _ => rfl, ?_⟩
      rintro s ⟨⟩
      exact ⟨by rintro a ⟨⟩; rfl, rfl⟩
  · simp only [hcategory, Bool.false_eq_true, if_false]
    exact ⟨_, fun _ => rfl, by rintro s ⟨⟩⟩

/-- A live stream is forwarded the same way whatever the archives are. -/
theorem forward_of_isLive (job : FetchJob) (s : ItemStream) (summary : Option FetchSummary)
    (o : Outside Q) (h : s.IsLive) (a : Archives) :
    job.forward s summary { o with workspace := { o.workspace with archives := a } }
      = ((job.forward s summary o).1, (job.forward s summary o).2.1,
        { (job.forward s summary o).2.2 with
          workspace := { (job.forward s summary o).2.2.workspace with archives := a } }) := by
  fun_induction job.forward s summary o with
  | case1 s summary o s' w hnext =>
    have hlive := (h.next o.workspace a).1
    rw [hnext] at hlive
    rw [forward, hlive]
  | case2 s summary o e s' w hnext =>
    have hlive := (h.next o.workspace a).1
    rw [hnext] at hlive
    rw [forward, hlive]
  | case3 s summary o item s' w hnext e queue hpush =>
    have hlive := (h.next o.workspace a).1
    rw [hnext] at hlive
    rw [forward, hlive]
    simp only [hpush]
  | case4 s summary o item s' w hnext queue hpush ih =>
    obtain ⟨hlive, hrest⟩ := h.next o.workspace a
    rw [hnext] at hlive hrest
    rw [forward, hlive]
    simp only [hpush]
    exact ih hrest

/-- A run without an archive goes the same way whatever the archives are, and leaves them. -/
theorem run_of_no_archive (job : FetchJob) (args : BackendArgs) (o : Outside Q) (a : Archives) :
    job.run args none { o with workspace := { o.workspace with archives := a } }
      = ((job.run args none o).1, (job.run args none o).2.1,
        { (job.run args none o).2.2 with
          workspace := { (job.run args none o).2.2.workspace with archives := a } }) := by
  obtain ⟨r, hstart, hlive⟩ := start_of_no_archive job.backend args job.category
  have hoptions : streamOptions { job with archive := none, state := .initializing } none = {} :=
    rfl
  simp only [run, runStream, streamItems, hoptions, hstart]
  cases r with
  | error e => rfl
  | ok s =>
    simp only [forward_of_isLive _ s none ⟨o.queue, o.workspace⟩ (hlive s rfl) a]

/-! ## Binding an archive -/

section Binding

variable {job : FetchJob} {w v : Workspace} {args : BackendArgs} {a : ArchiveArgs}
  {archive : ArchiveManager} {built : BackendInstance} {opened : Workspace}

/-- A manager for a location: the one that was provided for it, or else that of a store opened
there. -/
inductive Reaches (job : FetchJob) (location : String) (a : Archives) (archive : ArchiveManager) :
    Prop where
  | provided (hlocation : archive.location = location) (h : job.provided = some archive)
  | opened {at_ : Place} (hlocation : archive.location = location)
      (hnone : job.providedAt? location = none) (hpath : IsPath location)
      (hopen : a.stores[archive.store]? = some ⟨.directory { root := location }, {}⟩)
      (hleads : a.disk.LeadsTo location at_)

/-- Binding an archive opens a store at its location at most. -/
theorem opens_binding (job : FetchJob) (a : ArchiveArgs) (w : Workspace) :
    w.archives.Opens a.path (job.binding (some a) w).2.archives
      ∧ (job.binding (some a) w).2.supply = w.supply
      ∧ ∀ bound, (job.binding (some a) w).1 = .ok bound → ∃ archive, bound = some archive
        ∧ job.Reaches a.path (job.binding (some a) w).2.archives archive := by
  rw [binding]
  cases hprovided : job.providedAt? a.path with
  | some archive =>
    refine ⟨Archives.opens_of_unread rfl, rfl, ?_⟩
    rintro bound ⟨⟩
    obtain ⟨hsome, hlocation⟩ := Option.filter_eq_some_iff.mp hprovided
    rw [Bool.and_eq_true, beq_iff_eq] at hlocation
    exact ⟨archive, rfl, .provided hlocation.2 hsome⟩
  | none =>
    dsimp only
    rw [ArchiveManager.openAt]
    split
    · exact ⟨Archives.opens_of_unread rfl, rfl, by rintro bound ⟨⟩⟩
    · obtain ⟨hopens, hstore⟩ := Archives.opens_openDirectory w.archives a.path
      rcases hrun : (Archives.openDirectory a.path).run w.archives with ⟨e | number, archives⟩
      · rw [hrun] at hopens
        exact ⟨hopens, rfl, by rintro bound ⟨⟩⟩
      · rw [hrun] at hopens hstore
        obtain ⟨hpath, hopen, at_, hleads⟩ := hstore number rfl
        refine ⟨hopens, rfl, ?_⟩
        rintro bound ⟨⟩
        exact ⟨_, rfl, .opened rfl hprovided hpath hopen hleads⟩

/-- A run that records: it is not to replay, its archive opens, and the backend has the category and
accepts the arguments. -/
structure Captures (job : FetchJob) (args : BackendArgs) (a : ArchiveArgs) (w : Workspace)
    (archive : ArchiveManager) (built : BackendInstance) (opened : Workspace) : Prop where
  records : a.fromArchive = false
  opens : job.binding (some a) w = (.ok (some archive), opened)
  category : job.backend.supportsCategory job.category = true
  builds : job.backend.build args = .ok built

/-- The description of the archive that a run adds. -/
def describe (job : FetchJob) (args : BackendArgs) (built : BackendInstance) (s : Supply) :
    ArchiveMetadata where
  archiveId := s.fresh.1.text
  origin := built.origin
  backendName := job.backend.name
  backendVersion := job.backend.version
  category := job.category
  backendArgs := args
  createdAt := s.fresh.2.now.1

/-- What a call leaves of a workspace. -/
inductive CallCourse (job : FetchJob) (w : Workspace) : JobCall → Workspace → Prop where
  /-- A run without an archive has nothing to do with archives. -/
  | plain {args : BackendArgs} {v : Workspace} (harchives : v.archives = w.archives)
      (hissues : w.supply.Issues 0 v.supply) : CallCourse job w (.run args none) v
  /-- A call that records nothing opens a store at most. -/
  | opening {call : JobCall} {location : String} {v : Workspace}
      (hlocation : call.location? = some location)
      (hidle : ∀ args a archive built opened, call = .run args (some a) →
        ¬ job.Captures args a w archive built opened)
      (hopens : w.archives.Opens location v.archives) (hissues : w.supply.Issues 0 v.supply) :
      CallCourse job w call v
  /-- A run that records opens a store at most, and adds an archive to it. -/
  | capturing {args : BackendArgs} {a : ArchiveArgs} {archive : ArchiveManager}
      {built : BackendInstance} {opened v : Workspace}
      (hcaptures : job.Captures args a w archive built opened)
      (hreaches : job.Reaches a.path opened.archives archive)
      (hopens : w.archives.Opens a.path opened.archives)
      (hadds : opened.archives.Adds archive.store (job.describe args built w.supply) v.archives)
      (hissues : w.supply.Issues 1 v.supply) : CallCourse job w (.run args (some a)) v

/-- The managers that were provided are for stores that accept archives. -/
def ProvidedAccepts (job : FetchJob) (a : Archives) : Prop :=
  ∀ archive, job.provided = some archive → a.Accepts archive.store

theorem Reaches.accepts {a : Archives} {location : String} (h : job.Reaches location a archive)
    (hprovided : job.ProvidedAccepts a)
    (hroom : job.providedAt? location = none → IsPath location → HasRoom location) :
    a.Accepts archive.store := by
  cases h with
  | provided hlocation hsome => exact hprovided archive hsome
  | opened hlocation hnone hpath hopen hleads => exact .directory hopen hleads (hroom hnone hpath)

theorem Reaches.isOpen {a : Archives} {location : String} (h : job.Reaches location a archive)
    (hprovided : job.ProvidedAccepts a) : a.IsOpen archive.store := by
  cases h with
  | provided hlocation hsome => exact (hprovided archive hsome).isOpen
  | opened hlocation hnone hpath hopen hleads => exact ⟨_, hopen⟩

end Binding

/-! ## Streams of a run -/

/-- A stream over archives leaves them as they are, when it begins and when it asks them. -/
theorem replaying_of_isOpen (blank : ItemStream) (origin : String) (bound : Option Instant)
    {w : Workspace} (hactive : blank.active = none)
    (hopen : ∀ archive, blank.archive = some archive → w.archives.IsOpen archive.store) :
    (blank.replaying origin bound w).2 = w
      ∧ ∀ s, (blank.replaying origin bound w).1 = .ok s → s.Keeps fun v =>
        v.archives.unread = w.archives.unread ∧ w.supply.Issues 0 v.supply := by
  rw [ItemStream.replaying]
  cases harchive : blank.archive with
  | none => exact ⟨rfl, by rintro s ⟨⟩⟩
  | some archive =>
    obtain ⟨r, hsearch⟩ := ArchiveManager.search_of_isOpen (hopen archive harchive)
      { origin, backendName := blank.backend.name, category := blank.category
        archivedAfter := bound }
    simp only [hsearch]
    refine ⟨trivial, fun s hs => ?_⟩
    cases r with
    | error e => cases hs
    | ok pending =>
      cases hs
      constructor
      · intro active hsome
        cases hactive.symm.trans hsome
      · rintro m - _ ⟨⟩ request v hv
        obtain ⟨hread, hsupply⟩ := ArchiveManager.retrieve_of_isOpen
          ((hopen archive harchive).of_unread hv.1) m.archiveId request
        exact ⟨hread.trans hv.1, hsupply ▸ hv.2⟩

/-- A stream that does not record leaves the archives as they are when it begins, and so do the
archives that it is to replay. -/
theorem start_of_idle {backend : Backend} {args : BackendArgs} {category : String}
    {options : StreamOptions} {w : Workspace}
    (hopen : ∀ archive, options.archive = some archive → w.archives.IsOpen archive.store)
    (hidle : options.fromArchive = false → backend.supportsCategory category = true →
      ∀ built, backend.build args ≠ .ok built) :
    let P : Workspace → Prop := fun v =>
      v.archives.unread = w.archives.unread ∧ w.supply.Issues 0 v.supply
    P (ItemStream.start backend args category options w).2
      ∧ ∀ s, (ItemStream.start backend args category options w).1 = .ok s → s.Keeps P := by
  intro P
  have hbefore : P w := ⟨rfl, w.supply.issues_zero⟩
  unfold ItemStream.start
  by_cases hcategory : backend.supportsCategory category = true
  · rw [if_pos hcategory]
    cases hbuild : backend.build args with
    | error e => exact ⟨hbefore, by rintro s ⟨⟩⟩
    | ok built =>
      dsimp only
      have hreplay : options.fromArchive = true := by
        rw [← Bool.not_eq_false]
        exact fun hrecords => hidle hrecords hcategory built hbuild
      rw [if_pos hreplay]
      obtain ⟨hsame, hkeeps⟩ := replaying_of_isOpen
        { backend, category, archive := options.archive } built.origin options.archivedAfter rfl
        hopen
      rw [hsame]
      exact ⟨hbefore, hkeeps⟩
  · rw [if_neg hcategory]
    exact ⟨hbefore, by rintro s ⟨⟩⟩

/-- A stream that records adds an archive when it begins, and stores responses in no other one. -/
theorem start_of_capture (job : FetchJob) {args : BackendArgs} {options : StreamOptions}
    {w : Workspace} {archive : ArchiveManager} {built : BackendInstance}
    (harchive : options.archive = some archive) (hrecords : options.fromArchive = false)
    (hcategory : job.backend.supportsCategory job.category = true)
    (hbuild : job.backend.build args = .ok built) (haccepts : w.archives.Accepts archive.store)
    (hunused : w.archives.IsUnused w.supply.fresh.1.text) :
    let P : Workspace → Prop := fun v =>
      w.archives.Adds archive.store (job.describe args built w.supply) v.archives
        ∧ w.supply.Issues 1 v.supply
    P (ItemStream.start job.backend args job.category options w).2
      ∧ ∀ s, (ItemStream.start job.backend args job.category options w).1 = .ok s → s.Keeps P := by
  intro P
  obtain ⟨a, hcreate, hadds⟩ := haccepts.create (m := job.describe args built w.supply) rfl hunused
  have hstart : ItemStream.start job.backend args job.category options w
      = (.ok {
          backend := job.backend
          category := job.category
          archive := options.archive
          active := some ⟨built.fetch, ⟨built.transport,
            .recording archive (job.describe args built w.supply).archiveId, []⟩⟩ },
        ⟨a, w.supply.fresh.2.now.2⟩) := by
    rw [describe] at hcreate
    simp only [ItemStream.start, hcategory, if_true, hbuild, hrecords, Bool.false_eq_true, if_false,
      ItemStream.fetching, harchive, ArchiveManager.createArchive, hcreate, Except.map,
      Work.mapError_ok]
    rfl
  rw [hstart]
  refine ⟨⟨hadds, rfl, rfl⟩, ?_⟩
  rintro s ⟨⟩
  refine ⟨?_, by rintro m ⟨⟩⟩
  rintro active ⟨⟩ request body v ⟨hv, hissues⟩
  obtain ⟨hv', hsupply⟩ := ArchiveManager.record_of_adds hv request body
  exact ⟨hv', hsupply ▸ hissues⟩

/-- What a stream keeps, forwarding it keeps. -/
theorem keeps_forward {P : Workspace → Prop}
    (hnow : ∀ w, P w → P { w with supply := w.supply.now.2 }) (job : FetchJob) (s : ItemStream)
    (summary : Option FetchSummary) (o : Outside Q) (hs : s.Keeps P) (h : P o.workspace) :
    P (job.forward s summary o).2.2.workspace := by
  fun_induction job.forward s summary o with
  | case1 s summary o s' w hnext =>
    have hkept := (hs.next hnow h).2
    rwa [hnext] at hkept
  | case2 s summary o e s' w hnext =>
    have hkept := (hs.next hnow h).2
    rwa [hnext] at hkept
  | case3 s summary o item s' w hnext e queue hpush =>
    have hkept := (hs.next hnow h).2
    rwa [hnext] at hkept
  | case4 s summary o item s' w hnext queue hpush ih =>
    obtain ⟨hrest, hkept⟩ := hs.next hnow h
    rw [hnext] at hrest hkept
    exact ih hrest hkept

/-- What beginning a stream leaves and the stream keeps, a run keeps. -/
theorem keeps_runStream {P : Workspace → Prop}
    (hnow : ∀ w, P w → P { w with supply := w.supply.now.2 }) (job : FetchJob) (args : BackendArgs)
    (archiveArgs : Option ArchiveArgs) (o : Outside Q)
    (h : P (ItemStream.start job.backend args job.category (job.streamOptions archiveArgs)
        o.workspace).2
      ∧ ∀ s, (ItemStream.start job.backend args job.category (job.streamOptions archiveArgs)
        o.workspace).1 = .ok s → s.Keeps P) :
    P (job.runStream args archiveArgs o).2.2.workspace := by
  obtain ⟨hbegun, hkeeps⟩ := h
  simp only [runStream, streamItems]
  rcases hstart : ItemStream.start job.backend args job.category (job.streamOptions archiveArgs)
    o.workspace with ⟨e | s, w⟩
  · rw [hstart] at hbegun
    exact hbegun
  · rw [hstart] at hbegun hkeeps
    exact keeps_forward hnow job s none ⟨o.queue, w⟩ (hkeeps s rfl) hbegun

/-! ## One call -/

/-- What a job needs for some calls that are still to be made: the identifiers that come next are
different ones that are not in use and in none of the locations that are named, the store of the
archive that was provided accepts archives, and there is room in the directories in which runs
record. Locations that are not the path of any directory are no harm. -/
structure IsSupplied (job : FetchJob) (w : Workspace) (calls : List JobCall) : Prop where
  provided : job.ProvidedAccepts w.archives
  room : ∀ args a, JobCall.run args (some a) ∈ calls → a.fromArchive = false →
    job.providedAt? a.path = none → IsPath a.path → HasRoom a.path
  distinct : (w.supply.upcoming calls.length).Nodup
  unused : ∀ id ∈ w.supply.upcoming calls.length, w.archives.IsUnused id
  apart : ∀ id ∈ w.supply.upcoming calls.length, ∀ call ∈ calls, ∀ location,
    call.location? = some location → id ∉ segments location

section Course

variable {job : FetchJob} {o : Outside Q} {args : BackendArgs} {a : ArchiveArgs} {call : JobCall}
  {calls : List JobCall}

theorem course_run_none (job : FetchJob) (args : BackendArgs) (o : Outside Q) :
    job.CallCourse o.workspace (.run args none) (job.run args none o).2.2.workspace := by
  obtain ⟨r, hstart, hlive⟩ := start_of_no_archive job.backend args job.category
  have hkept := keeps_runStream
    (P := fun v => v.archives = o.workspace.archives ∧ o.workspace.supply.Issues 0 v.supply)
    (fun v hv => ⟨hv.1, hv.2.now⟩)
    { job with archive := none, state := .initializing } args none o ?_
  · exact .plain hkept.1 hkept.2
  · rw [show streamOptions _ none = {} from rfl, hstart]
    exact ⟨⟨rfl, Supply.issues_zero _⟩, fun s hs => (hlive s hs).keeps _⟩

/-- A run that records adds an archive to the store that was bound. -/
theorem course_of_captures (h : job.IsSupplied o.workspace (.run args (some a) :: calls))
    {archive : ArchiveManager} {built : BackendInstance} {opened : Workspace}
    (hcaptures : job.Captures args a o.workspace archive built opened)
    (hreaches : job.Reaches a.path opened.archives archive)
    (hopens : o.workspace.archives.Opens a.path opened.archives)
    (hsupply : opened.supply = o.workspace.supply) :
    job.CallCourse o.workspace (.run args (some a))
      (runStream { job with archive := some archive, state := .initializing } args (some a)
        ⟨o.queue, opened⟩).2.2.workspace := by
  have hprovided : job.ProvidedAccepts opened.archives :=
    fun other hother => (h.provided other hother).retained hopens.retains
  have haccepts := hreaches.accepts hprovided (h.room args a (.head _) hcaptures.records)
  have hunused : opened.archives.IsUnused opened.supply.fresh.1.text := by
    rw [hsupply]
    exact hopens.isUnused (h.unused _ (.head _)) (h.apart _ (.head _) _ (.head _) _ rfl)
  have hkept := keeps_runStream
    (P := fun v => opened.archives.Adds archive.store (job.describe args built opened.supply)
      v.archives ∧ opened.supply.Issues 1 v.supply)
    (fun v hv => ⟨hv.1, hv.2.now⟩)
    { job with archive := some archive, state := .initializing } args (some a) ⟨o.queue, opened⟩
    (start_of_capture _ rfl hcaptures.records hcaptures.category hcaptures.builds haccepts hunused)
  rw [hsupply] at hkept
  exact .capturing hcaptures hreaches hopens hkept.1 hkept.2

theorem course_run_some (h : job.IsSupplied o.workspace (.run args (some a) :: calls)) :
    job.CallCourse o.workspace (.run args (some a)) (job.run args (some a) o).2.2.workspace := by
  obtain ⟨hopens, hsupply, hreaches⟩ := job.opens_binding a o.workspace
  rw [run_eq]
  rcases hbind : job.binding (some a) o.workspace with ⟨e | bound, opened⟩ <;>
    rw [hbind] at hopens hsupply hreaches
  · refine .opening rfl ?_ hopens (hsupply ▸ Supply.issues_zero _)
    rintro _ _ archive built _ ⟨⟩ hcaptures
    cases hbind.symm.trans hcaptures.opens
  obtain ⟨archive, rfl, hreach⟩ := hreaches bound rfl
  by_cases hcaptures : ∃ built, job.Captures args a o.workspace archive built opened
  · obtain ⟨built, hcaptures⟩ := hcaptures
    exact course_of_captures h hcaptures hreach hopens hsupply
  · have hkept := keeps_runStream
      (P := fun v => v.archives.unread = opened.archives.unread ∧ opened.supply.Issues 0 v.supply)
      (fun v hv => ⟨hv.1, hv.2.now⟩)
      { job with archive := some archive, state := .initializing } args (some a) ⟨o.queue, opened⟩
      (start_of_idle ?_ ?_)
    · rw [hsupply] at hkept
      refine .opening rfl ?_ (hopens.of_unread hkept.1) hkept.2
      rintro _ _ other built _ ⟨⟩ hother
      cases hbind.symm.trans hother.opens
      exact hcaptures ⟨built, hother⟩
    · rintro other ⟨⟩
      exact hreach.isOpen fun other hother => (h.provided other hother).retained hopens.retains
    · intro hrecords hcategory built hbuild
      exact hcaptures ⟨built, hrecords, hbind, hcategory, hbuild⟩

/-- Binding an archive for a call of its own is the binding of a run. -/
theorem initializeArchive_eq (job : FetchJob) (location : String) (w : Workspace) :
    ∃ archive r, job.initializeArchive location w
      = (r, { job with archive }, (job.binding (some (.capture location)) w).2) := by
  have hpath : (ArchiveArgs.capture location).path = location := rfl
  rw [initializeArchive, binding, hpath]
  cases job.providedAt? location with
  | some archive => exact ⟨_, _, rfl⟩
  | none =>
    rcases hopen : ArchiveManager.openAt location w.archives with ⟨e | archive, archives⟩
    · exact ⟨_, _, rfl⟩
    · exact ⟨_, _, rfl⟩

/-- Each call takes one of the three courses. -/
theorem IsSupplied.course (h : job.IsSupplied o.workspace (call :: calls)) :
    job.CallCourse o.workspace call (job.perform o call).2.2.workspace := by
  cases call with
  | run args archiveArgs =>
    cases archiveArgs with
    | none => exact course_run_none job args o
    | some a => exact course_run_some h
  | initializeArchive location =>
    obtain ⟨hopens, hsupply, -⟩ := job.opens_binding (.capture location) o.workspace
    obtain ⟨archive, r, hrun⟩ := job.initializeArchive_eq location o.workspace
    rw [perform, hrun]
    exact .opening rfl (by rintro _ _ _ _ _ ⟨⟩) hopens (hsupply ▸ Supply.issues_zero _)

/-- All archives that were there stay as they are. -/
theorem CallCourse.retains {w v : Workspace} (h : job.CallCourse w call v) :
    w.archives.Retains v.archives := by
  cases h with
  | plain harchives hissues => exact Archives.retains_of_unread (by rw [harchives])
  | opening hlocation hidle hopens hissues => exact hopens.retains
  | capturing hcaptures hreaches hopens hadds hissues => exact hopens.retains.trans hadds.retains

/-- A call changes of a job what is bound, the result and the state. -/
theorem job_perform (job : FetchJob) (o : Outside Q) (call : JobCall) :
    ∃ archive result state, (job.perform o call).2.1 = { job with archive, result, state } := by
  cases call with
  | run args archiveArgs =>
    rw [perform, run_eq]
    rcases job.binding archiveArgs o.workspace with ⟨e | archive, w⟩
    · exact ⟨_, _, _, rfl⟩
    · exact ⟨_, _, _, rfl⟩
  | initializeArchive location =>
    obtain ⟨archive, r, hrun⟩ := job.initializeArchive_eq location o.workspace
    rw [perform, hrun]
    exact ⟨_, _, _, rfl⟩

/-- What a call of a job does is nothing to what is bound, the result and the state. -/
theorem CallCourse.of_changed {w v : Workspace} {archive : Option ArchiveManager}
    {result : JobResult} {state : RunState}
    (h : CallCourse { job with archive, result, state } w call v) : job.CallCourse w call v := by
  have hcaptures : ∀ {args a archive' built opened},
      Captures { job with archive, result, state } args a w archive' built opened
        ↔ job.Captures args a w archive' built opened :=
    ⟨fun h => ⟨h.records, h.opens, h.category, h.builds⟩,
      fun h => ⟨h.records, h.opens, h.category, h.builds⟩⟩
  cases h with
  | plain harchives hissues => exact .plain harchives hissues
  | opening hlocation hidle hopens hissues =>
    refine .opening hlocation (fun args a archive' built opened hcall h => ?_) hopens hissues
    exact hidle args a archive' built opened hcall (hcaptures.mpr h)
  | capturing hcapturing hreaches hopens hadds hissues =>
    refine .capturing (hcaptures.mp hcapturing) ?_ hopens hadds hissues
    cases hreaches with
    | provided hlocation h => exact .provided hlocation h
    | opened hlocation hnone hpath hopen hleads => exact .opened hlocation hnone hpath hopen hleads

/-- The identifiers that come next after a call are among those that came next before it, and are
still not in use. -/
theorem IsSupplied.upcoming_of_course {w v : Workspace} (h : job.IsSupplied w (call :: calls))
    (hcourse : job.CallCourse w call v) :
    (v.supply.upcoming calls.length).Sublist (w.supply.upcoming (calls.length + 1))
      ∧ ∀ id ∈ v.supply.upcoming calls.length, v.archives.IsUnused id := by
  have hfirst := (w.supply.prefix_upcoming_succ calls.length).sublist
  cases hcourse with
  | plain harchives hissues =>
    rw [hissues.upcoming_eq, harchives]
    exact ⟨hfirst, fun id hmem => h.unused id (hfirst.subset hmem)⟩
  | opening hlocation hidle hopens hissues =>
    rw [hissues.upcoming_eq]
    exact ⟨hfirst, fun id hmem => hopens.isUnused (h.unused id (hfirst.subset hmem))
      (h.apart id (hfirst.subset hmem) _ (.head _) _ hlocation)⟩
  | capturing hcaptures hreaches hopens hadds hissues =>
    have hnext := hissues.upcoming_succ calls.length
    have hdistinct := h.distinct
    rw [List.length_cons, hnext, List.nodup_cons] at hdistinct
    rw [hnext]
    refine ⟨List.sublist_cons_self _ _, fun id hmem => ?_⟩
    have hmem' : id ∈ w.supply.upcoming (calls.length + 1) := by
      rw [hnext]
      exact .tail _ hmem
    obtain ⟨u, rfl⟩ := Supply.exists_of_mem_upcoming hmem
    have hopened := hopens.isUnused (h.unused _ hmem') (h.apart _ hmem' _ (.head _) _ rfl)
    refine hadds.isUnused hopened ?_ u.text_ne.1 u.text_ne.2
    -- the new archive has the first one of different identifiers
    intro hfresh
    rw [hfresh] at hmem
    exact hdistinct.1 hmem

/-- After a call there is what the calls after it need. -/
theorem IsSupplied.after (h : job.IsSupplied o.workspace (call :: calls)) :
    (job.perform o call).2.1.IsSupplied (job.perform o call).2.2.workspace calls := by
  have hcourse := h.course
  obtain ⟨archive, result, state, hjob⟩ := job.job_perform o call
  generalize (job.perform o call).2.2.workspace = v at hcourse ⊢
  rw [hjob]
  obtain ⟨hids, hunused⟩ := h.upcoming_of_course hcourse
  exact {
    provided := fun other hother => (h.provided other hother).retained hcourse.retains
    room := fun args a hmem => h.room args a (.tail _ hmem)
    distinct := h.distinct.sublist hids
    unused := hunused
    apart := fun id hmem other hother => h.apart id (hids.subset hmem) other (.tail _ hother) }

end Course

/-! ## All calls -/

/-- Some calls of a job, and then one more. -/
theorem IsSupplied.after_calls {job : FetchJob} {o : Outside Q} {earlier later : List JobCall}
    (h : job.IsSupplied o.workspace (earlier ++ later)) :
    ∃ archive result state, (job.afterCalls o earlier).1 = { job with archive, result, state }
      ∧ (job.afterCalls o earlier).1.IsSupplied (job.afterCalls o earlier).2.workspace later := by
  induction earlier generalizing job o with
  | nil => exact ⟨_, _, _, rfl, h⟩
  | cons call earlier ih =>
    obtain ⟨archive, result, state, hjob⟩ := job.job_perform o call
    obtain ⟨archive', result', state', hjob', hsupplied⟩ := ih h.after
    refine ⟨archive', result', state', ?_, hsupplied⟩
    rw [afterCalls, hjob', hjob]

/-- What a call does to archives. A run without an archive leaves them. A run that records opens a
store at the location that it names unless one was provided for it, and adds an archive to it that
describes the run; any other one opens a store at most. -/
def ArchiveEffect (job : FetchJob) (w : Workspace) (call : JobCall) (v : Workspace) : Prop :=
  match call with
  | .run _ none => v.archives = w.archives
  | .run args (some a) =>
    (∀ archive built opened, job.Captures args a w archive built opened →
      w.archives.Opens a.path opened.archives ∧ job.Reaches a.path opened.archives archive
        ∧ opened.archives.Adds archive.store (job.describe args built w.supply) v.archives)
    ∧ ((∀ archive built opened, ¬ job.Captures args a w archive built opened) →
      w.archives.Opens a.path v.archives)
  | .initializeArchive location => w.archives.Opens location v.archives

theorem CallCourse.archiveEffect {job : FetchJob} {w v : Workspace} {call : JobCall}
    (h : job.CallCourse w call v) : job.ArchiveEffect w call v := by
  cases h with
  | plain harchives hissues => exact harchives
  | @opening _ _ _ hlocation hidle hopens hissues =>
    cases call with
    | run args archiveArgs =>
      cases archiveArgs with
      | none => cases hlocation
      | some a =>
        cases hlocation
        exact ⟨fun archive built opened h => absurd h (hidle args a archive built opened rfl),
          fun _ => hopens⟩
    | initializeArchive location =>
      cases hlocation
      exact hopens
  | capturing hcaptures hreaches hopens hadds hissues =>
    refine ⟨fun archive built opened h => ?_, fun hidle => absurd hcaptures (hidle _ _ _)⟩
    cases hcaptures.opens.symm.trans h.opens
    cases hcaptures.builds.symm.trans h.builds
    exact ⟨hopens, hreaches, hadds⟩

/-- Whatever calls of a job came before, a call leaves all archives as they are that were there. It
does nothing else to archives than is described, and a run without an archive does not depend on
them. -/
theorem archives_after_calls (job : FetchJob) (o : Outside Q) (earlier : List JobCall)
    (call : JobCall) (h : job.IsSupplied o.workspace (earlier ++ [call])) :
    let before := job.afterCalls o earlier
    let after := before.1.perform before.2 call
    let w := before.2.workspace
    let v := after.2.2.workspace
    w.archives.Retains v.archives ∧ job.ArchiveEffect w call v
      ∧ ∀ args, call = .run args none → ∀ a,
        before.1.perform { before.2 with workspace := { w with archives := a } } call
          = (after.1, after.2.1, { after.2.2 with workspace := { v with archives := a } }) := by
  intro before after w v
  obtain ⟨archive, result, state, hjob, hsupplied⟩ := h.after_calls
  have hcourse : before.1.CallCourse w call v := hsupplied.course
  have hchanged : before.1 = { job with archive, result, state } := hjob
  refine ⟨hcourse.retains, ?_, ?_⟩
  · rw [hchanged] at hcourse
    exact hcourse.of_changed.archiveEffect
  · rintro args rfl a
    exact before.1.run_of_no_archive args before.2 a

/-- A job that records one run in a directory, and the next one in memory, in a store that was
provided. -/
theorem archives_after_two_captures :
    let request : Request := { uri := "u" }
    let source : BackendInstance := ⟨"o", .ask request fun _ => .done, fun _ _ => .ok "page"⟩
    let backend : Backend := ⟨"b", "1", ["c"], .all, fun _ => .ok source⟩
    let jobId : JobId := ⟨⟨.replicate 32 0, rfl⟩⟩
    let memory : ArchiveManager := ⟨"memory", 0⟩
    let job : FetchJob := { jobId, taskId := ⟨"t"⟩, backend, category := "c", itemsQueue := "q"
                            provided := some memory
                            result := { jobId, taskId := ⟨"t"⟩, backend := "b", category := "c" } }
    let o : Outside MemoryQueue := ⟨{}, { stores := [⟨.memory {}, {}⟩] },
      ⟨fun _ => .epoch, fun n => Uuid.sequential 0 n, 0, 0⟩⟩
    let first : JobCall := .run .empty (some (.capture "root"))
    let second : JobCall := .run .empty (some (.capture "memory"))
    (∀ w, job.Captures .empty (.capture "memory") w memory source w)
      ∧ let before := job.afterCalls o [first]
        let w := before.2.workspace
        let v := (before.1.perform before.2 second).2.2.workspace
        w.archives.Retains v.archives ∧ job.ArchiveEffect w second v := by
  intro request source backend jobId memory job o first second
  have hlocation : ∀ call ∈ [first] ++ [second], ∀ location, call.location? = some location →
      location = "root" ∨ location = "memory" := by
    intro call hmem location hnamed
    rcases List.mem_pair.mp hmem with rfl | rfl
    · exact .inl (Option.some.inj hnamed).symm
    · exact .inr (Option.some.inj hnamed).symm
  have hsupplied : job.IsSupplied o.workspace ([first] ++ [second]) := by
    constructor
    case provided =>
      rintro archive ⟨⟩
      exact .memory rfl
    case room =>
      intro args a hmem _ _ _ id
      rcases hlocation _ hmem a.path rfl with hpath | hpath <;> rw [hpath]
      · exact id.isArchiveName_text (by decide) (by decide)
      · exact id.isArchiveName_text (by decide) (by decide)
    case distinct => decide
    case unused =>
      intro id hmem
      refine ⟨fun at_ _ hat => node?_empty (List.ne_nil_of_mem hat), fun hopen => ?_⟩
      cases List.mem_singleton.mp (List.mem_of_getElem? hopen)
      rfl
    case apart =>
      intro id hmem call hcall location hnamed hsegment
      obtain ⟨u, rfl⟩ := Supply.exists_of_mem_upcoming hmem
      have hsize := u.utf8ByteSize_text
      rcases hlocation call hcall location hnamed with rfl | rfl
      · rw [List.mem_singleton.mp hsegment] at hsize
        exact absurd hsize (by decide)
      · rw [List.mem_singleton.mp hsegment] at hsize
        exact absurd hsize (by decide)
  have heffects := archives_after_calls job o [first] second hsupplied
  exact ⟨fun w => ⟨rfl, rfl, rfl, rfl⟩, heffects.1, heffects.2.1⟩

end FetchJob

end Intake
