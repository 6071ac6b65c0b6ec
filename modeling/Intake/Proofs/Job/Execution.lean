import Intake.Job.Execute
import Intake.Proofs.Job.ResultMapping
import Intake.Proofs.Job.RunResult

/-!
# What executing a request changes

A request that asks for an unknown backend, or for an archive where the backend has none, is refused
and changes nothing. Any other request is run. If the run fails, the context keeps its partial
result: one member of the document is replaced, by an object with the names of the job and with the
number of entries that the run appended to the queue, and the document is saved once
(`JobContext.runJob_of_error`). If it succeeds, its result counts the entries and no document is
touched (`JobContext.runJob_of_ok`). `JobContext.execute_effects` is all of this for every request.
-/

namespace Intake

/-- Stores in which saving the document of one job leaves those of the others. -/
class LawfulMetaStore (M : Type) [MetaStore M] : Prop where
  load_save_of_ne : ∀ (s : M) (id : JobId) (document : JobMeta) {other : JobId}, other ≠ id →
    MetaStore.load (MetaStore.save s id document).2 other = MetaStore.load s other

instance : LawfulMetaStore MemoryMeta where
  load_save_of_ne s id document other h := by
    show Except.ok ((s.save id document).2.find? other) = Except.ok (s.find? other)
    unfold MemoryMeta.save MemoryMeta.find?
    cases s.refusal with
    | some e => rfl
    | none =>
      have hne : (other == id) = false := by simpa using h
      simp [List.lookup_cons, hne]

/-- One queue has grown by some entries at its end, and no other one has changed. -/
def Grown {Q : Type} [ItemQueue Q] [LawfulQueue Q] (before after : Q) (name : String)
    (new : List ByteArray) : Prop :=
  ∀ other, LawfulQueue.entries after other
    = LawfulQueue.entries before other ++ if other = name then new else []

namespace FetchJobRequest

/-- The object with what is known of a call that failed after it had put some entries into the
queue: the names of the job, and how many entries those are. -/
structure Reported (request : FetchJobRequest) (jobId : JobId) (entries : Nat)
    (o : Keyed Json) : Prop where
  jobId : o.get? "job_id" = some (.text jobId.text)
  taskId : o.get? "task_id" = some (.text request.taskId.text)
  backend : o.get? "backend" = some (.text request.backend)
  category : o.get? "category" = some (.text request.category)
  fetched : (o.get? "fetched" >>= Json.uint64?).getD 0 = UInt64.ofNat entries

end FetchJobRequest

namespace JobContext

variable {Q M : Type} [ItemQueue Q] [MetaStore M]

/-- The run that a request asks for. -/
def call (request : FetchJobRequest) (worker : Worker Q M) : RunCall Q :=
  ⟨request.backendArgs, request.archiveArgs, ⟨worker.queue, worker.workspace⟩⟩

omit [MetaStore M] in
theorem runCall_call (job : FetchJob) (request : FetchJobRequest) (worker : Worker Q M) :
    job.runCall (call request worker) = job.run request.backendArgs request.archiveArgs
      ⟨worker.queue, worker.workspace⟩ := rfl

/-- The job of a request. -/
def jobOf (c : JobContext) (request : FetchJobRequest) (backend : Backend) : FetchJob where
  jobId := c.jobId
  taskId := request.taskId
  backend := backend
  category := request.category
  itemsQueue := request.itemsQueue
  result := { jobId := c.jobId, taskId := request.taskId, backend := backend.name
              category := request.category }

theorem result_jobOf (c : JobContext) (request : FetchJobRequest) (backend : Backend) :
    (c.jobOf request backend).result = (c.jobOf request backend).blankResult := rfl

/-- What becomes of a request, by the backend that it names. -/
theorem execute_eq (c : JobContext) (registry : BackendRegistry) (request : FetchJobRequest)
    (worker : Worker Q M) :
    c.execute registry request worker =
      match registry.resolve request.backend with
      | .error e => (.error e, c, worker)
      | .ok backend =>
        if !backend.capabilities.archiving && request.archiveArgs.isSome then
          (.error (.unsupportedOperation "archive attributes set but archive is not supported"), c,
            worker)
        else c.runJob (c.jobOf request backend) request worker := by
  unfold execute FetchJob.create
  cases registry.resolve request.backend with
  | error e => rfl
  | ok backend => rfl

/-! ## The run of a request -/

omit [MetaStore M] in
/-- What the result of a request's job tells after the run. -/
theorem reported_afterRun (c : JobContext) (request : FetchJobRequest) (backend : Backend)
    (hname : backend.name = request.backend) (worker : Worker Q M) :
    request.Reported c.jobId ((c.jobOf request backend).taken (call request worker)).length
      ((c.jobOf request backend).afterRun (call request worker)).result.mapping := by
  have htells := ((c.jobOf request backend).tellsOfRun_iff (call request worker)).mpr
    (.inr (c.result_jobOf request backend))
  have hnames := (c.jobOf request backend).names_afterRun (call request worker) rfl
  have hmember : ∀ name ∈ (c.jobOf request backend).blankResult.names,
      ((c.jobOf request backend).afterRun (call request worker)).result.mapping.get? name.1
        = some name.2 := by
    intro name hmem
    rw [← hnames] at hmem
    exact JobResult.get?_mapping_name _ hmem
  refine ⟨?_, ?_, ?_, ?_, ?_⟩
  · exact hmember _ (.head _)
  · exact hmember _ (.tail _ (.head _))
  · rw [← hname]
    exact hmember _ (.tail _ (.tail _ (.head _)))
  · exact hmember _ (.tail _ (.tail _ (.tail _ (.head _))))
  · rw [JobResult.fetched_mapping]
    exact htells.1

omit [MetaStore M] in
/-- A run appends the entries that the queue takes. -/
theorem grown_runCall [LawfulQueue Q] (c : JobContext) (request : FetchJobRequest)
    (backend : Backend) (worker : Worker Q M) :
    Grown worker.queue ((c.jobOf request backend).runCall (call request worker)).2.2.queue
      request.itemsQueue
      (((c.jobOf request backend).taken (call request worker)).map Prod.snd) :=
  (c.jobOf request backend).entries_runCall (call request worker)

omit [MetaStore M] in
/-- A run is not refused for what the request asks. -/
theorem error_of_runCall {c : JobContext} {request : FetchJobRequest} {backend : Backend}
    {worker : Worker Q M} {e : JobError}
    (h : ((c.jobOf request backend).runCall (call request worker)).1 = .error e) :
    (∀ name, e ≠ .notFound name) ∧ ∀ why, e ≠ .unsupportedOperation why := by
  have hrun := (c.jobOf request backend).error_of_run request.backendArgs request.archiveArgs
    ⟨worker.queue, worker.workspace⟩ h
  constructor
  · rintro name rfl
    simp [JobError.isRunFailure] at hrun
  · rintro why rfl
    simp [JobError.isRunFailure] at hrun

omit [MetaStore M] in
/-- A run does not fail for what the backend cannot do, so that a run that fails always leaves its
partial result. -/
theorem isUnsupported_of_runCall {c : JobContext} {request : FetchJobRequest} {backend : Backend}
    {worker : Worker Q M} {e : JobError}
    (h : ((c.jobOf request backend).runCall (call request worker)).1 = .error e) :
    e.isUnsupported = false := by
  obtain ⟨-, hsupported⟩ := error_of_runCall h
  cases e with
  | unsupportedOperation why => exact absurd rfl (hsupported why)
  | _ => rfl

/-- What a failed call leaves: the context with a partial result in its document, which was saved
once, and the queue with the entries that the partial result counts. -/
structure LeavesPartial [LawfulQueue Q] (c : JobContext) (request : FetchJobRequest)
    (worker : Worker Q M) (c' : JobContext) (worker' : Worker Q M) : Prop where
  jobId : c'.jobId = c.jobId
  document : ∃ new o, Grown worker.queue worker'.queue request.itemsQueue new
    ∧ request.Reported c.jobId new.length o
    ∧ c'.document = c.document.insert resultKey (.object o)
  saved : worker'.documents = (MetaStore.save worker.documents c.jobId c'.document).2
  kept : ∀ other, other ≠ c.jobId →
    MetaStore.load worker'.documents other = MetaStore.load worker.documents other

/-- A run that fails is answered with its own failure, also if the document cannot be saved. -/
theorem runJob_of_error [LawfulQueue Q] [LawfulMetaStore M] (c : JobContext)
    (request : FetchJobRequest) (backend : Backend) (hname : backend.name = request.backend)
    (worker : Worker Q M) {e : JobError}
    (h : ((c.jobOf request backend).runCall (call request worker)).1 = .error e) :
    (c.runJob (c.jobOf request backend) request worker).1 = .error e
      ∧ c.LeavesPartial request worker (c.runJob (c.jobOf request backend) request worker).2.1
          (c.runJob (c.jobOf request backend) request worker).2.2 := by
  have hsupported := isUnsupported_of_runCall h
  have hreported := c.reported_afterRun request backend hname worker
  have hgrown := c.grown_runCall request backend worker
  unfold FetchJob.afterRun at hreported
  rcases hrun : (c.jobOf request backend).runCall (call request worker) with ⟨r, job, o⟩
  rw [hrun] at h hreported hgrown
  cases h
  have hrunJob : c.runJob (c.jobOf request backend) request worker =
      (.error e, c.withResult job.result,
        { queue := o.queue, workspace := o.workspace
          documents := ((c.withResult job.result).save worker.documents).2 }) := by
    rw [runCall_call] at hrun
    rw [runJob, hrun]
    dsimp only
    rw [if_neg (Bool.eq_false_iff.mp hsupported)]
  rw [hrunJob]
  refine ⟨rfl, rfl, ⟨_, job.result.mapping, hgrown, ?_, rfl⟩, rfl, ?_⟩
  · rw [List.length_map]
    exact hreported
  · intro other hother
    exact LawfulMetaStore.load_save_of_ne worker.documents c.jobId _ hother

/-- A run that succeeds is answered with its result, which counts the entries that it appended, and
no document is touched. -/
theorem runJob_of_ok [LawfulQueue Q] (c : JobContext) (request : FetchJobRequest)
    (backend : Backend) (worker : Worker Q M)
    (h : ((c.jobOf request backend).runCall (call request worker)).1 = .ok ()) :
    ∃ result new, (c.runJob (c.jobOf request backend) request worker).1 = .ok result
      ∧ (c.runJob (c.jobOf request backend) request worker).2.1 = c
      ∧ (c.runJob (c.jobOf request backend) request worker).2.2.documents = worker.documents
      ∧ Grown worker.queue (c.runJob (c.jobOf request backend) request worker).2.2.queue
          request.itemsQueue new
      ∧ result.fetched = UInt64.ofNat new.length := by
  have htells := ((c.jobOf request backend).tellsOfRun_iff (call request worker)).mpr
    (.inr (c.result_jobOf request backend))
  have hfetched := htells.1
  have hgrown := c.grown_runCall request backend worker
  unfold FetchJob.afterRun at hfetched
  rcases hrun : (c.jobOf request backend).runCall (call request worker) with ⟨r, job, o⟩
  rw [hrun] at h hfetched hgrown
  cases h
  have hrunJob : c.runJob (c.jobOf request backend) request worker =
      (.ok job.result, c, { worker with queue := o.queue, workspace := o.workspace }) := by
    rw [runCall_call] at hrun
    rw [runJob, hrun]
  rw [hrunJob]
  refine ⟨job.result, _, rfl, rfl, rfl, hgrown, ?_⟩
  rw [List.length_map]
  exact hfetched

/-! ## Every request -/

/-- The run of a request fails with an error of its own. -/
def FailsWith (c : JobContext) (registry : BackendRegistry) (request : FetchJobRequest)
    (worker : Worker Q M) (e : JobError) : Prop :=
  ∃ backend, registry.resolve request.backend = .ok backend
    ∧ ((c.jobOf request backend).runCall (call request worker)).1 = .error e

/-- What the answer to a request says of everything else: a request that was refused changed
nothing, one whose run failed left its partial result, and one that succeeded counts its items. -/
def Answered [LawfulQueue Q] (c : JobContext) (registry : BackendRegistry)
    (request : FetchJobRequest) (worker : Worker Q M) (c' : JobContext) (worker' : Worker Q M) :
    Except JobError JobResult → Prop
  | .error (.notFound _) | .error (.unsupportedOperation _) => c' = c ∧ worker' = worker
  | .error e => c.FailsWith registry request worker e ∧ c.LeavesPartial request worker c' worker'
  | .ok result => c' = c ∧ worker'.documents = worker.documents
      ∧ ∃ new, Grown worker.queue worker'.queue request.itemsQueue new
        ∧ result.fetched = UInt64.ofNat new.length

/-- A request whose run fails leaves its partial result, and one whose run succeeds is answered with
its result. -/
theorem answered_runJob [LawfulQueue Q] [LawfulMetaStore M] (c : JobContext)
    {registry : BackendRegistry} (hnamed : registry.Named) {request : FetchJobRequest}
    {backend : Backend} (hresolve : registry.resolve request.backend = .ok backend)
    (worker : Worker Q M) :
    c.Answered registry request worker
      (c.runJob (c.jobOf request backend) request worker).2.1
      (c.runJob (c.jobOf request backend) request worker).2.2
      (c.runJob (c.jobOf request backend) request worker).1 := by
  have hname : backend.name = request.backend := hnamed.name_of_resolve hresolve
  rcases hrun : ((c.jobOf request backend).runCall (call request worker)).1 with e | ⟨⟩
  · obtain ⟨hanswer, hleaves⟩ := c.runJob_of_error request backend hname worker hrun
    obtain ⟨hfound, hsupported⟩ := error_of_runCall hrun
    rw [hanswer]
    cases e with
    | notFound name => exact absurd rfl (hfound name)
    | unsupportedOperation why => exact absurd rfl (hsupported why)
    | invalidArgument why => exact ⟨⟨backend, hresolve, hrun⟩, hleaves⟩
    | backend cause => exact ⟨⟨backend, hresolve, hrun⟩, hleaves⟩
    | queue cause => exact ⟨⟨backend, hresolve, hrun⟩, hleaves⟩
    | archive cause => exact ⟨⟨backend, hresolve, hrun⟩, hleaves⟩
  · obtain ⟨result, new, hanswer, hcontext, hdocuments, hgrown, hfetched⟩ :=
      c.runJob_of_ok request backend worker hrun
    rw [hanswer]
    exact ⟨hcontext, hdocuments, new, hgrown, hfetched⟩

/-- The answer to a request that is run is that of the run. -/
theorem answer_runJob (c : JobContext) (job : FetchJob) (request : FetchJobRequest)
    (worker : Worker Q M) :
    (c.runJob job request worker).1 = (job.runCall (call request worker)).1.map
      fun _ => (job.afterRun (call request worker)).result := by
  rw [FetchJob.afterRun, runCall_call, runJob]
  rcases job.run request.backendArgs request.archiveArgs ⟨worker.queue, worker.workspace⟩
    with ⟨e | ⟨⟩, job', o⟩
  · dsimp only
    split <;> rfl
  · rfl

/-- A request that is run is not refused. -/
theorem answer_runJob_ne (c : JobContext) (request : FetchJobRequest) (backend : Backend)
    (worker : Worker Q M) :
    (∀ name, (c.runJob (c.jobOf request backend) request worker).1 ≠ .error (.notFound name))
      ∧ ∀ why, (c.runJob (c.jobOf request backend) request worker).1
        ≠ .error (.unsupportedOperation why) := by
  rw [answer_runJob]
  rcases hrun : ((c.jobOf request backend).runCall (call request worker)).1 with e | ⟨⟩
  · obtain ⟨hfound, hsupported⟩ := error_of_runCall hrun
    simpa [Except.map] using ⟨hfound, hsupported⟩
  · simp [Except.map]

/-- What executing a request does, for every request. It is refused exactly if there is no such
backend, or if an archive is asked for that the backend cannot have; the answer says what became of
the queue, the context and the documents. -/
theorem execute_effects [LawfulQueue Q] [LawfulMetaStore M] (c : JobContext)
    (backends : List Backend) (request : FetchJobRequest) (worker : Worker Q M) :
    let registry := BackendRegistry.ofList backends
    let ran := c.execute registry request worker
    ((∃ name, ran.1 = .error (.notFound name)) ↔ registry.contains request.backend = false)
      ∧ ((∃ why, ran.1 = .error (.unsupportedOperation why)) ↔
          ∃ backend, registry.resolve request.backend = .ok backend
            ∧ backend.capabilities.archiving = false ∧ request.archiveArgs.isSome = true)
      ∧ c.Answered registry request worker ran.2.1 ran.2.2 ran.1 := by
  intro registry ran
  have hnamed : registry.Named := BackendRegistry.named_ofList backends
  have heq : ran = c.execute registry request worker := rfl
  rw [execute_eq] at heq
  rcases registry.resolve_cases request.backend
    with ⟨hcontains, hresolve⟩ | ⟨hcontains, backend, hresolve⟩
  · -- there is no such backend
    rw [hresolve] at heq
    rw [heq, hcontains, hresolve]
    refine ⟨by simp, by simp, rfl, rfl⟩
  · rw [hcontains]
    rw [hresolve] at heq
    dsimp only at heq
    by_cases hrefused : (!backend.capabilities.archiving && request.archiveArgs.isSome) = true
    · -- the backend cannot have the archive
      have hunsupported : backend.capabilities.archiving = false
          ∧ request.archiveArgs.isSome = true := by
        simpa using hrefused
      rw [if_pos hrefused] at heq
      rw [heq]
      refine ⟨by simp, ?_, rfl, rfl⟩
      constructor
      · intro _
        exact ⟨backend, hresolve, hunsupported⟩
      · intro _
        exact ⟨_, rfl⟩
    · -- the request is run
      rw [if_neg hrefused] at heq
      rw [heq]
      obtain ⟨hfound, hsupported⟩ := c.answer_runJob_ne request backend worker
      refine ⟨by simp [hfound], ?_, c.answered_runJob hnamed hresolve worker⟩
      constructor
      · rintro ⟨why, hwhy⟩
        exact absurd hwhy (hsupported why)
      · rintro ⟨b, hb, harchiving, hargs⟩
        rw [hresolve] at hb
        cases hb
        simp [harchiving, hargs] at hrefused

/-- A backend of two items, a queue with room for one and a store that saves nothing: the second
item is refused, and that is the answer. -/
theorem execute_effects_full_queue :
    let item : Item := { backendName := "b", backendVersion := "1", category := "c", origin := "o"
                         uuid := "u", updatedOn := 0, timestamp := 0, data := .null }
    let source : BackendInstance := ⟨"o", .give item (.give item .done), fun _ _ => .ok ""⟩
    let backend : Backend := ⟨"b", "1", ["c"], .none, fun _ => .ok source⟩
    let request : FetchJobRequest :=
      { backend := "b", itemsQueue := "q", taskId := ⟨"t"⟩, category := "c" }
    let worker : Worker MemoryQueue MemoryMeta :=
      { queue := { capacity := some 1 }
        documents := { refusal := some (.command "closed") }
        workspace := ⟨{},
          ⟨fun _ => .epoch, fun _ => ⟨.replicate 32 0, rfl⟩, 0, 0⟩⟩ }
    let c : JobContext := { jobId := ⟨⟨.replicate 32 0, rfl⟩⟩ }
    let ran := c.execute (BackendRegistry.ofList [backend]) request worker
    LawfulMetaStore MemoryMeta
      ∧ ran.1 = .error (.queue (.command "queue 'q' is full (1 entries)"))
      ∧ c.LeavesPartial request worker ran.2.1 ran.2.2 := by
  intro item source backend request worker c ran
  have heffects := execute_effects c [backend] request worker
  have hanswer : ran.1 = .error (.queue (.command "queue 'q' is full (1 entries)")) := by
    have hresolve : (BackendRegistry.ofList [backend]).resolve request.backend = .ok backend := rfl
    have hcall : ((c.jobOf request backend).runCall (call request worker)).1
        = .error (.queue (.command "queue 'q' is full (1 entries)")) := by
      simp [FetchJob.runCall, call, FetchJob.run, FetchJob.runStream, FetchJob.streamItems,
        FetchJob.streamOptions, ItemStream.start, jobOf, backend, source, request, worker,
        Backend.supportsCategory, ItemStream.fetching, FetchJob.forward, ItemStream.next,
        ItemStream.proceed, Fetch.advance, ItemQueue.push, MemoryQueue.push_eq, MemoryQueue.isFull,
        MemoryQueue.length, MemoryQueue.append, MemoryQueue.named, MemoryQueue.entries,
        MemoryQueue.replace, MemoryQueue.fullError]
      rfl
    have hrun : ran = c.runJob (c.jobOf request backend) request worker := by
      show c.execute (BackendRegistry.ofList [backend]) request worker = _
      rw [execute_eq, hresolve]
      rfl
    rw [hrun, answer_runJob, hcall]
    rfl
  refine ⟨inferInstance, hanswer, ?_⟩
  have := heffects.2.2
  rw [show (c.execute (BackendRegistry.ofList [backend]) request worker).1 = _ from hanswer] at this
  exact this.2

end JobContext

end Intake
