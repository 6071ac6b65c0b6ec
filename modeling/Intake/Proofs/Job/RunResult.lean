import Intake.Proofs.Job.Forward

/-!
# What the result of a job tells of its runs

A run that gets as far as its stream leaves a result that tells of that run alone: it counts the
items that the queue took in this run, and it is the one that the job would have if this were its
first run. A run whose archive cannot be bound leaves the result as it was. So after some runs the
result is that of the latest run that could bind its archive (`FetchJob.result_afterRuns`), and it
tells of the run just made exactly if this run is that one, or if nothing was seen before
(`FetchJob.tellsOfRun_iff`).

What happens to queues and archives between two runs is left open: every run comes with what it
finds outside.
-/

namespace Intake

/-- What one run is given: its arguments, and what it finds outside of the job. -/
structure RunCall (Q : Type) where
  args : BackendArgs
  archiveArgs : Option ArchiveArgs
  outside : Outside Q

namespace RunCall

variable {Q : Type}

/-- The call with a queue that notes what it takes. -/
def noted (c : RunCall Q) : RunCall (LedgerQueue Q) :=
  { c with outside := ⟨⟨c.outside.queue, []⟩, c.outside.workspace⟩ }

end RunCall

namespace FetchJob

variable {Q : Type} [ItemQueue Q]

/-- One run of a job. -/
def runCall (job : FetchJob) (c : RunCall Q) : Except JobError Unit × FetchJob × Outside Q :=
  job.run c.args c.archiveArgs c.outside

/-- The job after one run. -/
def afterRun (job : FetchJob) (c : RunCall Q) : FetchJob := (job.runCall c).2.1

/-- The job after some runs, one after the other. -/
def afterRuns (job : FetchJob) (calls : List (RunCall Q)) : FetchJob := calls.foldl afterRun job

/-- The entries that the queue takes in a run. -/
def taken (job : FetchJob) (c : RunCall Q) : List (String × ByteArray) :=
  (job.runCall c.noted).2.2.queue.taken

/-- The job as it was before its first run. -/
def renewed (job : FetchJob) : FetchJob :=
  { job with archive := none, result := job.blankResult, state := .idle }

/-- Whether the archive that the arguments of a run name can be bound. -/
def canBind (job : FetchJob) (c : RunCall Q) : Bool :=
  (job.binding c.archiveArgs c.outside.workspace).1.isOk

/-- The result that a run leaves counts the items that the queue took in the run, and is the one
that the job would have if this were its first run. -/
def TellsOfRun (job : FetchJob) (c : RunCall Q) : Prop :=
  (job.afterRun c).result.fetched = UInt64.ofNat (job.taken c).length
    ∧ (job.afterRun c).result = (job.renewed.afterRun c).result

/-! ## One run -/

/-- Noting what the queue takes makes no difference to a run. -/
theorem runCall_eq_noted (job : FetchJob) (c : RunCall Q) :
    job.runCall c = ((job.runCall c.noted).1, job.afterRun c.noted,
      ⟨(job.runCall c.noted).2.2.queue.queue, (job.runCall c.noted).2.2.workspace⟩) :=
  run_map LedgerQueue.queue LedgerQueue.push_queue job c.args c.archiveArgs c.noted.outside

/-- Everything that a run pushes goes to the queue of the job. -/
theorem fst_of_mem_taken (job : FetchJob) (c : RunCall Q) {e : String × ByteArray}
    (h : e ∈ job.taken c) : e.1 = job.itemsQueue := by
  refine run_preserves (fun l : LedgerQueue Q => ∀ e ∈ l.taken, e.1 = job.itemsQueue) job ?_
    c.args c.archiveArgs c.noted.outside (by simp [RunCall.noted]) e h
  intro l entry hl
  rcases hpush : ItemQueue.push l job.itemsQueue entry with ⟨⟨⟩ | ⟨⟩, l'⟩
  · rw [LedgerQueue.taken_push_error hpush]
    exact hl
  · rw [LedgerQueue.taken_push_ok hpush]
    intro e he
    rcases List.mem_append.mp he with he | he
    · exact hl e he
    · rw [List.mem_singleton.mp he]

/-- A run appends what the queue takes to the queue of the job, and changes no other one. -/
theorem entries_runCall [LawfulQueue Q] (job : FetchJob) (c : RunCall Q) (name : String) :
    LawfulQueue.entries (job.runCall c).2.2.queue name
      = LawfulQueue.entries c.outside.queue name
        ++ if name = job.itemsQueue then (job.taken c).map Prod.snd else [] := by
  have hinvariant : ∀ name, LawfulQueue.entries (job.runCall c.noted).2.2.queue.queue name
      = LawfulQueue.entries c.outside.queue name
        ++ (job.runCall c.noted).2.2.queue.entries name := by
    refine run_preserves (fun l : LedgerQueue Q => ∀ name, LawfulQueue.entries l.queue name
      = LawfulQueue.entries c.outside.queue name ++ l.entries name) job ?_ c.args c.archiveArgs
      c.noted.outside ?_
    · intro l entry hl name
      have hqueue := l.push_queue job.itemsQueue entry
      rcases hpush : ItemQueue.push l job.itemsQueue entry with ⟨⟨⟩ | ⟨⟩, l'⟩
      · rw [hpush] at hqueue
        rw [LawfulQueue.entries_push_error name hqueue, hl name]
        exact congrArg _ (LawfulQueue.entries_push_error name hpush).symm
      · rw [hpush] at hqueue
        rw [LawfulQueue.entries_push_ok name hqueue, hl name, List.append_assoc]
        exact congrArg _ (LawfulQueue.entries_push_ok name hpush).symm
    · intro name
      simp [RunCall.noted, LedgerQueue.entries]
  have hentries : (job.runCall c.noted).2.2.queue.entries name
      = if name = job.itemsQueue then (job.taken c).map Prod.snd else [] := by
    show ((job.taken c).filter fun e => e.1 = name).map Prod.snd = _
    split
    · rename_i hname
      rw [List.filter_eq_self.mpr]
      intro e he
      simp [hname, job.fst_of_mem_taken c he]
    · rename_i hname
      rw [List.filter_eq_nil_iff.mpr, List.map_nil]
      intro e he
      simp [job.fst_of_mem_taken c he, Ne.symm hname]
  rw [runCall_eq_noted, hinvariant name, hentries]

/-- A result that names the job goes on doing so. -/
theorem names_afterRun (job : FetchJob) (c : RunCall Q)
    (h : job.result.names = job.blankResult.names) :
    (job.afterRun c).result.names = job.blankResult.names := by
  unfold afterRun runCall
  rw [run_eq]
  rcases job.binding c.archiveArgs c.outside.workspace with ⟨e | archive, w⟩
  · exact h
  · rfl

omit [ItemQueue Q] in
theorem binding_of_canBind (job : FetchJob) {c : RunCall Q} (h : job.canBind c = true) :
    ∃ archive w, job.binding c.archiveArgs c.outside.workspace = (.ok archive, w) := by
  unfold canBind at h
  rcases hbind : job.binding c.archiveArgs c.outside.workspace with ⟨e | archive, w⟩
  · rw [hbind] at h
    simp [Except.isOk, Except.toBool] at h
  · exact ⟨archive, w, rfl⟩

omit [ItemQueue Q] in
theorem binding_of_not_canBind (job : FetchJob) {c : RunCall Q} (h : job.canBind c = false) :
    ∃ e w, job.binding c.archiveArgs c.outside.workspace = (.error e, w) := by
  unfold canBind at h
  rcases hbind : job.binding c.archiveArgs c.outside.workspace with ⟨e | archive, w⟩
  · exact ⟨e, w, rfl⟩
  · rw [hbind] at h
    simp [Except.isOk, Except.toBool] at h

/-- A run that binds its archive counts what the queue takes. -/
theorem fetched_of_canBind (job : FetchJob) {c : RunCall Q} (h : job.canBind c = true) :
    (job.afterRun c).result.fetched = UInt64.ofNat (job.taken c).length := by
  have hnoted : job.afterRun c = job.afterRun c.noted :=
    congrArg (fun r => r.2.1) (job.runCall_eq_noted c)
  obtain ⟨archive, w, hbind⟩ := job.binding_of_canBind h
  have hrun : job.runCall c.noted = { job with archive, state := .initializing }.runStream
      c.args c.archiveArgs ⟨⟨c.outside.queue, []⟩, w⟩ := by
    unfold runCall
    rw [run_eq]
    simp only [RunCall.noted, hbind]
  rw [hnoted]
  unfold afterRun taken
  rw [hrun]
  exact fetched_runStream _ c.args c.archiveArgs _ rfl

/-- A run that binds its archive is the same as a first run. -/
theorem runCall_of_canBind (job : FetchJob) {c : RunCall Q} (h : job.canBind c = true) :
    job.runCall c = job.renewed.runCall c := by
  obtain ⟨archive, w, hbind⟩ := job.binding_of_canBind h
  have hrenewed : job.renewed.binding c.archiveArgs c.outside.workspace = (.ok archive, w) := hbind
  unfold runCall
  rw [run_eq, run_eq, hbind, hrenewed]
  exact (runStream_congr { job with archive, state := .initializing } job.blankResult c.args
    c.archiveArgs ⟨c.outside.queue, w⟩).symm

/-- A run that cannot bind its archive leaves the result as it was. -/
theorem result_of_not_canBind (job : FetchJob) {c : RunCall Q} (h : job.canBind c = false) :
    (job.afterRun c).result = job.result := by
  obtain ⟨e, w, hbind⟩ := job.binding_of_not_canBind h
  unfold afterRun runCall
  rw [run_eq, hbind]

/-- A run that cannot bind its archive pushes nothing. -/
theorem taken_of_not_canBind (job : FetchJob) {c : RunCall Q} (h : job.canBind c = false) :
    job.taken c = [] := by
  obtain ⟨e, w, hbind⟩ := job.binding_of_not_canBind h
  unfold taken runCall
  rw [run_eq]
  simp only [RunCall.noted, hbind]

/-- A run tells of itself exactly if its archive can be bound, or if there was nothing to tell
before. -/
theorem tellsOfRun_iff (job : FetchJob) (c : RunCall Q) :
    job.TellsOfRun c ↔ job.canBind c = true ∨ job.result = job.blankResult := by
  cases h : job.canBind c with
  | true =>
    have hrun : job.afterRun c = job.renewed.afterRun c :=
      congrArg (fun r => r.2.1) (job.runCall_of_canBind h)
    have htold : job.TellsOfRun c := ⟨job.fetched_of_canBind h, by rw [hrun]⟩
    simp only [htold, true_or]
  | false =>
    have hrenewed : (job.renewed.afterRun c).result = job.blankResult :=
      job.renewed.result_of_not_canBind h
    have htold : job.TellsOfRun c ↔
        job.result.fetched = UInt64.ofNat ([] : List (String × ByteArray)).length
          ∧ job.result = job.blankResult := by
      rw [TellsOfRun, job.result_of_not_canBind h, job.taken_of_not_canBind h, hrenewed]
    rw [htold]
    constructor
    · rintro ⟨-, hblank⟩
      exact .inr hblank
    · rintro (hbind | hblank)
      · cases hbind
      · rw [hblank]
        exact ⟨rfl, rfl⟩

/-! ## Many runs -/

/-- A run leaves the job what it is: only the archive, the result and the state can differ. -/
theorem renewed_afterRun (job : FetchJob) (c : RunCall Q) :
    (job.afterRun c).renewed = job.renewed := by
  unfold afterRun runCall
  rw [run_eq]
  rcases job.binding c.archiveArgs c.outside.workspace with ⟨e | archive, w⟩ <;> rfl

theorem canBind_afterRun (job : FetchJob) (c : RunCall Q) :
    (job.afterRun c).canBind (Q := Q) = job.canBind := by
  have hprovided : (job.afterRun c).provided = job.provided := by
    show (job.afterRun c).renewed.provided = job.renewed.provided
    rw [job.renewed_afterRun]
  funext c'
  simp only [canBind, binding, providedAt?, hprovided]

/-- The result after some runs is that of the latest one that could bind its archive, as a first
run would have left it. -/
theorem result_afterRuns (job : FetchJob) (calls : List (RunCall Q)) :
    (job.afterRuns calls).result = ((calls.filter job.canBind).getLast?).elim job.result
      fun c => (job.renewed.afterRun c).result := by
  induction calls generalizing job with
  | nil => rfl
  | cons c calls ih =>
    show ((job.afterRun c).afterRuns calls).result = _
    rw [ih, canBind_afterRun, renewed_afterRun]
    cases h : job.canBind c with
    | true =>
      have hrun : job.afterRun c = job.renewed.afterRun c :=
        congrArg (fun r => r.2.1) (job.runCall_of_canBind h)
      rw [List.filter_cons_of_pos h, hrun]
      cases calls.filter job.canBind with
      | nil => rfl
      | cons c' rest =>
        rw [List.getLast?_cons_cons, List.getLast?_cons, Option.elim_some, Option.elim_some]
    | false =>
      rw [List.filter_cons_of_neg (by simp [h]), job.result_of_not_canBind h]

theorem renewed_afterRuns (job : FetchJob) (calls : List (RunCall Q)) :
    (job.afterRuns calls).renewed = job.renewed := by
  induction calls generalizing job with
  | nil => rfl
  | cons c calls ih =>
    show ((job.afterRun c).afterRuns calls).renewed = _
    rw [ih, renewed_afterRun]

theorem canBind_afterRuns (job : FetchJob) (calls : List (RunCall Q)) :
    (job.afterRuns calls).canBind (Q := Q) = job.canBind := by
  induction calls generalizing job with
  | nil => rfl
  | cons c calls ih =>
    show ((job.afterRun c).afterRuns calls).canBind = _
    rw [ih, canBind_afterRun]

/-- After any runs a further one tells of itself exactly if it can bind its archive, or if the
result is still that of a new job. The result before it is that of the latest run that could bind
its archive; and if the further run cannot, it pushes nothing and leaves this result. -/
theorem tellsOfRun_afterRuns_iff (job : FetchJob) (earlier : List (RunCall Q)) (c : RunCall Q) :
    ((job.afterRuns earlier).TellsOfRun c ↔
        job.canBind c = true ∨ (job.afterRuns earlier).result = job.blankResult)
      ∧ (job.afterRuns earlier).result = ((earlier.filter job.canBind).getLast?).elim job.result
          (fun last => (job.renewed.afterRun last).result)
      ∧ (job.canBind c = true ∨
          (job.afterRuns earlier).taken c = []
            ∧ ((job.afterRuns earlier).afterRun c).result = (job.afterRuns earlier).result) := by
  have hblank : (job.afterRuns earlier).blankResult = job.blankResult := by
    show (job.afterRuns earlier).renewed.result = job.renewed.result
    rw [renewed_afterRuns]
  have hbind : (job.afterRuns earlier).canBind c = job.canBind c :=
    congrFun (job.canBind_afterRuns earlier) c
  refine ⟨?_, job.result_afterRuns earlier, ?_⟩
  · rw [tellsOfRun_iff, hbind, hblank]
  · cases h : job.canBind c with
    | true => exact .inl rfl
    | false =>
      rw [← hbind] at h
      exact .inr ⟨taken_of_not_canBind _ h, result_of_not_canBind _ h⟩

/-- A job whose fetch gives one item and that is then told to work with an archive without a path:
the second run pushes nothing, and the result still counts the item of the first one. -/
theorem not_tellsOfRun_empty_path (item : Item) (supply : Supply) (jobId : JobId)
    (taskId : TaskId) :
    let source : BackendInstance := ⟨"", .give item .done, fun _ _ => .ok ""⟩
    let backend : Backend := ⟨"b", "1", ["c"], .all, fun _ => .ok source⟩
    let job : FetchJob := { jobId, taskId, backend, category := "c", itemsQueue := "q"
                            result := { jobId, taskId, backend := "b", category := "c" } }
    let found : Outside MemoryQueue := ⟨{}, ⟨{}, supply⟩⟩
    ¬(job.afterRun ⟨.empty, none, found⟩).TellsOfRun ⟨.empty, some (.capture ""), found⟩ := by
  intro source backend job found
  have hbind : (job.afterRun ⟨.empty, none, found⟩).canBind ⟨.empty, some (.capture ""), found⟩
      = false := rfl
  have hsummary : (job.afterRun ⟨.empty, none, found⟩).result.fetched = 1 := by
    simp [afterRun, runCall, run, runStream, streamItems, streamOptions, ItemStream.start, job,
      backend, source, Backend.supportsCategory, ItemStream.fetching, forward, ItemStream.next,
      ItemStream.proceed, Fetch.advance, found, ItemQueue.push, MemoryQueue.push_eq,
      MemoryQueue.isFull, ItemStream.nextArchived, ItemStream.summary, FetchSummary.hasObserved,
      ItemStream.isExhausted, JobResult.fetched]
  rw [tellsOfRun_iff, hbind]
  rintro (h | h)
  · cases h
  · rw [h] at hsummary
    exact absurd (show (0 : UInt64) = 1 from hsummary) (by decide)

end FetchJob

end Intake
