import Intake.Job.Fetch
import Intake.Proofs.Queue.Ledger
import Intake.Proofs.Stream.Counts
import Intake.Proofs.Stream.Start

/-!
# What a run forwards

A run forwards the items of a stream to a queue that may refuse each of them. Its summary counts as
many items as the queue took (`FetchJob.fetched_forward`), for the stream and the summary that is
kept for the result are only out of step while an item is on its way.

The queue is touched by pushes alone. So a map of queues that respects pushes carries runs over
(`FetchJob.run_map`), and what every push preserves a run preserves (`FetchJob.run_preserves`).

`FetchJob.binding` is the archive that a run works with; `FetchJob.run_eq` is the whole run by the
two ways in which binding it can go.
-/

namespace Intake

namespace FetchJob

variable {Q R : Type} [ItemQueue Q] [ItemQueue R]

/-! ## The archive of a run -/

/-- The archive that a run binds, or why there is none. -/
def binding (job : FetchJob) (archiveArgs : Option ArchiveArgs) (w : Workspace) :
    Except JobError (Option ArchiveManager) × Workspace :=
  match archiveArgs with
  | none => (.ok none, w)
  | some a =>
    match job.providedAt? a.path with
    | some archive => (.ok (some archive), w)
    | none =>
      let (r, archives) := ArchiveManager.openAt a.path w.archives
      (r.map some, { w with archives })

/-- A run with its archive bound, or cut short because it could not be. -/
theorem run_eq (job : FetchJob) (args : BackendArgs) (archiveArgs : Option ArchiveArgs)
    (o : Outside Q) :
    job.run args archiveArgs o =
      match job.binding archiveArgs o.workspace with
      | (.ok archive, w) =>
        { job with archive, state := .initializing }.runStream args archiveArgs ⟨o.queue, w⟩
      | (.error e, w) =>
        (.error e, { job with archive := none, state := .failed }, ⟨o.queue, w⟩) := by
  cases archiveArgs with
  | none => rfl
  | some a =>
    rw [run, binding]
    have hprovided : { job with archive := none, state := .initializing }.providedAt? a.path
        = job.providedAt? a.path := rfl
    cases h : job.providedAt? a.path with
    | some archive => simp only [initializeArchive, hprovided, h]
    | none =>
      rcases hopen : ArchiveManager.openAt a.path o.workspace.archives with ⟨e | archive, archives⟩
      · simp only [initializeArchive, hprovided, h, hopen, Except.map]
      · simp only [initializeArchive, hprovided, h, hopen, Except.map]

/-! ## What a run depends on -/

/-- Of a job, forwarding looks only at where the items go and what they are stamped with. -/
theorem forward_congr (job job' : FetchJob) (hid : job.jobId = job'.jobId)
    (hqueue : job.itemsQueue = job'.itemsQueue) (s : ItemStream) (summary : Option FetchSummary)
    (o : Outside Q) : job.forward s summary o = job'.forward s summary o := by
  have hstamp : job.stamp = job'.stamp := by
    funext item
    rw [stamp, stamp, hid]
  fun_induction job.forward s summary o with
  | case1 s summary o s' w h => rw [forward, h]
  | case2 s summary o e s' w h => rw [forward, h]
  | case3 s summary o item s' w h e queue hpush =>
    rw [hstamp, hqueue] at hpush
    rw [forward, h]
    simp only [hpush]
  | case4 s summary o item s' w h queue hpush ih =>
    rw [hstamp, hqueue] at hpush
    rw [ih]
    conv => rhs; rw [forward, h]
    simp only [hpush]

/-- A run whose stream begins is the same whatever the job was before. -/
theorem runStream_congr (job : FetchJob) (result : JobResult) (args : BackendArgs)
    (archiveArgs : Option ArchiveArgs) (o : Outside Q) :
    { job with result }.runStream args archiveArgs o = job.runStream args archiveArgs o := by
  have hforward : ∀ (s : ItemStream) (o : Outside Q),
      { job with result }.forward s none o = job.forward s none o := by
    intro s o
    exact forward_congr { job with result } job rfl rfl s none o
  have hstream : { job with result }.streamItems args
      ({ job with result }.streamOptions archiveArgs) o
        = job.streamItems args (job.streamOptions archiveArgs) o := by
    show streamItems { job with result } args (job.streamOptions archiveArgs) o = _
    simp only [streamItems, hforward]
  simp only [runStream, hstream]
  rfl

/-! ## Maps of queues -/

section Map

variable (φ : Q → R)
  (hφ : ∀ q name entry, ItemQueue.push (φ q) name entry
    = ((ItemQueue.push q name entry).1, φ (ItemQueue.push q name entry).2))
include hφ

theorem forward_map (job : FetchJob) (s : ItemStream) (summary : Option FetchSummary)
    (o : Outside Q) :
    job.forward s summary ⟨φ o.queue, o.workspace⟩ =
      ((job.forward s summary o).1, (job.forward s summary o).2.1,
        ⟨φ (job.forward s summary o).2.2.queue, (job.forward s summary o).2.2.workspace⟩) := by
  fun_induction job.forward s summary o with
  | case1 s summary o s' w h => rw [forward, h]
  | case2 s summary o e s' w h => rw [forward, h]
  | case3 s summary o item s' w h e queue hpush =>
    rw [forward, h]
    simp only [hφ, hpush]
  | case4 s summary o item s' w h queue hpush ih =>
    rw [forward, h]
    simp only [hφ, hpush]
    exact ih

theorem runStream_map (job : FetchJob) (args : BackendArgs) (archiveArgs : Option ArchiveArgs)
    (o : Outside Q) :
    job.runStream args archiveArgs ⟨φ o.queue, o.workspace⟩ =
      ((job.runStream args archiveArgs o).1, (job.runStream args archiveArgs o).2.1,
        ⟨φ (job.runStream args archiveArgs o).2.2.queue,
          (job.runStream args archiveArgs o).2.2.workspace⟩) := by
  simp only [runStream, streamItems]
  rcases ItemStream.start job.backend args job.category (job.streamOptions archiveArgs)
    o.workspace with ⟨e | s, w⟩
  · rfl
  · simp only [forward_map φ hφ job s none ⟨o.queue, w⟩]

/-- A map of queues that respects pushes carries runs over. -/
theorem run_map (job : FetchJob) (args : BackendArgs) (archiveArgs : Option ArchiveArgs)
    (o : Outside Q) :
    job.run args archiveArgs ⟨φ o.queue, o.workspace⟩ =
      ((job.run args archiveArgs o).1, (job.run args archiveArgs o).2.1,
        ⟨φ (job.run args archiveArgs o).2.2.queue,
          (job.run args archiveArgs o).2.2.workspace⟩) := by
  simp only [run_eq]
  rcases job.binding archiveArgs o.workspace with ⟨e | archive, w⟩
  · rfl
  · exact runStream_map φ hφ _ args archiveArgs ⟨o.queue, w⟩

end Map

/-! ## What pushes preserve -/

section Preserves

variable (P : Q → Prop)

theorem forward_preserves (job : FetchJob)
    (hP : ∀ q entry, P q → P (ItemQueue.push q job.itemsQueue entry).2) (s : ItemStream)
    (summary : Option FetchSummary) (o : Outside Q) (h : P o.queue) :
    P (job.forward s summary o).2.2.queue := by
  fun_induction job.forward s summary o with
  | case1 s summary o s' w hnext => exact h
  | case2 s summary o e s' w hnext => exact h
  | case3 s summary o item s' w hnext e queue hpush =>
    have := hP o.queue (job.stamp item).toBytes h
    rwa [hpush] at this
  | case4 s summary o item s' w hnext queue hpush ih =>
    apply ih
    have := hP o.queue (job.stamp item).toBytes h
    rwa [hpush] at this

/-- What every push to the queue of a job preserves, a run of the job preserves. -/
theorem run_preserves (job : FetchJob)
    (hP : ∀ q entry, P q → P (ItemQueue.push q job.itemsQueue entry).2) (args : BackendArgs)
    (archiveArgs : Option ArchiveArgs) (o : Outside Q) (h : P o.queue) :
    P (job.run args archiveArgs o).2.2.queue := by
  rw [run_eq]
  rcases job.binding archiveArgs o.workspace with ⟨e | archive, w⟩
  · exact h
  · simp only [runStream, streamItems]
    rcases ItemStream.start _ args _ _ w with ⟨e | s, w'⟩
    · exact h
    · exact forward_preserves P { job with archive, state := .initializing } hP s none
        ⟨o.queue, w'⟩ h

end Preserves

/-! ## Why a run fails -/

theorem error_of_forward (job : FetchJob) (s : ItemStream) (summary : Option FetchSummary)
    (o : Outside Q) {e : JobError} (h : (job.forward s summary o).1 = .error e) :
    e.isRunFailure = true := by
  fun_induction job.forward s summary o with
  | case1 s summary o s' w hnext => cases h
  | case2 s summary o e' s' w hnext =>
    cases h
    rfl
  | case3 s summary o item s' w hnext e' queue hpush =>
    cases h
    rfl
  | case4 s summary o item s' w hnext queue hpush ih => exact ih h

theorem error_of_openAt (path : String) (a : Archives) {e : JobError}
    (h : (ArchiveManager.openAt path a).1 = .error e) :
    (∃ why, e = .invalidArgument why) ∨ e.isRunFailure = true := by
  unfold ArchiveManager.openAt at h
  split at h
  · cases h
    exact .inl ⟨_, rfl⟩
  · rcases hopen : (Archives.openDirectory path).run a with ⟨fault | number, archives⟩
    · rw [hopen] at h
      cases h
      exact .inr rfl
    · rw [hopen] at h
      cases h

theorem error_of_binding (job : FetchJob) (archiveArgs : Option ArchiveArgs) (w : Workspace)
    {e : JobError} (h : (job.binding archiveArgs w).1 = .error e) :
    (∃ why, e = .invalidArgument why) ∨ e.isRunFailure = true := by
  cases archiveArgs with
  | none => cases h
  | some a =>
    cases hprovided : job.providedAt? a.path with
    | some archive =>
      simp only [binding, hprovided] at h
      cases h
    | none =>
      rcases hopen : ArchiveManager.openAt a.path w.archives with ⟨e' | archive, archives⟩
      · simp only [binding, hprovided, hopen, Except.map] at h
        cases h
        exact error_of_openAt a.path w.archives (by rw [hopen])
      · simp only [binding, hprovided, hopen, Except.map] at h
        cases h

/-- A run is never refused for what it asks: it fails because the archive cannot be opened, or
because of the backend or the queue. -/
theorem error_of_run (job : FetchJob) (args : BackendArgs) (archiveArgs : Option ArchiveArgs)
    (o : Outside Q) {e : JobError} (h : (job.run args archiveArgs o).1 = .error e) :
    (∃ why, e = .invalidArgument why) ∨ e.isRunFailure = true := by
  rw [run_eq] at h
  rcases hbind : job.binding archiveArgs o.workspace with ⟨e' | archive, w⟩
  · rw [hbind] at h
    cases h
    exact job.error_of_binding archiveArgs o.workspace (by rw [hbind])
  · rw [hbind] at h
    simp only [runStream, streamItems] at h
    rcases hstart : ItemStream.start job.backend args job.category
      (streamOptions { job with archive, state := .initializing } archiveArgs) w with ⟨e' | s, w'⟩
    · rw [hstart] at h
      cases h
      exact .inr rfl
    · rw [hstart] at h
      exact .inr (error_of_forward _ s none _ h)

/-! ## How many items are forwarded -/

/-- The summary counts the items that the queue took. On the way the summary and the stream count
alike: an item that is refused is counted by the stream alone, and then nothing is forwarded any
more. -/
theorem fetched_forward (job : FetchJob) (s : ItemStream) (summary : Option FetchSummary)
    (o : Outside (LedgerQueue Q))
    (hseen : s.seen.fetched = UInt64.ofNat o.queue.taken.length)
    (hsummary : summary.elim 0 FetchSummary.fetched = UInt64.ofNat o.queue.taken.length) :
    (job.forward s summary o).2.1.elim 0 FetchSummary.fetched
      = UInt64.ofNat (job.forward s summary o).2.2.queue.taken.length := by
  fun_induction job.forward s summary o with
  | case1 s summary o s' w h =>
    have hnext := s.fetched_next o.workspace
    rw [h] at hnext
    rw [ItemStream.fetched_summary, hnext, hseen]
    exact UInt64.add_zero _
  | case2 s summary o e s' w h =>
    have hnext := s.fetched_next o.workspace
    rw [h] at hnext
    rw [ItemStream.fetched_summary, hnext, hseen]
    exact UInt64.add_zero _
  | case3 s summary o item s' w h e queue hpush =>
    rw [hsummary, LedgerQueue.taken_push_error hpush]
  | case4 s summary o item s' w h queue hpush ih =>
    have hnext := s.fetched_next o.workspace
    rw [h] at hnext
    have hlength : s'.seen.fetched = UInt64.ofNat queue.taken.length := by
      rw [LedgerQueue.taken_push_ok hpush, List.length_append, UInt64.ofNat_add]
      exact hnext.trans (by rw [hseen]; rfl)
    exact ih hlength (by rw [ItemStream.fetched_summary, hlength])

/-- The result of a run whose stream begins counts the items that the queue took. -/
theorem fetched_runStream (job : FetchJob) (args : BackendArgs) (archiveArgs : Option ArchiveArgs)
    (o : Outside (LedgerQueue Q)) (h : o.queue.taken = []) :
    (job.runStream args archiveArgs o).2.1.result.fetched
      = UInt64.ofNat (job.runStream args archiveArgs o).2.2.queue.taken.length := by
  show Option.elim (job.streamItems args (job.streamOptions archiveArgs) o).2.1 0 _
    = UInt64.ofNat (job.streamItems args (job.streamOptions archiveArgs) o).2.2.queue.taken.length
  rw [streamItems]
  rcases hstart : ItemStream.start job.backend args job.category (job.streamOptions archiveArgs)
    o.workspace with ⟨e | s, w⟩
  · simp [h]
  · apply fetched_forward
    · rw [ItemStream.seen_of_start hstart, h]
      rfl
    · rw [h]
      rfl

end FetchJob

end Intake
