import Intake.Proofs.Job.Course

/-!
# Where a later job can go on

The summary in the result of a first run tells of the items that the queue took and of no other one,
however the run ends (`FetchJob.Forwards.told`). So the resume point is never ahead of the queue: a
job that goes on there misses nothing that is not in the queue already.

A summary counts in 64 bits. A run that pushed a multiple of 2 ^ 64 items and then failed has a
count of zero, and no summary is shown.
-/

namespace Intake

-- one meaning of powers, whatever is imported beside
attribute [local instance (high)] instPowNat

/-- The resume point after some items were pushed: their greatest watermarks, if there are any. -/
def ResumePoint.ofItems (items : List Item) : Option ResumePoint :=
  if items.filterMap Item.updatedAt = [] ∧ items.filterMap Item.offset = [] then none
  else some ⟨(items.filterMap Item.updatedAt).max?, (items.filterMap Item.offset).max?⟩

/-- What a result tells of items; a result without a summary tells what there is to tell of none. -/
def JobResult.items (r : JobResult) : FetchSummary := r.summary.elim {} FetchSummary.items

namespace JobResult

/-- The resume point is read off what the result tells of items. -/
theorem resumePoint_eq (r : JobResult) :
    r.resumePoint =
      if r.items.updates.greatest = none ∧ r.items.offsets.greatest = none then none
      else some ⟨r.items.updates.greatest, r.items.offsets.greatest⟩ := by
  cases h : r.summary with
  | none => simp [resumePoint, items, h]
  | some s => simp [resumePoint, items, h, FetchSummary.items]

/-- A result that tells of some items has their resume point. -/
theorem resumePoint_of_items {r : JobResult} {items : List Item}
    (h : r.items = .ofItems items) : r.resumePoint = ResumePoint.ofItems items := by
  simp only [resumePoint_eq, h, FetchSummary.ofItems, Watermarks.of, List.max?_eq_none_iff,
    ResumePoint.ofItems]

end JobResult

namespace ItemStream

/-- A stream that has given some items shows what there is to tell of them. It shows nothing only if
it has counted nothing. -/
theorem items_summary {s : ItemStream} {items : List Item} (h : s.seen.items = .ofItems items) :
    s.summary.elim {} FetchSummary.items = .ofItems items
      ∨ s.summary = none ∧ items ≠ [] ∧ 2 ^ (64 : Nat) ∣ items.length := by
  have hcount := s.fetched_summary
  cases hsummary : s.summary with
  | some seen =>
    unfold summary at hsummary
    split at hsummary
    · cases hsummary
      exact .inl h
    · cases hsummary
  | none =>
    rw [hsummary] at hcount
    have hzero : UInt64.ofNat items.length = 0 :=
      (congrArg FetchSummary.fetched h).symm.trans hcount.symm
    cases items with
    | nil => exact .inl rfl
    | cons item items =>
      refine .inr ⟨rfl, List.cons_ne_nil _ _, Nat.dvd_of_mod_eq_zero ?_⟩
      simpa using congrArg UInt64.toNat hzero

end ItemStream

namespace FetchJob

variable {Q : Type} [ItemQueue Q]

/-- The summary that a run keeps for its result tells of the pushed items. -/
theorem Forwards.told {job : FetchJob} {s : ItemStream} {w : Workspace} {q : Q}
    {pushed : List Item} {r : Except JobError Unit × Option FetchSummary × Outside Q}
    (h : Forwards job s w q pushed r) (hseen : s.seen = {}) :
    r.2.1.elim {} FetchSummary.items = .ofItems pushed
      ∨ r.2.1 = none ∧ pushed ≠ [] ∧ 2 ^ (64 : Nat) ∣ pushed.length := by
  have hbegun : s.seen.items = .ofItems [] := by rw [hseen]; rfl
  cases h with
  | drained items takes =>
    apply ItemStream.items_summary
    rw [s.items_drain w, hbegun, FetchSummary.foldl_update_ofItems, items]
    rfl
  | refused items takes push =>
    apply ItemStream.items_summary
    rw [ItemStream.items_afterSteps items, hbegun, FetchSummary.foldl_update_ofItems]
    rfl

/-- A new job has no summary. -/
theorem create_eq_ok {registry : BackendRegistry} {backend category itemsQueue : String}
    {jobId : JobId} {taskId : TaskId} {job : FetchJob}
    (h : create registry backend category itemsQueue jobId taskId = .ok job) :
    job.itemsQueue = itemsQueue ∧ job.result.summary = none := by
  unfold create at h
  cases hresolve : registry.resolve backend with
  | error e =>
    rw [hresolve] at h
    cases h
  | ok b =>
    rw [hresolve] at h
    cases h
    exact ⟨rfl, rfl⟩

/-- The result of a run of a new job has the watermarks of the items that the queue took in the run,
in the order of the pushes, and so the resume point is theirs as well. -/
theorem watermarks_eq_pushed {registry : BackendRegistry} {backend category itemsQueue : String}
    {jobId : JobId} {taskId : TaskId} {new : FetchJob}
    (hnew : create registry backend category itemsQueue jobId taskId = .ok new)
    (provided : Option ArchiveManager) (c : RunCall Q) :
    let job := { new with provided }
    ∃ pushed : List Item,
      job.taken c = pushed.map (fun item => (itemsQueue, (job.stamp item).toBytes))
      ∧ ((job.afterRun c).result.items = .ofItems pushed
            ∧ (job.afterRun c).result.resumePoint = ResumePoint.ofItems pushed
        ∨ (job.afterRun c).result.summary = none
            ∧ pushed ≠ [] ∧ 2 ^ (64 : Nat) ∣ pushed.length) := by
  intro job
  have hqueue : job.itemsQueue = itemsQueue := (create_eq_ok hnew).1
  have hsummary : job.result.summary = none := (create_eq_ok hnew).2
  -- the run is looked at with a queue that notes what it takes
  have hafter : job.afterRun c = job.afterRun c.noted :=
    congrArg (fun r => r.2.1) (job.runCall_eq_noted c)
  rcases hstream : job.openStream c.noted with ⟨e | s, w⟩
  · obtain ⟨left, hrun, -, hresult⟩ := runCall_of_openStream_error hstream
    have hleft : job.afterRun c.noted = left := congrArg (fun r => r.2.1) hrun
    have htaken : job.taken c = [] := congrArg (fun r => r.2.2.queue.taken) hrun
    have hnone : left.result.summary = none := by
      rcases hresult with hresult | hresult
      · rw [hresult, hsummary]
      · rw [hresult]
        rfl
    have hitems : left.result.items = .ofItems [] := by
      rw [JobResult.items, hnone]
      rfl
    rw [hafter, hleft]
    exact ⟨[], htaken, .inl ⟨hitems, JobResult.resumePoint_of_items hitems⟩⟩
  · obtain ⟨pushed, r, left, hforwards, hrun, -, hresult⟩ := runCall_of_openStream_ok hstream
    have hleft : job.afterRun c.noted = left := congrArg (fun r => r.2.1) hrun
    have htaken : job.taken c = r.2.2.queue.taken := congrArg (fun r => r.2.2.queue.taken) hrun
    refine ⟨pushed, ?_, ?_⟩
    · rw [htaken, hforwards.taken_eq, hqueue]
      rfl
    · rw [hafter, hleft, hresult]
      rcases hforwards.told (begun_of_openStream hstream).2 with hitems | hwrapped
      · exact .inl ⟨hitems, JobResult.resumePoint_of_items hitems⟩
      · exact .inr hwrapped

/-- A job whose fetch gives items at the positions 1 and 2, with a queue that holds one entry: the
second push is refused. -/
theorem watermarks_eq_pushed_full_queue :
    let item (offset : Int64) : Item :=
      { backendName := "b", backendVersion := "1", category := "c", origin := "o", uuid := "u"
        updatedOn := 0, timestamp := 0, offset := some offset, data := .null }
    let source : BackendInstance :=
      ⟨"o", .give (item 1) (.give (item 2) .done), fun _ _ => .ok ""⟩
    let backend : Backend := ⟨"b", "1", ["c"], .none, fun _ => .ok source⟩
    let jobId : JobId := ⟨⟨.replicate 32 0, rfl⟩⟩
    let job : FetchJob := { jobId, taskId := ⟨"t"⟩, backend, category := "c", itemsQueue := "q"
                            result := { jobId, taskId := ⟨"t"⟩, backend := "b", category := "c" } }
    let c : RunCall MemoryQueue :=
      ⟨.empty, none, { capacity := some 1 }, {},
        ⟨fun _ => .epoch, fun _ => ⟨.replicate 32 0, rfl⟩, 0, 0⟩⟩
    create (BackendRegistry.ofList [backend]) "b" "c" "q" jobId ⟨"t"⟩ = .ok job
      ∧ (job.runCall c).1 = .error (.queue (.command "queue 'q' is full (1 entries)"))
      ∧ ∃ pushed : List Item,
        job.taken c = pushed.map (fun item => ("q", (job.stamp item).toBytes))
        ∧ ((job.afterRun c).result.items = .ofItems pushed
              ∧ (job.afterRun c).result.resumePoint = ResumePoint.ofItems pushed
          ∨ (job.afterRun c).result.summary = none
              ∧ pushed ≠ [] ∧ 2 ^ (64 : Nat) ∣ pushed.length) := by
  intro item source backend jobId job c
  have hcreate : create (BackendRegistry.ofList [backend]) "b" "c" "q" jobId ⟨"t"⟩ = .ok job := rfl
  have hanswer : (job.runCall c).1
      = .error (.queue (.command "queue 'q' is full (1 entries)")) := by
    simp [runCall, run, runStream, streamItems, streamOptions, ItemStream.start, job, backend,
      source, c, Backend.supportsCategory, ItemStream.fetching, forward, ItemStream.next,
      ItemStream.proceed, Fetch.advance, ItemQueue.push, MemoryQueue.push_eq, MemoryQueue.isFull,
      MemoryQueue.length, MemoryQueue.append, MemoryQueue.named, MemoryQueue.entries,
      MemoryQueue.replace, MemoryQueue.fullError]
    rfl
  exact ⟨hcreate, hanswer, watermarks_eq_pushed hcreate none c⟩

end FetchJob

end Intake
