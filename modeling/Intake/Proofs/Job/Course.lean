import Intake.Proofs.Job.RunResult
import Intake.Proofs.Stream.Lifecycle
import Intake.Work

/-!
# The course of a run

What a run forwards is compared with all that its stream has to give (`ItemStream.drain`).
`FetchJob.Forwards` are the two ways in which it can go: the queue takes every item, and then the
answer is how the stream ended, or it refuses one, and then the items before it are in the queue
and the stream is left where it is. `FetchJob.forwards_forward` says that there is no third one.

`FetchJob.openStream` is the stream of a run, and `FetchJob.forwards_runCall` is the account of a
run after any earlier ones: what is in the queues, the answer and the state.
-/

namespace Intake

namespace FetchJob

variable {Q : Type} [ItemQueue Q]

/-! ## One stream -/

/-- The octets that an item is pushed as. -/
def entry (job : FetchJob) (item : Item) : ByteArray := (job.stamp item).toBytes

/-- What a run answers when its stream has ended like this. -/
def ending : Option BackendError → Except JobError Unit
  | none => .ok ()
  | some e => .error (.backend e)

/-- How a run can go through a stream that it finds with this workspace and queue: the items that
are pushed, and the answer, the summary and the outside that it leaves. -/
inductive Forwards (job : FetchJob) (s : ItemStream) (w : Workspace) (q : Q)
    (pushed : List Item) : Except JobError Unit × Option FetchSummary × Outside Q → Prop where
  /-- The queue takes all that the stream gives. -/
  | drained {q' : Q} (items : (s.drain w).items = pushed)
      (takes : Takes job.itemsQueue q (pushed.map job.entry) q') :
      Forwards job s w q pushed
        (ending (s.drain w).error, (s.drain w).stream.summary, ⟨q', (s.drain w).workspace⟩)
  /-- The queue refuses an item. The stream has given this item, and nothing more. -/
  | refused {item : Item} {rest : List Item} {q' q'' : Q} {e : QueueError}
      (items : (s.drain w).items = pushed ++ item :: rest)
      (takes : Takes job.itemsQueue q (pushed.map job.entry) q')
      (push : ItemQueue.push q' job.itemsQueue (job.entry item) = (.error e, q'')) :
      Forwards job s w q pushed
        (.error (.queue e), (s.afterSteps w pushed.length).1.summary,
          ⟨q'', (s.afterSteps w (pushed.length + 1)).2⟩)

/-- A run that has pushed an item goes on as a run of what is left of the stream. -/
theorem Forwards.after {job : FetchJob} {s s' : ItemStream} {w w' : Workspace} {q q' : Q}
    {item : Item} {pushed : List Item} {r : Except JobError Unit × Option FetchSummary × Outside Q}
    (hnext : s.next w = (some (.ok item), s', w'))
    (hpush : ItemQueue.push q job.itemsQueue (job.entry item) = (.ok (), q'))
    (h : Forwards job s' w' q' pushed r) : Forwards job s w q (item :: pushed) r := by
  have hdrain := ItemStream.drain_of_item hnext
  have hsteps : ∀ n, s.afterSteps w (n + 1) = s'.afterSteps w' n := by
    intro n
    rw [ItemStream.afterSteps, hnext]
  cases h with
  | drained items takes =>
    have hall : (s.drain w).items = item :: pushed := by
      rw [hdrain, ← items]
      rfl
    have hafter : Forwards job s w q (item :: pushed) _ := .drained hall (.cons hpush takes)
    rwa [hdrain] at hafter
  | @refused item' rest _ _ _ items takes push =>
    have hall : (s.drain w).items = (item :: pushed) ++ item' :: rest := by
      rw [hdrain]
      exact congrArg (item :: ·) items
    have hafter : Forwards job s w q (item :: pushed) _ := .refused hall (.cons hpush takes) push
    rwa [List.length_cons, hsteps, hsteps] at hafter

/-- A run through a stream goes in one of the two ways. -/
theorem forwards_forward (job : FetchJob) (s : ItemStream) (summary : Option FetchSummary)
    (o : Outside Q) (hsummary : s.summary = summary) :
    ∃ pushed, Forwards job s o.workspace o.queue pushed (job.forward s summary o) := by
  fun_induction job.forward s summary o with
  | case1 s summary o s' w h =>
    have hdrained : Forwards job s o.workspace o.queue [] _ :=
      .drained (by rw [ItemStream.drain_of_none h]) (.nil o.queue)
    rw [ItemStream.drain_of_none h] at hdrained
    exact ⟨[], hdrained⟩
  | case2 s summary o e s' w h =>
    have hdrained : Forwards job s o.workspace o.queue [] _ :=
      .drained (by rw [ItemStream.drain_of_error h]) (.nil o.queue)
    rw [ItemStream.drain_of_error h] at hdrained
    exact ⟨[], hdrained⟩
  | case3 s summary o item s' w h e queue hpush =>
    have hrefused : Forwards job s o.workspace o.queue [] _ :=
      .refused (by rw [ItemStream.drain_of_item h]; rfl) (.nil o.queue) hpush
    rw [List.length_nil, Nat.zero_add, ItemStream.afterSteps, ItemStream.afterSteps,
      ItemStream.afterSteps, h] at hrefused
    rw [← hsummary]
    exact ⟨[], hrefused⟩
  | case4 s summary o item s' w h queue hpush ih =>
    obtain ⟨pushed, hrest⟩ := ih rfl
    exact ⟨item :: pushed, hrest.after h hpush⟩

/-! ## One run -/

/-- The stream of a run, or why there is none. -/
def openStream (job : FetchJob) (c : RunCall Q) : Except JobError ItemStream × Workspace :=
  match job.binding c.archiveArgs c.outside.workspace with
  | (.error e, w) => (.error e, w)
  | (.ok archive, w) =>
    let (s, w) := ItemStream.start job.backend c.args job.category
      ({ job with archive }.streamOptions c.archiveArgs) w
    (s.mapError .backend, w)

omit [ItemQueue Q] in
theorem openStream_eq_ok {job : FetchJob} {c : RunCall Q} {s : ItemStream} {w : Workspace}
    (h : job.openStream c = (.ok s, w)) :
    ∃ archive v, job.binding c.archiveArgs c.outside.workspace = (.ok archive, v)
      ∧ ItemStream.start job.backend c.args job.category
        ({ job with archive }.streamOptions c.archiveArgs) v = (.ok s, w) := by
  unfold openStream at h
  split at h
  · cases h
  · rename_i archive v hbind
    rcases hstart : ItemStream.start job.backend c.args job.category
      ({ job with archive }.streamOptions c.archiveArgs) v with ⟨e | s', v'⟩
    · simp [hstart] at h
    · simp only [hstart, Work.mapError_ok, Prod.mk.injEq, Except.ok.injEq] at h
      obtain ⟨rfl, rfl⟩ := h
      exact ⟨archive, v, hbind, hstart⟩

omit [ItemQueue Q] in
/-- A stream that a run begins has given nothing. -/
theorem begun_of_openStream {job : FetchJob} {c : RunCall Q} {s : ItemStream} {w : Workspace}
    (h : job.openStream c = (.ok s, w)) : s.state = .streaming ∧ s.seen = {} := by
  obtain ⟨archive, v, -, hstart⟩ := openStream_eq_ok h
  exact ⟨ItemStream.state_of_start hstart, ItemStream.seen_of_start hstart⟩

omit [ItemQueue Q] in
theorem openStream_eq_error {job : FetchJob} {c : RunCall Q} {e : JobError} {w : Workspace}
    (h : job.openStream c = (.error e, w)) :
    job.binding c.archiveArgs c.outside.workspace = (.error e, w)
      ∨ ∃ archive v why, job.binding c.archiveArgs c.outside.workspace = (.ok archive, v)
        ∧ ItemStream.start job.backend c.args job.category
          ({ job with archive }.streamOptions c.archiveArgs) v = (.error why, w)
        ∧ e = .backend why := by
  unfold openStream at h
  split at h
  · rename_i e' v hbind
    cases h
    exact .inl hbind
  · rename_i archive v hbind
    rcases hstart : ItemStream.start job.backend c.args job.category
      ({ job with archive }.streamOptions c.archiveArgs) v with ⟨why | s, v'⟩
    · simp only [hstart, Work.mapError_error, Prod.mk.injEq, Except.error.injEq] at h
      obtain ⟨rfl, rfl⟩ := h
      exact .inr ⟨archive, v, why, hbind, hstart, rfl⟩
    · simp [hstart] at h

theorem runStream_of_start_error {job : FetchJob} {args : BackendArgs}
    {archiveArgs : Option ArchiveArgs} {o : Outside Q} {e : BackendError} {w : Workspace}
    (h : ItemStream.start job.backend args job.category (job.streamOptions archiveArgs) o.workspace
      = (.error e, w)) :
    job.runStream args archiveArgs o
      = (.error (.backend e), { job with result := job.blankResult, state := .failed },
        { o with workspace := w }) := by
  simp only [runStream, streamItems, h]
  rfl

theorem runStream_of_start_ok {job : FetchJob} {args : BackendArgs}
    {archiveArgs : Option ArchiveArgs} {o : Outside Q} {s : ItemStream} {w : Workspace}
    (h : ItemStream.start job.backend args job.category (job.streamOptions archiveArgs) o.workspace
      = (.ok s, w)) {r : Except JobError Unit × Option FetchSummary × Outside Q}
    (hforward : job.forward s none { o with workspace := w } = r) :
    job.runStream args archiveArgs o
      = (r.1, { job with result := { job.blankResult with summary := r.2.1 }
                         state := stateAfter r.1 }, r.2.2) := by
  simp only [runStream, streamItems, h, hforward]

/-- A run without a stream ends with the reason why there is none. Its result is the one before, or
a new one without a summary. -/
theorem runCall_of_openStream_error {job : FetchJob} {c : RunCall Q} {e : JobError} {w : Workspace}
    (h : job.openStream c = (.error e, w)) :
    ∃ left : FetchJob, job.runCall c = (.error e, left, ⟨c.outside.queue, w⟩)
      ∧ left.state = .failed ∧ (left.result = job.result ∨ left.result = job.blankResult) := by
  unfold runCall
  rw [run_eq]
  rcases openStream_eq_error h with hbind | ⟨archive, v, why, hbind, hstart, rfl⟩
  · rw [hbind]
    exact ⟨_, rfl, rfl, .inl rfl⟩
  · rw [hbind]
    exact ⟨_, runStream_of_start_error hstart, rfl, .inr rfl⟩

/-- A run with a stream forwards it, and its result has the summary of that. -/
theorem runCall_of_openStream_ok {job : FetchJob} {c : RunCall Q} {s : ItemStream} {w : Workspace}
    (h : job.openStream c = (.ok s, w)) :
    ∃ pushed r left, Forwards job s w c.outside.queue pushed r
      ∧ job.runCall c = (r.1, left, r.2.2) ∧ left.state = stateAfter r.1
      ∧ left.result = { job.blankResult with summary := r.2.1 } := by
  obtain ⟨archive, v, hbind, hstart⟩ := openStream_eq_ok h
  obtain ⟨pushed, hforwards⟩ :=
    job.forwards_forward s none ⟨c.outside.queue, w⟩ (ItemStream.summary_of_start hstart)
  have hforward := forward_congr { job with archive, state := .initializing } job rfl rfl s none
    ⟨c.outside.queue, w⟩
  generalize job.forward s none ⟨c.outside.queue, w⟩ = r at hforwards hforward
  have hrun : job.runCall c = { job with archive, state := .initializing }.runStream c.args
      c.archiveArgs ⟨c.outside.queue, v⟩ := by
    unfold runCall
    rw [run_eq, hbind]
  exact ⟨pushed, r, _, hforwards, hrun.trans (runStream_of_start_ok hstart hforward), rfl, rfl⟩

/-! ## Runs after other runs -/

omit [ItemQueue Q] in
theorem openStream_renewed (job : FetchJob) (c : RunCall Q) :
    job.renewed.openStream c = job.openStream c := rfl

theorem forwards_renewed {job : FetchJob} {s : ItemStream} {w : Workspace} {q : Q}
    {pushed : List Item} {r : Except JobError Unit × Option FetchSummary × Outside Q} :
    Forwards job.renewed s w q pushed r ↔ Forwards job s w q pushed r := by
  constructor
  · rintro (⟨items, takes⟩ | ⟨items, takes, push⟩)
    · exact .drained items takes
    · exact .refused items takes push
  · rintro (⟨items, takes⟩ | ⟨items, takes, push⟩)
    · exact .drained items takes
    · exact .refused items takes push

/-- What the items that a run pushes become, in the queue of the job and in no other one. -/
theorem Forwards.entries_eq [LawfulQueue Q] {job : FetchJob} {s : ItemStream} {w : Workspace}
    {q : Q} {pushed : List Item} {r : Except JobError Unit × Option FetchSummary × Outside Q}
    (h : Forwards job s w q pushed r) (name : String) :
    LawfulQueue.entries r.2.2.queue name = LawfulQueue.entries q name
      ++ if name = job.itemsQueue then pushed.map job.entry else [] := by
  cases h with
  | drained items takes => exact takes.entries_eq name
  | refused items takes push =>
    rw [LawfulQueue.entries_push_error name push]
    exact takes.entries_eq name

/-- A ledger has noted the items that a run pushes. -/
theorem Forwards.taken_eq {job : FetchJob} {s : ItemStream} {w : Workspace} {l : LedgerQueue Q}
    {pushed : List Item} {r : Except JobError Unit × Option FetchSummary × Outside (LedgerQueue Q)}
    (h : Forwards job s w l pushed r) :
    r.2.2.queue.taken = l.taken ++ pushed.map fun item => (job.itemsQueue, job.entry item) := by
  cases h with
  | drained items takes => rw [takes.taken_eq, List.map_map]; rfl
  | refused items takes push =>
    rw [LedgerQueue.taken_push_error push, takes.taken_eq, List.map_map]
    rfl

/-- A run succeeds exactly if its stream gets to its end and every item of it is taken. -/
theorem Forwards.ok_iff {job : FetchJob} {s : ItemStream} {w : Workspace} {q : Q}
    {pushed : List Item} {r : Except JobError Unit × Option FetchSummary × Outside Q}
    (h : Forwards job s w q pushed r) (hstate : s.state = .streaming) :
    r.1 = .ok () ↔ (s.drain w).stream.isExhausted = true ∧ pushed = (s.drain w).items := by
  rw [s.isExhausted_drain w hstate]
  cases h with
  | drained items takes =>
    cases (s.drain w).error with
    | none => simp [ending, items]
    | some e => simp [ending]
  | refused items takes push => simp [items]

/-- After any earlier runs a run appends to the queue of the job, and to no other one, the first
items of its stream, each with the runner's version and the job, and otherwise as it was given.
Either these are all the items, and the run answers how the stream ended; or the queue refuses the
item after them, and the run answers with that refusal and asks nothing more of the stream. -/
theorem runCall_pushes_prefix [LawfulQueue Q] (job : FetchJob) (earlier : List (RunCall Q))
    (c : RunCall Q) :
    let r := (job.afterRuns earlier).runCall c
    ∃ pushed : List Item,
      (∀ name, LawfulQueue.entries r.2.2.queue name = LawfulQueue.entries c.outside.queue name
        ++ if name = job.itemsQueue then
            pushed.map fun item => Item.toBytes
              { item with runnerVersion := some runnerVersion, jobId := some job.jobId }
          else [])
      ∧ r.2.1.state = (match r.1 with | .ok () => .completed | .error _ => .failed)
      ∧ match job.openStream c with
        | (.error e, w) => r.1 = .error e ∧ pushed = [] ∧ r.2.2.workspace = w
        | (.ok s, w) =>
          (r.1 = .ok () ↔ (s.drain w).stream.isExhausted = true ∧ pushed = (s.drain w).items)
            ∧ job.Forwards s w c.outside.queue pushed (r.1, r.2.1.result.summary, r.2.2) := by
  intro r
  have hrenewed := job.renewed_afterRuns earlier
  have hopen : (job.afterRuns earlier).openStream c = job.openStream c := by
    rw [← openStream_renewed, hrenewed, openStream_renewed]
  rcases hstream : job.openStream c with ⟨e | s, w⟩
  · obtain ⟨left, hrun, hstate, -⟩ := runCall_of_openStream_error (hopen.trans hstream)
    have hr : r = _ := hrun
    rw [hr]
    refine ⟨[], ?_, hstate, rfl, rfl, rfl⟩
    intro name
    simp
  · obtain ⟨pushed, r', left, hforwards, hrun, hstate, hresult⟩ :=
      runCall_of_openStream_ok (hopen.trans hstream)
    have hr : r = _ := hrun
    rw [← forwards_renewed, hrenewed, forwards_renewed] at hforwards
    have hbegun := begun_of_openStream hstream
    rw [hr]
    refine ⟨pushed, hforwards.entries_eq, hstate, hforwards.ok_iff hbegun.1, ?_⟩
    rw [hresult]
    exact hforwards

end FetchJob

end Intake
