import Intake.Proofs.Job.Course
import Intake.Proofs.Wire.Items

/-!
# What consumers find

The entries of a queue that jobs have written to are the octets of the items that the runs pushed,
and of no others (`FetchJob.taken_eq_pushed`, `MemoryQueue.entries_afterUses`). A consumer gets
these items back exactly as far as they are consumable: nothing on the way from the backend to the
queue looks at that (`FetchJob.pushed_consumable_iff`).
-/

namespace Intake

variable {Q : Type} [ItemQueue Q]

namespace FetchJob

/-! ## One run -/

/-- The items that a run pushes and that the queue takes: the first ones of its stream. -/
def pushed (job : FetchJob) (c : RunCall Q) : List Item :=
  match job.openStream c with
  | (.error _, _) => []
  | (.ok s, w) => (s.drain w).items.take (job.taken c).length

/-- The pushed items are the first ones of the stream. -/
theorem Forwards.take_items {job : FetchJob} {s : ItemStream} {w : Workspace} {q : Q}
    {pushed : List Item} {r : Except JobError Unit × Option FetchSummary × Outside Q}
    (h : Forwards job s w q pushed r) : (s.drain w).items.take pushed.length = pushed := by
  cases h with
  | drained items takes => rw [items, List.take_length]
  | refused items takes push => rw [items, List.take_left]

/-- What the queue takes in a run are the octets of the pushed items. -/
theorem taken_eq_pushed (job : FetchJob) (c : RunCall Q) :
    job.taken c = (job.pushed c).map fun item => (job.itemsQueue, job.entry item) := by
  rcases hstream : job.openStream c with ⟨e | s, w⟩
  · have hnoted : job.openStream c.noted = (.error e, w) := hstream
    obtain ⟨left, hrun, -⟩ := runCall_of_openStream_error hnoted
    have htaken : job.taken c = [] := congrArg (fun r => r.2.2.queue.taken) hrun
    rw [htaken, pushed, hstream]
    rfl
  · have hnoted : job.openStream c.noted = (.ok s, w) := hstream
    obtain ⟨items, r, left, hforwards, hrun, -⟩ := runCall_of_openStream_ok hnoted
    have htaken : job.taken c = items.map fun item => (job.itemsQueue, job.entry item) :=
      (congrArg (fun r => r.2.2.queue.taken) hrun).trans hforwards.taken_eq
    have hpushed : job.pushed c = items := by
      rw [pushed, hstream]
      show (s.drain w).items.take (job.taken c).length = items
      rw [htaken, List.length_map, hforwards.take_items]
    rw [hpushed, htaken]

/-- An item is read back from its entry, stamped, if and only if it is consumable. -/
theorem ofBytes_entry_iff (job : FetchJob) (item : Item) :
    Item.ofBytes (job.entry item) = .ok (job.stamp item) ↔ item.IsConsumable :=
  (Item.ofBytes_toBytes_iff _).trans Item.isConsumable_annotate

end FetchJob

/-! ## A queue in memory -/

/-- A run of some job, and the workspace that it finds. -/
structure JobRun where
  job : FetchJob
  args : BackendArgs
  archiveArgs : Option ArchiveArgs
  workspace : Workspace

/-- What is done with queues: a job runs, or a consumer takes the first entry of a queue. -/
inductive QueueUse where
  | run (run : JobRun)
  | pop (name : String)

namespace MemoryQueue

/-- The run with the queues that it finds. -/
def call (q : MemoryQueue) (r : JobRun) : RunCall MemoryQueue :=
  ⟨r.args, r.archiveArgs, ⟨q, r.workspace⟩⟩

/-- The queues after one use. -/
def afterUse (q : MemoryQueue) : QueueUse → MemoryQueue
  | .run r => (r.job.runCall (q.call r)).2.2.queue
  | .pop name => (q.pop name).2

/-- The queues after some uses, one after the other. -/
def afterUses (q : MemoryQueue) (uses : List QueueUse) : MemoryQueue := uses.foldl afterUse q

/-- The items that belong to a queue after one use, if `items` belonged to it before. -/
def heldAfterUse (q : MemoryQueue) (name : String) (items : List Item) : QueueUse → List Item
  | .run r =>
    items ++ if name = r.job.itemsQueue then (r.job.pushed (q.call r)).map r.job.stamp else []
  | .pop other => if name = other then items.tail else items

/-- The items that belong to a queue after some uses, if `items` belonged to it before. -/
def heldAfterUses (name : String) : MemoryQueue → List Item → List QueueUse → List Item
  | _, items, [] => items
  | q, items, u :: uses => heldAfterUses name (q.afterUse u) (q.heldAfterUse name items u) uses

theorem entries_pop_tail (q : MemoryQueue) (name : String) :
    (q.pop name).2.entries name = (q.entries name).tail := by
  have hpop := q.entries_pop name
  unfold pop at hpop ⊢
  split <;> simp_all

theorem entries_afterUse {q : MemoryQueue} {name : String} {items : List Item}
    (h : q.entries name = items.map Item.toBytes) (u : QueueUse) :
    (q.afterUse u).entries name = (q.heldAfterUse name items u).map Item.toBytes := by
  cases u with
  | run r =>
    have hrun : (q.afterUse (.run r)).entries name = q.entries name
        ++ if name = r.job.itemsQueue then (r.job.taken (q.call r)).map Prod.snd else [] :=
      r.job.entries_runCall (q.call r) name
    have htaken : (r.job.taken (q.call r)).map Prod.snd
        = ((r.job.pushed (q.call r)).map r.job.stamp).map Item.toBytes := by
      rw [r.job.taken_eq_pushed, List.map_map, List.map_map]
      simp only [Function.comp_def, FetchJob.entry]
    rw [hrun, h, htaken, heldAfterUse, List.map_append]
    by_cases hname : name = r.job.itemsQueue
    · rw [if_pos hname, if_pos hname]
    · rw [if_neg hname, if_neg hname, List.map_nil]
  | pop other =>
    have hpop : q.afterUse (.pop other) = (q.pop other).2 := rfl
    rw [hpop, heldAfterUse]
    by_cases hname : name = other
    · rw [if_pos hname, ← hname, entries_pop_tail, h, List.map_tail]
    · rw [if_neg hname, q.entries_pop_of_ne hname, h]

/-- The entries of a queue are the octets of the items that belong to it. -/
theorem entries_afterUses (uses : List QueueUse) {q : MemoryQueue} {name : String}
    {items : List Item} (h : q.entries name = items.map Item.toBytes) :
    (q.afterUses uses).entries name = (heldAfterUses name q items uses).map Item.toBytes := by
  induction uses generalizing q items with
  | nil => exact h
  | cons u uses ih => exact ih (entries_afterUse h u)

/-- Octets of items are read as the items if and only if each of these is consumable. -/
theorem mapM_ofBytes_iff (items : List Item) :
    (items.map Item.toBytes).mapM Item.ofBytes = .ok items ↔ ∀ i ∈ items, i.IsConsumable := by
  induction items with
  | nil => exact ⟨fun _ _ h => absurd h List.not_mem_nil, fun _ => rfl⟩
  | cons i items ih =>
    rw [List.map_cons, List.mapM_cons, List.forall_mem_cons, ← ih, ← Item.ofBytes_toBytes_iff]
    cases Item.ofBytes i.toBytes with
    | error e => simp [bind, Except.bind]
    | ok j =>
      cases (items.map Item.toBytes).mapM Item.ofBytes with
      | error e => simp [bind, Except.bind]
      | ok js => simp [bind, Except.bind, pure, Except.pure]

end MemoryQueue

/-- Each entry that a queue takes in a run is that of an item of the stream. It is read as that
item, with the runner's version and the job and otherwise as it was, if and only if the item is
consumable. And a queue that only runs have written to, while consumers took entries from it, gives
all of its items if and only if each of them is consumable. -/
theorem FetchJob.pushed_consumable_iff (job : FetchJob) (c : RunCall Q) (capacity : Option Nat)
    (uses : List QueueUse) (name : String) :
    let new : MemoryQueue := { capacity }
    (job.taken c = (job.pushed c).map fun item => (job.itemsQueue, job.entry item))
      ∧ (∀ item ∈ job.pushed c,
        Item.ofBytes (job.entry item)
            = .ok { item with runnerVersion := some runnerVersion, jobId := some job.jobId }
          ↔ item.IsConsumable)
      ∧ ((new.afterUses uses).items name = .ok (new.heldAfterUses name [] uses)
          ↔ ∀ item ∈ new.heldAfterUses name [] uses, item.IsConsumable) := by
  intro new
  refine ⟨job.taken_eq_pushed c, fun item _ => job.ofBytes_entry_iff item, ?_⟩
  have hentries := MemoryQueue.entries_afterUses uses (show new.entries name = [].map Item.toBytes
    from rfl)
  rw [MemoryQueue.items, hentries]
  exact MemoryQueue.mapM_ofBytes_iff _

end Intake
