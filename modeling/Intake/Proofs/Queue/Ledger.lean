import Intake.Queue

/-!
# What a queue took

Of any queue one can note which entries it took: `LedgerQueue` passes every push on to the queue
inside and writes down those that were not refused. Whoever pushes cannot tell the two apart
(`LedgerQueue.push_queue`).

`LawfulQueue` are the queues that can also be looked at, and in which a push appends its entry to
the queue that it names or does nothing. Queues in memory are lawful, and so is the ledger of any
queue.

`Takes` is a row of pushes of which none is refused.
-/

namespace Intake

/-- Queues that can be looked at, and that grow by what they take and by nothing else. -/
class LawfulQueue (Q : Type) [ItemQueue Q] where
  /-- The entries of a queue from the front to the end. -/
  entries : Q → String → List ByteArray
  entries_push_ok : ∀ {q q' : Q} {name : String} {entry : ByteArray} (other : String),
    ItemQueue.push q name entry = (.ok (), q') →
      entries q' other = entries q other ++ if other = name then [entry] else []
  entries_push_error : ∀ {q q' : Q} {name : String} {entry : ByteArray} {e : QueueError}
    (other : String), ItemQueue.push q name entry = (.error e, q') →
      entries q' other = entries q other

/-- A queue with the entries that it took, from the first to the latest, each with the name of the
queue that it was pushed to. -/
structure LedgerQueue (Q : Type) where
  queue : Q
  taken : List (String × ByteArray) := []

variable {Q : Type} [ItemQueue Q]

namespace LedgerQueue

/-- Pushes to the queue inside, and notes the entry if it was taken. -/
def push (l : LedgerQueue Q) (name : String) (entry : ByteArray) :
    Except QueueError Unit × LedgerQueue Q :=
  match ItemQueue.push l.queue name entry with
  | (.ok (), queue) => (.ok (), ⟨queue, l.taken ++ [(name, entry)]⟩)
  | (.error e, queue) => (.error e, ⟨queue, l.taken⟩)

instance : ItemQueue (LedgerQueue Q) := ⟨push⟩

/-- The entries that were taken under a name. -/
def entries (l : LedgerQueue Q) (name : String) : List ByteArray :=
  (l.taken.filter fun e => e.1 = name).map Prod.snd

/-- The queue inside answers a push as it would without the ledger. -/
theorem push_queue (l : LedgerQueue Q) (name : String) (entry : ByteArray) :
    ItemQueue.push l.queue name entry
      = ((ItemQueue.push l name entry).1, (ItemQueue.push l name entry).2.queue) := by
  show _ = ((l.push name entry).1, (l.push name entry).2.queue)
  unfold push
  rcases ItemQueue.push l.queue name entry with ⟨⟨⟩ | ⟨⟩, queue⟩ <;> rfl

/-- A push that is not refused is noted. -/
theorem taken_push_ok {l l' : LedgerQueue Q} {name : String} {entry : ByteArray}
    (h : ItemQueue.push l name entry = (.ok (), l')) : l'.taken = l.taken ++ [(name, entry)] := by
  change l.push name entry = _ at h
  unfold push at h
  split at h
  · simp only [Prod.mk.injEq, true_and] at h
    rw [← h]
  · simp at h

/-- A push that is refused is not noted. -/
theorem taken_push_error {l l' : LedgerQueue Q} {name : String} {entry : ByteArray} {e : QueueError}
    (h : ItemQueue.push l name entry = (.error e, l')) : l'.taken = l.taken := by
  change l.push name entry = _ at h
  unfold push at h
  split at h
  · simp at h
  · simp only [Prod.mk.injEq] at h
    rw [← h.2]

instance : LawfulQueue (LedgerQueue Q) where
  entries := entries
  entries_push_ok {l l' name entry} other h := by
    rw [entries, entries, taken_push_ok h, List.filter_append, List.map_append]
    by_cases hother : other = name
    · simp [hother]
    · simp [hother, Ne.symm hother]
  entries_push_error {l l' name entry e} other h := by
    rw [entries, entries, taken_push_error h]

end LedgerQueue

instance : LawfulQueue MemoryQueue where
  entries := MemoryQueue.entries
  entries_push_ok {q q' name entry} other h := by
    change q.push name entry = _ at h
    rw [MemoryQueue.push_eq] at h
    split at h
    · simp at h
    · simp only [Prod.mk.injEq, true_and] at h
      rw [← h]
      by_cases hother : other = name
      · rw [hother, MemoryQueue.entries_append, MemoryQueue.entries_named, if_pos rfl]
      · rw [MemoryQueue.entries_append_of_ne _ hother, MemoryQueue.entries_named, if_neg hother,
          List.append_nil]
  entries_push_error {q q' name entry e} other h := by
    change q.push name entry = _ at h
    rw [MemoryQueue.push_eq] at h
    split at h
    · simp only [Prod.mk.injEq] at h
      rw [← h.2, MemoryQueue.entries_named]
    · simp at h

/-! ## Several entries -/

/-- A queue takes some entries under a name one after the other, and refuses none of them. -/
inductive Takes (name : String) : Q → List ByteArray → Q → Prop where
  | nil (q : Q) : Takes name q [] q
  | cons {q q' q'' : Q} {entry : ByteArray} {entries : List ByteArray}
      (push : ItemQueue.push q name entry = (.ok (), q')) (rest : Takes name q' entries q'') :
      Takes name q (entry :: entries) q''

/-- A queue that takes some entries has them at its end, and no other queue changes. -/
theorem Takes.entries_eq [LawfulQueue Q] {name : String} {q q' : Q} {entries : List ByteArray}
    (h : Takes name q entries q') (other : String) :
    LawfulQueue.entries q' other
      = LawfulQueue.entries q other ++ if other = name then entries else [] := by
  induction h with
  | nil q => simp
  | cons push rest ih =>
    rw [ih, LawfulQueue.entries_push_ok other push, List.append_assoc]
    split <;> rfl

/-- A ledger has noted all entries that its queue takes. -/
theorem Takes.taken_eq {name : String} {l l' : LedgerQueue Q} {entries : List ByteArray}
    (h : Takes name l entries l') : l'.taken = l.taken ++ entries.map (name, ·) := by
  induction h with
  | nil l => simp
  | cons push rest ih => rw [ih, LedgerQueue.taken_push_ok push, List.append_assoc]; rfl

end Intake
