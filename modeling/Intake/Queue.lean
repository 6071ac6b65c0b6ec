import Intake.Item
import Intake.Keyed

/-!
# Queues of items

Jobs put items at the end of named queues; whoever consumes them takes them from the front. A job
may only append, which is all that `ItemQueue` says.

`MemoryQueue` keeps its queues in memory and may bound their length. What a queue holds is
`entries`: `entries_append` and `entries_pop` say what happens to the queue that is named, and
their `_of_ne` forms that no other one changes.
-/

namespace Intake

/-- Named queues that entries can be appended to. -/
class ItemQueue (Q : Type) where
  /-- Appends an entry to the queue with a name. -/
  push : Q → String → ByteArray → Except QueueError Unit × Q

/-- Queues in memory. -/
structure MemoryQueue where
  queues : Keyed (List ByteArray) := .empty
  /-- How many entries a queue can hold, if there is a bound. -/
  capacity : Option Nat := none

namespace MemoryQueue

/-- The entries of a queue from the front to the end. -/
def entries (q : MemoryQueue) (name : String) : List ByteArray := (q.queues.get? name).getD []

/-- How many entries a queue holds. -/
def length (q : MemoryQueue) (name : String) : Nat := (q.entries name).length

/-- Whether a queue holds no entry. -/
def isEmpty (q : MemoryQueue) (name : String) : Bool := (q.entries name).isEmpty

/-- The items of a queue from the front to the end. -/
def items (q : MemoryQueue) (name : String) : Except QueueError (List Item) :=
  (q.entries name).mapM Item.ofBytes

/-- The queues with other entries in one of them. -/
def replace (q : MemoryQueue) (name : String) (entries : List ByteArray) : MemoryQueue :=
  { q with queues := q.queues.insert name entries }

/-- Appends an entry, whatever the bound is. -/
def append (q : MemoryQueue) (name : String) (entry : ByteArray) : MemoryQueue :=
  q.replace name (q.entries name ++ [entry])

/-- Whether a queue can hold no more. -/
def isFull (q : MemoryQueue) (name : String) : Bool := q.capacity.any (· ≤ q.length name)

/-- Why a full queue refuses an entry. -/
def fullError (q : MemoryQueue) (name : String) : QueueError :=
  .command s!"queue '{name}' is full ({q.capacity.getD 0} entries)"

/-- The queues with one that has this name, which holds nothing if there was none. -/
def named (q : MemoryQueue) (name : String) : MemoryQueue := q.replace name (q.entries name)

/-- Appends an entry to a queue that is not full. A queue comes into being when it is first pushed
to, also if it refuses the entry. -/
def push (q : MemoryQueue) (name : String) (entry : ByteArray) :
    Except QueueError Unit × MemoryQueue :=
  let q := q.named name
  if q.isFull name then (.error (q.fullError name), q) else (.ok (), q.append name entry)

/-- Takes the entry at the front of a queue. -/
def pop (q : MemoryQueue) (name : String) : Option ByteArray × MemoryQueue :=
  match q.entries name with
  | [] => (none, q)
  | entry :: rest => (some entry, q.replace name rest)

instance : ItemQueue MemoryQueue := ⟨push⟩

/-! ## What the queues hold -/

@[simp]
theorem entries_replace (q : MemoryQueue) (name : String) (entries : List ByteArray) :
    (q.replace name entries).entries name = entries := by
  simp [replace, MemoryQueue.entries]

theorem entries_replace_of_ne (q : MemoryQueue) {name other : String} (h : other ≠ name)
    (entries : List ByteArray) : (q.replace name entries).entries other = q.entries other := by
  simp [replace, MemoryQueue.entries, Keyed.get?_insert, h]

@[simp]
theorem entries_named (q : MemoryQueue) (name other : String) :
    (q.named name).entries other = q.entries other := by
  by_cases h : other = name
  · rw [h, named, entries_replace]
  · exact q.entries_replace_of_ne h _

@[simp]
theorem entries_append (q : MemoryQueue) (name : String) (entry : ByteArray) :
    (q.append name entry).entries name = q.entries name ++ [entry] := by
  simp [append]

theorem entries_append_of_ne (q : MemoryQueue) {name other : String} (h : other ≠ name)
    (entry : ByteArray) : (q.append name entry).entries other = q.entries other :=
  q.entries_replace_of_ne h _

/-- A push to a full queue is refused, and any other one appends its entry. -/
theorem push_eq (q : MemoryQueue) (name : String) (entry : ByteArray) : q.push name entry
    = if q.isFull name then (.error (q.fullError name), q.named name)
      else (.ok (), (q.named name).append name entry) := by
  have hfull : (q.named name).isFull name = q.isFull name := by
    rw [isFull, isFull, length, length, entries_named]
    rfl
  rw [push, hfull]
  rfl

theorem entries_pop (q : MemoryQueue) (name : String) :
    (q.pop name).1.toList ++ (q.pop name).2.entries name = q.entries name := by
  unfold pop
  split <;> simp_all

theorem entries_pop_of_ne (q : MemoryQueue) {name other : String} (h : other ≠ name) :
    (q.pop name).2.entries other = q.entries other := by
  unfold pop
  split
  · rfl
  · exact q.entries_replace_of_ne h _

end MemoryQueue

end Intake
