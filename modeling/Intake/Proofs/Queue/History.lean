import Intake.Queue

/-!
# Histories of queues in memory

Producers and consumers share the queues in memory. Each call is done as a whole before the next
one, so whatever they do together is a row of calls, each with the actor who makes it, and what
comes of it is the row of their answers (`MemoryQueue.events`).

What was taken from a queue and what it holds still is what was accepted, in this order
(`MemoryQueue.popped_append_entries`). A call is answered from the entries of the queue that it
names and from the bound, and it changes no other queue: so queues that agree on some names answer
the calls on these names alike (`MemoryQueue.SameFor.events`), whether a refused push has left an
empty queue behind or calls on other names came between.
-/

namespace Intake

/-- A call of queues in memory. -/
inductive QueueCall where
  | push (name : String) (entry : ByteArray)
  | pop (name : String)
  | entries (name : String)
  | length (name : String)
  | isEmpty (name : String)
  | items (name : String)

/-- What a call is answered. -/
inductive QueueAnswer where
  | pushed (result : Except QueueError Unit)
  | popped (entry : Option ByteArray)
  | entries (entries : List ByteArray)
  | length (length : Nat)
  | isEmpty (empty : Bool)
  | items (items : Except QueueError (List Item))

/-- A call, who made it, and how it was answered. -/
structure QueueEvent (A : Type) where
  actor : A
  call : QueueCall
  answer : QueueAnswer

/-- The name of the queue that is called. -/
def QueueCall.name : QueueCall → String
  | .push name _ | .pop name | .entries name | .length name | .isEmpty name | .items name => name

namespace QueueEvent

variable {A : Type}

/-- The entry that a queue has accepted, and its producer. -/
def accepted? (name : String) (e : QueueEvent A) : Option (A × ByteArray) :=
  match e.call, e.answer with
  | .push other entry, .pushed (.ok ()) => if other = name then some (e.actor, entry) else none
  | _, _ => none

/-- The entry that was taken from a queue. -/
def popped? (name : String) (e : QueueEvent A) : Option ByteArray :=
  match e.call, e.answer with
  | .pop other, .popped entry => if other = name then entry else none
  | _, _ => none

end QueueEvent

namespace MemoryQueue

variable {A : Type}

/-! ## Calls -/

/-- Does a call. -/
def perform (q : MemoryQueue) : QueueCall → QueueAnswer × MemoryQueue
  | .push name entry =>
    let (result, q) := q.push name entry
    (.pushed result, q)
  | .pop name =>
    let (entry, q) := q.pop name
    (.popped entry, q)
  | .entries name => (.entries (q.entries name), q)
  | .length name => (.length (q.length name), q)
  | .isEmpty name => (.isEmpty (q.isEmpty name), q)
  | .items name => (.items (q.items name), q)

/-- The queues after some calls, one after the other. -/
def after (q : MemoryQueue) : List (A × QueueCall) → MemoryQueue
  | [] => q
  | c :: calls => (q.perform c.2).2.after calls

/-- What comes of some calls, one after the other. -/
def events (q : MemoryQueue) : List (A × QueueCall) → List (QueueEvent A)
  | [] => []
  | c :: calls => ⟨c.1, c.2, (q.perform c.2).1⟩ :: (q.perform c.2).2.events calls

theorem events_append (q : MemoryQueue) (calls more : List (A × QueueCall)) :
    q.events (calls ++ more) = q.events calls ++ (q.after calls).events more := by
  induction calls generalizing q with
  | nil => rfl
  | cons c calls ih => rw [List.cons_append, events, events, after, ih, List.cons_append]

/-! ## One queue -/

theorem capacity_perform (q : MemoryQueue) (c : QueueCall) :
    (q.perform c).2.capacity = q.capacity := by
  cases c with
  | push name entry =>
    show (q.push name entry).2.capacity = q.capacity
    rw [push_eq]
    split <;> rfl
  | pop name =>
    show (q.pop name).2.capacity = q.capacity
    unfold pop
    split <;> rfl
  | entries name => rfl
  | length name => rfl
  | isEmpty name => rfl
  | items name => rfl

theorem capacity_after (q : MemoryQueue) (calls : List (A × QueueCall)) :
    (q.after calls).capacity = q.capacity := by
  induction calls generalizing q with
  | nil => rfl
  | cons c calls ih => rw [after, ih, capacity_perform]

/-- A call on one name leaves the queues under other names. -/
theorem entries_perform_of_ne (q : MemoryQueue) {c : QueueCall} {other : String}
    (h : other ≠ c.name) : (q.perform c).2.entries other = q.entries other := by
  cases c with
  | push name entry =>
    show (q.push name entry).2.entries other = q.entries other
    rw [push_eq]
    split
    · exact q.entries_named name other
    · exact ((q.named name).entries_append_of_ne h entry).trans (q.entries_named name other)
  | pop name => exact q.entries_pop_of_ne h
  | entries name => rfl
  | length name => rfl
  | isEmpty name => rfl
  | items name => rfl

theorem perform_push_of_full {q : MemoryQueue} {name : String} (h : q.isFull name = true)
    (entry : ByteArray) : q.perform (.push name entry)
      = (.pushed (.error (q.fullError name)), q.named name) := by
  rw [perform, push_eq, if_pos h]

theorem perform_push_of_not_full {q : MemoryQueue} {name : String} (h : ¬q.isFull name = true)
    (entry : ByteArray) : q.perform (.push name entry)
      = (.pushed (.ok ()), (q.named name).append name entry) := by
  rw [perform, push_eq, if_neg h]

/-- A call on one name takes nothing from the queues under other names and puts nothing in. -/
theorem answered_of_ne {c : QueueCall} {name : String} (h : c.name ≠ name) (actor : A)
    (answer : QueueAnswer) : QueueEvent.popped? name ⟨actor, c, answer⟩ = none
      ∧ QueueEvent.accepted? name ⟨actor, c, answer⟩ = none := by
  have hname : ∀ call, c = call → call.name ≠ name := fun call hcall => hcall ▸ h
  unfold QueueEvent.popped? QueueEvent.accepted?
  constructor
  · split
    · rename_i other entry hcall _
      exact if_neg (hname _ hcall)
    · rfl
  · split
    · rename_i other entry hcall _
      exact if_neg (hname _ hcall)
    · rfl

/-- What one call takes from a queue and what it leaves is what was there and what it puts in. -/
theorem popped_append_entries_perform (q : MemoryQueue) (actor : A) (c : QueueCall)
    (name : String) :
    (QueueEvent.popped? name ⟨actor, c, (q.perform c).1⟩).toList ++ (q.perform c).2.entries name
      = q.entries name
        ++ (QueueEvent.accepted? name ⟨actor, c, (q.perform c).1⟩).toList.map Prod.snd := by
  by_cases hname : c.name = name
  · subst hname
    cases c with
    | push name entry =>
      by_cases hfull : q.isFull name = true
      · rw [perform_push_of_full hfull]
        show [] ++ (q.named name).entries name = q.entries name ++ []
        rw [entries_named, List.nil_append, List.append_nil]
      · have haccepted : QueueEvent.accepted? name ⟨actor, .push name entry, .pushed (.ok ())⟩
            = some (actor, entry) := if_pos rfl
        rw [perform_push_of_not_full hfull]
        show [] ++ ((q.named name).append name entry).entries name
          = q.entries name ++ (QueueEvent.accepted? name _).toList.map Prod.snd
        rw [haccepted, entries_append, entries_named]
        rfl
    | pop name =>
      have hpopped : QueueEvent.popped? name ⟨actor, .pop name, (q.perform (.pop name)).1⟩
          = (q.pop name).1 := if_pos rfl
      show (QueueEvent.popped? name _).toList ++ (q.pop name).2.entries name = q.entries name ++ []
      rw [hpopped, entries_pop, List.append_nil]
    | entries name => exact (List.append_nil _).symm
    | length name => exact (List.append_nil _).symm
    | isEmpty name => exact (List.append_nil _).symm
    | items name => exact (List.append_nil _).symm
  · obtain ⟨hpopped, haccepted⟩ := answered_of_ne hname actor (q.perform c).1
    rw [hpopped, haccepted, q.entries_perform_of_ne (Ne.symm hname)]
    exact (List.append_nil _).symm

/-- What was taken from a queue and what it holds still is what it held and what it has accepted
since. -/
theorem popped_append_entries (q : MemoryQueue) (calls : List (A × QueueCall)) (name : String) :
    (q.events calls).filterMap (QueueEvent.popped? name) ++ (q.after calls).entries name
      = q.entries name
        ++ ((q.events calls).filterMap (QueueEvent.accepted? name)).map Prod.snd := by
  have hcons : ∀ {β : Type} (f : QueueEvent A → Option β) (e : QueueEvent A)
      (es : List (QueueEvent A)), (e :: es).filterMap f = (f e).toList ++ es.filterMap f := by
    intro β f e es
    rw [List.filterMap_cons]
    cases f e <;> rfl
  induction calls generalizing q with
  | nil => exact (List.append_nil _).symm
  | cons c calls ih =>
    have hstep := q.popped_append_entries_perform c.1 c.2 name
    rw [events, after, hcons, hcons, List.append_assoc, ih, ← List.append_assoc, hstep,
      List.map_append, List.append_assoc]

/-! ## Queues that agree on some names -/

/-- Queues with one bound that hold the same under some names. -/
structure SameFor (names : String → Bool) (q q' : MemoryQueue) : Prop where
  capacity : q.capacity = q'.capacity
  entries : ∀ name, names name = true → q.entries name = q'.entries name

namespace SameFor

variable {names : String → Bool} {q q' : MemoryQueue}

theorem push_eq (h : SameFor names q q') {name : String} (hname : names name = true)
    (entry : ByteArray) : (q.push name entry).1 = (q'.push name entry).1
      ∧ (q.push name entry).2.entries name = (q'.push name entry).2.entries name := by
  have hfull : q.isFull name = q'.isFull name := by
    rw [isFull, isFull, length, length, h.capacity, h.entries name hname]
  have herror : q.fullError name = q'.fullError name := by
    rw [fullError, fullError, h.capacity]
  rw [MemoryQueue.push_eq, MemoryQueue.push_eq, hfull, herror]
  split
  · exact ⟨rfl, by rw [entries_named, entries_named, h.entries name hname]⟩
  · refine ⟨rfl, ?_⟩
    rw [entries_append, entries_append, entries_named, entries_named, h.entries name hname]

theorem pop_eq (h : SameFor names q q') {name : String} (hname : names name = true) :
    (q.pop name).1 = (q'.pop name).1
      ∧ (q.pop name).2.entries name = (q'.pop name).2.entries name := by
  have hentries := h.entries name hname
  unfold pop
  rw [hentries]
  cases hheld : q'.entries name with
  | nil => exact ⟨rfl, hentries⟩
  | cons entry rest => exact ⟨rfl, by rw [entries_replace, entries_replace]⟩

/-- A call on one of the names is answered alike, and the queues agree after it. -/
theorem perform (h : SameFor names q q') {c : QueueCall} (hname : names c.name = true) :
    (q.perform c).1 = (q'.perform c).1 ∧ SameFor names (q.perform c).2 (q'.perform c).2 := by
  -- the other names are left alone by the call
  have hsame : (q.perform c).2.entries c.name = (q'.perform c).2.entries c.name →
      SameFor names (q.perform c).2 (q'.perform c).2 := by
    intro hentries
    refine ⟨by rw [capacity_perform, capacity_perform, h.capacity], fun other hother => ?_⟩
    by_cases hne : other = c.name
    · rw [hne, hentries]
    · rw [entries_perform_of_ne q hne, entries_perform_of_ne q' hne, h.entries other hother]
  cases c with
  | push name entry =>
    obtain ⟨hanswer, hentries⟩ := h.push_eq hname entry
    exact ⟨congrArg QueueAnswer.pushed hanswer, hsame hentries⟩
  | pop name =>
    obtain ⟨hanswer, hentries⟩ := h.pop_eq hname
    exact ⟨congrArg QueueAnswer.popped hanswer, hsame hentries⟩
  | entries name => exact ⟨congrArg QueueAnswer.entries (h.entries name hname), h⟩
  | length name =>
    exact ⟨congrArg (fun es : List ByteArray => QueueAnswer.length es.length)
      (h.entries name hname), h⟩
  | isEmpty name =>
    exact ⟨congrArg (fun es : List ByteArray => QueueAnswer.isEmpty es.isEmpty)
      (h.entries name hname), h⟩
  | items name =>
    exact ⟨congrArg (fun es : List ByteArray => QueueAnswer.items (es.mapM Item.ofBytes))
      (h.entries name hname), h⟩

/-- A call on another name makes no difference. -/
theorem perform_other (h : SameFor names q q') {c : QueueCall} (hname : names c.name = false) :
    SameFor names (q.perform c).2 q' := by
  refine ⟨(q.capacity_perform c).trans h.capacity, fun other hother => ?_⟩
  have hne : other ≠ c.name := by
    rintro rfl
    rw [hname] at hother
    cases hother
  rw [entries_perform_of_ne q hne, h.entries other hother]

/-- What comes of the calls on some names is what would come of them alone, in queues that agree on
these names. -/
theorem events (h : SameFor names q q') (calls : List (A × QueueCall)) :
    (q.events calls).filter (fun e => names e.call.name)
      = q'.events (calls.filter fun c => names c.2.name) := by
  induction calls generalizing q q' with
  | nil => rfl
  | cons c calls ih =>
    rw [MemoryQueue.events, List.filter_cons, List.filter_cons]
    dsimp only
    cases hname : names c.2.name with
    | true =>
      obtain ⟨hanswer, hafter⟩ := h.perform hname
      rw [if_pos rfl, if_pos rfl, MemoryQueue.events, hanswer, ih hafter]
    | false => exact ih (h.perform_other hname)

end SameFor

theorem isFull_iff {q : MemoryQueue} {name : String} : q.isFull name = true
    ↔ ∃ bound, q.capacity = some bound ∧ bound ≤ (q.entries name).length := by
  rw [isFull, length]
  cases q.capacity with
  | none => simp
  | some bound => simp

/-- A push is refused if and only if the queue is full, and the answer says so. -/
theorem push_eq_error_iff {q : MemoryQueue} {name : String} {entry : ByteArray} {e : QueueError} :
    (q.push name entry).1 = .error e ↔ ∃ bound, q.capacity = some bound
      ∧ bound ≤ (q.entries name).length
      ∧ e = .command s!"queue '{name}' is full ({bound} entries)" := by
  rw [push_eq]
  constructor
  · intro h
    split at h
    · rename_i hfull
      obtain ⟨bound, hbound, hle⟩ := isFull_iff.mp hfull
      refine ⟨bound, hbound, hle, ?_⟩
      rw [← Except.error.inj h, fullError, hbound]
      rfl
    · cases h
  · rintro ⟨bound, hbound, hle, rfl⟩
    rw [if_pos (isFull_iff.mpr ⟨bound, hbound, hle⟩), fullError, hbound]
    rfl

/-- A refused push is seen by no later call. -/
theorem events_of_refused {q : MemoryQueue} {name : String} {entry : ByteArray} {e : QueueError}
    (h : (q.push name entry).1 = .error e) (calls : List (A × QueueCall)) :
    (q.push name entry).2.events calls = q.events calls := by
  obtain ⟨bound, hbound, hle, -⟩ := push_eq_error_iff.mp h
  have hsame : SameFor (fun _ => true) (q.named name) q := ⟨rfl, fun other _ => q.entries_named ..⟩
  have hall : ∀ {β : Type} (l : List β), l.filter (fun _ => true) = l := fun l =>
    List.filter_eq_self.mpr fun _ _ => rfl
  have hevents := hsame.events calls
  rw [hall, hall] at hevents
  rw [push_eq, if_pos (isFull_iff.mpr ⟨bound, hbound, hle⟩)]
  exact hevents

/-! ## Any number of actors -/

/-- The accepted entries of one producer are those of its own pushes, in its own order. -/
theorem filter_accepted [DecidableEq A] (events : List (QueueEvent A)) (name : String) (a : A) :
    (events.filterMap (QueueEvent.accepted? name)).filter (fun p => p.1 = a)
      = (events.filter fun e => e.actor = a).filterMap (QueueEvent.accepted? name) := by
  have hactor : ∀ (e : QueueEvent A) (p : A × ByteArray), e.accepted? name = some p →
      p.1 = e.actor := by
    intro e p h
    unfold QueueEvent.accepted? at h
    split at h
    · split at h
      · rw [← Option.some.inj h]
      · cases h
    · cases h
  induction events with
  | nil => rfl
  | cons e events ih =>
    rw [List.filterMap_cons, List.filter_cons]
    cases haccepted : e.accepted? name with
    | none =>
      dsimp only
      split
      · rw [List.filterMap_cons_none haccepted, ih]
      · exact ih
    | some p =>
      dsimp only
      rw [List.filter_cons, hactor e p haccepted]
      split
      · rw [List.filterMap_cons_some haccepted, ih]
      · exact ih

/-- The queues of any bound under any calls of any actors. Under every name, what was taken so far
and what is there still is what was accepted, in the order of acceptance, and of each producer in
the order of its own pushes. A push is refused if and only if there is a bound and the queue holds
that much; no later call of any kind is answered otherwise for a refused push. A call changes no
queue but the one that it names, and the calls on one name are answered as they would be without all
others. -/
theorem first_in_first_out [DecidableEq A] (capacity : Option Nat) (calls : List (A × QueueCall))
    (name : String) :
    let new : MemoryQueue := { capacity }
    let past := new.events calls
    let now := new.after calls
    past.filterMap (QueueEvent.popped? name) ++ now.entries name
        = (past.filterMap (QueueEvent.accepted? name)).map Prod.snd
      ∧ (∀ a, (past.filterMap (QueueEvent.accepted? name)).filter (fun p => p.1 = a)
        = (past.filter fun e => e.actor = a).filterMap (QueueEvent.accepted? name))
      ∧ (∀ entry e, (now.push name entry).1 = .error e ↔ ∃ bound, capacity = some bound
        ∧ bound ≤ (now.entries name).length
        ∧ e = .command s!"queue '{name}' is full ({bound} entries)")
      ∧ (∀ a entry e more, (now.push name entry).1 = .error e →
        new.events (calls ++ (a, .push name entry) :: more)
          = past ++ ⟨a, .push name entry, .pushed (.error e)⟩ :: now.events more)
      ∧ (∀ call : QueueCall, call.name ≠ name →
        (now.perform call).2.entries name = now.entries name)
      ∧ past.filter (fun e => e.call.name = name)
        = new.events (calls.filter fun c => c.2.name = name) := by
  intro new past now
  have hcapacity : now.capacity = capacity := new.capacity_after calls
  refine ⟨new.popped_append_entries calls name, filter_accepted past name, fun entry e => ?_,
    fun a entry e more hrefused => ?_, fun call hne => now.entries_perform_of_ne (Ne.symm hne), ?_⟩
  · rw [push_eq_error_iff, hcapacity]
  · have hanswer : (now.perform (.push name entry)).1 = .pushed (.error e) :=
      congrArg QueueAnswer.pushed hrefused
    have hmore : (now.perform (.push name entry)).2.events more = now.events more :=
      events_of_refused hrefused more
    rw [events_append, events, hanswer, hmore]
  · have hsame : SameFor (fun other => other = name) new new := ⟨rfl, fun _ _ => rfl⟩
    exact hsame.events calls

/-- A queue with room for one entry refuses the second producer until a consumer has come by. -/
theorem first_in_first_out_room_for_one :
    let new : MemoryQueue := { capacity := some 1 }
    let entry := "a".toUTF8
    let full : List (Nat × QueueCall) := [(0, .push "q" entry)]
    let more : List (Nat × QueueCall) := [(2, .pop "q"), (1, .push "q" entry)]
    let refused : QueueError := .command "queue 'q' is full (1 entries)"
    ((new.after full).push "q" entry).1 = .error refused
      ∧ new.events (full ++ (1, .push "q" entry) :: more)
        = new.events full ++ ⟨1, .push "q" entry, .pushed (.error refused)⟩
          :: (new.after full).events more
      ∧ ((new.after full).events more).filterMap (QueueEvent.accepted? "q") = [(1, entry)] := by
  intro new entry full more refused
  obtain ⟨-, -, hrefused, hunseen, -⟩ := first_in_first_out (some 1) full "q"
  have hfull : ((new.after full).push "q" entry).1 = .error refused :=
    (hrefused entry refused).mpr ⟨1, rfl, Nat.le_refl 1, rfl⟩
  exact ⟨hfull, hunseen 1 entry refused more hfull, rfl⟩

end MemoryQueue

end Intake
