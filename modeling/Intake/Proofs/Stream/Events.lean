import Intake.Proofs.Stream.Counts

/-!
# What a stream does

Of what a stream does, some can be seen from outside: the requests that it asks for, the records
that its backend leaves out or remarks on, the items that it gives, and the failure that it ends in.
`ItemStream.events` are those of one step, also over the archives that the step goes through.

They tell all that there is to know of a step: its answer and the summary after it
(`ItemStream.told_next`).
-/

namespace Intake

/-- Something that a stream does. -/
inductive StreamEvent where
  | asked (request : Request)
  | skipped
  | remarked (value : Json)
  | gave (item : Item)
  | failed (error : BackendError)

namespace StreamEvent

/-- The answer that an event is, if it is one. -/
def answer? : StreamEvent → Option (Except BackendError Item)
  | .gave item => some (.ok item)
  | .failed e => some (.error e)
  | _ => none

/-- The request that an event asks for, if any. -/
def request? : StreamEvent → Option Request
  | .asked request => some request
  | _ => none

/-- Whether a record was left out. -/
def isSkip : StreamEvent → Bool
  | .skipped => true
  | _ => false

end StreamEvent

/-- The summary after something was done. -/
def FetchSummary.observe (s : FetchSummary) : StreamEvent → FetchSummary
  | .asked _ | .failed _ => s
  | .skipped => s.skip
  | .remarked value => s.setExtras value
  | .gave item => s.update item

/-- What a stream has to tell of a step: the summary before it, its events, and what it answers and
leaves. -/
structure Told (before : FetchSummary) (events : List StreamEvent)
    (answer : Option (Except BackendError Item)) (after : FetchSummary) : Prop where
  answer : events.filterMap StreamEvent.answer? = answer.toList
  summary : after = events.foldl FetchSummary.observe before

/-! ## Fetches -/

namespace Fetch

/-- What a fetch does up to its next item or its end. -/
def events : Fetch → FetchProgress → List StreamEvent
  | .ask request next, p =>
    let (response, source, workspace) := p.source.fetch request p.workspace
    .asked request :: (next response).events { p with source, workspace }
  | .skip next, p => .skipped :: next.events { p with summary := p.summary.skip }
  | .remark value next, p =>
    .remarked value :: next.events { p with summary := p.summary.setExtras value }
  | .replaying next, p => (next p.source.isReplay).events p
  | .now next, p =>
    let (time, supply) := p.workspace.supply.now
    (next time).events { p with workspace := { p.workspace with supply } }
  | .give item _, _ => [.gave item]
  | .done, _ => []
  | .fail e, _ => [.failed e]

/-- The answer of a stream whose fetch stops like this, if it is answered there. -/
def answered : FetchStop → Option (Except BackendError Item)
  | .item item _ => some (.ok item)
  | .ended => none
  | .failed e => some (.error e)

/-- The summary of a stream whose fetch stops like this. -/
def counted (summary : FetchSummary) : FetchStop → FetchSummary
  | .item item _ => summary.update item
  | _ => summary

/-- The events of a fetch tell where it stops and what its summary is then. -/
theorem told_advance (f : Fetch) (p : FetchProgress) :
    Told p.summary (f.events p) (answered (f.advance p).1)
      (counted (f.advance p).2.summary (f.advance p).1) := by
  induction f generalizing p with
  | ask request next ih =>
    obtain ⟨hanswer, hsummary⟩ := ih _
      ⟨(p.source.fetch request p.workspace).2.1, p.summary,
        (p.source.fetch request p.workspace).2.2⟩
    exact ⟨hanswer, hsummary⟩
  | skip next ih =>
    obtain ⟨hanswer, hsummary⟩ := ih { p with summary := p.summary.skip }
    exact ⟨hanswer, hsummary⟩
  | remark value next ih =>
    obtain ⟨hanswer, hsummary⟩ := ih { p with summary := p.summary.setExtras value }
    exact ⟨hanswer, hsummary⟩
  | replaying next ih => exact ih _ p
  | now next ih =>
    exact ih _ { p with workspace := { p.workspace with supply := p.workspace.supply.now.2 } }
  | give item rest => exact ⟨rfl, rfl⟩
  | done => exact ⟨rfl, rfl⟩
  | fail e => exact ⟨rfl, rfl⟩

end Fetch

/-! ## Streams -/

namespace ItemStream

/-- The events of a step of a stream with a fetch; `onEnd` are those after the fetch has ended. -/
def proceedEvents (s : ItemStream) (a : ActiveFetch) (w : Workspace)
    (onEnd : ItemStream → Workspace → List StreamEvent) : List StreamEvent :=
  a.fetch.events ⟨a.source, s.seen, w⟩ ++
    match a.fetch.advance ⟨a.source, s.seen, w⟩ with
    | (.ended, p) => onEnd { s with active := none, seen := p.summary } p.workspace
    | _ => []

/-- The events of a step that goes on with the archives still to be replayed. -/
def archivedEvents : List ArchiveMetadata → ItemStream → Workspace → List StreamEvent
  | [], _, _ => []
  | m :: rest, s, w =>
    match s.activate m with
    | .error e => [.failed e]
    | .ok a => proceedEvents { s with pending := rest } a w (archivedEvents rest)

/-- What a stream does in one step. -/
def events (s : ItemStream) (w : Workspace) : List StreamEvent :=
  match s.state with
  | .streaming =>
    match s.active with
    | some a => s.proceedEvents a w (archivedEvents s.pending)
    | none => archivedEvents s.pending s w
  | _ => []

theorem told_proceed (s : ItemStream) (a : ActiveFetch) (w : Workspace)
    {onEnd : ItemStream → Workspace → Next} {endEvents : ItemStream → Workspace → List StreamEvent}
    (hend : ∀ t v, Told t.seen (endEvents t v) (onEnd t v).1 (onEnd t v).2.1.seen) :
    Told s.seen (s.proceedEvents a w endEvents) (s.proceed a w onEnd).1
      (s.proceed a w onEnd).2.1.seen := by
  obtain ⟨hanswer, hsummary⟩ := a.fetch.told_advance ⟨a.source, s.seen, w⟩
  unfold proceedEvents proceed
  rcases h : a.fetch.advance ⟨a.source, s.seen, w⟩ with ⟨stop, p⟩
  rw [h] at hanswer hsummary
  cases stop with
  | item item rest =>
    dsimp only
    rw [List.append_nil]
    exact ⟨hanswer, hsummary⟩
  | ended =>
    obtain ⟨hrest, hafter⟩ := hend { s with active := none, seen := p.summary } p.workspace
    dsimp only
    refine ⟨?_, ?_⟩
    · rw [List.filterMap_append, hanswer]
      exact hrest
    · rw [List.foldl_append, ← hsummary]
      exact hafter
  | failed e =>
    dsimp only
    rw [List.append_nil]
    exact ⟨hanswer, hsummary⟩

theorem told_nextArchived (pending : List ArchiveMetadata) (s : ItemStream) (w : Workspace) :
    Told s.seen (archivedEvents pending s w) (nextArchived pending s w).1
      (nextArchived pending s w).2.1.seen := by
  induction pending generalizing s w with
  | nil => exact ⟨rfl, rfl⟩
  | cons m rest ih =>
    rw [archivedEvents, nextArchived]
    cases s.activate m with
    | error e => exact ⟨rfl, rfl⟩
    | ok a => exact told_proceed { s with pending := rest } a w ih

/-- The events of a step tell its answer and the summary after it. -/
theorem told_next (s : ItemStream) (w : Workspace) :
    Told s.seen (s.events w) (s.next w).1 (s.next w).2.1.seen := by
  unfold events next
  cases s.state with
  | streaming =>
    cases s.active with
    | some a => exact s.told_proceed a w (told_nextArchived s.pending)
    | none => exact told_nextArchived s.pending s w
  | exhausted => exact ⟨rfl, rfl⟩
  | failed => exact ⟨rfl, rfl⟩

/-! ## Several steps -/

/-- The answers of the first steps of a stream. -/
def answers (s : ItemStream) (w : Workspace) : Nat → List (Option (Except BackendError Item))
  | 0 => []
  | n + 1 => (s.next w).1 :: (s.next w).2.1.answers (s.next w).2.2 n

/-- What a stream does in its first steps. -/
def eventsIn (s : ItemStream) (w : Workspace) : Nat → List StreamEvent
  | 0 => []
  | n + 1 => s.events w ++ (s.next w).2.1.eventsIn (s.next w).2.2 n

/-- The summary after some steps tells of all that was done in them. -/
theorem seen_afterSteps (s : ItemStream) (w : Workspace) (n : Nat) :
    (s.afterSteps w n).1.seen = (s.eventsIn w n).foldl FetchSummary.observe s.seen := by
  induction n generalizing s w with
  | zero => rfl
  | succ n ih => rw [afterSteps, eventsIn, ih, List.foldl_append, ← (s.told_next w).summary]

theorem afterSteps_add (s : ItemStream) (w : Workspace) (n m : Nat) :
    s.afterSteps w (n + m) = (s.afterSteps w n).1.afterSteps (s.afterSteps w n).2 m := by
  induction n generalizing s w with
  | zero => rw [Nat.zero_add, afterSteps]
  | succ n ih => rw [Nat.succ_add, afterSteps, afterSteps, ih]

theorem answers_add (s : ItemStream) (w : Workspace) (n m : Nat) :
    s.answers w (n + m)
      = s.answers w n ++ (s.afterSteps w n).1.answers (s.afterSteps w n).2 m := by
  induction n generalizing s w with
  | zero => rw [Nat.zero_add, afterSteps, answers, List.nil_append]
  | succ n ih => rw [Nat.succ_add, answers, answers, afterSteps, ih, List.cons_append]

theorem eventsIn_add (s : ItemStream) (w : Workspace) (n m : Nat) :
    s.eventsIn w (n + m)
      = s.eventsIn w n ++ (s.afterSteps w n).1.eventsIn (s.afterSteps w n).2 m := by
  induction n generalizing s w with
  | zero => rw [Nat.zero_add, afterSteps, eventsIn, List.nil_append]
  | succ n ih => rw [Nat.succ_add, eventsIn, eventsIn, afterSteps, ih, List.append_assoc]

end ItemStream

end Intake
