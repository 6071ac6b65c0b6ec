import Intake.Source
import Intake.Summary

/-!
# Streams of items

A stream runs a backend and gives one item at a time. It fetches live, and then perhaps records
into a new archive, or it replays archives one after the other, each by the backend as it was set
up when the archive was made. A summary is kept of all that was seen.

A stream is used up by going through it: after a failure or at its end it gives nothing any more.
`ItemStream.next` always answers, and what is left of a stream grows less with every item
(`lt_of_next_eq_item`), so a loop over a stream ends as well.
-/

namespace Intake

/-! ## Running a fetch -/

/-- What a fetch works on: where its responses come from, what was seen so far, and the archives,
the clock and fresh identifiers. -/
structure FetchProgress where
  source : ResponseSource
  summary : FetchSummary
  workspace : Workspace

/-- Where a fetch stops to be looked at. -/
inductive FetchStop where
  /-- An item, and the fetch after it. -/
  | item (item : Item) (rest : Fetch)
  | ended
  | failed (error : BackendError)

namespace Fetch

/-- Runs a fetch up to its next item or its end. -/
def advance : Fetch → FetchProgress → FetchStop × FetchProgress
  | .ask request next, p =>
    let (response, source, workspace) := p.source.fetch request p.workspace
    (next response).advance { p with source, workspace }
  | .skip next, p => next.advance { p with summary := p.summary.skip }
  | .remark value next, p => next.advance { p with summary := p.summary.setExtras value }
  | .replaying next, p => (next p.source.isReplay).advance p
  | .now next, p =>
    let (time, supply) := p.workspace.supply.now
    (next time).advance { p with workspace := { p.workspace with supply } }
  | .give item rest, p => (.item item rest, p)
  | .done, p => (.ended, p)
  | .fail e, p => (.failed e, p)

/-- The fetch after an item is left of the fetch before it. -/
theorem below_of_advance {f rest : Fetch} {p q : FetchProgress} {item : Item}
    (h : f.advance p = (.item item rest, q)) : Below rest f := by
  induction f generalizing p with
  | ask request next ih => exact (ih _ h).trans (.single (.ask request next _))
  | skip next ih => exact (ih h).trans (.single (.skip next))
  | remark value next ih => exact (ih h).trans (.single (.remark value next))
  | replaying next ih => exact (ih _ h).trans (.single (.replaying next _))
  | now next ih => exact (ih _ h).trans (.single (.now next _))
  | give item' next =>
    simp only [advance, Prod.mk.injEq, FetchStop.item.injEq] at h
    obtain ⟨⟨rfl, rfl⟩, rfl⟩ := h
    exact .single (.give item' next)
  | done => simp [advance] at h
  | fail e => simp [advance] at h

instance : WellFoundedRelation Fetch := ⟨Below, below_wf⟩

end Fetch

/-! ## Streams -/

/-- Whether a stream can still give items, and if not, why. -/
inductive StreamState where
  | streaming
  | exhausted
  | failed
deriving DecidableEq

/-- A fetch that was begun, with the source of its responses. -/
structure ActiveFetch where
  fetch : Fetch
  source : ResponseSource

/-- How a stream comes by its items. -/
structure StreamOptions where
  archive : Option ArchiveManager := none
  /-- Whether archives are replayed and the data source is left alone. -/
  fromArchive : Bool := false
  /-- Replay only archives made at this instant or later. -/
  archivedAfter : Option Instant := none
deriving DecidableEq

/-- A stream of items. -/
structure ItemStream where
  backend : Backend
  category : String
  archive : Option ArchiveManager := none
  /-- The fetch that gives the next items; there is none between two archives. -/
  active : Option ActiveFetch := none
  /-- The archives still to be replayed, in their order. -/
  pending : List ArchiveMetadata := []
  /-- What was seen so far. -/
  seen : FetchSummary := {}
  state : StreamState := .streaming

namespace ItemStream

/-- Whether all items were given. -/
def isExhausted (s : ItemStream) : Bool := s.state == .exhausted

/-- What was seen, once anything was seen or the stream is at its end. -/
def summary (s : ItemStream) : Option FetchSummary :=
  if s.seen.hasObserved || s.isExhausted then some s.seen else none

/-! ## Beginning -/

/-- A stream over the archives that were made with an origin. -/
def replaying (blank : ItemStream) (origin : String) (archivedAfter : Option Instant)
    (w : Workspace) : Except BackendError ItemStream × Workspace :=
  match blank.archive with
  | none => (.error .archiveRequired, w)
  | some archive =>
    let (r, w) := archive.search
      { origin, backendName := blank.backend.name, category := blank.category, archivedAfter } w
    ((r.map fun pending => { blank with pending }).mapError .archive, w)

/-- A stream that asks the data source, and records what it answers if there is an archive. -/
def fetching (blank : ItemStream) (args : BackendArgs) (built : BackendInstance) (w : Workspace) :
    Except BackendError ItemStream × Workspace :=
  let active (mode : SourceMode) : ItemStream :=
    { blank with active := some ⟨built.fetch, { transport := built.transport, mode }⟩ }
  match blank.archive with
  | none => (.ok (active .live), w)
  | some archive =>
    let (r, w) := archive.createArchive built.origin blank.backend blank.category args w
    ((r.map fun m => active (.recording archive m.archiveId)).mapError .archive, w)

/-- Begins a stream. Whether the backend has the category comes first, then whether it accepts its
arguments, and then what the options need. -/
def start (backend : Backend) (args : BackendArgs) (category : String) (options : StreamOptions)
    (w : Workspace) : Except BackendError ItemStream × Workspace :=
  if backend.supportsCategory category then
    match backend.build args with
    | .error e => (.error e, w)
    | .ok built =>
      -- the arguments are tried even for a replay, which needs the origin that they name
      let blank : ItemStream := { backend, category, archive := options.archive }
      if options.fromArchive then blank.replaying built.origin options.archivedAfter w
      else blank.fetching args built w
  else (.error (.unsupportedCategory backend.name category), w)

/-! ## Going on -/

/-- What comes next in a stream, if anything does, and the stream after it. -/
abbrev Next := Option (Except BackendError Item) × ItemStream × Workspace

/-- The fetch that replays an archive: by the backend as it was set up for the archive. -/
def activate (s : ItemStream) (m : ArchiveMetadata) : Except BackendError ActiveFetch := do
  let some archive := s.archive | throw .archiveRequired
  let built ← s.backend.build m.backendArgs
  return ⟨built.fetch, { transport := built.transport, mode := .replay archive m.archiveId }⟩

/-- The stream ends with a failure. -/
def failWith (s : ItemStream) (e : BackendError) (w : Workspace) : Next :=
  (some (.error e), { s with state := .failed, active := none, pending := [] }, w)

/-- Runs a fetch up to its next item; `onEnd` is how the stream goes on when the fetch has ended. -/
def proceed (s : ItemStream) (a : ActiveFetch) (w : Workspace)
    (onEnd : ItemStream → Workspace → Next) : Next :=
  match a.fetch.advance ⟨a.source, s.seen, w⟩ with
  | (.item item rest, p) =>
    (some (.ok item),
      { s with active := some ⟨rest, p.source⟩, seen := p.summary.update item }, p.workspace)
  | (.ended, p) => onEnd { s with active := none, seen := p.summary } p.workspace
  | (.failed e, p) => failWith { s with seen := p.summary } e p.workspace

/-- Goes on with the archives still to be replayed. -/
def nextArchived : List ArchiveMetadata → ItemStream → Workspace → Next
  | [], s, w => (none, { s with pending := [], state := .exhausted }, w)
  -- the archive leaves the list before it is replayed; at its end the next one has its turn
  | m :: rest, s, w =>
    match s.activate m with
    | .error e => s.failWith e w
    | .ok a => proceed { s with pending := rest } a w (nextArchived rest)

/-- The next item of a stream. A failure is given once; there is nothing after it, and nothing after
the end. -/
def next (s : ItemStream) (w : Workspace) : Next :=
  match s.state with
  | .streaming =>
    match s.active with
    | some a => s.proceed a w (nextArchived s.pending)
    | none => nextArchived s.pending s w
  | _ => (none, s, w)

/-! ## What is left of a stream -/

/-- What is left of the active fetch. -/
def fetch (s : ItemStream) : Fetch := s.active.elim .done ActiveFetch.fetch

/-- How much is left of a stream: the archives to be replayed, and the active fetch. -/
def left (s : ItemStream) : Nat × Fetch := (s.pending.length, s.fetch)

/-- Less is left of one stream than of another one. -/
abbrev Left : Nat × Fetch → Nat × Fetch → Prop := Prod.Lex (· < ·) Fetch.Below

theorem pending_lt_of_nextArchived {pending : List ArchiveMetadata} {s t : ItemStream}
    {w v : Workspace} {item : Item}
    (h : nextArchived pending s w = (some (.ok item), t, v)) :
    t.pending.length < pending.length := by
  induction pending generalizing s w with
  | nil => simp [nextArchived] at h
  | cons m rest ih =>
    simp only [nextArchived] at h
    split at h
    · simp [failWith] at h
    · simp only [proceed] at h
      split at h
      · simp only [Prod.mk.injEq] at h
        obtain ⟨_, rfl, _⟩ := h
        simp
      · exact Nat.lt_succ_of_lt (ih h)
      · simp [failWith] at h

/-- After an item less is left. -/
theorem lt_of_next_eq_item {s t : ItemStream} {w v : Workspace} {item : Item}
    (h : s.next w = (some (.ok item), t, v)) : Left t.left s.left := by
  simp only [next] at h
  split at h
  · split at h
    · rename_i a ha
      simp only [proceed] at h
      split at h
      · rename_i item' rest p hp
        simp only [Prod.mk.injEq] at h
        obtain ⟨_, rfl, _⟩ := h
        simp only [Left, left, fetch, ha, Option.elim_some]
        exact .right _ (Fetch.below_of_advance hp)
      · exact .left _ _ (pending_lt_of_nextArchived h)
      · simp [failWith] at h
    · exact .left _ _ (pending_lt_of_nextArchived h)
  · simp at h

end ItemStream

end Intake
