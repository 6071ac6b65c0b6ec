import Intake.Stream

/-!
# Going through a whole stream

`ItemStream.drain` takes items from a stream until it gives none any more, and `Fetch.drain` runs a
fetch to its end at once. A stream with an active fetch gives what the fetch gives, and fails as it
does or goes on after it (`ItemStream.drain_resume`).
-/

namespace Intake

/-! ## Fetches -/

/-- A fetch that was run to its end: the items it gave, the failure that it ended in if it did, and
what it has worked on. -/
structure FetchCourse where
  items : List Item
  error : Option BackendError
  progress : FetchProgress

/-- Runs a fetch to its end. -/
def Fetch.drain : Fetch → FetchProgress → FetchCourse
  | .ask request next, p =>
    let (response, source, workspace) := p.source.fetch request p.workspace
    (next response).drain { p with source, workspace }
  | .skip next, p => next.drain { p with summary := p.summary.skip }
  | .remark value next, p => next.drain { p with summary := p.summary.setExtras value }
  | .replaying next, p => (next p.source.isReplay).drain p
  | .now next, p =>
    let (time, supply) := p.workspace.supply.now
    (next time).drain { p with workspace := { p.workspace with supply } }
  | .give item rest, p =>
    let c := rest.drain { p with summary := p.summary.update item }
    { c with items := item :: c.items }
  | .done, p => ⟨[], none, p⟩
  | .fail e, p => ⟨[], some e, p⟩

/-! ## Streams -/

/-- A stream that was gone through: the items it gave, the failure that it ended in if it did, and
the stream and its workspace after that. -/
structure StreamCourse where
  items : List Item
  error : Option BackendError
  stream : ItemStream
  workspace : Workspace

/-- The course with some items before. -/
def StreamCourse.after (c : StreamCourse) (items : List Item) : StreamCourse :=
  { c with items := items ++ c.items }

namespace ItemStream

/-- Goes through a stream until it gives no item. -/
def drain (s : ItemStream) (w : Workspace) : StreamCourse :=
  match _h : s.next w with
  | (none, s', w') => ⟨[], none, s', w'⟩
  | (some (.error e), s', w') => ⟨[], some e, s', w'⟩
  | (some (.ok item), s', w') => (s'.drain w').after [item]
termination_by s.left
decreasing_by exact lt_of_next_eq_item _h

variable {s s' : ItemStream} {w w' : Workspace}

theorem drain_of_none (h : s.next w = (none, s', w')) : s.drain w = ⟨[], none, s', w'⟩ := by
  rw [drain, h]

theorem drain_of_error {e : BackendError} (h : s.next w = (some (.error e), s', w')) :
    s.drain w = ⟨[], some e, s', w'⟩ := by
  rw [drain, h]

theorem drain_of_item {item : Item} (h : s.next w = (some (.ok item), s', w')) :
    s.drain w = (s'.drain w').after [item] := by
  rw [drain, h]

/-- Streams that go on alike have the same course. -/
theorem drain_congr {t : ItemStream} {v : Workspace} (h : s.next w = t.next v) :
    s.drain w = t.drain v := by
  rcases hnext : t.next v with ⟨_ | e | item, t', v'⟩
  · rw [drain_of_none hnext, drain_of_none (h.trans hnext)]
  · rw [drain_of_error hnext, drain_of_error (h.trans hnext)]
  · rw [drain_of_item hnext, drain_of_item (h.trans hnext)]

/-- The stream that goes on with a fetch that was run so far. -/
def resume (s : ItemStream) (f : Fetch) (p : FetchProgress) : ItemStream :=
  { s with active := some ⟨f, p.source⟩, seen := p.summary }

/-- The stream after a fetch that has ended. -/
def afterFetch (s : ItemStream) (p : FetchProgress) : ItemStream :=
  { s with active := none, seen := p.summary }

/-- The stream after a fetch that has failed. -/
def afterFailure (s : ItemStream) (p : FetchProgress) : ItemStream :=
  { s with active := none, pending := [], seen := p.summary, state := .failed }

/-- How a stream goes on with a fetch. -/
theorem next_resume (hstate : s.state = .streaming) (f : Fetch) (p : FetchProgress) :
    (s.resume f p).next p.workspace = match f.advance p with
      | (.item item rest, q) =>
        (some (.ok item), s.resume rest { q with summary := q.summary.update item }, q.workspace)
      | (.ended, q) => (s.afterFetch q).next q.workspace
      | (.failed e, q) => (some (.error e), s.afterFailure q, q.workspace) := by
  obtain ⟨backend, category, archive, active, pending, seen, state⟩ := s
  cases hstate
  show proceed _ ⟨f, p.source⟩ p.workspace (nextArchived pending) = _
  unfold proceed
  show (match f.advance p with
    | (.item item rest, q) => _
    | (.ended, q) => _
    | (.failed e, q) => _) = _
  rcases f.advance p with ⟨item | _ | e, q⟩ <;> rfl

/-- A stream gives what its fetch gives, and fails as it does or goes on after it. -/
theorem drain_resume (hstate : s.state = .streaming) (f : Fetch) (p : FetchProgress) :
    (s.resume f p).drain p.workspace = match (f.drain p).error with
      | some e =>
        ⟨(f.drain p).items, some e, s.afterFailure (f.drain p).progress,
          (f.drain p).progress.workspace⟩
      | none =>
        ((s.afterFetch (f.drain p).progress).drain (f.drain p).progress.workspace).after
          (f.drain p).items := by
  -- a node that gives no item is passed over by the next step of the stream
  have hpass : ∀ (g g' : Fetch) (q q' : FetchProgress), g.advance q = g'.advance q' →
      (s.resume g q).drain q.workspace = (s.resume g' q').drain q'.workspace := by
    intro g g' q q' h
    apply drain_congr
    rw [next_resume hstate, next_resume hstate, h]
  induction f generalizing p with
  | ask request next ih =>
    rw [hpass (.ask request next) (next (p.source.fetch request p.workspace).1) p
      ⟨(p.source.fetch request p.workspace).2.1, p.summary,
        (p.source.fetch request p.workspace).2.2⟩
      rfl]
    exact ih _ _
  | skip next ih =>
    rw [hpass (.skip next) next p { p with summary := p.summary.skip } rfl]
    exact ih _
  | remark value next ih =>
    rw [hpass (.remark value next) next p { p with summary := p.summary.setExtras value } rfl]
    exact ih _
  | replaying next ih =>
    rw [hpass (.replaying next) (next p.source.isReplay) p p rfl]
    exact ih _ _
  | now next ih =>
    rw [hpass (.now next) (next p.workspace.supply.now.1) p
      { p with workspace := { p.workspace with supply := p.workspace.supply.now.2 } } rfl]
    exact ih _ _
  | give item rest ih =>
    rw [drain_of_item (next_resume hstate (.give item rest) p),
      ih { p with summary := p.summary.update item }]
    show _ = match (rest.drain { p with summary := p.summary.update item }).error with
      | some e => _
      | none => _
    cases (rest.drain { p with summary := p.summary.update item }).error <;> rfl
  | done =>
    have hnext : (s.resume .done p).next p.workspace = (s.afterFetch p).next p.workspace :=
      next_resume hstate .done p
    rw [drain_congr hnext]
    rfl
  | fail e => rw [drain_of_error (next_resume hstate (.fail e) p)]; rfl

/-- A stream without a fetch and without archives to replay is at its end. -/
theorem drain_of_pending_nil (hstate : s.state = .streaming) (hactive : s.active = none)
    (hpending : s.pending = []) (w : Workspace) :
    s.drain w = ⟨[], none, { s with state := .exhausted }, w⟩ := by
  obtain ⟨backend, category, archive, active, pending, seen, state⟩ := s
  cases hstate
  cases hactive
  cases hpending
  exact drain_of_none rfl

/-- A stream without archives to replay is at its end when its fetch has ended. -/
theorem drain_afterFetch (hstate : s.state = .streaming) (hpending : s.pending = [])
    (p : FetchProgress) : (s.afterFetch p).drain p.workspace
      = ⟨[], none, { s.afterFetch p with state := .exhausted }, p.workspace⟩ :=
  drain_of_pending_nil (s := s.afterFetch p) hstate rfl hpending p.workspace

/-- The course of a stream that has nothing but a fetch. -/
theorem drain_resume_of_pending_nil (hstate : s.state = .streaming) (hpending : s.pending = [])
    (f : Fetch) (p : FetchProgress) :
    ∃ s', (s.resume f p).drain p.workspace
        = ⟨(f.drain p).items, (f.drain p).error, s', (f.drain p).progress.workspace⟩
      ∧ s'.seen = (f.drain p).progress.summary
      ∧ s'.state = if (f.drain p).error.isSome then .failed else .exhausted := by
  rw [drain_resume hstate, drain_afterFetch hstate hpending]
  cases (f.drain p).error with
  | some e => exact ⟨_, rfl, rfl, rfl⟩
  | none =>
    refine ⟨{ s.afterFetch (f.drain p).progress with state := .exhausted }, ?_, rfl, rfl⟩
    simp only [StreamCourse.after, List.append_nil]

/-- A stream begins to replay an archive. -/
theorem drain_of_activate (hstate : s.state = .streaming) (hactive : s.active = none)
    {m : ArchiveMetadata} {rest : List ArchiveMetadata} (hpending : s.pending = m :: rest)
    {a : ActiveFetch} (ha : s.activate m = .ok a) (w : Workspace) :
    s.drain w = ({ s with pending := rest }.resume a.fetch ⟨a.source, s.seen, w⟩).drain w := by
  apply drain_congr
  obtain ⟨backend, category, archive, active, pending, seen, state⟩ := s
  cases hstate
  cases hpending
  cases hactive
  show nextArchived (m :: rest) _ w = _
  rw [nextArchived, ha]
  rfl

/-- A stream whose next archive cannot be replayed fails. -/
theorem next_of_activate_error (hstate : s.state = .streaming) (hactive : s.active = none)
    {m : ArchiveMetadata} {rest : List ArchiveMetadata} (hpending : s.pending = m :: rest)
    {e : BackendError} (he : s.activate m = .error e) (w : Workspace) :
    s.next w = s.failWith e w := by
  obtain ⟨backend, category, archive, active, pending, seen, state⟩ := s
  cases hstate
  cases hpending
  cases hactive
  show nextArchived (m :: rest) _ w = _
  rw [nextArchived, he]

end ItemStream

end Intake
