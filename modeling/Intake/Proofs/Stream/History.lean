import Intake.Proofs.Backend.Steady
import Intake.Proofs.Stream.Lifecycle

/-!
# The history of a stream

The history of a stream is all that it does until it gives nothing any more. It tells how the stream
is gone through: what it gives and whether it fails, and its last summary
(`ItemStream.told_drain`).

A stream with a fetch does what the fetch does, and if that has not failed what it does after it
(`ItemStream.history_resume`). What a fetch does depends on what it is told, and not on what was
counted before it (`Fetch.history_summary`).
-/

namespace Intake

/-! ## The first failure -/

/-- The elements of a list up to the first one with a property, which is included. -/
def upTo {α : Type} (p : α → Bool) : List α → List α
  | [] => []
  | a :: rest => if p a then [a] else a :: upTo p rest

theorem any_upTo {α : Type} (p : α → Bool) (xs : List α) : (upTo p xs).any p = xs.any p := by
  induction xs with
  | nil => rfl
  | cons a rest ih =>
    rw [upTo, List.any_cons]
    split
    · rename_i ha
      simp [ha]
    · rw [List.any_cons, ih]

theorem map_upTo {α β : Type} {p : α → Bool} {q : β → Bool} {f : α → β} (h : ∀ a, q (f a) = p a)
    (xs : List α) : (upTo p xs).map f = upTo q (xs.map f) := by
  induction xs with
  | nil => rfl
  | cons a rest ih =>
    rw [List.map_cons, upTo, upTo, h, ← ih]
    split <;> rfl

/-- Elements that are passed over do not matter for the first one with a property. -/
theorem filterMap_upTo {α β : Type} {p : α → Bool} {q : β → Bool} {f : α → Option β}
    (h : ∀ a, p a = (f a).any q) (xs : List α) :
    (upTo p xs).filterMap f = upTo q (xs.filterMap f) := by
  induction xs with
  | nil => rfl
  | cons a rest ih =>
    rw [upTo, h, List.filterMap_cons]
    cases hfa : f a with
    | none => simp [hfa, ih]
    | some b =>
      rw [Option.any_some]
      dsimp only
      rw [upTo]
      split
      · simp [hfa]
      · rw [List.filterMap_cons, hfa, ih]

namespace StreamEvent

/-- Whether a stream failed. -/
def isFailure : StreamEvent → Bool
  | .failed _ => true
  | _ => false

/-- The event apart from the time at which an item was fetched. -/
def untimed : StreamEvent → StreamEvent
  | .gave item => .gave item.untimed
  | e => e

theorem isFailure_untimed (e : StreamEvent) : e.untimed.isFailure = e.isFailure := by
  cases e <;> rfl

/-- An event is a failure if it is answered so. -/
theorem isFailure_eq (e : StreamEvent) : e.isFailure = e.answer?.any fun r => !r.isOk := by
  cases e <;> rfl

end StreamEvent

/-- The time at which an item was fetched goes into no summary. -/
theorem FetchSummary.foldl_observe_untimed (s : FetchSummary) (events : List StreamEvent) :
    (events.map StreamEvent.untimed).foldl observe s = events.foldl observe s := by
  have hone : ∀ (s : FetchSummary) (e : StreamEvent), s.observe e.untimed = s.observe e := by
    intro s e
    cases e <;> rfl
  rw [List.foldl_map]
  simp only [hone]

/-! ## Fetches -/

namespace Fetch

/-- What a fetch does until its end. -/
def history : Fetch → FetchProgress → List StreamEvent
  | .ask request next, p =>
    let (response, source, workspace) := p.source.fetch request p.workspace
    .asked request :: (next response).history { p with source, workspace }
  | .skip next, p => .skipped :: next.history { p with summary := p.summary.skip }
  | .remark value next, p =>
    .remarked value :: next.history { p with summary := p.summary.setExtras value }
  | .replaying next, p => (next p.source.isReplay).history p
  | .now next, p =>
    let (time, supply) := p.workspace.supply.now
    (next time).history { p with workspace := { p.workspace with supply } }
  | .give item rest, p => .gave item :: rest.history { p with summary := p.summary.update item }
  | .done, _ => []
  | .fail e, _ => [.failed e]

/-- Where a fetch fails its history ends. -/
theorem upTo_history_append (f : Fetch) (p : FetchProgress) (more : List StreamEvent) :
    upTo StreamEvent.isFailure (f.history p ++ more)
      = f.history p ++ if (f.drain p).error.isSome then [] else
          upTo StreamEvent.isFailure more := by
  induction f generalizing p with
  | ask request next ih =>
    exact congrArg (StreamEvent.asked request :: ·) (ih _
      ⟨(p.source.fetch request p.workspace).2.1, p.summary,
        (p.source.fetch request p.workspace).2.2⟩)
  | skip next ih =>
    exact congrArg (StreamEvent.skipped :: ·) (ih { p with summary := p.summary.skip })
  | remark value next ih =>
    exact congrArg (StreamEvent.remarked value :: ·)
      (ih { p with summary := p.summary.setExtras value })
  | replaying next ih => exact ih _ p
  | now next ih =>
    exact ih _ { p with workspace := { p.workspace with supply := p.workspace.supply.now.2 } }
  | give item rest ih =>
    exact congrArg (StreamEvent.gave item :: ·) (ih { p with summary := p.summary.update item })
  | done => rfl
  | fail e => rfl

/-- What was counted before a fetch makes no difference to it. -/
theorem history_summary (f : Fetch) (source : ResponseSource) (summary summary' : FetchSummary)
    (w : Workspace) :
    f.history ⟨source, summary, w⟩ = f.history ⟨source, summary', w⟩
      ∧ (f.drain ⟨source, summary, w⟩).error = (f.drain ⟨source, summary', w⟩).error
      ∧ (f.drain ⟨source, summary, w⟩).progress.workspace
        = (f.drain ⟨source, summary', w⟩).progress.workspace := by
  induction f generalizing source summary summary' w with
  | ask request next ih =>
    obtain ⟨hhistory, herror, hworkspace⟩ := ih (source.fetch request w).1
      (source.fetch request w).2.1 summary summary' (source.fetch request w).2.2
    simp only [history, drain]
    exact ⟨congrArg (StreamEvent.asked request :: ·) hhistory, herror, hworkspace⟩
  | skip next ih =>
    obtain ⟨hhistory, herror, hworkspace⟩ := ih source summary.skip summary'.skip w
    simp only [history, drain]
    exact ⟨congrArg (StreamEvent.skipped :: ·) hhistory, herror, hworkspace⟩
  | remark value next ih =>
    obtain ⟨hhistory, herror, hworkspace⟩ :=
      ih source (summary.setExtras value) (summary'.setExtras value) w
    simp only [history, drain]
    exact ⟨congrArg (StreamEvent.remarked value :: ·) hhistory, herror, hworkspace⟩
  | replaying next ih => exact ih source.isReplay source summary summary' w
  | now next ih =>
    exact ih w.supply.now.1 source summary summary' { w with supply := w.supply.now.2 }
  | give item rest ih =>
    obtain ⟨hhistory, herror, hworkspace⟩ :=
      ih source (summary.update item) (summary'.update item) w
    simp only [history, drain]
    exact ⟨congrArg (StreamEvent.gave item :: ·) hhistory, herror, hworkspace⟩
  | done => exact ⟨rfl, rfl, rfl⟩
  | fail e => exact ⟨rfl, rfl, rfl⟩

end Fetch

/-! ## Streams -/

/-- What a stream that was gone through has given, and the failure that it ended in if it did. -/
def StreamCourse.results (c : StreamCourse) : List (Except BackendError Item) :=
  c.items.map .ok ++ c.error.toList.map .error

/-- The failure that a result is, if it is one. -/
def failure? : Except BackendError Item → Option BackendError
  | .ok _ => none
  | .error e => some e

/-- The items of a course are found among its results, and so is its failure. -/
theorem StreamCourse.filterMap_results (c : StreamCourse) :
    c.results.filterMap Except.toOption = c.items ∧ c.results.filterMap failure? = c.error.toList := by
  obtain ⟨items, error, stream, workspace⟩ := c
  let given : Item → Except BackendError Item := .ok
  have hitems : (items.map given).filterMap Except.toOption = items := by
    rw [List.filterMap_map]
    exact List.filterMap_some
  have hfailures : (items.map given).filterMap failure? = [] := by
    rw [List.filterMap_map]
    exact List.filterMap_eq_nil_iff.mpr fun _ _ => rfl
  rw [results, List.filterMap_append, List.filterMap_append, hitems, hfailures]
  cases error with
  | none => exact ⟨List.append_nil _, rfl⟩
  | some e => exact ⟨List.append_nil _, rfl⟩

namespace ItemStream

variable {s : ItemStream} {w : Workspace}

/-- What a stream does until it gives no item. -/
def history (s : ItemStream) (w : Workspace) : List StreamEvent :=
  match _h : s.next w with
  | (some (.ok _), s', w') => s.events w ++ s'.history w'
  | _ => s.events w
termination_by s.left
decreasing_by exact lt_of_next_eq_item _h

/-- What a stream does after it has answered so. -/
def historyAfter : Next → List StreamEvent
  | (some (.ok _), s', w') => s'.history w'
  | _ => []

theorem historyAfter_none : historyAfter (none, s, w) = [] := rfl

theorem historyAfter_error (e : BackendError) : historyAfter (some (.error e), s, w) = [] := rfl

theorem history_eq (s : ItemStream) (w : Workspace) :
    s.history w = s.events w ++ historyAfter (s.next w) := by
  rw [history]
  split
  · rename_i h
    rw [h, historyAfter]
  · rename_i hnot
    rcases hnext : s.next w with ⟨_ | e | item, s', w'⟩
    · rw [historyAfter_none, List.append_nil]
    · rw [historyAfter_error, List.append_nil]
    · exact absurd hnext (hnot item s' w')

/-- The history of a stream tells what it gives until its end, and its last summary. -/
theorem told_drain (s : ItemStream) (w : Workspace) :
    (s.history w).filterMap StreamEvent.answer? = (s.drain w).results
      ∧ (s.drain w).stream.seen = (s.history w).foldl FetchSummary.observe s.seen := by
  fun_induction s.drain w with
  | case1 s w s' w' h =>
    obtain ⟨hanswer, hseen⟩ := s.told_next w
    rw [h] at hanswer hseen
    rw [history_eq, h, historyAfter_none, List.append_nil]
    exact ⟨hanswer, hseen⟩
  | case2 s w e s' w' h =>
    obtain ⟨hanswer, hseen⟩ := s.told_next w
    rw [h] at hanswer hseen
    rw [history_eq, h, historyAfter_error, List.append_nil]
    exact ⟨hanswer, hseen⟩
  | case3 s w item s' w' h ih =>
    obtain ⟨hanswer, hseen⟩ := s.told_next w
    rw [h] at hanswer hseen
    obtain ⟨hresults, hlast⟩ := ih
    rw [history_eq, h, historyAfter]
    refine ⟨?_, ?_⟩
    · rw [List.filterMap_append, hanswer, hresults]
      rfl
    · rw [List.foldl_append, ← hseen]
      exact hlast

/-- A stream has failed in the end if there is a failure in its history. -/
theorem error_isSome_drain (s : ItemStream) (w : Workspace) :
    (s.drain w).error.isSome = (s.history w).any StreamEvent.isFailure := by
  have hany : (s.history w).any StreamEvent.isFailure
      = ((s.history w).filterMap StreamEvent.answer?).any fun r => !r.isOk := by
    rw [List.any_filterMap]
    exact congrArg _ (funext StreamEvent.isFailure_eq)
  rw [hany, (s.told_drain w).1, StreamCourse.results, List.any_append]
  have hitems : ((s.drain w).items.map Except.ok).any
      (fun r : Except BackendError Item => !r.isOk) = false := by
    simp [Except.isOk, Except.toBool]
  rw [hitems, Bool.false_or]
  cases (s.drain w).error <;> rfl

/-! ## Streams with a fetch -/

theorem events_resume (hstate : s.state = .streaming) (f : Fetch) (p : FetchProgress) :
    (s.resume f p).events p.workspace = f.events p ++ match f.advance p with
      | (.ended, q) => (s.afterFetch q).events q.workspace
      | _ => [] := by
  obtain ⟨backend, category, archive, active, pending, seen, state⟩ := s
  cases hstate
  show proceedEvents _ ⟨f, p.source⟩ p.workspace (archivedEvents pending) = _
  unfold proceedEvents
  show f.events p ++ (match f.advance p with
    | (.ended, q) => _
    | _ => _) = _
  rcases f.advance p with ⟨item | _ | e, q⟩ <;> rfl

/-- A stream does what its fetch does, and then what it does after the fetch if that has not
failed. -/
theorem history_resume (hstate : s.state = .streaming) (f : Fetch) (p : FetchProgress) :
    (s.resume f p).history p.workspace = f.history p ++
      if (f.drain p).error.isSome then [] else
        (s.afterFetch (f.drain p).progress).history (f.drain p).progress.workspace := by
  -- a node that gives no item is passed over by the next step of the stream
  have hpass : ∀ (before : List StreamEvent) (g g' : Fetch) (q q' : FetchProgress),
      g.advance q = g'.advance q' → g.events q = before ++ g'.events q' →
      (s.resume g q).history q.workspace
        = before ++ (s.resume g' q').history q'.workspace := by
    intro before g g' q q' hadvance hevents
    have hnext : (s.resume g q).next q.workspace = (s.resume g' q').next q'.workspace := by
      rw [next_resume hstate, next_resume hstate, hadvance]
    rw [history_eq, history_eq (s.resume g' q'), hnext, events_resume hstate, events_resume hstate,
      hadvance, hevents]
    simp only [List.append_assoc]
  induction f generalizing p with
  | ask request next ih =>
    rw [hpass [.asked request] (.ask request next) (next (p.source.fetch request p.workspace).1) p
      ⟨(p.source.fetch request p.workspace).2.1, p.summary,
        (p.source.fetch request p.workspace).2.2⟩ rfl rfl, ih]
    rfl
  | skip next ih =>
    rw [hpass [.skipped] (.skip next) next p { p with summary := p.summary.skip } rfl rfl, ih]
    rfl
  | remark value next ih =>
    rw [hpass [.remarked value] (.remark value next) next p
      { p with summary := p.summary.setExtras value } rfl rfl, ih]
    rfl
  | replaying next ih =>
    rw [hpass [] (.replaying next) (next p.source.isReplay) p p rfl rfl, ih]
    rfl
  | now next ih =>
    rw [hpass [] (.now next) (next p.workspace.supply.now.1) p
      { p with workspace := { p.workspace with supply := p.workspace.supply.now.2 } } rfl rfl, ih]
    rfl
  | give item rest ih =>
    have hnext : (s.resume (.give item rest) p).next p.workspace
        = (some (.ok item), s.resume rest { p with summary := p.summary.update item },
          p.workspace) := next_resume hstate (.give item rest) p
    rw [history_eq, hnext, events_resume hstate]
    exact congrArg (StreamEvent.gave item :: ·) (ih { p with summary := p.summary.update item })
  | done =>
    have hnext : (s.resume .done p).next p.workspace = (s.afterFetch p).next p.workspace :=
      next_resume hstate .done p
    rw [history_eq, hnext, events_resume hstate]
    exact (history_eq (s.afterFetch p) p.workspace).symm
  | fail e =>
    have hnext : (s.resume (.fail e) p).next p.workspace
        = (some (.error e), s.afterFailure p, p.workspace) := next_resume hstate (.fail e) p
    rw [history_eq, hnext, events_resume hstate]
    rfl

end ItemStream

end Intake
