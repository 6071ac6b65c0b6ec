import Intake.Proofs.Archive.Views
import Intake.Proofs.Stream.History
import Intake.Proofs.Stream.Replay

/-!
# Replaying several archives

A stream that replays several archives does what streams would do that replay one of them each, one
after the other, up to the first failure (`ItemStream.history_eq_inTurn`). What each of them does is
up to the arguments of its archive and the responses in it (`ItemStream.history_alone`). Nothing
goes over from one archive to the next but what was counted, and what the stores have read.

If the fetches depend on nothing but the responses, it makes no difference either when an archive is
replayed: what the stores have read of one archive says nothing of another one
(`ItemStream.history_inTurn`). And the arguments with which the stream was begun go into nothing but
the origin whose archives are found (`ItemStream.start_replay_congr`).
-/

namespace Intake

/-! ## Replayed fetches -/

namespace Fetch

variable {archive : ArchiveManager} {archiveId : String}

/-- Fetches that are alike do the same when they are replayed, if the archives answer alike, in
whatever way these resemble each other. -/
theorem Alike.history_replay {f g : Fetch} (h : Alike f g) {R : Archives → Archives → Prop}
    (hR : ∀ a a' request, R a a' →
      ((Archives.retrieve archive.store archiveId request).run a).1
          = ((Archives.retrieve archive.store archiveId request).run a').1
        ∧ R ((Archives.retrieve archive.store archiveId request).run a).2
          ((Archives.retrieve archive.store archiveId request).run a').2)
    (t t' : Transport) (summary summary' : FetchSummary) {w w' : Workspace}
    (hw : R w.archives w'.archives) :
    (f.history ⟨⟨t, .replay archive archiveId, []⟩, summary, w⟩).map StreamEvent.untimed
        = (g.history ⟨⟨t', .replay archive archiveId, []⟩, summary', w'⟩).map StreamEvent.untimed
      ∧ R (f.drain ⟨⟨t, .replay archive archiveId, []⟩, summary, w⟩).progress.workspace.archives
        (g.drain ⟨⟨t', .replay archive archiveId, []⟩, summary', w'⟩).progress.workspace.archives
    := by
  induction h generalizing summary summary' w w' with
  | ask request _ ih =>
    obtain ⟨hanswer, hafter⟩ := hR _ _ request hw
    rcases hrun : (Archives.retrieve archive.store archiveId request).run w.archives
      with ⟨r, archives⟩
    rcases hrun' : (Archives.retrieve archive.store archiveId request).run w'.archives
      with ⟨r', archives'⟩
    rw [hrun, hrun'] at hanswer hafter
    cases hanswer
    obtain ⟨hhistory, hend⟩ := @ih (r.mapError .archive) summary summary' { w with archives }
      { w' with archives := archives' } hafter
    simp only [history, drain, ResponseSource.fetch, ArchiveManager.retrieve, hrun, hrun']
    exact ⟨congrArg (StreamEvent.asked request :: ·) hhistory, hend⟩
  | skip _ ih =>
    obtain ⟨hhistory, hend⟩ := ih summary.skip summary'.skip hw
    simp only [history, drain]
    exact ⟨congrArg (StreamEvent.skipped :: ·) hhistory, hend⟩
  | remark value _ ih =>
    obtain ⟨hhistory, hend⟩ := ih (summary.setExtras value) (summary'.setExtras value) hw
    simp only [history, drain]
    exact ⟨congrArg (StreamEvent.remarked value :: ·) hhistory, hend⟩
  | now _ ih =>
    exact @ih w.supply.now.1 w'.supply.now.1 summary summary'
      { w with supply := w.supply.now.2 } { w' with supply := w'.supply.now.2 } hw
  | @give item item' rest rest' hitem _ ih =>
    obtain ⟨hhistory, hend⟩ := ih (summary.update item) (summary'.update item') hw
    simp only [history, drain]
    refine ⟨?_, hend⟩
    rw [List.map_cons, List.map_cons, hhistory, StreamEvent.untimed, StreamEvent.untimed, hitem]
  | done => exact ⟨rfl, hw⟩
  | fail e => exact ⟨rfl, hw⟩

/-- What retrieving from an archive leaves as it is, a replay of the archive leaves as it is. -/
theorem drain_replay_preserves (f : Fetch) {P : Archives → Prop}
    (hP : ∀ a request, P a → P ((Archives.retrieve archive.store archiveId request).run a).2)
    (t : Transport) (summary : FetchSummary) {w : Workspace} (hw : P w.archives) :
    P (f.drain ⟨⟨t, .replay archive archiveId, []⟩, summary, w⟩).progress.workspace.archives := by
  induction f generalizing summary w with
  | ask request next ih =>
    have hafter := hP _ request hw
    rcases hrun : (Archives.retrieve archive.store archiveId request).run w.archives
      with ⟨r, archives⟩
    rw [hrun] at hafter
    simp only [drain, ResponseSource.fetch, ArchiveManager.retrieve, hrun]
    exact @ih _ summary { w with archives } hafter
  | skip next ih => exact ih summary.skip hw
  | remark value next ih => exact ih (summary.setExtras value) hw
  | replaying next ih => exact ih true summary hw
  | now next ih => exact @ih w.supply.now.1 summary { w with supply := w.supply.now.2 } hw
  | give item rest ih => exact ih (summary.update item) hw
  | done => exact hw
  | fail e => exact hw

end Fetch

/-- What the replay of an archive is: a backend is set up anew with the arguments of the archive,
and its fetch is given nothing but responses of that archive. -/
def Backend.replay (b : Backend) (archive : ArchiveManager) (m : ArchiveMetadata) (w : Workspace) :
    List StreamEvent :=
  match b.build m.backendArgs with
  | .error e => [.failed e]
  | .ok built =>
    built.fetch.history ⟨⟨built.transport, .replay archive m.archiveId, []⟩, {}, w⟩

namespace ItemStream

variable {s : ItemStream} {m : ArchiveMetadata} {a : ActiveFetch}

/-! ## One archive -/

/-- The stream that replays one archive and no other one. -/
def alone (s : ItemStream) (m : ArchiveMetadata) : ItemStream where
  backend := s.backend
  category := s.category
  archive := s.archive
  pending := [m]

/-- A stream begins to replay an archive. -/
theorem history_of_activate (hstate : s.state = .streaming) (hactive : s.active = none)
    {rest : List ArchiveMetadata} (hpending : s.pending = m :: rest) (ha : s.activate m = .ok a)
    (w : Workspace) : s.history w
      = ({ s with pending := rest }.resume a.fetch ⟨a.source, s.seen, w⟩).history w := by
  obtain ⟨backend, category, archive, active, pending, seen, state⟩ := s
  cases hstate
  cases hpending
  cases hactive
  rw [history_eq, history_eq (resume _ _ _)]
  show archivedEvents (m :: rest) _ w ++ historyAfter (nextArchived (m :: rest) _ w) = _
  rw [archivedEvents, nextArchived, ha]
  rfl

/-- A stream whose next archive cannot be replayed fails. -/
theorem history_of_activate_error (hstate : s.state = .streaming) (hactive : s.active = none)
    {rest : List ArchiveMetadata} (hpending : s.pending = m :: rest) {e : BackendError}
    (he : s.activate m = .error e) (w : Workspace) :
    s.history w = [.failed e] ∧ (s.drain w).workspace = w := by
  have hnext := next_of_activate_error hstate hactive hpending he w
  refine ⟨?_, ?_⟩
  · rw [history_eq, hnext, events, hstate, hactive, hpending]
    show archivedEvents (m :: rest) s w ++ [] = _
    rw [archivedEvents, he]
    rfl
  · rw [drain_of_error hnext]

/-- A stream without a fetch and without archives has nothing more to do. -/
theorem history_of_pending_nil (hstate : s.state = .streaming) (hactive : s.active = none)
    (hpending : s.pending = []) (w : Workspace) : s.history w = [] := by
  obtain ⟨backend, category, archive, active, pending, seen, state⟩ := s
  cases hstate
  cases hpending
  cases hactive
  rw [history_eq]
  rfl

/-- A stream that replays one archive does what the fetch of the archive does. -/
theorem alone_of_activate (ha : s.activate m = .ok a) (w : Workspace) :
    (s.alone m).history w = a.fetch.history ⟨a.source, {}, w⟩
      ∧ ((s.alone m).drain w).workspace
        = (a.fetch.drain ⟨a.source, {}, w⟩).progress.workspace := by
  have halone : (s.alone m).activate m = .ok a := ha
  constructor
  · have hresume := history_resume (s := { s.alone m with pending := [] }) rfl a.fetch
      ⟨a.source, {}, w⟩
    have hrest : ∀ p : FetchProgress,
        (afterFetch { s.alone m with pending := [] } p).history p.workspace = [] :=
      fun p => history_of_pending_nil rfl rfl rfl p.workspace
    rw [hrest, ite_self, List.append_nil] at hresume
    exact (history_of_activate rfl rfl rfl halone w).trans hresume
  · obtain ⟨s', hdrain, -⟩ := drain_resume_of_pending_nil (s := { s.alone m with pending := [] })
      rfl rfl a.fetch ⟨a.source, {}, w⟩
    have hworkspace := congrArg StreamCourse.workspace
      ((drain_of_activate rfl rfl rfl halone w).trans hdrain)
    exact hworkspace

theorem alone_of_activate_error {e : BackendError} (he : s.activate m = .error e) (w : Workspace) :
    (s.alone m).history w = [.failed e] ∧ ((s.alone m).drain w).workspace = w := by
  have halone : (s.alone m).activate m = .error e := he
  exact history_of_activate_error rfl rfl rfl halone w

/-- The stream that replays one archive does what its backend does in the replay of it. -/
theorem history_alone {archive : ArchiveManager} (harchive : s.archive = some archive)
    (m : ArchiveMetadata) (w : Workspace) :
    (s.alone m).history w = s.backend.replay archive m w := by
  have hactivate : s.activate m = (s.backend.build m.backendArgs).map fun built =>
      ⟨built.fetch, ⟨built.transport, .replay archive m.archiveId, []⟩⟩ := by
    unfold activate
    rw [harchive]
    rfl
  rw [Backend.replay]
  cases hbuild : s.backend.build m.backendArgs with
  | error e =>
    rw [hbuild] at hactivate
    exact (alone_of_activate_error hactivate w).1
  | ok built =>
    rw [hbuild] at hactivate
    exact (alone_of_activate hactivate w).1

/-! ## One archive after the other -/

/-- The streams that replay one archive each, with their workspaces: each finds what the one before
it has left. -/
def inTurn (s : ItemStream) : List ArchiveMetadata → Workspace → List (ItemStream × Workspace)
  | [], _ => []
  | m :: rest, w => (s.alone m, w) :: s.inTurn rest ((s.alone m).drain w).workspace

/-- What some streams do, one after the other. -/
def historyOf (parts : List (ItemStream × Workspace)) : List StreamEvent :=
  parts.flatMap fun a => a.1.history a.2

/-- What some streams give, and the failures that they end in. -/
def resultsOf (parts : List (ItemStream × Workspace)) : List (Except BackendError Item) :=
  parts.flatMap fun a => (a.1.drain a.2).results

/-- What was done so far makes no difference to archives that are replayed alone. -/
theorem inTurn_congr {t : ItemStream} (h : t.alone = s.alone) (pending : List ArchiveMetadata)
    (w : Workspace) : t.inTurn pending w = s.inTurn pending w := by
  induction pending generalizing w with
  | nil => rfl
  | cons m rest ih => rw [inTurn, inTurn, h, ih]

/-- A stream that replays archives does what is done when each of them is replayed alone, one after
the other, up to the first failure. -/
theorem history_eq_inTurn (hstate : s.state = .streaming) (hactive : s.active = none)
    (w : Workspace) :
    s.history w = upTo StreamEvent.isFailure (historyOf (s.inTurn s.pending w)) := by
  generalize hpending : s.pending = pending
  induction pending generalizing s w with
  | nil => exact history_of_pending_nil hstate hactive hpending w
  | cons m rest ih =>
    rw [inTurn, historyOf, List.flatMap_cons]
    cases ha : s.activate m with
    | error e =>
      rw [(history_of_activate_error hstate hactive hpending ha w).1,
        (alone_of_activate_error ha w).1]
      rfl
    | ok a =>
      obtain ⟨halone, hleft⟩ := alone_of_activate ha w
      obtain ⟨hhistory, herror, hworkspace⟩ := a.fetch.history_summary a.source s.seen {} w
      have hresume := history_resume (s := { s with pending := rest }) hstate a.fetch
        ⟨a.source, s.seen, w⟩
      have hrest : ∀ p : FetchProgress, (afterFetch { s with pending := rest } p).history p.workspace
          = upTo StreamEvent.isFailure (historyOf (s.inTurn rest p.workspace)) := by
        intro p
        have hsame : (afterFetch { s with pending := rest } p).alone = s.alone := rfl
        rw [ih (s := afterFetch { s with pending := rest } p) hstate rfl p.workspace rfl,
          inTurn_congr hsame]
      rw [hrest, hhistory, herror, hworkspace] at hresume
      rw [history_of_activate hstate hactive hpending ha w, halone, hleft,
        Fetch.upTo_history_append]
      exact hresume

/-! ## When an archive is replayed -/

/-- An archive that is replayed alone is replayed alike in workspaces whose archives answer alike,
in whatever way these resemble each other. -/
theorem alone_congr (hb : s.backend.Steady) {R : Archives → Archives → Prop}
    (hR : ∀ archive ∈ s.archive, ∀ a a' request, R a a' →
      ((Archives.retrieve archive.store m.archiveId request).run a).1
          = ((Archives.retrieve archive.store m.archiveId request).run a').1
        ∧ R ((Archives.retrieve archive.store m.archiveId request).run a).2
          ((Archives.retrieve archive.store m.archiveId request).run a').2)
    {w w' : Workspace} (hw : R w.archives w'.archives) :
    ((s.alone m).history w).map StreamEvent.untimed
        = ((s.alone m).history w').map StreamEvent.untimed
      ∧ R ((s.alone m).drain w).workspace.archives ((s.alone m).drain w').workspace.archives := by
  obtain ⟨e, he⟩ | ⟨archive, built, harchive, hbuild, ha⟩ := s.activate_cases m
  · obtain ⟨hhistory, hleft⟩ := alone_of_activate_error he w
    obtain ⟨hhistory', hleft'⟩ := alone_of_activate_error he w'
    rw [hhistory, hhistory', hleft, hleft']
    exact ⟨rfl, hw⟩
  · obtain ⟨hhistory, hleft⟩ := alone_of_activate ha w
    obtain ⟨hhistory', hleft'⟩ := alone_of_activate ha w'
    rw [hhistory, hhistory', hleft, hleft']
    exact (hb m.backendArgs built hbuild).history_replay (hR archive harchive) built.transport
      built.transport {} {} hw

/-- What retrieving from an archive leaves as it is, replaying it alone leaves as it is. -/
theorem alone_preserves {P : Archives → Prop}
    (hP : ∀ archive ∈ s.archive, ∀ a request, P a →
      P ((Archives.retrieve archive.store m.archiveId request).run a).2)
    {w : Workspace} (hw : P w.archives) : P ((s.alone m).drain w).workspace.archives := by
  obtain ⟨e, he⟩ | ⟨archive, built, harchive, -, ha⟩ := s.activate_cases m
  · rw [(alone_of_activate_error he w).2]
    exact hw
  · rw [(alone_of_activate ha w).2]
    exact built.fetch.drain_replay_preserves (hP archive harchive) built.transport {} hw

/-- It makes no difference when an archive is replayed, unless another one of the same identifier
was replayed before and the index contradicted its log. -/
theorem history_inTurn (hb : s.backend.Steady) {archive : ArchiveManager}
    (harchive : s.archive = some archive) {v w : Workspace} (pending : List ArchiveMetadata)
    (hview : ∀ m ∈ pending,
      Archives.SameView archive.store m.archiveId v.archives w.archives)
    (hapart : pending.Pairwise fun m m' =>
      m.archiveId ≠ m'.archiveId ∨ v.archives.Current archive.store m.archiveId) :
    (historyOf (s.inTurn pending w)).map StreamEvent.untimed
      = (historyOf (pending.map fun m => (s.alone m, v))).map StreamEvent.untimed := by
  induction pending generalizing w with
  | nil => rfl
  | cons m rest ih =>
    obtain ⟨hfirst, hothers⟩ := List.pairwise_cons.mp hapart
    have hone : ((s.alone m).history v).map StreamEvent.untimed
        = ((s.alone m).history w).map StreamEvent.untimed := by
      refine (alone_congr hb ?_ (hview m (List.mem_cons_self ..))).1
      intro archive' harchive' a a' request hsame
      rw [harchive] at harchive'
      cases harchive'
      exact hsame.retrieve request
    have hafter : ∀ m' ∈ rest, Archives.SameView archive.store m'.archiveId v.archives
        ((s.alone m).drain w).workspace.archives := by
      intro m' hm'
      refine alone_preserves ?_ (hview m' (List.mem_cons_of_mem _ hm'))
      intro archive' harchive' a request hsame
      rw [harchive] at harchive'
      cases harchive'
      refine hsame.after_retrieve ?_ request
      rcases hfirst m' hm' with hne | hcurrent
      · exact .inl hne
      · by_cases heq : m.archiveId = m'.archiveId
        · exact .inr (heq ▸ hcurrent)
        · exact .inl heq
    have hrest := ih hafter hothers
    rw [historyOf, historyOf] at hrest ⊢
    rw [inTurn, List.map_cons, List.flatMap_cons, List.flatMap_cons, List.map_append,
      List.map_append, hone, hrest]

/-- The clock goes into nothing but the times of items. -/
theorem history_inTurn_of_archives_eq (hb : s.backend.Steady) (pending : List ArchiveMetadata)
    {w w' : Workspace} (hw : w.archives = w'.archives) :
    (historyOf (s.inTurn pending w)).map StreamEvent.untimed
      = (historyOf (s.inTurn pending w')).map StreamEvent.untimed := by
  induction pending generalizing w w' with
  | nil => rfl
  | cons m rest ih =>
    have hR : ∀ archive ∈ s.archive, ∀ a a' request, a = a' →
        ((Archives.retrieve archive.store m.archiveId request).run a).1
            = ((Archives.retrieve archive.store m.archiveId request).run a').1
          ∧ ((Archives.retrieve archive.store m.archiveId request).run a).2
            = ((Archives.retrieve archive.store m.archiveId request).run a').2 := by
      rintro archive - a a' request rfl
      exact ⟨rfl, rfl⟩
    obtain ⟨hone, hafter⟩ := alone_congr hb hR hw
    have hrest := ih hafter
    rw [historyOf, historyOf] at hrest ⊢
    rw [inTurn, inTurn, List.flatMap_cons, List.flatMap_cons, List.map_append, List.map_append,
      hone, hrest]

/-! ## What histories tell -/

/-- Whether a result is a failure. -/
def isError (r : Except BackendError Item) : Bool := !r.isOk

theorem filterMap_untimed (events : List StreamEvent) :
    (events.map StreamEvent.untimed).filterMap StreamEvent.answer?
      = (events.filterMap StreamEvent.answer?).map (Except.map Item.untimed) := by
  rw [List.filterMap_map, List.map_filterMap]
  congr 1
  funext e
  cases e <;> rfl

theorem filterMap_historyOf (parts : List (ItemStream × Workspace)) :
    (historyOf parts).filterMap StreamEvent.answer? = resultsOf parts := by
  rw [historyOf, resultsOf, List.filterMap_flatMap]
  congr 1
  funext a
  exact (a.1.told_drain a.2).1

/-- Streams fail somewhere if there is a failure in what they do. -/
theorem any_historyOf (parts : List (ItemStream × Workspace)) :
    (historyOf parts).any StreamEvent.isFailure = false
      ↔ ∀ a ∈ parts, (a.1.drain a.2).error = none := by
  rw [historyOf, List.any_flatMap, List.any_eq_false]
  refine forall₂_congr fun a _ => ?_
  rw [← error_isSome_drain, Bool.not_eq_true, Option.isSome_eq_false_iff, Option.isNone_iff_eq_none]

/-- A stream that does what some streams do up to the first failure gives what they give up to
there. -/
theorem results_of_history {v : Workspace} {parts : List (ItemStream × Workspace)}
    (h : s.history v = upTo StreamEvent.isFailure (historyOf parts)) :
    (s.drain v).results = upTo isError (resultsOf parts) := by
  rw [← (s.told_drain v).1, h, filterMap_upTo StreamEvent.isFailure_eq, filterMap_historyOf]
  rfl

theorem untimed_results_of_history {v : Workspace} {parts : List (ItemStream × Workspace)}
    (h : (s.history v).map StreamEvent.untimed
      = upTo StreamEvent.isFailure ((historyOf parts).map StreamEvent.untimed)) :
    (s.drain v).results.map (Except.map Item.untimed)
      = upTo isError ((resultsOf parts).map (Except.map Item.untimed)) := by
  rw [← (s.told_drain v).1, ← filterMap_untimed, h, filterMap_upTo StreamEvent.isFailure_eq,
    filterMap_untimed, filterMap_historyOf]
  rfl

theorem exhausted_iff_of_history (hs : s.state = .streaming) {v : Workspace}
    {parts : List (ItemStream × Workspace)}
    (h : (s.history v).map StreamEvent.untimed
      = upTo StreamEvent.isFailure ((historyOf parts).map StreamEvent.untimed)) :
    (s.drain v).stream.state = .exhausted ↔ ∀ a ∈ parts, (a.1.drain a.2).error = none := by
  have hany : ∀ events : List StreamEvent,
      (events.map StreamEvent.untimed).any StreamEvent.isFailure
        = events.any StreamEvent.isFailure := by
    intro events
    rw [List.any_map]
    congr 1
    funext e
    exact e.isFailure_untimed
  have hfailure : (s.history v).any StreamEvent.isFailure
      = (historyOf parts).any StreamEvent.isFailure := by
    rw [← hany, h, any_upTo, hany]
  rw [s.state_drain v hs, s.error_isSome_drain, hfailure, ← any_historyOf]
  cases (historyOf parts).any StreamEvent.isFailure <;> simp

/-- Two streams that replay archives and do the same are gone through alike. -/
theorem alike_of_history {t : ItemStream} {v w : Workspace} (hs : s.state = .streaming)
    (ht : t.state = .streaming) (hseen : t.seen = s.seen)
    (h : (t.history w).map StreamEvent.untimed = (s.history v).map StreamEvent.untimed) :
    (t.drain w).Alike (s.drain v) := by
  obtain ⟨hresults, hlast⟩ := s.told_drain v
  obtain ⟨hresults', hlast'⟩ := t.told_drain w
  have hsame : (t.drain w).results.map (Except.map Item.untimed)
      = (s.drain v).results.map (Except.map Item.untimed) := by
    rw [← hresults, ← hresults', ← filterMap_untimed, ← filterMap_untimed, h]
  have hitems : ∀ c : StreamCourse,
      (c.results.map (Except.map Item.untimed)).filterMap Except.toOption
        = c.items.map Item.untimed := by
    intro c
    rw [← c.filterMap_results.1, List.filterMap_map, List.map_filterMap]
    congr 1
    funext r
    cases r <;> rfl
  have hfailures : ∀ c : StreamCourse,
      (c.results.map (Except.map Item.untimed)).filterMap failure? = c.error.toList := by
    intro c
    rw [← c.filterMap_results.2, List.filterMap_map]
    congr 1
    funext r
    cases r <;> rfl
  have herror : (t.drain w).error = (s.drain v).error := by
    have hlists : (t.drain w).error.toList = (s.drain v).error.toList := by
      rw [← hfailures, ← hfailures, hsame]
    rw [← (t.drain w).error.head?_toList, hlists, Option.head?_toList]
  have hstate : (t.drain w).stream.state = (s.drain v).stream.state := by
    rw [t.state_drain w ht, s.state_drain v hs, herror]
  have hsummary : (t.drain w).stream.seen = (s.drain v).stream.seen := by
    rw [hlast, hlast', hseen, ← FetchSummary.foldl_observe_untimed, h,
      FetchSummary.foldl_observe_untimed]
  refine ⟨?_, herror, hstate, ?_⟩
  · rw [← hitems, ← hitems, hsame]
  · rw [summary, summary, isExhausted, isExhausted, hstate, hsummary]

/-- The arguments with which a replay is begun go into nothing but the origin of its archives. -/
theorem start_replay_congr {b : Backend} {args args' : BackendArgs} {category : String}
    {options : StreamOptions} (hreplay : options.fromArchive = true)
    {built built' : BackendInstance} (hbuild : b.build args = .ok built)
    (hbuild' : b.build args' = .ok built') (horigin : built'.origin = built.origin)
    {w w' : Workspace} (hw : w'.archives = w.archives) {v : Workspace} {s : ItemStream}
    (h : start b args category options w = (.ok s, v)) :
    ∃ v', start b args' category options w' = (.ok s, v') ∧ v'.archives = v.archives
      ∧ (w' = w → v' = v) := by
  obtain ⟨hcategory, tried, htried, hbegun⟩ := start_eq_ok h
  rw [hbuild] at htried
  cases htried
  rw [if_pos hreplay] at hbegun
  obtain ⟨archive, pending, harchive, hsearch, rfl⟩ := replaying_eq_ok hbegun
  dsimp only at harchive hsearch
  rcases hrun : (Archives.search archive.store
    { origin := built.origin, backendName := b.name, category
      archivedAfter := options.archivedAfter }).run w.archives with ⟨r, archives⟩
  simp only [ArchiveManager.search, hrun, Prod.mk.injEq] at hsearch
  obtain ⟨rfl, rfl⟩ := hsearch
  refine ⟨{ w' with archives }, ?_, rfl, fun heq => by rw [heq]⟩
  refine start_replaying hbuild' hcategory hreplay harchive ?_
  rw [ArchiveManager.search, hw, horigin, hrun]

/-- A stream that was begun to replay one archive is the one that replays it alone. -/
theorem eq_alone_of_start {b : Backend} {args : BackendArgs} {category : String}
    {options : StreamOptions} (hreplay : options.fromArchive = true) {w v : Workspace}
    {r : ItemStream} (h : start b args category options w = (.ok r, v)) (hone : r.pending = [m]) :
    r = { backend := b, category, archive := options.archive, pending := [m] } := by
  obtain ⟨-, built, -, hbegun⟩ := start_eq_ok h
  rw [if_pos hreplay] at hbegun
  obtain ⟨archive, pending, -, -, rfl⟩ := replaying_eq_ok hbegun
  rw [← hone]

/-- Replaying several archives is replaying each of them alone.

A stream that replays the archives that were found gives what the streams give that replay one of
them each, one after the other, up to the first failure, and it is at its end exactly if none of
these fails; its last summary is that of all that was done up to there. Each of the streams is the
one that a replay begins which finds its archive and no other one, and for it the backend is set up
anew with the arguments of that archive and is given its responses.

If the fetches of the backend depend on nothing but the responses, the streams may as well all be
gone through in the workspace in which the replay begins. And the replay depends on the arguments
with which it was begun only through the origin that they name: with others it goes alike, also at
another time. -/
theorem replay_composes {b : Backend} {args : BackendArgs} {category : String}
    {options : StreamOptions} (hreplay : options.fromArchive = true) {w v : Workspace}
    {s : ItemStream} (h : start b args category options w = (.ok s, v)) :
    ∃ built archive, b.build args = .ok built ∧ options.archive = some archive
      ∧ archive.search { origin := built.origin, backendName := b.name, category
                         archivedAfter := options.archivedAfter } w = (.ok s.pending, v)
      ∧ (∀ args' bound w' v' r m, start b args' category { options with archivedAfter := bound } w'
          = (.ok r, v') → r.pending = [m] → s.alone m = r)
      ∧ (∀ m w', (s.alone m).history w' = b.replay archive m w')
      ∧ (s.drain v).results = upTo isError (resultsOf (s.inTurn s.pending v))
      ∧ s.history v = upTo StreamEvent.isFailure (historyOf (s.inTurn s.pending v))
      ∧ (s.drain v).stream.seen = (s.history v).foldl FetchSummary.observe {}
      ∧ ((s.drain v).stream.state = .exhausted
        ↔ ∀ a ∈ s.inTurn s.pending v, (a.1.drain a.2).error = none)
      ∧ (b.Steady → v.archives.Settled archive.store (s.pending.map ArchiveMetadata.archiveId) →
        let parts := s.pending.map fun m => (s.alone m, v)
        (s.drain v).results.map (Except.map Item.untimed)
            = upTo isError ((resultsOf parts).map (Except.map Item.untimed))
          ∧ (s.history v).map StreamEvent.untimed
            = upTo StreamEvent.isFailure ((historyOf parts).map StreamEvent.untimed)
          ∧ ((s.drain v).stream.state = .exhausted
            ↔ ∀ m ∈ s.pending, ((s.alone m).drain v).error = none))
      ∧ (∀ args' built' w', b.build args' = .ok built' → built'.origin = built.origin →
        w'.archives = w.archives → ∃ v', start b args' category options w' = (.ok s, v')
          ∧ (w' = w → v' = v) ∧ (b.Steady → (s.drain v').Alike (s.drain v))) := by
  have hstate := state_of_start h
  obtain ⟨-, built, hbuild, hbegun⟩ := start_eq_ok h
  rw [if_pos hreplay] at hbegun
  obtain ⟨archive, pending, harchive, hsearch, hs⟩ := replaying_eq_ok hbegun
  have hactive : s.active = none := by rw [hs]
  have hbackend : s.backend = b := by rw [hs]
  have hbound : s.archive = some archive := by rw [hs]; exact harchive
  have hinTurn := history_eq_inTurn hstate hactive v
  have hexact : (s.history v).map StreamEvent.untimed = upTo StreamEvent.isFailure
      ((historyOf (s.inTurn s.pending v)).map StreamEvent.untimed) := by
    rw [hinTurn, map_upTo StreamEvent.isFailure_untimed]
  refine ⟨built, archive, hbuild, harchive, ?_, ?_, ?_, results_of_history hinTurn, hinTurn, ?_,
    exhausted_iff_of_history hstate hexact, ?_, ?_⟩
  · rw [hs]
    exact hsearch
  · intro args' bound w' v' r m hstart hone
    have hbegins : { options with archivedAfter := bound }.fromArchive = true := hreplay
    rw [eq_alone_of_start hbegins hstart hone, alone, hs]
  · intro m w'
    rw [history_alone hbound, hbackend]
  · rw [(s.told_drain v).2, seen_of_start h]
  · intro hsteady hsettled parts
    obtain ⟨entry, hopen, hfree⟩ := hsettled.unlimited
    have halone : (s.history v).map StreamEvent.untimed
        = upTo StreamEvent.isFailure ((historyOf parts).map StreamEvent.untimed) := by
      rw [hexact, history_inTurn (hbackend ▸ hsteady) hbound s.pending
        (fun m _ => .refl hopen hfree m.archiveId) (List.pairwise_map.mp hsettled.apart)]
    refine ⟨untimed_results_of_history halone, halone, ?_⟩
    rw [exhausted_iff_of_history hstate halone]
    exact List.forall_mem_map
  · intro args' built' w' hbuild' horigin hw
    obtain ⟨v', hstart, hv, hsame⟩ := start_replay_congr hreplay hbuild hbuild' horigin hw h
    refine ⟨v', hstart, hsame, fun hsteady => alike_of_history hstate hstate rfl ?_⟩
    rw [hexact, history_eq_inTurn hstate hactive v', map_upTo StreamEvent.isFailure_untimed,
      history_inTurn_of_archives_eq (hbackend ▸ hsteady) s.pending hv]

end ItemStream

/-! ## A replay of two archives -/

namespace TwoArchives

open ItemStream (start historyOf resultsOf isError filterMap_historyOf replay_composes)

/-- The description of an archive of the backend with two items. -/
def description (archiveId : String) : ArchiveMetadata := { TwoItems.description with archiveId }

/-- The responses to the requests for some pages. -/
def responses (pages : List UInt64) : Keyed String :=
  .ofList <| pages.map fun page =>
    let request := TwoItems.script.request page
    (request.archiveKey, (TwoItems.script.respond request).toOption.getD "")

/-- Two archives. The first one has all responses that its backend asks for, and the second one only
those to the first request. -/
def store : MemoryStore where
  archives := .ofList [("a", ⟨description "a", responses [0, 1, 2]⟩),
    ("b", ⟨description "b", responses [0]⟩)]

/-- A workspace with the archives. -/
def workspace : Workspace :=
  { TwoItems.workspace with archives := { stores := [⟨.memory store, {}⟩] } }

theorem search_store :
    TwoItems.archive.search TwoItems.query workspace
      = (.ok [description "a", description "b"], workspace) := by
  have haccepts : (store.archives.values.map (·.description)).filter TwoItems.query.accepts
      = [description "a", description "b"] := by
    rfl
  have hselect : TwoItems.query.select (store.archives.values.map (·.description))
      = [description "a", description "b"] := by
    rw [ArchiveQuery.select, haccepts]
    exact List.mergeSort_of_pairwise (by decide +kernel)
  have hopen : workspace.archives.stores[TwoItems.archive.store]? = some ⟨.memory store, {}⟩ := rfl
  have hrun : (MemoryStore.search TwoItems.query).run store
      = (.ok [description "a", description "b"], store) := by
    rw [← hselect]
    rfl
  rw [ArchiveManager.search, Archives.search, Archives.call_of_memory hopen _ _ _ hrun]
  rfl

/-- The name of an item, or a failure in words. -/
def named : Except BackendError Item → String
  | .ok item => item.uuid
  | .error e => e.message

/-- The replay gives the two items of the first archive, and then the item of the second one and its
failure. -/
theorem replay_store : ∃ s,
    start .archiving TwoItems.args "item" { archive := some TwoItems.archive, fromArchive := true }
        workspace = (.ok s, workspace)
      ∧ s.pending = [description "a", description "b"]
      ∧ (s.drain workspace).results.map (Except.map Item.untimed)
        = upTo isError ((resultsOf (s.pending.map fun m => (s.alone m, workspace))).map
          (Except.map Item.untimed))
      ∧ (s.drain workspace).results.map named = ["item-0", "item-1", "item-0",
        "no archived response for " ++ (TwoItems.script.request 1).archiveKey] := by
  have hstart : start .archiving TwoItems.args "item"
      { archive := some TwoItems.archive, fromArchive := true } workspace
        = (.ok { backend := .archiving, category := "item", archive := some TwoItems.archive
                 pending := [description "a", description "b"] }, workspace) := by
    have hcategory : Backend.archiving.supportsCategory "item" = true := by decide
    exact ItemStream.start_replaying TwoItems.build_args hcategory rfl rfl search_store
  have hsettled : workspace.archives.Settled TwoItems.archive.store
      ([description "a", description "b"].map ArchiveMetadata.archiveId) :=
    Archives.settled_of_memory rfl rfl _
  obtain ⟨built, archive, hbuild, harchive, -, -, hreplay, -, -, -, -, hparts, -⟩ :=
    replay_composes rfl hstart
  cases harchive
  obtain ⟨hresults, -⟩ := hparts (Backend.steady_scripted "archiving" "0.1.0" .all) hsettled
  refine ⟨_, hstart, rfl, hresults, ?_⟩
  have huntimed : named = named ∘ Except.map Item.untimed := by
    funext r
    cases r <;> rfl
  rw [huntimed, ← List.map_map, hresults, ← filterMap_historyOf, historyOf, List.flatMap_map]
  simp only [hreplay]
  decide +kernel

end TwoArchives

end Intake
