import Intake.Proofs.Archive.Kept
import Intake.Proofs.Backend.Steady
import Intake.Proofs.Stream.Drain
import Intake.Proofs.Stream.Start

/-!
# Recording and replaying

A steady fetch that is recorded does what it would do without an archive, request by request
(`Fetch.Alike.drain_recording`), and the archive keeps the responses that the transport gave. When
the fetch is run again and takes its responses from the archive, it gets the same ones, provided
that no request failed and that requests under one key had one response; so it does the same again,
and the transport is not asked (`Fetch.Alike.drain_replay`).

`ItemStream.record_replay` says both of streams.
-/

namespace Intake

/-! ## What a transport answers -/

namespace Transport

/-- The requests that a transport was asked, in their order, with its answers. They are given from
the latest to the first. -/
def exchanges (t : Transport) : List Request → List (Request × Except BackendError String)
  | [] => []
  | request :: earlier => t.exchanges earlier ++ [(request, t earlier request)]

/-- The response of an exchange, if there was one. -/
def response? : Request × Except BackendError String → Option LoggedResponse
  | (request, .ok body) => some ⟨request.archiveKey, body⟩
  | (_, .error _) => none

/-- The responses that a transport gave. -/
def responses (t : Transport) (asked : List Request) : List LoggedResponse :=
  (t.exchanges asked).filterMap response?

/-- No request failed, and requests under one key had one response. -/
structure Repeatable (t : Transport) (asked : List Request) : Prop where
  complete : ∀ e ∈ t.exchanges asked, e.2.isOk = true
  consistent : ∀ r ∈ t.responses asked, ∀ r' ∈ t.responses asked, r.key = r'.key → r.body = r'.body

instance (t : Transport) (asked : List Request) : Decidable (t.Repeatable asked) :=
  decidable_of_iff
    ((∀ e ∈ t.exchanges asked, e.2.isOk = true)
      ∧ ∀ r ∈ t.responses asked, ∀ r' ∈ t.responses asked, r.key = r'.key → r.body = r'.body)
    ⟨fun h => ⟨h.1, h.2⟩, fun h => ⟨h.complete, h.consistent⟩⟩

theorem responses_cons_of_ok {t : Transport} {asked : List Request} {request : Request}
    {body : String} (h : t asked request = .ok body) :
    t.responses (request :: asked) = t.responses asked ++ [⟨request.archiveKey, body⟩] := by
  rw [responses, exchanges, List.filterMap_append, h]
  rfl

theorem responses_cons_of_error {t : Transport} {asked : List Request} {request : Request}
    {e : BackendError} (h : t asked request = .error e) :
    t.responses (request :: asked) = t.responses asked := by
  rw [responses, exchanges, List.filterMap_append, h]
  exact List.append_nil _

theorem mem_exchanges {t : Transport} {asked earlier : List Request} {request : Request}
    (h : request :: earlier <:+ asked) : (request, t earlier request) ∈ t.exchanges asked := by
  induction asked with
  | nil => exact absurd h (by simp)
  | cons latest asked ih =>
    rw [exchanges, List.mem_append]
    rcases List.suffix_cons_iff.mp h with heq | hsuffix
    · cases heq
      exact .inr (.head _)
    · exact .inl (ih hsuffix)

/-- What is kept of the responses under the key of a request is its response. -/
theorem Repeatable.get?_firsts {t : Transport} {asked earlier : List Request} {request : Request}
    (h : t.Repeatable asked) (hasked : request :: earlier <:+ asked) :
    ∃ body, t earlier request = .ok body
      ∧ (ResponseLog.firsts (t.responses asked)).get? request.archiveKey = some body := by
  have hmem := mem_exchanges (t := t) hasked
  have hok := h.complete _ hmem
  cases hbody : t earlier request with
  | error e =>
    rw [hbody] at hok
    cases hok
  | ok body =>
    refine ⟨body, rfl, ?_⟩
    have hresponse : ⟨request.archiveKey, body⟩ ∈ t.responses asked := by
      refine List.mem_filterMap.mpr ⟨_, hmem, ?_⟩
      rw [hbody]
      rfl
    rw [ResponseLog.get?_firsts]
    cases hfind : (t.responses asked).find? (·.key = request.archiveKey) with
    | none => exact absurd (List.find?_eq_none.mp hfind _ hresponse) (by simp)
    | some first =>
      have hkey : first.key = request.archiveKey := by simpa using List.find?_some hfind
      have hsame := h.consistent _ (List.mem_of_find?_eq_some hfind) _ hresponse hkey
      rw [Option.map_some, hsame]

end Transport

/-! ## Fetches -/

namespace Fetch

/-- What was asked before a fetch is run was asked before all that is asked then. -/
theorem asked_suffix_drain (f : Fetch) (p : FetchProgress) :
    p.source.asked <:+ (f.drain p).progress.source.asked := by
  have hfetch : ∀ (s : ResponseSource) (request : Request) (w : Workspace),
      s.asked <:+ (s.fetch request w).2.1.asked := by
    intro s request w
    obtain ⟨t, mode, asked⟩ := s
    cases mode with
    | live => exact List.suffix_cons request asked
    | recording archive archiveId =>
      simp only [ResponseSource.fetch, ResponseSource.askTransport]
      cases t asked request with
      | error e => exact List.suffix_cons request asked
      | ok body => exact List.suffix_cons request asked
    | replay archive archiveId => exact List.suffix_refl asked
  induction f generalizing p with
  | ask request next ih =>
    rw [drain]
    exact (hfetch p.source request p.workspace).trans
      (ih _ ⟨(p.source.fetch request p.workspace).2.1, p.summary, _⟩)
  | skip next ih => exact ih { p with summary := p.summary.skip }
  | remark value next ih => exact ih { p with summary := p.summary.setExtras value }
  | replaying next ih => exact ih p.source.isReplay p
  | now next ih =>
    exact ih p.workspace.supply.now.1
      { p with workspace := { p.workspace with supply := p.workspace.supply.now.2 } }
  | give item rest ih => exact ih { p with summary := p.summary.update item }
  | done => exact List.suffix_refl _
  | fail e => exact List.suffix_refl _

end Fetch

/-- Fetches that gave the same items apart from the clock, failed in the same way if they failed,
and have the same summary. -/
structure FetchCourse.Alike (c c' : FetchCourse) : Prop where
  items : c.items.map Item.untimed = c'.items.map Item.untimed
  error : c.error = c'.error
  summary : c.progress.summary = c'.progress.summary

theorem FetchSummary.update_congr (s : FetchSummary) {item item' : Item}
    (h : item.untimed = item'.untimed) : s.update item = s.update item' := by
  show s.update item.untimed = s.update item'.untimed
  rw [h]

theorem FetchCourse.Alike.symm {c c' : FetchCourse} (h : c.Alike c') : c'.Alike c :=
  ⟨h.items.symm, h.error.symm, h.summary.symm⟩

theorem FetchCourse.Alike.trans {c c' c'' : FetchCourse} (h : c.Alike c') (h' : c'.Alike c'') :
    c.Alike c'' :=
  ⟨h.items.trans h'.items, h.error.trans h'.error, h.summary.trans h'.summary⟩

theorem FetchCourse.Alike.cons {c c' : FetchCourse} (h : c.Alike c') {item item' : Item}
    (hitem : item.untimed = item'.untimed) :
    FetchCourse.Alike { c with items := item :: c.items }
      { c' with items := item' :: c'.items } where
  items := by rw [List.map_cons, List.map_cons, hitem, h.items]
  error := h.error
  summary := h.summary

/-- One fetch went like another one, which was recorded and whose responses an archive keeps. -/
structure FetchCourse.Recorded (t : Transport) (number : Nat) (archiveId : String)
    (c c' : FetchCourse) : Prop where
  alike : c.Alike c'
  asked : c.progress.source.asked = c'.progress.source.asked
  keeps : c'.progress.workspace.archives.Keeps number archiveId
    (t.responses c.progress.source.asked)

/-- One fetch went like another one, which asked nothing of the data source and left the archives as
they were. -/
structure FetchCourse.Replayed (a : Archives) (c c' : FetchCourse) : Prop where
  alike : c.Alike c'
  asked : c'.progress.source.asked = []
  unread : c'.progress.workspace.archives.unread = a.unread

namespace Fetch.Alike

variable {f g : Fetch} {t : Transport} {archive : ArchiveManager} {archiveId : String}

/-- A fetch that is recorded does what a fetch without an archive does, and the archive keeps the
responses. -/
theorem drain_recording (h : Alike f g) (asked : List Request) (summary : FetchSummary)
    (v w : Workspace)
    (hkeeps : w.archives.Keeps archive.store archiveId (t.responses asked)) :
    (f.drain ⟨⟨t, .live, asked⟩, summary, v⟩).Recorded t archive.store archiveId
      (g.drain ⟨⟨t, .recording archive archiveId, asked⟩, summary, w⟩) := by
  induction h generalizing asked summary v w with
  | ask request _ ih =>
    simp only [drain, ResponseSource.fetch, ResponseSource.askTransport]
    cases hanswer : t asked request with
    | error e =>
      refine ih _ _ _ _ _ ?_
      rwa [Transport.responses_cons_of_error hanswer]
    | ok body =>
      obtain ⟨archives, hstore, hkept⟩ := hkeeps.store request body
      simp only [ArchiveManager.record, hstore]
      refine ih _ _ _ _ _ ?_
      rwa [Transport.responses_cons_of_ok hanswer]
  | skip _ ih => exact ih _ _ _ _ hkeeps
  | remark value _ ih => exact ih _ _ _ _ hkeeps
  | now _ ih =>
    exact ih v.supply.now.1 w.supply.now.1 asked summary { v with supply := v.supply.now.2 }
      { w with supply := w.supply.now.2 } hkeeps
  | @give item item' rest rest' hitem _ ih =>
    have hrest := ih asked (summary.update item) v w hkeeps
    simp only [drain, ← summary.update_congr hitem]
    exact ⟨hrest.alike.cons hitem, hrest.asked, hrest.keeps⟩
  | done => exact ⟨⟨rfl, rfl, rfl⟩, rfl, hkeeps⟩
  | fail e => exact ⟨⟨rfl, rfl, rfl⟩, rfl, hkeeps⟩

/-- A fetch that is replayed does what a live one does if the archive keeps all responses that the
live one gets. -/
theorem drain_replay (h : Alike f g) (t' : Transport) {rs : List LoggedResponse}
    (asked : List Request) (summary : FetchSummary) (v w : Workspace)
    (hkeeps : w.archives.Keeps archive.store archiveId rs)
    (hanswers : ∀ request earlier,
      request :: earlier <:+ (f.drain ⟨⟨t, .live, asked⟩, summary, v⟩).progress.source.asked →
        ∃ body, t earlier request = .ok body
          ∧ (ResponseLog.firsts rs).get? request.archiveKey = some body) :
    (f.drain ⟨⟨t, .live, asked⟩, summary, v⟩).Replayed w.archives
      (g.drain ⟨⟨t', .replay archive archiveId, []⟩, summary, w⟩) := by
  induction h generalizing asked summary v w with
  | @ask request next next' _ ih =>
    have hasked : request :: asked
        <:+ ((Fetch.ask request next).drain ⟨⟨t, .live, asked⟩, summary, v⟩
          ).progress.source.asked :=
      asked_suffix_drain (next (t asked request)) ⟨⟨t, .live, request :: asked⟩, summary, v⟩
    obtain ⟨body, hbody, hkept⟩ := hanswers request asked hasked
    obtain ⟨archives, hretrieve, hkeeps', hunread⟩ := hkeeps.retrieve request
    rw [DirectoryStore.answer, hkept] at hretrieve
    simp only [drain, ResponseSource.fetch, ResponseSource.askTransport, hbody] at hanswers ⊢
    simp only [ArchiveManager.retrieve, hretrieve]
    have hrest := ih (.ok body) (request :: asked) summary v { w with archives } hkeeps' hanswers
    exact ⟨hrest.alike, hrest.asked, hrest.unread.trans hunread⟩
  | skip _ ih => exact ih _ _ _ _ hkeeps hanswers
  | remark value _ ih => exact ih _ _ _ _ hkeeps hanswers
  | now _ ih =>
    exact ih v.supply.now.1 w.supply.now.1 asked summary { v with supply := v.supply.now.2 }
      { w with supply := w.supply.now.2 } hkeeps hanswers
  | @give item item' rest rest' hitem _ ih =>
    have hrest := ih asked (summary.update item) v w hkeeps hanswers
    simp only [drain, ← summary.update_congr hitem]
    exact ⟨hrest.alike.cons hitem, hrest.asked, hrest.unread⟩
  | done => exact ⟨⟨rfl, rfl, rfl⟩, rfl, rfl⟩
  | fail e => exact ⟨⟨rfl, rfl, rfl⟩, rfl, rfl⟩

end Fetch.Alike

/-! ## Streams -/

/-- Streams that gave the same items apart from the clock, ended in the same state and with the same
failure if there was one, and have the same summary. -/
structure StreamCourse.Alike (c c' : StreamCourse) : Prop where
  items : c.items.map Item.untimed = c'.items.map Item.untimed
  error : c.error = c'.error
  state : c.stream.state = c'.stream.state
  summary : c.stream.summary = c'.stream.summary

/-- Backends whose instances fetch in the same way; their transports may be different. -/
def Backend.SameFetches (b b' : Backend) : Prop :=
  ∀ args, (b.build args).map BackendInstance.fetch = (b'.build args).map BackendInstance.fetch

namespace ItemStream

/-- Streams are alike if each has nothing but a fetch, and the fetches are alike. -/
theorem alike_drain_resume {s s' : ItemStream} (hstate : s.state = .streaming)
    (hpending : s.pending = []) (hstate' : s'.state = .streaming) (hpending' : s'.pending = [])
    {f g : Fetch} {p q : FetchProgress} (h : (f.drain p).Alike (g.drain q)) :
    ((s.resume f p).drain p.workspace).Alike ((s'.resume g q).drain q.workspace) := by
  obtain ⟨t, hdrain, hseen, hended⟩ := drain_resume_of_pending_nil hstate hpending f p
  obtain ⟨t', hdrain', hseen', hended'⟩ := drain_resume_of_pending_nil hstate' hpending' g q
  have hsame : t.state = t'.state := by
    rw [hended, hended', h.error]
  rw [hdrain, hdrain']
  refine ⟨h.items, h.error, hsame, ?_⟩
  rw [summary, summary, isExhausted, isExhausted, hsame, hseen, hseen', h.summary]

/-- The requests that the data source is asked by the active fetch of a stream until its end, from
the latest to the first. -/
def asked (s : ItemStream) (w : Workspace) : List Request :=
  s.active.elim [] fun a => (a.fetch.drain ⟨a.source, s.seen, w⟩).progress.source.asked

theorem asked_resume (s : ItemStream) (f : Fetch) (p : FetchProgress) :
    (s.resume f p).asked p.workspace = (f.drain p).progress.source.asked := rfl

/-- A stream that replays one archive and no other one, by a backend that fetches as a given one
does: how it was begun, in one workspace and left in another one. -/
inductive Replaying (b : Backend) (archive : ArchiveManager) (m : ArchiveMetadata)
    (w v : Workspace) (r : ItemStream) : Prop where
  | begun {b' : Backend} {args : BackendArgs} {category : String} {bound : Option Instant}
      (hfetches : b.SameFetches b')
      (hstart : start b' args category
        { archive := some archive, fromArchive := true, archivedAfter := bound } w = (.ok r, v))
      (hpending : r.pending = [m])

/-- A replaying stream goes on with the fetch of the archive. -/
theorem Replaying.resume {b : Backend} {archive : ArchiveManager} {m : ArchiveMetadata}
    {w v : Workspace} {r : ItemStream} (h : Replaying b archive m w v r) {built : BackendInstance}
    (hbuild : b.build m.backendArgs = .ok built) :
    ∃ (transport : Transport) (query : ArchiveQuery), (archive.search query w).2 = v
      ∧ r.seen = {} ∧ r.state = .streaming
      ∧ r.activate m = .ok ⟨built.fetch, ⟨transport, .replay archive m.archiveId, []⟩⟩
      ∧ r.drain v = (ItemStream.resume { r with pending := [] } built.fetch
        ⟨⟨transport, .replay archive m.archiveId, []⟩, {}, v⟩).drain v := by
  obtain ⟨hfetches, hstart, hpending⟩ := h
  rename_i b' args category bound
  obtain ⟨-, tried, -, hreplaying⟩ := start_eq_ok hstart
  rw [if_pos rfl] at hreplaying
  obtain ⟨archive', pending, harchive, hsearch, rfl⟩ := replaying_eq_ok hreplaying
  cases harchive
  have hfetch := hfetches m.backendArgs
  rw [hbuild] at hfetch
  cases hbuild' : b'.build m.backendArgs with
  | error e =>
    rw [hbuild'] at hfetch
    cases hfetch
  | ok built' =>
    rw [hbuild'] at hfetch
    have hsame : built.fetch = built'.fetch := Except.ok.inj hfetch
    have hactivate : activate { backend := b', category, archive := some archive, pending } m
        = .ok ⟨built.fetch, ⟨built'.transport, .replay archive m.archiveId, []⟩⟩ := by
      rw [hsame]
      show (b'.build m.backendArgs >>= fun built => pure _) = _
      rw [hbuild']
      rfl
    refine ⟨built'.transport, _, congrArg Prod.snd hsearch, rfl, rfl, hactivate, ?_⟩
    exact drain_of_activate rfl rfl hpending hactivate v

/-- Recording changes nothing, and replaying gives the same again.

A stream that records into a new archive gives what a stream without an archive gives, in any
workspace, and the archive keeps the responses. If no request has failed and requests under one key
had one response, a stream that replays the archive and no other one gives the same, through any
store that keeps these responses and whatever transports its backend has; it asks them nothing and
leaves the archives as they are. -/
theorem record_replay {b : Backend} (hb : b.Steady) {args : BackendArgs} {built : BackendInstance}
    (hbuild : b.build args = .ok built) {category : String}
    (hcategory : b.supportsCategory category = true) {archive : ArchiveManager} {w v : Workspace}
    (hready : w.archives.Ready archive.store w.supply.fresh.1.text) {m : ArchiveMetadata}
    (hcreate : archive.createArchive built.origin b category args w = (.ok m, v)) :
    ∃ s, start b args category { archive := some archive } w = (.ok s, v)
      ∧ (∀ w', ∃ live, start b args category {} w' = (.ok live, w')
        ∧ (live.drain w').Alike (s.drain v))
      ∧ (s.drain v).stream.state = (if (s.drain v).error.isSome then .failed else .exhausted)
      ∧ (s.drain v).workspace.archives.Keeps archive.store m.archiveId
        (built.transport.responses (s.asked v))
      ∧ (built.transport.Repeatable (s.asked v) → ∀ reader w' v' r,
        w'.archives.Keeps reader.store m.archiveId (built.transport.responses (s.asked v)) →
        Replaying b reader m w' v' r →
          (r.drain v').Alike (s.drain v)
            ∧ (r.drain v').workspace.archives.unread = w'.archives.unread
            ∧ ∃ a, r.activate m = .ok a
              ∧ (a.fetch.drain ⟨a.source, r.seen, v'⟩).progress.source.asked = []) := by
  have hsteady : built.fetch.Steady := hb args built hbuild
  obtain ⟨hargs, hempty⟩ := ArchiveManager.keeps_createArchive hready hcreate
  have hrecorded (w' : Workspace) :
      (built.fetch.drain ⟨⟨built.transport, .live, []⟩, {}, w'⟩).Recorded built.transport
        archive.store m.archiveId
        (built.fetch.drain ⟨⟨built.transport, .recording archive m.archiveId, []⟩, {}, v⟩) :=
    hsteady.drain_recording [] {} w' v hempty
  obtain ⟨s', hrun, -, hstate⟩ := drain_resume_of_pending_nil
    (s := { backend := b, category, archive := some archive }) rfl rfl built.fetch
    ⟨⟨built.transport, .recording archive m.archiveId, []⟩, {}, v⟩
  refine ⟨_, start_recording hbuild hcategory hcreate, fun w' => ?_, ?_, ?_, ?_⟩
  · refine ⟨_, start_live hbuild hcategory none w', ?_⟩
    exact alike_drain_resume rfl rfl rfl rfl (hrecorded w').alike
  · rw [hrun]
    exact hstate
  · have hkeeps := (hrecorded v).keeps
    rw [(hrecorded v).asked] at hkeeps
    rw [hrun]
    exact hkeeps
  · intro hrepeatable reader w' v' r hkeeps hreplaying
    rw [← hargs] at hbuild
    obtain ⟨transport, query, hsearch, hseen, hstreaming, hactivate, hdrain⟩ :=
      hreplaying.resume hbuild
    have hsearched : v'.archives = w'.archives := by
      rw [← hsearch]
      exact hkeeps.search query
    have hanswers : ∀ request earlier, request :: earlier
        <:+ (built.fetch.drain ⟨⟨built.transport, .live, []⟩, {}, v⟩).progress.source.asked →
          ∃ body, built.transport earlier request = .ok body
            ∧ (ResponseLog.firsts (built.transport.responses
              (built.fetch.drain ⟨⟨built.transport, .recording archive m.archiveId, []⟩, {}, v⟩
                ).progress.source.asked)).get? request.archiveKey = some body := by
      rw [(hrecorded v).asked]
      exact fun request earlier hasked => hrepeatable.get?_firsts hasked
    have hreplayed := hsteady.drain_replay transport [] {} v v' (hsearched ▸ hkeeps) hanswers
    refine ⟨?_, ?_, _, hactivate, ?_⟩
    · rw [hdrain]
      exact alike_drain_resume (s := { r with pending := [] }) hstreaming rfl rfl rfl
        (hreplayed.alike.symm.trans (hrecorded v).alike)
    · obtain ⟨r', hrun', -⟩ := drain_resume_of_pending_nil (s := { r with pending := [] })
        hstreaming rfl built.fetch ⟨⟨transport, .replay reader m.archiveId, []⟩, {}, v'⟩
      rw [hdrain, hrun', ← hsearched]
      exact hreplayed.unread
    · rw [hseen]
      exact hreplayed.asked

end ItemStream

/-! ## A recording of two items -/

namespace TwoItems

open ItemStream (start)

/-- The arguments of a scripted backend that has two items. -/
def args : BackendArgs := Keyed.empty.insert "items" (.ofUInt64 2)

/-- The script that the arguments tell. -/
def script : Script := { origin := Script.defaultOrigin, items := 2 }

/-- A workspace with an empty store in memory. -/
def workspace : Workspace where
  archives := { stores := [{ store := .memory {} }] }
  supply := {
    clock := fun _ => .epoch
    identifiers := fun _ => .sequential 0 0 }

/-- Access to the store. -/
def archive : ArchiveManager := ⟨"memory", 0⟩

/-- The instance that the arguments build. -/
def built : BackendInstance where
  origin := script.origin
  fetch := script.fetch "archiving" "0.1.0"
  transport := fun _ => script.respond

/-- The archive that is recorded into. -/
def description : ArchiveMetadata where
  archiveId := workspace.supply.fresh.1.text
  origin := script.origin
  backendName := "archiving"
  backendVersion := "0.1.0"
  category := "item"
  backendArgs := args
  createdAt := .epoch

/-- The workspace with the archive. -/
def recording : Workspace :=
  (archive.createArchive script.origin Backend.archiving "item" args workspace).2

/-- The requests of the recording. -/
def asked : List Request :=
  (built.fetch.drain ⟨⟨built.transport, .recording archive description.archiveId, []⟩, {},
    recording⟩).progress.source.asked

/-- A store in memory in which the archive keeps some responses. -/
def store (responses : Keyed String) : MemoryStore :=
  ⟨Keyed.empty.insert description.archiveId { description, responses }⟩

/-- Archives with nothing but that store. -/
def keeping (responses : Keyed String) : Archives where
  stores := [⟨.memory (store responses), {}⟩]

theorem build_args : Backend.archiving.build args = .ok built := by
  have hscript : Script.ofArgs args = .ok script := by rfl
  show (Script.ofArgs args >>= fun s => pure _) = _
  rw [hscript]
  rfl

theorem keeping_recording : recording.archives = keeping .empty := by
  rfl

theorem store_store (responses : Keyed String) (request : Request) (body : String) :
    (MemoryStore.store description.archiveId request body).run (store responses)
      = (.ok (), store (responses.insertNew request.archiveKey body)) := by
  have hfound : (store responses).archives.get? description.archiveId
      = some { description, responses } := Keyed.get?_insert_self ..
  rw [MemoryStore.store_of_get? hfound]
  have hinsert : (store responses).archives.insert description.archiveId
        { description, responses := responses.insertNew request.archiveKey body }
      = (store (responses.insertNew request.archiveKey body)).archives := Keyed.insert_insert ..
  exact congrArg (fun archives => ((Except.ok () : Except ArchiveError Unit),
    MemoryStore.mk archives)) hinsert

theorem record_keeping (responses : Keyed String) (request : Request) (body : String)
    {w : Workspace} (h : w.archives = keeping responses) :
    archive.record description.archiveId request body w
      = (.ok (), { w with archives := keeping (responses.insertNew request.archiveKey body) }) := by
  have hopen : (keeping responses).stores[archive.store]?
      = some ⟨.memory (store responses), {}⟩ := rfl
  rw [ArchiveManager.record, h, Archives.store,
    Archives.call_of_memory hopen _ _ _ (store_store responses request body)]
  rfl

/-- A fetch that is recorded leaves the store with the responses that it got. -/
theorem drain_keeping (f : Fetch) (asked : List Request) (summary : FetchSummary) {w : Workspace}
    (h : w.archives = keeping (ResponseLog.firsts (built.transport.responses asked))) :
    (f.drain ⟨⟨built.transport, .recording archive description.archiveId, asked⟩, summary, w⟩
        ).progress.workspace.archives
      = keeping (ResponseLog.firsts (built.transport.responses (f.drain
        ⟨⟨built.transport, .recording archive description.archiveId, asked⟩, summary, w⟩
          ).progress.source.asked)) := by
  induction f generalizing asked summary w with
  | ask request next ih =>
    simp only [Fetch.drain, ResponseSource.fetch, ResponseSource.askTransport]
    cases hanswer : built.transport asked request with
    | error e =>
      refine ih _ _ _ ?_
      rwa [Transport.responses_cons_of_error hanswer]
    | ok body =>
      simp only [record_keeping _ request body h]
      refine ih _ _ _ ?_
      rw [Transport.responses_cons_of_ok hanswer, ResponseLog.firsts_append]
  | skip next ih => exact ih asked summary.skip h
  | remark value next ih => exact ih asked (summary.setExtras value) h
  | replaying next ih => exact ih false asked summary h
  | now next ih =>
    exact ih w.supply.now.1 asked summary (w := { w with supply := w.supply.now.2 }) h
  | give item rest ih => exact ih asked (summary.update item) h
  | done => exact h
  | fail e => exact h

/-- What a stream of the backend looks for. -/
def query : ArchiveQuery where
  origin := built.origin
  backendName := Backend.archiving.name
  category := "item"

theorem search_keeping (responses : Keyed String) {w : Workspace}
    (h : w.archives = keeping responses) : archive.search query w = (.ok [description], w) := by
  have hselect : query.select [description] = [description] := by
    have haccepts : query.accepts description = true := by decide +kernel
    rw [ArchiveQuery.select, List.filter_cons_of_pos haccepts, List.filter_nil,
      List.mergeSort_singleton]
  have hrun : (MemoryStore.search query).run (store responses)
      = (.ok [description], store responses) := by
    rw [← hselect]
    rfl
  have hopen : (keeping responses).stores[archive.store]?
      = some ⟨.memory (store responses), {}⟩ := rfl
  rw [ArchiveManager.search, h, Archives.search, Archives.call_of_memory hopen _ _ _ hrun]
  show (_, { w with archives := keeping responses }) = _
  rw [← h]

theorem start_keeping (responses : Keyed String) {w : Workspace}
    (h : w.archives = keeping responses) : ∃ r,
    start Backend.archiving args "item" { archive := some archive, fromArchive := true } w
        = (.ok r, w)
      ∧ r.pending = [description] := by
  have hcategory : Backend.archiving.supportsCategory "item" = true := by decide
  have hsearch := search_keeping responses h
  exact ⟨_, ItemStream.start_replaying build_args hcategory rfl rfl hsearch, rfl⟩

/-- The two items are recorded, and replayed from what the recording leaves. -/
theorem replay_recording : ∃ s r,
    start Backend.archiving args "item" { archive := some archive } workspace = (.ok s, recording)
      ∧ s.asked recording = asked ∧ asked.length = 3
      ∧ start Backend.archiving args "item" { archive := some archive, fromArchive := true }
        (s.drain recording).workspace = (.ok r, (s.drain recording).workspace)
      ∧ (r.drain (s.drain recording).workspace).Alike (s.drain recording) := by
  have hcategory : Backend.archiving.supportsCategory "item" = true := by decide
  have hready : workspace.archives.Ready archive.store workspace.supply.fresh.1.text := .memory rfl
  have hcreate : archive.createArchive built.origin Backend.archiving "item" args workspace
      = (.ok description, recording) := by
    rfl
  obtain ⟨s, hstart, -, -, hkeeps, hreplay⟩ := ItemStream.record_replay
    (Backend.steady_scripted "archiving" "0.1.0" .all) build_args hcategory hready hcreate
  have hs := hstart.symm.trans (ItemStream.start_recording build_args hcategory hcreate)
  rw [Prod.mk.injEq, Except.ok.injEq] at hs
  have hasked : s.asked recording = asked := by
    rw [hs.1]
    exact ItemStream.asked_resume _ _ _
  have hleft : (s.drain recording).workspace.archives
      = keeping (ResponseLog.firsts (built.transport.responses asked)) := by
    obtain ⟨s', hdrain, -⟩ := ItemStream.drain_resume_of_pending_nil
      (s := { backend := Backend.archiving, category := "item", archive := some archive }) rfl rfl
      built.fetch ⟨⟨built.transport, .recording archive description.archiveId, []⟩, {}, recording⟩
    have hworkspace : (s.drain recording).workspace = (built.fetch.drain ⟨⟨built.transport,
        .recording archive description.archiveId, []⟩, {}, recording⟩).progress.workspace := by
      rw [hs.1, hdrain]
    rw [hworkspace]
    exact drain_keeping built.fetch [] {} keeping_recording
  have hrepeatable : built.transport.Repeatable asked := by decide +kernel
  have hlength : asked.length = 3 := by decide +kernel
  obtain ⟨r, hbegun, hpending⟩ := start_keeping _ hleft
  rw [hasked] at hreplay hkeeps
  obtain ⟨halike, -⟩ := hreplay hrepeatable archive _ _ r hkeeps
    (.begun (fun _ => rfl) hbegun hpending)
  exact ⟨s, r, hstart, hasked, hlength, hbegun, halike⟩

end TwoItems

end Intake
