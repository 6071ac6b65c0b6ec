import Intake.Proofs.Stream.Drain
import Intake.Work

/-!
# How a stream begins

A stream that begins has a backend that has the category and accepts the arguments. It either
replays what the archive of its options finds for the origin (`ItemStream.replaying_eq_ok`), or it
asks the data source, with a new archive if there is one to record into
(`ItemStream.fetching_eq_ok`). In either case nothing was seen yet. An archive that is replayed has
its turn later (`ItemStream.activate_cases`).
-/

namespace Intake

namespace ItemStream

/-- A replay begins with the archives that are found for its origin. -/
theorem replaying_eq_ok {blank s : ItemStream} {origin : String} {bound : Option Instant}
    {w v : Workspace} (h : blank.replaying origin bound w = (.ok s, v)) :
    ∃ archive pending, blank.archive = some archive
      ∧ archive.search { origin, backendName := blank.backend.name, category := blank.category
                         archivedAfter := bound } w = (.ok pending, v)
      ∧ s = { blank with pending } := by
  unfold replaying at h
  split at h
  · simp at h
  · rename_i archive harchive
    rcases hsearch : archive.search
      { origin, backendName := blank.backend.name, category := blank.category
        archivedAfter := bound } w with ⟨e | pending, w'⟩
    · simp [hsearch, Except.map] at h
    · simp only [hsearch, Except.map, Work.mapError_ok, Prod.mk.injEq, Except.ok.injEq] at h
      obtain ⟨rfl, rfl⟩ := h
      exact ⟨archive, pending, harchive, hsearch, rfl⟩

/-- What a stream that asks the data source does with the responses: it drops them, or it records
them into an archive that was made for them. -/
inductive Begun (blank : ItemStream) (args : BackendArgs) (origin : String) (w : Workspace) :
    SourceMode → Workspace → Prop where
  | live (h : blank.archive = none) : Begun blank args origin w .live w
  | recording {archive : ArchiveManager} {m : ArchiveMetadata} {v : Workspace}
      (h : blank.archive = some archive)
      (hm : archive.createArchive origin blank.backend blank.category args w = (.ok m, v)) :
      Begun blank args origin w (.recording archive m.archiveId) v

/-- A stream that asks the data source begins with the fetch of its backend. -/
theorem fetching_eq_ok {blank s : ItemStream} {args : BackendArgs} {built : BackendInstance}
    {w v : Workspace} (h : blank.fetching args built w = (.ok s, v)) :
    ∃ mode, Begun blank args built.origin w mode v
      ∧ s = { blank with
        active := some ⟨built.fetch, { transport := built.transport, mode }⟩ } := by
  unfold fetching at h
  cases harchive : blank.archive with
  | none =>
    simp only [harchive, Prod.mk.injEq, Except.ok.injEq] at h
    obtain ⟨rfl, rfl⟩ := h
    exact ⟨.live, .live harchive, rfl⟩
  | some archive =>
    simp only [harchive] at h
    rcases hm : archive.createArchive built.origin blank.backend blank.category args w
      with ⟨e | m, w'⟩
    · simp [hm, Except.map] at h
    · simp only [hm, Except.map, Work.mapError_ok, Prod.mk.injEq, Except.ok.injEq] at h
      obtain ⟨rfl, rfl⟩ := h
      exact ⟨.recording archive m.archiveId, .recording harchive hm, rfl⟩

/-- The ways in which a stream begins. -/
theorem start_eq_ok {backend : Backend} {args : BackendArgs} {category : String}
    {options : StreamOptions} {w v : Workspace} {s : ItemStream}
    (h : start backend args category options w = (.ok s, v)) :
    backend.supportsCategory category = true ∧ ∃ built, backend.build args = .ok built ∧
      (if options.fromArchive then
        replaying { backend, category, archive := options.archive } built.origin
          options.archivedAfter w
      else fetching { backend, category, archive := options.archive } args built w)
        = (.ok s, v) := by
  unfold start at h
  split at h
  · rename_i hcategory
    cases hbuild : backend.build args with
    | error e => simp [hbuild] at h
    | ok built =>
      simp only [hbuild] at h
      exact ⟨hcategory, built, rfl, h⟩
  · simp at h

/-- Without an archive a stream begins with the fetch of its backend. -/
theorem start_live {b : Backend} {args : BackendArgs} {built : BackendInstance}
    (hbuild : b.build args = .ok built) {category : String}
    (hcategory : b.supportsCategory category = true) (after : Option Instant) (w : Workspace) :
    start b args category { archivedAfter := after } w
      = (.ok (resume { backend := b, category } built.fetch ⟨⟨built.transport, .live, []⟩, {}, w⟩),
        w) := by
  rw [start, if_pos hcategory, hbuild]
  rfl

/-- With an archive it begins with the fetch as well, which is recorded into a new one. -/
theorem start_recording {b : Backend} {args : BackendArgs} {built : BackendInstance}
    (hbuild : b.build args = .ok built) {category : String}
    (hcategory : b.supportsCategory category = true) {archive : ArchiveManager} {w v : Workspace}
    {m : ArchiveMetadata}
    (hcreate : archive.createArchive built.origin b category args w = (.ok m, v)) :
    start b args category { archive := some archive } w
      = (.ok (resume { backend := b, category, archive := some archive } built.fetch
          ⟨⟨built.transport, .recording archive m.archiveId, []⟩, {}, v⟩), v) := by
  simp only [start, hcategory, hbuild, if_true, Bool.false_eq_true, if_false, fetching, hcreate]
  rfl

/-- A replay begins with the archives that are found. -/
theorem start_replaying {b : Backend} {args : BackendArgs} {built : BackendInstance}
    (hbuild : b.build args = .ok built) {category : String}
    (hcategory : b.supportsCategory category = true) {options : StreamOptions}
    (hreplay : options.fromArchive = true) {archive : ArchiveManager}
    (harchive : options.archive = some archive) {pending : List ArchiveMetadata} {w v : Workspace}
    (hsearch : archive.search { origin := built.origin, backendName := b.name, category
                                archivedAfter := options.archivedAfter } w = (.ok pending, v)) :
    start b args category options w
      = (.ok { backend := b, category, archive := options.archive, pending }, v) := by
  rw [start, if_pos hcategory, hbuild]
  dsimp only
  rw [if_pos hreplay, replaying]
  dsimp only
  rw [harchive]
  dsimp only
  rw [hsearch]
  rfl

/-- A stream that begins has seen nothing. -/
theorem seen_of_start {backend : Backend} {args : BackendArgs} {category : String}
    {options : StreamOptions} {w v : Workspace} {s : ItemStream}
    (h : start backend args category options w = (.ok s, v)) : s.seen = {} := by
  obtain ⟨-, built, -, h⟩ := start_eq_ok h
  split at h
  · obtain ⟨archive, pending, -, -, rfl⟩ := replaying_eq_ok h
    rfl
  · obtain ⟨mode, -, rfl⟩ := fetching_eq_ok h
    rfl

/-- The fetch of an archive is that of the backend built from the arguments in the description, and
its responses come from the archive. -/
theorem activate_cases (s : ItemStream) (m : ArchiveMetadata) :
    (∃ e, s.activate m = .error e)
      ∨ ∃ archive built, s.archive = some archive ∧ s.backend.build m.backendArgs = .ok built
        ∧ s.activate m
          = .ok ⟨built.fetch, ⟨built.transport, .replay archive m.archiveId, []⟩⟩ := by
  unfold activate
  cases harchive : s.archive with
  | none => exact .inl ⟨_, rfl⟩
  | some archive =>
    cases hbuild : s.backend.build m.backendArgs with
    | error e => exact .inl ⟨e, rfl⟩
    | ok built => exact .inr ⟨archive, built, rfl, rfl, rfl⟩

end ItemStream

end Intake
