import Intake.Proofs.Stream.Start

/-!
# What a stream does to its workspace

A stream gets to its workspace in two ways: it reads the clock, and it asks its source, which may
store or retrieve a response. So what both preserve of a workspace, every step of the stream
preserves (`ItemStream.Keeps.next`). Which source a stream asks does not change while it goes
through one fetch; the archives that are still to be replayed are asked in their turn.

A live stream has nothing to do with archives: it goes the same way whatever they are, and leaves
them (`ItemStream.IsLive.next`).
-/

namespace Intake

variable {P : Workspace → Prop}

/-! ## What is kept -/

/-- What is stored or retrieved for a source keeps a property of the workspace. -/
def SourceMode.Keeps (P : Workspace → Prop) : SourceMode → Prop
  | .live => True
  | .recording archive archiveId =>
    ∀ request body w, P w → P (archive.record archiveId request body w).2
  | .replay archive archiveId => ∀ request w, P w → P (archive.retrieve archiveId request w).2

/-- The sources that a stream asks, now and for the archives still to be replayed, keep a property
of the workspace. -/
structure ItemStream.Keeps (P : Workspace → Prop) (s : ItemStream) : Prop where
  active : ∀ a, s.active = some a → a.source.mode.Keeps P
  pending : ∀ m ∈ s.pending, ∀ archive, s.archive = some archive →
    (SourceMode.replay archive m.archiveId).Keeps P

theorem ResponseSource.mode_fetch (s : ResponseSource) (request : Request) (w : Workspace) :
    (s.fetch request w).2.1.mode = s.mode := by
  obtain ⟨t, mode, asked⟩ := s
  cases mode with
  | live => rfl
  | recording archive archiveId =>
    simp only [fetch, askTransport]
    cases t asked request with
    | error e => rfl
    | ok body => rfl
  | replay archive archiveId => rfl

theorem ResponseSource.keeps_fetch {s : ResponseSource} (hmode : s.mode.Keeps P)
    (request : Request) {w : Workspace} (h : P w) : P (s.fetch request w).2.2 := by
  obtain ⟨t, mode, asked⟩ := s
  cases mode with
  | live => exact h
  | recording archive archiveId =>
    simp only [fetch, askTransport]
    cases t asked request with
    | error e => exact h
    | ok body => exact hmode request body w h
  | replay archive archiveId => exact hmode request w h

theorem Fetch.mode_advance (f : Fetch) (p : FetchProgress) :
    (f.advance p).2.source.mode = p.source.mode := by
  induction f generalizing p with
  | ask request next ih =>
    rw [advance, ih]
    exact p.source.mode_fetch request p.workspace
  | skip next ih => exact ih { p with summary := p.summary.skip }
  | remark value next ih => exact ih { p with summary := p.summary.setExtras value }
  | replaying next ih => exact ih _ p
  | now next ih =>
    exact ih _ { p with workspace := { p.workspace with supply := p.workspace.supply.now.2 } }
  | give item rest => rfl
  | done => rfl
  | fail e => rfl

section Keeps

variable (hnow : ∀ w, P w → P { w with supply := w.supply.now.2 })
include hnow

theorem Fetch.keeps_advance (f : Fetch) {p : FetchProgress} (hmode : p.source.mode.Keeps P)
    (h : P p.workspace) : P (f.advance p).2.workspace := by
  induction f generalizing p with
  | ask request next ih =>
    rw [advance]
    have hmode' : (p.source.fetch request p.workspace).2.1.mode.Keeps P := by
      rwa [ResponseSource.mode_fetch]
    exact ih _ hmode' (ResponseSource.keeps_fetch hmode request h)
  | skip next ih => exact @ih { p with summary := p.summary.skip } hmode h
  | remark value next ih => exact @ih { p with summary := p.summary.setExtras value } hmode h
  | replaying next ih => exact ih _ hmode h
  | now next ih =>
    exact @ih _ { p with workspace := { p.workspace with supply := p.workspace.supply.now.2 } }
      hmode (hnow _ h)
  | give item rest => exact h
  | done => exact h
  | fail e => exact h

namespace ItemStream

theorem keeps_proceed {s : ItemStream} {a : ActiveFetch} (ha : a.source.mode.Keeps P)
    (hs : s.Keeps P) {w : Workspace} (h : P w) {onEnd : ItemStream → Workspace → Next}
    (hend : ∀ t v, { t with pending := s.pending }.Keeps P → P v →
      (onEnd t v).2.1.Keeps P ∧ P (onEnd t v).2.2) :
    (s.proceed a w onEnd).2.1.Keeps P ∧ P (s.proceed a w onEnd).2.2 := by
  have hmode := a.fetch.mode_advance ⟨a.source, s.seen, w⟩
  have hkept := a.fetch.keeps_advance hnow (p := ⟨a.source, s.seen, w⟩) ha h
  unfold proceed
  rcases hadvance : a.fetch.advance ⟨a.source, s.seen, w⟩ with ⟨stop, p⟩
  rw [hadvance] at hmode hkept
  cases stop with
  | item item rest =>
    refine ⟨⟨?_, hs.pending⟩, hkept⟩
    rintro active ⟨⟩
    exact hmode ▸ ha
  | ended => exact hend _ _ ⟨by rintro active ⟨⟩, hs.pending⟩ hkept
  | failed e => exact ⟨⟨by rintro active ⟨⟩, by rintro m ⟨⟩⟩, hkept⟩

theorem keeps_nextArchived (pending : List ArchiveMetadata) {s : ItemStream} {w : Workspace}
    (hs : { s with pending }.Keeps P) (h : P w) :
    (nextArchived pending s w).2.1.Keeps P ∧ P (nextArchived pending s w).2.2 := by
  induction pending generalizing s w with
  | nil => exact ⟨⟨hs.active, by rintro m ⟨⟩⟩, h⟩
  | cons m rest ih =>
    rw [nextArchived]
    have hrest : { s with pending := rest }.Keeps P :=
      ⟨hs.active, fun m' hmem => hs.pending m' (.tail _ hmem)⟩
    obtain ⟨e, he⟩ | ⟨archive, built, harchive, -, ha⟩ := s.activate_cases m
    · rw [he]
      exact ⟨⟨by rintro active ⟨⟩, by rintro m ⟨⟩⟩, h⟩
    · rw [ha]
      exact keeps_proceed hnow (hs.pending m (.head _) archive harchive) hrest h
        fun t v ht hv => ih ht hv

/-- A step of a stream keeps what its sources keep. -/
theorem Keeps.next {s : ItemStream} (hs : s.Keeps P) {w : Workspace} (h : P w) :
    (s.next w).2.1.Keeps P ∧ P (s.next w).2.2 := by
  unfold ItemStream.next
  split
  · split
    · rename_i a hactive
      exact keeps_proceed hnow (hs.active a hactive) hs h fun t v ht hv =>
        keeps_nextArchived hnow s.pending ht hv
    · exact keeps_nextArchived hnow s.pending hs h
  · exact ⟨hs, h⟩

end ItemStream

end Keeps

/-! ## Live streams -/

/-- A source that is live answers the same whatever the archives are. -/
theorem Fetch.advance_of_live (f : Fetch) {p : FetchProgress} (hlive : p.source.mode = .live)
    (a : Archives) :
    f.advance { p with workspace := { p.workspace with archives := a } }
      = ((f.advance p).1, { (f.advance p).2 with
          workspace := { (f.advance p).2.workspace with archives := a } }) := by
  induction f generalizing p with
  | ask request next ih =>
    have hfetch : ∀ w, p.source.fetch request w
        = ((p.source.askTransport request).1, (p.source.askTransport request).2, w) := by
      intro w
      rw [ResponseSource.fetch, hlive]
    rw [advance, advance, hfetch, hfetch]
    exact @ih _ ⟨(p.source.askTransport request).2, p.summary, p.workspace⟩ hlive
  | skip next ih => exact @ih { p with summary := p.summary.skip } hlive
  | remark value next ih => exact @ih { p with summary := p.summary.setExtras value } hlive
  | replaying next ih => exact ih _ hlive
  | now next ih =>
    exact @ih _ { p with workspace := { p.workspace with supply := p.workspace.supply.now.2 } }
      hlive
  | give item rest => rfl
  | done => rfl
  | fail e => rfl

namespace ItemStream

/-- A stream that asks a live source and replays nothing. -/
structure IsLive (s : ItemStream) : Prop where
  active : ∀ a, s.active = some a → a.source.mode = .live
  pending : s.pending = []

/-- A live stream keeps whatever reading the clock keeps. -/
theorem IsLive.keeps {s : ItemStream} (h : s.IsLive) (P : Workspace → Prop) : s.Keeps P where
  active a ha := by
    rw [h.active a ha]
    trivial
  pending m hm := by
    rw [h.pending] at hm
    cases hm

/-- A live stream goes the same way whatever the archives are, and leaves them. -/
theorem IsLive.next {s : ItemStream} (h : s.IsLive) (w : Workspace) (a : Archives) :
    s.next { w with archives := a }
        = ((s.next w).1, (s.next w).2.1, { (s.next w).2.2 with archives := a })
      ∧ (s.next w).2.1.IsLive := by
  unfold ItemStream.next
  rw [h.pending]
  split
  · split
    · rename_i active hactive
      have hmode := active.fetch.mode_advance ⟨active.source, s.seen, w⟩
      have hadvance := active.fetch.advance_of_live (p := ⟨active.source, s.seen, w⟩)
        (h.active active hactive) a
      rw [proceed, proceed, hadvance]
      rcases hrun : active.fetch.advance ⟨active.source, s.seen, w⟩ with ⟨stop, p⟩
      rw [hrun] at hmode
      cases stop with
      | item item rest =>
        refine ⟨rfl, ?_, h.pending⟩
        rintro other ⟨⟩
        exact hmode.trans (h.active active hactive)
      | ended => exact ⟨rfl, by rintro other ⟨⟩, rfl⟩
      | failed e => exact ⟨rfl, by rintro other ⟨⟩, rfl⟩
    · exact ⟨rfl, h.active, rfl⟩
  · exact ⟨rfl, h⟩

end ItemStream

end Intake
