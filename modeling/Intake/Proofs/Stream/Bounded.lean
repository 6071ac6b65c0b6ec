import Intake.Proofs.Backend.Unread
import Intake.Proofs.Stream.Composition
import Intake.Proofs.Stream.Lifecycle

/-!
# Replays come to an end

A stream that replays archives by a scripted backend comes to its end or fails, whatever the store
holds: keys and bodies of any kind, descriptions of any kind, and logs that cannot be read. What
gets less is the number of responses that are unread, in the archive that is being replayed and in
those still to come (`ItemStream.Rereads`). Each item takes at least one of them, and a step that
gives no item is the last one (`ItemStream.Rereads.moves`).

So a stream over archives that hold `n` responses in all has ended after `n + 1` steps, and has
asked for `n + 1` responses at most (`ItemStream.replay_ends`). An archive that is replayed twice
counts twice. The one request more is the one that is not answered.

A fetch goes over as many pages as there are numbers for them. It never comes to the last of them
while there are more than responses: with a lower limit the stream goes the same way
(`ItemStream.drain_scriptedWithin`).
-/

namespace Intake

-- one meaning of zero, whatever is imported beside
attribute [local instance (high)] Zero.ofOfNat0
-- and of powers
attribute [local instance (high)] instPowNat

open StreamEvent (asks asks_append)

/-! ## The responses of several archives -/

namespace Archives

variable {a a' : Archives} {number : Nat}

/-- How many responses a store holds for archives that are replayed one after the other. -/
def heldBy (a : Archives) (number : Nat) (archives : List ArchiveMetadata) : Nat :=
  (archives.map fun m => (a.held number m.archiveId).size).sum

theorem heldBy_cons (a : Archives) (number : Nat) (m : ArchiveMetadata)
    (rest : List ArchiveMetadata) :
    a.heldBy number (m :: rest) = (a.held number m.archiveId).size + a.heldBy number rest := by
  rw [heldBy, List.map_cons, List.sum_cons, heldBy]

theorem HoldsWithin.heldBy_le (h : HoldsWithin number a a') (archives : List ArchiveMetadata) :
    a'.heldBy number archives ≤ a.heldBy number archives := by
  induction archives with
  | nil => exact Nat.le_refl _
  | cons m rest ih =>
    rw [heldBy_cons, heldBy_cons]
    exact Nat.add_le_add (h.size_le m.archiveId) ih

end Archives

/-- Replaying an archive the store comes to hold nothing more. -/
theorem Fetch.holdsWithin_advance (f : Fetch) {p : FetchProgress} {archive : ArchiveManager}
    {archiveId : String} (hmode : p.source.mode = .replay archive archiveId) :
    p.workspace.archives.HoldsWithin archive.store (f.advance p).2.workspace.archives := by
  refine f.keeps_advance
    (P := fun w => p.workspace.archives.HoldsWithin archive.store w.archives)
    (fun w h => h) ?_ (.refl _ _)
  rw [hmode]
  exact fun request w h => h.trans (w.archives.holdsWithin_retrieve archive.store archiveId request)

namespace ItemStream

variable {name version : String} {capabilities : Capabilities} {archive : ArchiveManager}

/-! ## One step -/

/-- A stream that replays archives by a scripted backend. -/
structure Replays (name version : String) (capabilities : Capabilities) (archive : ArchiveManager)
    (s : ItemStream) : Prop where
  state : s.state = .streaming
  backend : s.backend = .scripted name version capabilities
  manager : s.archive = some archive

/-- Such a stream with at most so many responses unread: in the archive that is being replayed, and
in those still to come. -/
structure Rereads (name version : String) (capabilities : Capabilities) (archive : ArchiveManager)
    (a : Archives) (left : Nat) (s : ItemStream) : Prop
    extends Replays name version capabilities archive s where
  unread : ∃ now,
    (∀ f, s.active = some f → Script.Rereads name version archive a now f.fetch f.source)
      ∧ now + a.heldBy archive.store s.pending ≤ left

/-- What a step leaves of a stream that had at most so many responses unread, when it has asked for
so many: less of them, after an item, or a stream that has ended. -/
inductive Moves (name version : String) (capabilities : Capabilities) (archive : ArchiveManager)
    (left asks : Nat) : ItemStream → Archives → Prop where
  | item {s : ItemStream} {a : Archives} {left' : Nat}
      (hrest : s.Rereads name version capabilities archive a left')
      (hasks : 0 < asks) (hleft : asks + left' ≤ left) :
      Moves name version capabilities archive left asks s a
  | stop {s : ItemStream} {a : Archives} (hstate : s.state ≠ .streaming) (hasks : asks ≤ left + 1) :
      Moves name version capabilities archive left asks s a

/-- Responses of another archive were asked for before. -/
theorem Moves.after {left left' asks : Nat} {s : ItemStream} {a : Archives}
    (h : Moves name version capabilities archive left asks s a) {before : Nat}
    (hbefore : before + left ≤ left') :
    Moves name version capabilities archive left' (before + asks) s a := by
  cases h with
  | item hrest hasks hleft => exact .item hrest (by omega) (by omega)
  | stop hstate hasks => exact .stop hstate (by omega)

/-- A stream goes on with a fetch; after the fetch has ended it goes on with the archives that are
left. -/
theorem moves_proceed {s : ItemStream} {f : ActiveFetch} {w : Workspace} {now left : Nat}
    (hs : s.Replays name version capabilities archive)
    (hf : Script.Rereads name version archive w.archives now f.fetch f.source)
    (hleft : now + w.archives.heldBy archive.store s.pending ≤ left)
    {onEnd : ItemStream → Workspace → Next} {endEvents : ItemStream → Workspace → List StreamEvent}
    (hend : ∀ seen v, Moves name version capabilities archive
      (v.archives.heldBy archive.store s.pending)
      (asks (endEvents { s with active := none, seen } v))
      (onEnd { s with active := none, seen } v).2.1
      (onEnd { s with active := none, seen } v).2.2.archives) :
    Moves name version capabilities archive left (asks (s.proceedEvents f w endEvents))
      (s.proceed f w onEnd).2.1 (s.proceed f w onEnd).2.2.archives := by
  obtain ⟨archiveId, hmode⟩ := hf.mode
  have hwithin : w.archives.HoldsWithin archive.store _ :=
    f.fetch.holdsWithin_advance (p := ⟨f.source, s.seen, w⟩) hmode
  have hstops := Script.Rereads.stops (p := ⟨f.source, s.seen, w⟩) hf
  unfold proceedEvents proceed
  rcases hadvance : f.fetch.advance ⟨f.source, s.seen, w⟩ with ⟨stop, q⟩
  rw [hadvance] at hstops hwithin
  have hheld := hwithin.heldBy_le s.pending
  cases hstops with
  | @item item rest q now' hrest hasks hnow =>
    dsimp only at hheld ⊢
    rw [List.append_nil]
    refine .item ⟨⟨hs.state, hs.backend, hs.manager⟩, now', ?_, Nat.le_refl _⟩ hasks ?_
    · rintro g ⟨⟩
      exact hrest
    · show _ + (now' + q.workspace.archives.heldBy archive.store s.pending) ≤ left
      omega
  | ended hasks =>
    dsimp only at hheld ⊢
    rw [asks_append]
    exact (hend q.summary q.workspace).after (by omega)
  | failed hasks =>
    dsimp only at hheld ⊢
    rw [List.append_nil]
    exact .stop (by rintro ⟨⟩) (by omega)

/-- A stream between two archives goes on with the ones that are left. -/
theorem moves_nextArchived (pending : List ArchiveMetadata) {s : ItemStream} (w : Workspace)
    (hs : s.Replays name version capabilities archive) :
    Moves name version capabilities archive (w.archives.heldBy archive.store pending)
      (asks (archivedEvents pending s w)) (nextArchived pending s w).2.1
      (nextArchived pending s w).2.2.archives := by
  induction pending generalizing s w with
  | nil => exact .stop (by rintro ⟨⟩) (Nat.zero_le _)
  | cons m rest ih =>
    rw [archivedEvents, nextArchived]
    obtain ⟨e, he⟩ | ⟨manager, built, hmanager, hbuild, ha⟩ := s.activate_cases m
    · rw [he]
      exact .stop (by rintro ⟨⟩) (Nat.zero_le _)
    · rw [ha]
      cases hs.manager.symm.trans hmanager
      rw [hs.backend] at hbuild
      refine moves_proceed (s := { s with pending := rest }) ⟨hs.state, hs.backend, hs.manager⟩
        (Script.rereads_of_build hbuild w.archives rfl) ?_ fun seen v => ih v ?_
      · exact Nat.le_of_eq (w.archives.heldBy_cons archive.store m rest).symm
      · exact ⟨hs.state, hs.backend, hs.manager⟩

/-- A step of a stream that replays archives asks for responses that are unread, or it is the last
one. -/
theorem Rereads.moves {s : ItemStream} {w : Workspace} {left : Nat}
    (h : s.Rereads name version capabilities archive w.archives left) :
    Moves name version capabilities archive left (asks (s.events w)) (s.next w).2.1
      (s.next w).2.2.archives := by
  obtain ⟨now, hactive, hleft⟩ := h.unread
  unfold events next
  rw [h.state]
  cases hsome : s.active with
  | some f =>
    exact moves_proceed h.toReplays (hactive f hsome) hleft fun seen v =>
      moves_nextArchived s.pending v ⟨h.state, h.backend, h.manager⟩
  | none =>
    have hall : 0 + w.archives.heldBy archive.store s.pending ≤ left := by omega
    have hmoves := (moves_nextArchived s.pending w h.toReplays).after hall
    rwa [Nat.zero_add] at hmoves

/-! ## All steps -/

/-- A stream that replays archives has ended after one step more than there are unread responses. -/
theorem Rereads.ends {s : ItemStream} {w : Workspace} {left : Nat}
    (h : s.Rereads name version capabilities archive w.archives left) :
    ∃ n ≤ left + 1, (s.afterSteps w n).1.state ≠ .streaming := by
  induction left using Nat.strongRecOn generalizing s w with
  | ind left ih =>
    cases h.moves with
    | @item left' hrest hasks hleft =>
      obtain ⟨n, hn, hended⟩ := ih left' (by omega) hrest
      exact ⟨n + 1, by omega, hended⟩
    | stop hstate _ => exact ⟨1, Nat.le_add_left 1 left, hstate⟩

/-- A stream that replays archives asks for no more responses than are unread, and one more. -/
theorem Rereads.asks_eventsIn_le {s : ItemStream} {w : Workspace} {left : Nat}
    (h : s.Rereads name version capabilities archive w.archives left) (n : Nat) :
    asks (s.eventsIn w n) ≤ left + 1 := by
  induction n generalizing s w left with
  | zero => exact Nat.zero_le _
  | succ n ih =>
    rw [eventsIn, asks_append]
    cases h.moves with
    | item hrest hasks hleft =>
      have hle := ih hrest
      omega
    | stop hstate hasks =>
      rw [(quiet hstate (s.next w).2.2 n).2.1]
      exact hasks

end ItemStream

/-! ## Numbers of pages -/

/-- A scripted backend whose fetches stop after so many pages. -/
def Backend.scriptedWithin (pages : Nat) (name version : String) (capabilities : Capabilities) :
    Backend :=
  { scripted name version capabilities with
    build := fun args => do
      let s ← Script.ofArgs args
      return { origin := s.origin
               fetch := s.fetchPages name version pages 0 0
               transport := fun _ => s.respond } }

/-- The fetches of a scripted backend stop after all pages that have a number. -/
theorem Backend.scriptedWithin_all (name version : String) (capabilities : Capabilities) :
    scriptedWithin (2 ^ (64 : Nat)) name version capabilities
      = scripted name version capabilities := rfl

/-- The stream with another backend. -/
def ItemStream.withBackend (s : ItemStream) (b : Backend) : ItemStream := { s with backend := b }

/-- The course that ends in the stream with another backend. -/
def StreamCourse.withBackend (c : StreamCourse) (b : Backend) : StreamCourse :=
  { c with stream := c.stream.withBackend b }

namespace ItemStream

variable {name version : String} {capabilities : Capabilities} {archive : ArchiveManager}
  {s : ItemStream} {w : Workspace}

theorem activate_scriptedWithin (name version : String) (capabilities : Capabilities)
    (hmanager : s.archive = some archive) (pages : Nat) (m : ArchiveMetadata) :
    (s.withBackend (.scriptedWithin pages name version capabilities)).activate m
      = (Script.ofArgs m.backendArgs).map fun script => ⟨script.fetchPages name version pages 0 0,
          ⟨fun _ => script.respond, .replay archive m.archiveId, []⟩⟩ := by
  simp only [activate, withBackend, hmanager, Backend.scriptedWithin]
  cases Script.ofArgs m.backendArgs <;> rfl

/-- A stream goes the same way for any two numbers of pages that are larger than the number of
responses. -/
theorem drain_scriptedWithin {pages pages' : Nat} (hstate : s.state = .streaming)
    (hmanager : s.archive = some archive) (hactive : s.active = none)
    (hheld : w.archives.heldBy archive.store s.pending < pages) (hle : pages ≤ pages')
    (hpages : pages' ≤ 2 ^ (64 : Nat)) :
    (s.withBackend (.scriptedWithin pages name version capabilities)).drain w
      = ((s.withBackend (.scriptedWithin pages' name version capabilities)).drain w).withBackend
        (.scriptedWithin pages name version capabilities) := by
  generalize hpending : s.pending = pending at hheld
  induction pending generalizing s w with
  | nil =>
    have hdrain : ∀ b, (s.withBackend b).drain w
        = ⟨[], none, { s.withBackend b with state := .exhausted }, w⟩ := fun b =>
      drain_of_pending_nil (s := s.withBackend b) hstate hactive hpending w
    rw [hdrain, hdrain]
    rfl
  | cons m rest ih =>
    rw [Archives.heldBy_cons] at hheld
    have hactivate := s.activate_scriptedWithin name version capabilities hmanager (m := m)
    cases hscript : Script.ofArgs m.backendArgs with
    | error e =>
      rw [hscript] at hactivate
      have hnext := fun n =>
        next_of_activate_error (s := s.withBackend (.scriptedWithin n name version capabilities))
          hstate hactive hpending (hactivate n) w
      rw [drain_of_error (hnext pages), drain_of_error (hnext pages')]
      rfl
    | ok script =>
      rw [hscript] at hactivate
      have hunread : script.unread (w.archives.held archive.store m.archiveId) 0 < pages := by
        rw [script.unread_zero]
        exact Nat.lt_of_le_of_lt (Nat.le_add_right _ _) hheld
      let p : FetchProgress :=
        ⟨⟨fun _ => script.respond, .replay archive m.archiveId, []⟩, s.seen, w⟩
      have hfetch : (script.fetchPages name version pages' 0 0).drain p
          = (script.fetchPages name version pages 0 0).drain p :=
        script.drain_fetchPages_of_unread_lt 0 rfl hunread hle (show 0 + pages' ≤ _ by omega)
      have hwithin : w.archives.HoldsWithin archive.store
          ((script.fetchPages name version pages 0 0).drain p).progress.workspace.archives :=
        Fetch.drain_replay_preserves _ (P := w.archives.HoldsWithin archive.store)
          (fun a request h => h.trans (a.holdsWithin_retrieve archive.store m.archiveId request))
          _ s.seen (.refl _ _)
      have hdrain := fun n =>
        let t := s.withBackend (.scriptedWithin n name version capabilities)
        (drain_of_activate (s := t) hstate hactive hpending (hactivate n) w).trans
          (drain_resume (s := { t with pending := rest }) hstate
            (script.fetchPages name version n 0 0) p)
      rw [hdrain pages, hdrain pages', hfetch]
      generalize (script.fetchPages name version pages 0 0).drain p = c at hwithin
      cases c.error with
      | some e => rfl
      | none =>
        -- the archives that are left hold no more than they did
        have hrest := ih (s := { s with pending := rest }.afterFetch c.progress) hstate hmanager rfl
          rfl (Nat.lt_of_le_of_lt (hwithin.heldBy_le rest)
            (Nat.lt_of_le_of_lt (Nat.le_add_left _ _) hheld))
        exact congrArg (·.after c.items) hrest

/-! ## Replays -/

/-- A replay comes to an end, whatever is stored. Where the archives that it finds hold `held`
responses in all, the stream has come to its end or failed after `held + 1` steps, and it never asks
for more than `held + 1` responses. That numbers of pages are limited has no part in this: a stream
with any limit above `held` goes the same way. -/
theorem replay_ends {args : BackendArgs} {category : String} {bound : Option Instant}
    {v : Workspace}
    (hstart : start (.scripted name version capabilities) args category
      { archive := some archive, fromArchive := true, archivedAfter := bound } w = (.ok s, v)) :
    let held := (s.pending.map fun m => (v.archives.held archive.store m.archiveId).size).sum
    (∃ n ≤ held + 1,
        (s.afterSteps v n).1.state = .exhausted ∨ (s.afterSteps v n).1.state = .failed)
      ∧ (∀ n, ((s.eventsIn v n).filterMap StreamEvent.request?).length ≤ held + 1)
      ∧ ∀ pages, held < pages → pages ≤ 2 ^ (64 : Nat) →
        (s.withBackend (.scriptedWithin pages name version capabilities)).drain v
          = (s.drain v).withBackend (.scriptedWithin pages name version capabilities) := by
  intro held
  obtain ⟨-, built, -, hreplaying⟩ := start_eq_ok hstart
  rw [if_pos rfl] at hreplaying
  obtain ⟨manager, pending, hmanager, -, rfl⟩ := replaying_eq_ok hreplaying
  have hrereads : Rereads name version capabilities archive v.archives held _ :=
    ⟨⟨rfl, rfl, rfl⟩, 0, by rintro f ⟨⟩, Nat.le_of_eq (Nat.zero_add held)⟩
  obtain ⟨n, hn, hended⟩ := hrereads.ends
  refine ⟨⟨n, hn, ?_⟩, hrereads.asks_eventsIn_le, fun pages hheld hpages => ?_⟩
  · generalize (afterSteps _ v n).1.state = state at hended
    cases state with
    | streaming => exact absurd rfl hended
    | exhausted => exact .inl rfl
    | failed => exact .inr rfl
  · exact drain_scriptedWithin rfl rfl rfl hheld hpages (Nat.le_refl _)

/-- An archive with a record, a page that is no document and a response that is of no page. -/
theorem replay_ends_at_malformed_page :
    let responses : Keyed String := .ofList
      [(TwoItems.script.pageKey 0, (Script.record 0).written), (TwoItems.script.pageKey 1, "?"),
        ("elsewhere", "null")]
    let w : Workspace := { TwoItems.workspace with archives := TwoItems.keeping responses }
    ∃ s, start .archiving TwoItems.args "item"
        { archive := some TwoItems.archive, fromArchive := true } w = (.ok s, w)
      ∧ (∃ n ≤ 4, (s.afterSteps w n).1.state = .exhausted ∨ (s.afterSteps w n).1.state = .failed)
      ∧ (∀ n, ((s.eventsIn w n).filterMap StreamEvent.request?).length ≤ 4)
      ∧ (s.withBackend (.scriptedWithin 4 "archiving" "0.1.0" .all)).drain w
        = (s.drain w).withBackend (.scriptedWithin 4 "archiving" "0.1.0" .all) := by
  intro responses w
  obtain ⟨s, hstart, hpending⟩ := TwoItems.start_keeping responses (w := w) rfl
  have hheld : (s.pending.map fun m =>
      (w.archives.held TwoItems.archive.store m.archiveId).size).sum = 3 := by
    rw [hpending]
    decide +kernel
  obtain ⟨hends, hasks, hpages⟩ := replay_ends hstart
  rw [hheld] at hends hasks hpages
  exact ⟨s, hstart, hends, hasks, hpages 4 (by decide) (by decide)⟩

end ItemStream

end Intake
