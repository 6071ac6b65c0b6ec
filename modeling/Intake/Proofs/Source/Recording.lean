import Intake.Proofs.Archive.FirstWins
import Intake.Proofs.Archive.Seen
import Intake.Proofs.Stream.Replay

/-!
# Sources that record and replay

What a source gives for requests, one after the other, is `ResponseSource.fetchAll`. A recording
source gives what a live one does, whatever the transport answers and however often a request is
made; the archive then holds the first response that there was under each key, unless it held one
before (`ResponseSource.fetchAll_recording`). A replaying source never asks the transport and
changes no archive (`ResponseSource.fetchAll_replay`).

It answers every request with what the archive holds if and only if the index of its store does not
say something else (`ResponseSource.record_then_replay`). A store that has not read the archive has
nothing in its index, and the index of a store that has stored all that was stored since it read the
archive says what is held.
-/

namespace Intake

open DirectoryStore (answer)

/-- What a transport that was asked some requests before answers to others, one after the other. -/
def Transport.answers (t : Transport) (asked : List Request) :
    List Request → List (Except BackendError String)
  | [] => []
  | request :: requests => t asked request :: t.answers (request :: asked) requests

/-- The responses among the answers of a transport to requests. -/
def Transport.responsesTo (t : Transport) (asked requests : List Request) : List LoggedResponse :=
  (requests.zip (t.answers asked requests)).filterMap response?

theorem Transport.responsesTo_cons (t : Transport) (asked : List Request) (request : Request)
    (requests : List Request) : t.responsesTo asked (request :: requests)
      = (response? (request, t asked request)).toList
        ++ t.responsesTo (request :: asked) requests := by
  rw [responsesTo, answers, List.zip_cons_cons, List.filterMap_cons]
  cases response? (request, t asked request) <;> rfl

/-- An error of an archive stands for no other one. -/
theorem mapError_archive_inj {α : Type} {r r' : Except ArchiveError α}
    (h : r.mapError BackendError.archive = r'.mapError BackendError.archive) : r = r' := by
  cases r with
  | error e =>
    cases r' with
    | error e' =>
      cases h
      rfl
    | ok a => cases h
  | ok a =>
    cases r' with
    | error e => cases h
    | ok a' =>
      cases h
      rfl

namespace ResponseSource

/-- What a source gives for requests, one after the other. -/
def fetchAll (s : ResponseSource) :
    List Request → Workspace → List (Except BackendError String) × ResponseSource × Workspace
  | [], w => ([], s, w)
  | request :: requests, w =>
    let (first, s, w) := s.fetch request w
    let (others, s, w) := s.fetchAll requests w
    (first :: others, s, w)

variable {t : Transport} {asked : List Request} {w : Workspace} {archive : ArchiveManager}
  {archiveId : String} {held : Keyed String} {seen : Option (Keyed String)}

/-! ## Live -/

/-- A live source gives what the transport answers. Archives, clock and identifiers are nothing to
it. -/
theorem fetchAll_live (t : Transport) (asked requests : List Request) (w : Workspace) :
    fetchAll { transport := t, mode := .live, asked } requests w
      = (t.answers asked requests,
        { transport := t, mode := .live, asked := requests.reverse ++ asked }, w) := by
  induction requests generalizing asked with
  | nil => rfl
  | cons request requests ih =>
    have hfetch : fetch { transport := t, mode := .live, asked } request w
        = (t asked request, { transport := t, mode := .live, asked := request :: asked }, w) := rfl
    rw [fetchAll, hfetch]
    dsimp only
    rw [ih, Transport.answers, List.reverse_cons, List.append_assoc]
    rfl

/-! ## Recording -/

/-- A recording source gives what the transport answers to a request, and the archive keeps the
response if there is one. -/
theorem fetch_recording (h : w.archives.Sees archive.store archiveId held seen) (t : Transport)
    (asked : List Request) (request : Request) :
    ∃ w', fetch { transport := t, mode := .recording archive archiveId, asked } request w
        = (t asked request,
          { transport := t, mode := .recording archive archiveId, asked := request :: asked }, w')
      ∧ w'.supply = w.supply
      ∧ w'.archives.Sees archive.store archiveId
        (held.keeping (Transport.response? (request, t asked request)).toList)
        (seen.map (·.keeping (Transport.response? (request, t asked request)).toList)) := by
  cases hanswer : t asked request with
  | error e =>
    refine ⟨w, ?_, rfl, ?_⟩
    · simp only [fetch, askTransport, hanswer]
    · simpa only [Transport.response?, Option.toList_none, Keyed.keeping_nil, Option.map_id']
        using h
  | ok body =>
    obtain ⟨a', hstore, hsees⟩ := h.store request body
    refine ⟨{ w with archives := a' }, ?_, rfl, hsees⟩
    simp only [fetch, askTransport, hanswer, ArchiveManager.record, hstore]
    rfl

/-- A recording source gives what a live one does. Under each key the archive holds what it held
before, or else the first response that there was. -/
theorem fetchAll_recording (h : w.archives.Sees archive.store archiveId held seen)
    (t : Transport) (asked requests : List Request) :
    ∃ w', fetchAll { transport := t, mode := .recording archive archiveId, asked } requests w
        = (t.answers asked requests,
          { transport := t, mode := .recording archive archiveId
            asked := requests.reverse ++ asked }, w')
      ∧ w'.supply = w.supply
      ∧ w'.archives.Sees archive.store archiveId (held.keeping (t.responsesTo asked requests))
        (seen.map (·.keeping (t.responsesTo asked requests))) := by
  induction requests generalizing asked w held seen with
  | nil =>
    refine ⟨w, rfl, rfl, ?_⟩
    have hnone : t.responsesTo asked [] = [] := rfl
    simpa only [hnone, Keyed.keeping_nil, Option.map_id'] using h
  | cons request requests ih =>
    obtain ⟨v, hfetch, hsupply, hsees⟩ := fetch_recording h t asked request
    obtain ⟨w', hrest, hsupply', hsees'⟩ := ih hsees (request :: asked)
    refine ⟨w', ?_, hsupply'.trans hsupply, ?_⟩
    · rw [fetchAll, hfetch]
      dsimp only
      rw [hrest, Transport.answers, List.reverse_cons, List.append_assoc]
      rfl
    · rw [Option.map_map] at hsees'
      simpa only [Transport.responsesTo_cons, Keyed.keeping_append, Function.comp_def] using hsees'

/-! ## Replaying -/

/-- A replaying source leaves the transport alone, and the archives as they are. It gives what the
archive holds if the index of its store says nothing else. -/
theorem fetchAll_replay (h : w.archives.Sees archive.store archiveId held seen) (t : Transport)
    (asked requests : List Request) :
    ∃ replies w', fetchAll { transport := t, mode := .replay archive archiveId, asked } requests w
        = (replies, { transport := t, mode := .replay archive archiveId, asked }, w')
      ∧ w'.archives.unread = w.archives.unread ∧ w'.supply = w.supply
      ∧ (Archives.Agrees seen held →
        replies = requests.map fun r => (answer held r.archiveKey).mapError .archive) := by
  induction requests generalizing w seen with
  | nil => exact ⟨[], w, rfl, rfl, rfl, fun _ => rfl⟩
  | cons request requests ih =>
    obtain ⟨a', seen', hretrieve, hsees, hunread, hseen⟩ := h.retrieve request
    have hfetch : fetch { transport := t, mode := .replay archive archiveId, asked } request w
        = ((Archives.reply seen held request.archiveKey).mapError .archive,
          { transport := t, mode := .replay archive archiveId, asked },
          { w with archives := a' }) := by
      simp only [fetch, ArchiveManager.retrieve, hretrieve]
    obtain ⟨replies, w', hrest, hunread', hsupply, hreplies⟩ := ih (w := { w with archives := a' })
      hsees
    refine ⟨(Archives.reply seen held request.archiveKey).mapError .archive :: replies, w', ?_,
      hunread'.trans hunread, hsupply, fun hagrees => ?_⟩
    · rw [fetchAll, hfetch]
      dsimp only
      rw [hrest]
    · have hagrees' : Archives.Agrees seen' held := by
        rcases hseen with rfl | rfl
        · exact hagrees
        · exact Archives.agrees_self held
      rw [hagrees.reply_eq, hreplies hagrees', List.map_cons]

/-- A replaying source answers every request with what the archive holds, if and only if the index
of its store says nothing else. -/
theorem fetchAll_replay_iff (h : w.archives.Sees archive.store archiveId held seen) (t : Transport)
    (asked : List Request) :
    (∀ requests,
      (fetchAll { transport := t, mode := .replay archive archiveId, asked } requests w).1
        = requests.map fun r => (answer held r.archiveKey).mapError .archive)
    ↔ Archives.Agrees seen held := by
  constructor
  · intro hall
    refine Archives.agrees_of_reply_eq fun key => ?_
    -- a request without parameters has any key there is
    have hone := hall [{ uri := key }]
    have hkey : ({ uri := key } : Request).archiveKey = key := rfl
    obtain ⟨a', seen', hretrieve, -⟩ := h.retrieve { uri := key }
    simp only [fetchAll, fetch, ArchiveManager.retrieve, hretrieve, List.map_cons, List.map_nil,
      hkey, List.cons.injEq, and_true] at hone
    exact mapError_archive_inj hone
  · intro hagrees requests
    obtain ⟨replies, w', hrun, -, -, hreplies⟩ := fetchAll_replay h t asked requests
    rw [hrun]
    exact hreplies hagrees

/-- A recording source over an archive gives what a live one does, which has nothing to do with
archives. Afterwards the archive holds under each key what it held before, or else the first
response that there was. A source that replays the archive, through any store that sees it, never
asks the transport and changes no archive; it answers every request with what the archive holds if
and only if the index of the store says nothing else. The index of the store that recorded says
nothing else if it was empty before, or said what was held. -/
theorem record_then_replay (h : w.archives.Sees archive.store archiveId held seen)
    (t : Transport) (asked requests : List Request) :
    (∀ v, fetchAll { transport := t, mode := .live, asked } requests v
      = (t.answers asked requests,
        { transport := t, mode := .live, asked := requests.reverse ++ asked }, v))
    ∧ ∃ w', fetchAll { transport := t, mode := .recording archive archiveId, asked } requests w
        = (t.answers asked requests,
          { transport := t, mode := .recording archive archiveId
            asked := requests.reverse ++ asked }, w')
      ∧ w'.supply = w.supply
      ∧ ∃ held', w'.archives.Sees archive.store archiveId held'
          (seen.map (·.keeping (t.responsesTo asked requests)))
        ∧ (∀ key, held'.get? key = (held.get? key).or
          (((t.responsesTo asked requests).find? (·.key = key)).map (·.body)))
        ∧ (seen = none ∨ seen = some held →
          Archives.Agrees (seen.map (·.keeping (t.responsesTo asked requests))) held')
        ∧ ∀ (other : ArchiveManager) (otherId : String) (otherSeen : Option (Keyed String)),
          w'.archives.Sees other.store otherId held' otherSeen → ∀ (t' : Transport) asked',
            (∀ requests', ∃ replies v,
              fetchAll { transport := t', mode := .replay other otherId, asked := asked' } requests'
                  w' = (replies,
                    { transport := t', mode := .replay other otherId, asked := asked' }, v)
                ∧ v.archives.unread = w'.archives.unread ∧ v.supply = w'.supply)
            ∧ ((∀ requests',
              (fetchAll { transport := t', mode := .replay other otherId, asked := asked' }
                  requests' w').1
                = requests'.map fun r => (answer held' r.archiveKey).mapError .archive)
              ↔ Archives.Agrees otherSeen held') := by
  refine ⟨fetchAll_live t asked requests, ?_⟩
  obtain ⟨w', hrun, hsupply, hsees⟩ := fetchAll_recording h t asked requests
  refine ⟨w', hrun, hsupply, _, hsees, Keyed.get?_keeping held _, fun hseen => ?_,
    fun other otherId otherSeen hother t' asked' => ⟨fun requests' => ?_,
      fetchAll_replay_iff hother t' asked'⟩⟩
  · rcases hseen with rfl | rfl
    · rintro known ⟨⟩
    · exact Archives.agrees_self _
  · obtain ⟨replies, v, hreplay, hunread, hsupply', -⟩ :=
      fetchAll_replay hother t' asked' requests'
    exact ⟨replies, v, hreplay, hunread, hsupply'⟩

/-! ## An index that says something else -/

/-- Archives of two stores on one directory, of which the first one did not see that the second one
stored a response before it did. -/
def overtaken : Workspace where
  archives := (Session.run "root" {} Session.overtaking).archives
  supply := { clock := fun _ => .epoch, identifiers := fun _ => .sequential 0 0 }

/-- A transport that fails once. -/
def failingOnce : Transport := fun asked _ =>
  if asked.isEmpty then .error (.fetch "down") else .ok "other"

theorem sees_overtaken : ∃ held seen, overtaken.archives.Sees 0 "x" held seen
    ∧ held.get? "k" = some "first" ∧ held.get? "l" = none
    ∧ seen >>= (·.get? "k") = some "second" := by
  let s := Session.run "root" {} Session.overtaking
  have hsound : Session.Sound "root" s := Session.sound_run Session.logsEmpty_empty _
  obtain ⟨entry, hopen⟩ : ∃ entry, s.archives.stores[0]? = some entry :=
    ⟨_, List.getElem?_eq_getElem (show 0 < s.archives.stores.length by decide +kernel)⟩
  obtain ⟨st, rfl, hroot, hindexed⟩ := hsound.index hopen
  have hstored : (⟨1, "x", ["root", "x"], ⟨"k", "first"⟩⟩ : StoredResponse) ∈ s.stored := by
    decide +kernel
  obtain ⟨log, hholds⟩ := hsound.held _ hstored
  have hlog := hsound.log hholds.leads.isPlace log hholds.logged.2
  have hwithin : StoredResponse.responses (StoredResponse.within s.stored ["root", "x"])
      = [⟨"k", "first"⟩, ⟨"k", "second"⟩] := by decide +kernel
  have hknown : (s.lastRead 0 "x").isSome = true
      ∧ StoredResponse.responses (s.known 0 "x") = [⟨"k", "second"⟩] := by decide +kernel
  rw [hwithin] at hlog
  rw [hlog, ← hroot] at hholds
  refine ⟨_, _, .directory hopen hholds rfl (hindexed "x"), rfl, rfl, ?_⟩
  obtain ⟨r, hr⟩ := Option.isSome_iff_exists.mp hknown.1
  rw [hr, hknown.2]
  rfl

/-- What the second store has stored is held, and the first one does not replay it. -/
theorem replay_overtaken : ∃ held w', fetchAll
      { transport := failingOnce, mode := .recording ⟨"root", 0⟩ "x" }
        [{ uri := "l" }, { uri := "l" }] overtaken = ([.error (.fetch "down"), .ok "other"],
          { transport := failingOnce, mode := .recording ⟨"root", 0⟩ "x"
            asked := [{ uri := "l" }, { uri := "l" }] }, w')
      ∧ held.get? "k" = some "first" ∧ held.get? "l" = some "other"
      ∧ ¬ ∀ requests,
        (fetchAll { transport := failingOnce, mode := .replay ⟨"root", 0⟩ "x" } requests w').1
          = requests.map fun r => (answer held r.archiveKey).mapError .archive := by
  obtain ⟨held, seen, hsees, hfirst, hnone, hsecond⟩ := sees_overtaken
  have hmanager : overtaken.archives.Sees (ArchiveManager.mk "root" 0).store "x" held seen := hsees
  obtain ⟨-, w', hrun, -, held', hsees', hheld', -, hreplay⟩ :=
    record_then_replay hmanager failingOnce [] [{ uri := "l" }, { uri := "l" }]
  have hk : held'.get? "k" = some "first" := by
    rw [hheld', hfirst]
    rfl
  refine ⟨held', w', hrun, hk, by rw [hheld', hnone]; rfl, ?_⟩
  rw [(hreplay ⟨"root", 0⟩ "x" _ hsees' failingOnce []).2]
  intro hagrees
  obtain ⟨known, rfl, hbody⟩ := Option.bind_eq_some_iff.mp hsecond
  have hother := hagrees _ rfl "k" "second" (by rw [Keyed.get?_keeping, hbody]; rfl)
  rw [hk] at hother
  exact absurd hother (by decide)

end ResponseSource

end Intake
