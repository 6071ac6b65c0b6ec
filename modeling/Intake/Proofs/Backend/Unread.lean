import Intake.Backend.Scripted
import Intake.Proofs.Archive.Held
import Intake.Proofs.Json.Parts
import Intake.Proofs.Request.Key
import Intake.Proofs.Stream.Events
import Intake.Proofs.Stream.Workspace

/-!
# Responses that a script has not read

The fetch of a script asks for one page after the other and goes on as long as it is answered.
Different pages are asked for under different keys (`Script.pageKey_inj`), so over an archive every
answer is one that the archive holds under a new key. `Script.unread` counts what an archive holds
under other keys than those of the pages before one. It gets less with every answer
(`Script.unread_lt`), also where the answer is no record that is given as an item, and a request
that is not answered ends the fetch.

So a fetch with so many unread responses asks for that many at most before it ends, or for one more
if it fails (`Script.Rereads.stops`). The archive may hold what it will, also under keys that are
of no page.

It is this count that ends the fetch, and not that the numbers of pages come to an end: with any
larger number of pages the fetch does the same (`Script.drain_fetchPages_of_unread_lt`).
-/

namespace Intake

-- one meaning of powers, whatever is imported beside
attribute [local instance (high)] instPowNat

namespace StreamEvent

/-- How many responses were asked for. -/
def asks (events : List StreamEvent) : Nat := (events.filterMap request?).length

theorem asks_append (before after : List StreamEvent) :
    asks (before ++ after) = asks before + asks after := by
  rw [asks, List.filterMap_append, List.length_append, asks, asks]

end StreamEvent

open StreamEvent (asks)

namespace Fetch

/-- A fetch asks for one response, and then it is as if another one was there. -/
structure AsksOnce (f : Fetch) (p : FetchProgress) (g : Fetch) (q : FetchProgress) : Prop where
  advance : f.advance p = g.advance q
  drain : f.drain p = g.drain q
  asks : asks (f.events p) = asks (g.events q) + 1

/-- A fetch that asks an archive goes on with what the archive gives. -/
theorem asksOnce_of_replay {p : FetchProgress} {archive : ArchiveManager} {archiveId : String}
    (hmode : p.source.mode = .replay archive archiveId) (request : Request)
    (next : Except BackendError String → Fetch) :
    (ask request next).AsksOnce p
      (next ((archive.retrieve archiveId request p.workspace).1.mapError .archive))
      { p with workspace := (archive.retrieve archiveId request p.workspace).2 } := by
  have hfetch : p.source.fetch request p.workspace
      = ((archive.retrieve archiveId request p.workspace).1.mapError .archive, p.source,
        (archive.retrieve archiveId request p.workspace).2) := by
    rw [ResponseSource.fetch, hmode]
  refine ⟨?_, ?_, ?_⟩
  · rw [Fetch.advance, hfetch]
  · rw [Fetch.drain, hfetch]
  · rw [Fetch.events, hfetch]
    rfl

end Fetch

namespace Script

variable {s : Script} {name version : String}

/-! ## Pages and their keys -/

/-- The key under which the response for a page is held. -/
def pageKey (s : Script) (page : Nat) : String := (s.request (.ofNat page)).archiveKey

/-- Different pages have different keys. -/
theorem pageKey_inj {j k : Nat} (hj : j < 2 ^ (64 : Nat)) (hk : k < 2 ^ (64 : Nat))
    (h : s.pageKey j = s.pageKey k) : j = k := by
  have hpage : ∀ i, (s.request i).params.get? "page" = some (.ofUInt64 i) := fun i =>
    Keyed.get?_insert_self ..
  have hparams : ∀ i, (s.request i).params ≠ .empty := by
    intro i hempty
    have hnone := hpage i
    rw [hempty, Keyed.get?_empty] at hnone
    cases hnone
  have hrequest : s.request (.ofNat j) = s.request (.ofNat k) :=
    Request.eq_of_archiveKey_eq (hparams _) (hparams _) h
  have hvalue : Json.ofUInt64 (.ofNat j) = .ofUInt64 (.ofNat k) :=
    Option.some.inj ((hpage _).symm.trans ((congrArg (·.params.get? "page") hrequest).trans
      (hpage _)))
  have hnumber : UInt64.ofNat j = .ofNat k := by
    have hread := congrArg Json.uint64? hvalue
    rwa [Json.uint64?_ofUInt64, Json.uint64?_ofUInt64, Option.some.injEq] at hread
  rw [← UInt64.toNat_ofNat_of_lt' hj, hnumber, UInt64.toNat_ofNat_of_lt' hk]

/-- How many responses are held under other keys than those of the pages before one. -/
def unread (s : Script) (held : Keyed String) (page : Nat) : Nat :=
  (held.keys.filter fun key => ∀ j < page, s.pageKey j ≠ key).length

theorem unread_zero (s : Script) (held : Keyed String) : s.unread held 0 = held.size := by
  rw [unread, List.filter_eq_self.mpr, Keyed.keys, List.length_map, Keyed.size]
  exact fun key _ => decide_eq_true fun j hj => absurd hj (Nat.not_lt_zero j)

/-- A response that is held for a page is unread before it and read after it. -/
theorem unread_lt {held held' : Keyed String} {page : Nat} (hpage : page < 2 ^ (64 : Nat))
    (hwithin : held'.keys ⊆ held.keys) (hheld : s.pageKey page ∈ held.keys) :
    s.unread held' (page + 1) < s.unread held page := by
  -- with the key of the page, what is unread after it was all unread before it
  have hnodup : (s.pageKey page ::
      held'.keys.filter fun key => ∀ j < page + 1, s.pageKey j ≠ key).Nodup := by
    refine List.nodup_cons.mpr ⟨fun hmem => ?_, held'.nodup_keys.filter _⟩
    exact of_decide_eq_true (List.mem_filter.mp hmem).2 page (Nat.lt_succ_self page) rfl
  refine hnodup.length_le_of_subset fun key hkey => List.mem_filter.mpr ?_
  rcases List.mem_cons.mp hkey with rfl | hlater
  · refine ⟨hheld, decide_eq_true fun j hj heq => Nat.ne_of_lt hj ?_⟩
    exact pageKey_inj (Nat.lt_trans hj hpage) hpage heq
  · obtain ⟨hmem, hother⟩ := List.mem_filter.mp hlater
    exact ⟨hwithin hmem, decide_eq_true fun j hj =>
      of_decide_eq_true hother j (Nat.lt_succ_of_lt hj)⟩

/-! ## The fetch over an archive -/

section Archive

variable {archive : ArchiveManager} {archiveId : String} {p : FetchProgress} {page : Nat}

/-- What a script does with the answer to the request for a page. -/
theorem page_cases (s : Script) (name version : String)
    (hmode : p.source.mode = .replay archive archiveId) (hpage : page < 2 ^ (64 : Nat)) :
    ∃ q : FetchProgress, q.source = p.source ∧
      ((∃ e, ∀ budget produced,
          (s.fetchPages name version (budget + 1) (.ofNat page) produced).AsksOnce p (.fail e) q)
        ∨ s.unread (q.workspace.archives.held archive.store archiveId) (page + 1)
            < s.unread (p.workspace.archives.held archive.store archiveId) page
          ∧ ∃ record, ∀ budget produced,
            (s.fetchPages name version (budget + 1) (.ofNat page) produced).AsksOnce p
              (s.handle name version (.ofNat page) produced record
                (s.fetchPages name version budget (.ofNat (page + 1)))) q) := by
  have hnext : UInt64.ofNat page + 1 = .ofNat (page + 1) := (UInt64.ofNat_add page 1).symm
  have hasks := Fetch.asksOnce_of_replay hmode (s.request (.ofNat page))
  refine ⟨{ p with workspace :=
    (archive.retrieve archiveId (s.request (.ofNat page)) p.workspace).2 }, rfl, ?_⟩
  cases hretrieve : (archive.retrieve archiveId (s.request (.ofNat page)) p.workspace).1 with
  | error e =>
    rw [hretrieve] at hasks
    exact .inl ⟨.archive e, fun budget produced => hasks _⟩
  | ok body =>
    rw [hretrieve] at hasks
    -- what the fetch does with the body depends on nothing but how the body is read
    have hturn : ∀ budget produced, (s.fetchPages name version (budget + 1) (.ofNat page)
        produced).AsksOnce p _ _ := fun budget produced => hasks _
    simp only [Work.mapError_ok, hnext] at hturn
    cases hread : Wire.json.ofString body with
    | error e =>
      simp only [hread] at hturn
      exact .inl ⟨_, hturn⟩
    | ok record =>
      simp only [hread] at hturn
      refine .inr ⟨?_, record, hturn⟩
      refine unread_lt hpage
        (Archives.holdsWithin_retrieve p.workspace.archives archive.store archiveId _ archiveId) ?_
      exact Archives.mem_held_of_retrieve hretrieve

/-- A record is handled the same if the fetch goes on the same after it. -/
theorem drain_handle_congr {q : FetchProgress} {next next' : UInt64 → Fetch}
    (h : ∀ (r : FetchProgress) produced,
      r.source = q.source → r.workspace.archives = q.workspace.archives →
        (next produced).drain r = (next' produced).drain r)
    (number produced : UInt64) (record : Json) :
    (s.handle name version number produced record next).drain q
      = (s.handle name version number produced record next').drain q := by
  rw [handle, handle]
  split
  · rfl
  · split
    · exact h { q with summary := q.summary.skip } produced rfl rfl
    · split
      · rfl
      · have hrest := h ⟨q.source,
          q.summary.update (s.item name version record q.workspace.supply.now.1),
          { q.workspace with supply := q.workspace.supply.now.2 }⟩ (produced + 1) rfl rfl
        simp only [Fetch.drain, hrest]

/-- The numbers of pages do not come to an end: where there are more of them than unread responses,
it makes no difference how many there are. -/
theorem drain_fetchPages_of_unread_lt {budget budget' : Nat} (produced : UInt64)
    (hmode : p.source.mode = .replay archive archiveId)
    (hleft : s.unread (p.workspace.archives.held archive.store archiveId) page < budget)
    (hbudget : budget ≤ budget') (hpages : page + budget' ≤ 2 ^ (64 : Nat)) :
    (s.fetchPages name version budget' (.ofNat page) produced).drain p
      = (s.fetchPages name version budget (.ofNat page) produced).drain p := by
  induction budget generalizing budget' page produced p with
  | zero => exact absurd hleft (Nat.not_lt_zero _)
  | succ budget ih =>
    obtain ⟨budget', rfl⟩ := Nat.exists_eq_add_one_of_ne_zero
      (Nat.ne_of_gt (Nat.lt_of_lt_of_le (Nat.succ_pos budget) hbudget))
    obtain ⟨q, hsource, ⟨e, hfail⟩ | ⟨hless, record, hhandle⟩⟩ :=
      s.page_cases name version hmode (show page < _ by omega)
    · rw [(hfail budget' produced).drain, (hfail budget produced).drain]
    · rw [(hhandle budget' produced).drain, (hhandle budget produced).drain]
      refine drain_handle_congr (fun r produced hr harchives => ?_) _ _ _
      refine ih produced (hr ▸ hsource ▸ hmode) ?_ (Nat.le_of_succ_le_succ hbudget) (by omega)
      rw [harchives]
      exact Nat.lt_of_lt_of_le hless (Nat.le_of_lt_succ hleft)

end Archive

/-- A fetch over the pages of a script, from one page on, that replays an archive of which at most
so many responses are unread. -/
inductive Rereads (name version : String) (archive : ArchiveManager) (a : Archives) (left : Nat) :
    Fetch → ResponseSource → Prop where
  | pages (s : Script) {archiveId : String} {budget page : Nat} {source : ResponseSource}
      (produced : UInt64) (hmode : source.mode = .replay archive archiveId)
      (hpages : page + budget ≤ 2 ^ (64 : Nat))
      (hleft : s.unread (a.held archive.store archiveId) page ≤ left) :
      Rereads name version archive a left
        (s.fetchPages name version budget (.ofNat page) produced) source

/-- Where a fetch stops that replays an archive of which at most so many responses were unread, when
it has asked for so many: at an item with less of them unread, or for good. -/
inductive Stops (name version : String) (archive : ArchiveManager) (left asks : Nat) :
    FetchStop → FetchProgress → Prop where
  | item {item : Item} {rest : Fetch} {q : FetchProgress} {left' : Nat}
      (hrest : Rereads name version archive q.workspace.archives left' rest q.source)
      (hasks : 0 < asks) (hleft : asks + left' ≤ left) :
      Stops name version archive left asks (.item item rest) q
  | ended {q : FetchProgress} (hasks : asks ≤ left) : Stops name version archive left asks .ended q
  | failed {e : BackendError} {q : FetchProgress} (hasks : asks ≤ left + 1) :
      Stops name version archive left asks (.failed e) q

variable {archive : ArchiveManager} {left : Nat}

theorem Rereads.mode {a : Archives} {f : Fetch} {source : ResponseSource}
    (h : Rereads name version archive a left f source) :
    ∃ archiveId, source.mode = .replay archive archiveId := by
  cases h with
  | pages s produced hmode hpages hleft => exact ⟨_, hmode⟩

/-- One response more was unread and was asked for. -/
theorem Stops.succ {asks : Nat} {stop : FetchStop} {q : FetchProgress}
    (h : Stops name version archive left asks stop q) :
    Stops name version archive (left + 1) (asks + 1) stop q := by
  cases h with
  | item hrest hasks hleft => exact .item hrest (Nat.succ_pos _) (by omega)
  | ended hasks => exact .ended (Nat.succ_le_succ hasks)
  | failed hasks => exact .failed (Nat.succ_le_succ hasks)

/-- One response more was unread and was asked for, and its record is handled. -/
theorem Stops.handle {q : FetchProgress} {next : UInt64 → Fetch}
    (hrereads : ∀ produced,
      Rereads name version archive q.workspace.archives left (next produced) q.source)
    (hstops : ∀ produced, Stops name version archive left
      (asks ((next produced).events { q with summary := q.summary.skip }))
      ((next produced).advance { q with summary := q.summary.skip }).1
      ((next produced).advance { q with summary := q.summary.skip }).2)
    (number produced : UInt64) (record : Json) :
    Stops name version archive (left + 1)
      (asks ((s.handle name version number produced record next).events q) + 1)
      ((s.handle name version number produced record next).advance q).1
      ((s.handle name version number produced record next).advance q).2 := by
  have hone : 0 + 1 ≤ left + 1 := Nat.succ_le_succ (Nat.zero_le left)
  unfold Script.handle
  split
  · unfold finish
    cases s.extras <;> exact .ended hone
  · split
    · exact (hstops produced).succ
    · split
      · exact .failed (Nat.le_succ_of_le hone)
      · refine .item (hrereads (produced + 1)) (Nat.succ_pos 0) (Nat.le_of_eq ?_)
        exact Nat.add_comm 1 left

theorem stops_fetchPages {archiveId : String} {budget page : Nat} (produced : UInt64)
    {p : FetchProgress} (hmode : p.source.mode = .replay archive archiveId)
    (hpages : page + budget ≤ 2 ^ (64 : Nat))
    (hleft : s.unread (p.workspace.archives.held archive.store archiveId) page ≤ left) :
    Stops name version archive left
      (asks ((s.fetchPages name version budget (.ofNat page) produced).events p))
      ((s.fetchPages name version budget (.ofNat page) produced).advance p).1
      ((s.fetchPages name version budget (.ofNat page) produced).advance p).2 := by
  -- along the pages; what is unread goes down with each of them, as far as there are responses
  induction budget generalizing page produced p left with
  | zero => exact .ended (Nat.zero_le _)
  | succ budget ih =>
    obtain ⟨q, hsource, ⟨e, hfail⟩ | ⟨hless, record, hhandle⟩⟩ :=
      s.page_cases name version hmode (show page < _ by omega)
    · rw [(hfail budget produced).asks, (hfail budget produced).advance]
      exact .failed (Nat.succ_le_succ (Nat.zero_le _))
    · obtain ⟨left, rfl⟩ := Nat.exists_eq_add_one_of_ne_zero
        (Nat.ne_of_gt (Nat.zero_lt_of_lt (Nat.lt_of_lt_of_le hless hleft)))
      have hunread :
          s.unread (q.workspace.archives.held archive.store archiveId) (page + 1) ≤ left :=
        Nat.le_of_lt_succ (Nat.lt_of_lt_of_le hless hleft)
      have hmode' : q.source.mode = .replay archive archiveId := hsource ▸ hmode
      rw [(hhandle budget produced).asks, (hhandle budget produced).advance]
      exact .handle (fun produced => .pages s produced hmode' (by omega) hunread)
        (fun produced => ih produced hmode' (by omega) hunread) _ _ _

/-- A fetch over an archive asks for no more responses than are unread, and one that fails for one
more. -/
theorem Rereads.stops {f : Fetch} {p : FetchProgress}
    (h : Rereads name version archive p.workspace.archives left f p.source) :
    Stops name version archive left (asks (f.events p)) (f.advance p).1 (f.advance p).2 := by
  generalize hsource : p.source = source at h
  cases h with
  | pages s produced hmode hpages hleft =>
    exact stops_fetchPages produced (hsource ▸ hmode) hpages hleft

/-- The fetch that a scripted backend builds for an archive has all responses of it unread. -/
theorem rereads_of_build {capabilities : Capabilities} {args : BackendArgs}
    {built : BackendInstance}
    (h : (Backend.scripted name version capabilities).build args = .ok built) (a : Archives)
    {source : ResponseSource} {archiveId : String}
    (hmode : source.mode = .replay archive archiveId) :
    Rereads name version archive a (a.held archive.store archiveId).size built.fetch source := by
  cases hscript : Script.ofArgs args with
  | error e =>
    simp only [Backend.scripted, hscript] at h
    cases h
  | ok s =>
    simp only [Backend.scripted, hscript] at h
    cases h
    exact .pages s 0 hmode (Nat.le_of_eq (Nat.zero_add _)) (Nat.le_of_eq (s.unread_zero _))

end Script

end Intake
