import Intake.Proofs.Archive.Session

/-!
# The first stored response wins

Of the responses stored under one key the first one counts, whichever store it went through. A store
that reads the log of an archive sees it so. Its index may see it otherwise: when the store has read
the log before anything was stored under the key, and then stores a response under the key itself,
it does not know what other stores have stored between (`Session.Overtaken`).
`Session.retrieve_stored_iff` says that this is the only way in which a response that was stored
first is not the one that is retrieved, and that something that was stored is always retrieved.
-/

namespace Intake

open Disk

namespace Disk

/-- Archives with different names are in different directories. -/
theorem LeadsTo.name_inj {d : Disk} {root a b : String} {at_ : Place} (ha : IsFileName a)
    (hb : IsFileName b) (hleadsA : d.LeadsTo (join root a) at_)
    (hleadsB : d.LeadsTo (join root b) at_) : a = b := by
  obtain ⟨outerA, -, hplaceA, -⟩ := (leadsTo_join ha).mp hleadsA
  obtain ⟨outerB, -, hplaceB, -⟩ := (leadsTo_join hb).mp hleadsB
  rw [hplaceA] at hplaceB
  exact (List.cons.inj (List.append_inj' hplaceB rfl).2).1

end Disk

namespace Session

open StoredResponse (within through first? responses)

/-- The session comes about on a disk whose logs are empty. -/
def Reached (root : String) (s : Session) : Prop :=
  ∃ disk calls, LogsEmpty disk ∧ s = run root disk calls

/-- A store tells its own response instead of the first one under the key: nothing was stored under
the key when the store last read the log of the archive, and what it has first stored under it since
is something else. -/
def Overtaken (s : Session) (number : Nat) (archiveId key : String) (first : StoredResponse) :
    Prop :=
  ∃ r own, s.lastRead number archiveId = some r
    ∧ first? (within (s.stored.take r.count) r.directory) key = none
    ∧ first? (through (s.stored.drop r.count) number archiveId) key = some own
    ∧ own.response.body ≠ first.response.body

variable {root : String} {s : Session} {number : Nat} {archiveId : String} {request : Request}

theorem Reached.sound (h : Reached root s) : Sound root s := by
  obtain ⟨disk, calls, hempty, rfl⟩ := h
  exact sound_run hempty calls

/-- What a store answers for a response that was stored: the first response that it knows, or else
the first one in the log. -/
theorem Sound.retrieve_eq (h : Sound root s) (hopen : number < s.archives.stores.length)
    {at_ : Place} {log : ByteArray} (hholds : s.archives.disk.Holds (join root archiveId) at_ log)
    {first : StoredResponse}
    (hfirst : first? (within s.stored at_) request.archiveKey = some first) :
    ((Archives.retrieve number archiveId request).run s.archives).1
      = .ok ((first? (s.known number archiveId) request.archiveKey).getD first).response.body := by
  have hstore := List.getElem?_eq_getElem hopen
  obtain ⟨st, hentry, rfl, hindexed⟩ := h.index hstore
  rw [hentry] at hstore
  have hknown := hindexed.known?_eq archiveId request.archiveKey
  cases hown : first? (s.known number archiveId) request.archiveKey with
  | some own =>
    rw [hown] at hknown
    rw [Archives.retrieve, Archives.call_of_directory hstore _ _ _
      (DirectoryStore.retrieve_of_known hknown s.archives.disk)]
    rfl
  | none =>
    rw [hown] at hknown
    have hread : ResponseLog.read log
        = .ok (ResponseLog.firsts (responses (within s.stored at_))) := by
      rw [h.log hholds.leads.isPlace log hholds.logged.2, ResponseLog.read_ofList]
    rw [Archives.retrieve, Archives.call_of_directory hstore _ _ _
      (DirectoryStore.retrieve_of_holds hholds hread hknown), DirectoryStore.answer,
      StoredResponse.get?_firsts_responses, hfirst]
    rfl

/-- The first response that a store knows is the first one of all, unless it is overtaken. -/
theorem Sound.getD_first?_known_iff (h : Sound root s) {at_ : Place}
    (hleads : s.archives.disk.LeadsTo (join root archiveId) at_) {key : String}
    {first : StoredResponse} (hfirst : first? (within s.stored at_) key = some first) :
    ((first? (s.known number archiveId) key).getD first).response.body = first.response.body
      ↔ ¬ s.Overtaken number archiveId key first := by
  unfold Overtaken known
  cases hread : s.lastRead number archiveId with
  | none => simp [first?]
  | some r =>
    have hsame : r.directory = at_ := (h.read hread).2.unique hleads
    have hsplit : within s.stored at_
        = within (s.stored.take r.count) at_ ++ within (s.stored.drop r.count) at_ := by
      rw [within, within, within, ← List.filter_append, List.take_append_drop]
    rw [hsplit, first?, List.find?_append] at hfirst
    dsimp only
    rw [hsame, first?, List.find?_append]
    cases hearly : first? (within (s.stored.take r.count) at_) key with
    | some early =>
      rw [← first?, hearly, Option.some_or, Option.some.injEq] at hfirst
      rw [← first?, hearly, hfirst]
      simp [hearly, hsame]
    | none =>
      rw [← first?, hearly, Option.none_or, ← first?]
      cases hown : first? (through (s.stored.drop r.count) number archiveId) key with
      | none => simp [hown]
      | some own => simp [hown, hearly, hsame]

/-- The first response in a directory is the first one under the identifier, if the identifiers are
file names. -/
theorem Sound.first?_within (h : Sound root s)
    (hnames : ∀ e ∈ s.stored, IsFileName e.archiveId) {e : StoredResponse} (he : e ∈ s.stored)
    (key : String) :
    first? (within s.stored e.directory) key
      = s.stored.find? fun f => f.archiveId = e.archiveId ∧ f.response.key = key := by
  have hsame : ∀ f ∈ s.stored, (decide (f.response.key = key) && decide (f.directory = e.directory))
      = decide (f.archiveId = e.archiveId ∧ f.response.key = key) := by
    intro f hf
    obtain ⟨-, hleadsE, -⟩ := h.held e he
    obtain ⟨-, hleadsF, -⟩ := h.held f hf
    have hdirectory : f.directory = e.directory ↔ f.archiveId = e.archiveId := by
      constructor
      · intro heq
        rw [heq] at hleadsF
        exact hleadsF.name_inj (hnames f hf) (hnames e he) hleadsE
      · intro heq
        rw [heq] at hleadsF
        exact hleadsF.unique hleadsE
    rw [← Bool.decide_and, decide_eq_decide, and_comm]
    exact and_congr hdirectory Iff.rfl
  rw [first?, within, ← List.head?_filter, ← List.head?_filter, List.filter_filter,
    List.filter_congr hsame]

/-- A response that was stored is retrieved through any store. It is the first one that was stored
under the key, if and only if the store is not overtaken; and the first one in the archive is the
first one under the archive's identifier, if identifiers are file names. -/
theorem retrieve_stored_iff (h : Reached root s) (hopen : number < s.archives.stores.length)
    {e : StoredResponse} (he : e ∈ s.stored) (hkey : e.response.key = request.archiveKey) :
    ∃ first, first? (within s.stored e.directory) request.archiveKey = some first
      ∧ (∃ body,
        ((Archives.retrieve number e.archiveId request).run s.archives).1 = .ok body)
      ∧ (((Archives.retrieve number e.archiveId request).run s.archives).1
          = .ok first.response.body
        ↔ ¬ s.Overtaken number e.archiveId request.archiveKey first)
      ∧ ((∀ f ∈ s.stored, IsFileName f.archiveId) →
        s.stored.find? (fun f => f.archiveId = e.archiveId ∧ f.response.key = request.archiveKey)
          = some first) := by
  have hsound := h.sound
  obtain ⟨log, hholds⟩ := hsound.held e he
  have hsome : (first? (within s.stored e.directory) request.archiveKey).isSome = true := by
    rw [first?, List.find?_isSome]
    exact ⟨e, List.mem_filter.mpr ⟨he, decide_eq_true rfl⟩, decide_eq_true hkey⟩
  obtain ⟨first, hfirst⟩ := Option.isSome_iff_exists.mp hsome
  have hanswer := hsound.retrieve_eq hopen hholds hfirst
  refine ⟨first, hfirst, ⟨_, hanswer⟩, ?_, ?_⟩
  · rw [hanswer, Except.ok.injEq]
    exact hsound.getD_first?_known_iff hholds.leads hfirst
  · intro hnames
    rw [← hsound.first?_within hnames he, hfirst]

/-- Two stores on one directory. The first one looks for a response before there is any, and so does
not see the one that the second one stores before its own. -/
def overtaking : List StoreCall :=
  [.openStore, .openStore,
    .create 0 {
      archiveId := "x"
      origin := "origin"
      backendName := "backend"
      backendVersion := "1"
      category := "category"
      backendArgs := .empty
      createdAt := .epoch },
    .retrieve 0 "x" { uri := "k" },
    .store 1 "x" { uri := "k" } "first",
    .store 0 "x" { uri := "k" } "second"]

theorem retrieve_overtaken :
    ∃ first, first? (within (run "root" {} overtaking).stored ["root", "x"]) "k" = some first
      ∧ (run "root" {} overtaking).Overtaken 0 "x" "k" first
      ∧ ((Archives.retrieve 0 "x" { uri := "k" }).run (run "root" {} overtaking).archives).1
        ≠ .ok first.response.body := by
  have hreached : Reached "root" (run "root" {} overtaking) :=
    ⟨{}, overtaking, logsEmpty_empty, rfl⟩
  have hopen : 0 < (run "root" {} overtaking).archives.stores.length := by decide +kernel
  have hstored : (⟨1, "x", ["root", "x"], ⟨"k", "first"⟩⟩ : StoredResponse)
      ∈ (run "root" {} overtaking).stored := by
    decide +kernel
  have hkey : "k" = ({ uri := "k" } : Request).archiveKey := rfl
  obtain ⟨first, hfirst, -, hiff, -⟩ := retrieve_stored_iff hreached hopen hstored hkey
  have hbody : first.response.body = "first" := by
    have hall : ∀ e ∈ first? (within (run "root" {} overtaking).stored ["root", "x"]) "k",
        e.response.body = "first" := by
      decide +kernel
    exact hall first hfirst
  have hanswer : ((Archives.retrieve 0 "x" { uri := "k" }).run
      (run "root" {} overtaking).archives).1.toOption = some "second" := by
    decide +kernel
  have hne : ((Archives.retrieve 0 "x" { uri := "k" }).run (run "root" {} overtaking).archives).1
      ≠ .ok first.response.body := by
    intro heq
    rw [heq, hbody] at hanswer
    exact absurd hanswer (by decide)
  exact ⟨first, hfirst, Classical.not_not.mp fun hnot => hne (hiff.mpr hnot), hne⟩

end Session

end Intake
