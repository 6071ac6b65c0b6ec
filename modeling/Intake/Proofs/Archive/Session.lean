import Intake.Archive.Store
import Intake.Proofs.Archive.Handles

/-!
# Several stores on one directory

A session is what happens to stores that are opened on one directory while archives are created and
responses stored and retrieved through any of them, in any order. Beside the stores and the disk it
keeps an account of what was done: which responses were stored, through which store, and how many of
them there were when a store last read the log of an archive. The account does not look into the
stores, only at their answers.

What a store knows of an archive without reading its log is what was in the log when it last read
it, and what it has stored in the archive since (`Session.known`). `Session.Sound` says that the
index of every store is just that, and that the log of every archive holds the responses stored in
it; every call preserves it (`Session.Sound.step`), so it holds throughout (`Session.sound_run`).
-/

namespace Intake

open Disk

/-- The directory that a path leads to. -/
def Disk.directoryAt (d : Disk) (path : String) : Option Place :=
  match d.walk [] (segments path) with
  | .ok at_ => if d.node? at_ = some .directory then some at_ else none
  | .error _ => none

theorem Disk.directoryAt_eq_some {d : Disk} {path : String} {at_ : Place} :
    d.directoryAt path = some at_ ↔ d.LeadsTo path at_ := by
  unfold directoryAt LeadsTo
  cases d.walk [] (segments path) with
  | error e => simp
  | ok there =>
    simp only [Except.ok.injEq]
    by_cases hdir : d.node? there = some .directory
    · rw [if_pos hdir, Option.some.injEq]
      constructor
      · rintro rfl
        exact ⟨rfl, hdir⟩
      · exact fun h => h.1
    · rw [if_neg hdir]
      constructor
      · intro h
        cases h
      · rintro ⟨rfl, h⟩
        exact absurd h hdir

/-- A call of one of the stores on a directory, which are known by their numbers. -/
inductive StoreCall where
  | openStore
  | create (number : Nat) (description : ArchiveMetadata)
  | store (number : Nat) (archiveId : String) (request : Request) (body : String)
  | retrieve (number : Nat) (archiveId : String) (request : Request)

/-- A response that was stored: through which store and under which identifier, the directory of
the archive, and the response. -/
structure StoredResponse where
  number : Nat
  archiveId : String
  directory : Place
  response : LoggedResponse
deriving DecidableEq

namespace StoredResponse

/-- The responses that were stored in a directory. -/
def within (stored : List StoredResponse) (directory : Place) : List StoredResponse :=
  stored.filter (·.directory = directory)

/-- The responses that were stored through one store under one identifier. -/
def through (stored : List StoredResponse) (number : Nat) (archiveId : String) :
    List StoredResponse :=
  stored.filter fun e => e.number = number ∧ e.archiveId = archiveId

/-- The first response under a key. -/
def first? (stored : List StoredResponse) (key : String) : Option StoredResponse :=
  stored.find? (·.response.key = key)

/-- The responses as a log holds them. -/
def responses (stored : List StoredResponse) : List LoggedResponse := stored.map (·.response)

theorem responses_concat (stored : List StoredResponse) (e : StoredResponse) :
    responses (stored ++ [e]) = responses stored ++ [e.response] :=
  List.map_append

theorem within_concat (stored : List StoredResponse) (e : StoredResponse) (directory : Place) :
    within (stored ++ [e]) directory
      = within stored directory ++ if e.directory = directory then [e] else [] := by
  rw [within, List.filter_append]
  by_cases he : e.directory = directory
  · rw [if_pos he, List.filter_cons_of_pos (by simpa using he)]
    rfl
  · rw [if_neg he, List.filter_cons_of_neg (by simpa using he)]
    rfl

theorem get?_firsts_responses (stored : List StoredResponse) (key : String) :
    (ResponseLog.firsts (responses stored)).get? key
      = (first? stored key).map (·.response.body) := by
  rw [ResponseLog.get?_firsts, responses, List.find?_map, Option.map_map]
  rfl

end StoredResponse

/-- When a store last read the log of an archive: the directory, and how many responses had been
stored by then. -/
structure LastRead where
  directory : Place
  count : Nat

/-- Stores on one directory, and the account of what was done with them. -/
structure Session where
  archives : Archives
  stored : List StoredResponse := []
  lastRead : Nat → String → Option LastRead := fun _ _ => none

namespace Session

open StoredResponse (within through first? responses within_concat responses_concat)

/-- The directory of an archive below the root. -/
def directoryOf (s : Session) (root archiveId : String) : Option Place :=
  s.archives.disk.directoryAt (join root archiveId)

/-- What a store knows of an archive: what had been stored in it when the store last read its log,
and what the store has stored in it since. -/
def known (s : Session) (number : Nat) (archiveId : String) : List StoredResponse :=
  match s.lastRead number archiveId with
  | none => []
  | some r => within (s.stored.take r.count) r.directory
    ++ through (s.stored.drop r.count) number archiveId

/-- The account of a response that was stored, if it was. -/
def noteStored (s : Session) (root : String) (number : Nat) (archiveId : String)
    (response : LoggedResponse) (answer : Except ArchiveError Unit) : List StoredResponse :=
  match answer with
  | .error _ => s.stored
  | .ok _ =>
    let directory := (s.directoryOf root archiveId).getD []
    s.stored ++ [{ number, archiveId, directory, response }]

/-- Whether an answer says what the archive has under a key. -/
def tells : Except ArchiveError String → Bool
  | .ok _ | .error (.responseNotFound _) => true
  | .error _ => false

/-- The account of when the log was read: an answer that tells of a key that the store did not know
was read from the log. -/
def noteRead (s : Session) (root : String) (number : Nat) (archiveId key : String)
    (answer : Except ArchiveError String) : Nat → String → Option LastRead :=
  match first? (s.known number archiveId) key, tells answer, s.directoryOf root archiveId with
  | none, true, some directory => fun n id =>
    if n = number ∧ id = archiveId then some ⟨directory, s.stored.length⟩ else s.lastRead n id
  | _, _, _ => s.lastRead

/-- One call. -/
def step (root : String) (s : Session) : StoreCall → Session
  | .openStore => { s with archives := ((Archives.openDirectory root).run s.archives).2 }
  | .create number description =>
    { s with archives := ((Archives.create number description).run s.archives).2 }
  | .store number archiveId request body =>
    let done := (Archives.store number archiveId request body).run s.archives
    { s with
      archives := done.2
      stored := s.noteStored root number archiveId ⟨request.archiveKey, body⟩ done.1 }
  | .retrieve number archiveId request =>
    let done := (Archives.retrieve number archiveId request).run s.archives
    { s with
      archives := done.2
      lastRead := s.noteRead root number archiveId request.archiveKey done.1 }

/-- The session on a disk after some calls. -/
def run (root : String) (disk : Disk) (calls : List StoreCall) : Session :=
  calls.foldl (step root) { archives := { disk } }

/-! ## The account is right -/

/-- The index of a store holds what the store knows of each archive. -/
def Indexed (s : Session) (number : Nat) (st : DirectoryStore) : Prop :=
  ∀ id, st.index.get? id
    = (s.lastRead number id).map fun _ => ResponseLog.firsts (responses (s.known number id))

/-- The index of every store holds what the store knows, the log of every archive holds the
responses stored in it, and the archives that responses were stored in are there. -/
structure Sound (root : String) (s : Session) : Prop where
  index : ∀ {number : Nat} {entry : OpenStore}, s.archives.stores[number]? = some entry →
    ∃ st : DirectoryStore, entry = ⟨.directory st, {}⟩ ∧ st.root = root ∧ s.Indexed number st
  unread : ∀ {number : Nat}, s.archives.stores[number]? = none → ∀ id, s.lastRead number id = none
  log : ∀ {at_ : Place}, IsPlace at_ → ∀ log, s.archives.disk.logAt at_ = some log →
    log = ResponseLog.ofList (responses (within s.stored at_))
  held : ∀ e ∈ s.stored, ∃ log, s.archives.disk.Holds (join root e.archiveId) e.directory log
  read : ∀ {number : Nat} {id : String} {r : LastRead}, s.lastRead number id = some r →
    r.count ≤ s.stored.length ∧ s.archives.disk.LeadsTo (join root id) r.directory

/-- A disk whose logs, if there are any, are empty. -/
def LogsEmpty (d : Disk) : Prop :=
  ∀ {at_ : Place}, IsPlace at_ → ∀ log, d.logAt at_ = some log → log = ByteArray.empty

theorem logsEmpty_empty : LogsEmpty {} := by
  intro at_ hat log hlog
  rw [logAt_eq_some] at hlog
  cases h : at_ ++ [responsesFile] with
  | nil => simp at h
  | cons name rest =>
    rw [h] at hlog
    cases hlog

variable {root : String} {s : Session}

/-- Before the first call nothing was stored. -/
theorem sound_start {disk : Disk} (h : LogsEmpty disk) : Sound root { archives := { disk } } where
  index hentry := by cases hentry
  unread _ _ := rfl
  log hat log hlog := h hat log hlog
  held _ he := by cases he
  read h := by cases h

/-- What a store answers from its index is the first response that it knows under the key. -/
theorem Indexed.known?_eq {number : Nat} {st : DirectoryStore} (h : s.Indexed number st)
    (id key : String) :
    st.known? id key = (first? (s.known number id) key).map (·.response.body) := by
  rw [DirectoryStore.known?, h id, ← StoredResponse.get?_firsts_responses, known]
  cases s.lastRead number id <;> rfl

/-- The account stays right when the disk grows and the stores keep what they know. -/
theorem Sound.of_keepsLogs (h : Sound root s) {archives : Archives}
    (hdisk : s.archives.disk.KeepsLogs archives.disk)
    (hindex : ∀ {number : Nat} {entry : OpenStore}, archives.stores[number]? = some entry →
      ∃ st : DirectoryStore, entry = ⟨.directory st, {}⟩ ∧ st.root = root ∧ s.Indexed number st)
    (hunread : ∀ {number : Nat}, archives.stores[number]? = none →
      s.archives.stores[number]? = none) :
    Sound root { s with archives } where
  index := hindex
  unread hnone := h.unread (hunread hnone)
  log {at_} hat log hlog := by
    by_cases hempty : within s.stored at_ = []
    · rw [hempty]
      rcases hdisk.fresh hat log hlog with hold | hnew
      · have := h.log hat log hold
        rwa [hempty] at this
      · exact hnew
    · obtain ⟨e, rest, hwithin⟩ := List.exists_cons_of_ne_nil hempty
      have he : e ∈ within s.stored at_ := by
        rw [hwithin]
        exact .head _
      obtain ⟨hmem, hdirectory⟩ := List.mem_filter.mp he
      obtain ⟨old, hold⟩ := h.held e hmem
      rw [of_decide_eq_true hdirectory] at hold
      have hkept := hdisk.kept hat hold.leads.2 old hold.logged.2
      rw [hlog, Option.some.injEq] at hkept
      rw [hkept]
      exact h.log hat old hold.logged.2
  held e he := by
    obtain ⟨log, hlog⟩ := h.held e he
    exact hdisk.grown.holds hlog
  read hread := ⟨(h.read hread).1, hdisk.grown.leadsTo (h.read hread).2⟩

/-- The stores know what they should if one of them was replaced by one that does, and what the
others should know is the same. -/
theorem Sound.index_set (h : Sound root s) {number : Nat} {old : OpenStore} {st : DirectoryStore}
    {t : Session} (hstore : s.archives.stores[number]? = some old) (hself : t.Indexed number st)
    (hroot : st.root = root)
    (hothers : ∀ other st', number ≠ other → s.Indexed other st' → t.Indexed other st')
    {other : Nat} {entry : OpenStore}
    (hentry : (s.archives.stores.set number ⟨.directory st, {}⟩)[other]? = some entry) :
    ∃ st' : DirectoryStore, entry = ⟨.directory st', {}⟩ ∧ st'.root = root
      ∧ t.Indexed other st' := by
  by_cases hother : number = other
  · subst hother
    rw [Archives.getElem?_set_of_getElem? hstore, Option.some.injEq] at hentry
    exact ⟨st, hentry.symm, hroot, hself⟩
  · rw [List.getElem?_set_ne hother] at hentry
    obtain ⟨st', rfl, hroot', hindexed⟩ := h.index hentry
    exact ⟨st', rfl, hroot', hothers other st' hother hindexed⟩

/-! ## One call -/

theorem Sound.openStore (h : Sound root s) : Sound root (s.step root .openStore) := by
  have hdisk := (sameFiles_makeDirectories root s.archives.disk).keepsLogs
  rw [step, Archives.openDirectory_run]
  revert hdisk
  rcases (makeDirectories root).run s.archives.disk with ⟨fault | _, disk⟩
  · intro hdisk
    exact h.of_keepsLogs hdisk h.index id
  · intro hdisk
    apply h.of_keepsLogs hdisk
    · intro number entry hentry
      change (s.archives.stores ++ [_])[number]? = some entry at hentry
      rcases Nat.lt_trichotomy number s.archives.stores.length with hlt | heq | hgt
      · rw [List.getElem?_append_left hlt] at hentry
        exact h.index hentry
      · subst heq
        rw [List.getElem?_concat_length, Option.some.injEq] at hentry
        refine ⟨{ root }, hentry.symm, rfl, fun id => ?_⟩
        rw [h.unread (List.getElem?_eq_none (Nat.le_refl _)) id]
        rfl
      · rw [List.getElem?_eq_none (by simp; omega)] at hentry
        cases hentry
    · intro number hnone
      change (s.archives.stores ++ [_])[number]? = none at hnone
      rw [List.getElem?_eq_none_iff, List.length_append] at hnone
      exact List.getElem?_eq_none (Nat.le_of_add_right_le hnone)

theorem Sound.create (h : Sound root s) (number : Nat) (description : ArchiveMetadata) :
    Sound root (s.step root (.create number description)) := by
  rw [step]
  cases hstore : s.archives.stores[number]? with
  | none =>
    rw [Archives.create, Archives.call_of_none hstore]
    exact h
  | some entry =>
    obtain ⟨st, rfl, hroot, hindexed⟩ := h.index hstore
    obtain ⟨r, disk, hrun, hkeeps, -⟩ := st.create_cases s.archives.disk description
    rw [Archives.create, Archives.call_of_directory hstore _ _ _ hrun,
        Archives.set_of_getElem? hstore]
    exact h.of_keepsLogs hkeeps h.index id

/-- What a store knows after one more response was stored: that response too, if the store has read
the archive and the response was stored through it. -/
theorem known_concat (e : StoredResponse) (number : Nat) (id : String)
    (h : ∀ r, s.lastRead number id = some r → r.count ≤ s.stored.length) :
    ({ s with stored := s.stored ++ [e] } : Session).known number id
      = s.known number id
        ++ if (s.lastRead number id).isSome ∧ e.number = number ∧ e.archiveId = id then [e]
          else [] := by
  unfold known
  dsimp only
  cases hread : s.lastRead number id with
  | none => simp
  | some r =>
    have hcount := h r hread
    dsimp only
    rw [List.take_append_of_le_length hcount, List.drop_append_of_le_length hcount, through,
      List.filter_append, ← List.append_assoc]
    congr 1
    by_cases he : e.number = number ∧ e.archiveId = id
    · rw [if_pos ⟨rfl, he⟩]
      simp [he]
    · rw [if_neg fun hif => he hif.2]
      simpa using he

/-- The index stays right when a response is noted. -/
theorem Indexed.note {number : Nat} {st : DirectoryStore} (h : s.Indexed number st)
    (hcount : ∀ id r, s.lastRead number id = some r → r.count ≤ s.stored.length)
    (archiveId : String) (at_ : Place) (response : LoggedResponse) :
    ({ s with stored := s.stored ++ [⟨number, archiveId, at_, response⟩] } : Session).Indexed number
      (st.note archiveId response) := by
  intro id
  rw [known_concat _ _ _ (hcount id)]
  have hindex := h archiveId
  by_cases heq : archiveId = id
  · subst heq
    cases hread : s.lastRead number archiveId with
    | none =>
      rw [hread] at hindex
      rw [DirectoryStore.note, hindex]
      exact hindex
    | some r =>
      rw [hread] at hindex
      rw [DirectoryStore.note, hindex]
      simp only [Option.map_some, Keyed.get?_insert_self, Option.isSome_some, and_self, if_true]
      rw [responses_concat, ResponseLog.firsts_append]
  · rw [if_neg fun hif => heq hif.2.2, List.append_nil, ← h id, DirectoryStore.note]
    split
    · rfl
    · exact (Keyed.get?_insert ..).trans (if_neg (Ne.symm heq))

/-- What a store knows stays the same when a response is stored through another one. -/
theorem Indexed.concat {other : Nat} {st : DirectoryStore} (h : s.Indexed other st)
    (hcount : ∀ id r, s.lastRead other id = some r → r.count ≤ s.stored.length)
    {e : StoredResponse} (hne : e.number ≠ other) :
    ({ s with stored := s.stored ++ [e] } : Session).Indexed other st := by
  intro id
  rw [known_concat e other id (hcount id), if_neg fun hif => hne hif.2.1, List.append_nil]
  exact h id

theorem Sound.store (h : Sound root s) (number : Nat) (archiveId : String) (request : Request)
    (body : String) : Sound root (s.step root (.store number archiveId request body)) := by
  rw [step]
  cases hstore : s.archives.stores[number]? with
  | none =>
    rw [Archives.store, Archives.call_of_none hstore]
    exact h
  | some entry =>
    obtain ⟨st, rfl, rfl, hindexed⟩ := h.index hstore
    rcases st.store_cases s.archives.disk archiveId request body
      with ⟨e, hrun⟩ | ⟨at_, log, hholds, hrun⟩
    · rw [Archives.store, Archives.call_of_directory hstore _ _ _ hrun,
        Archives.set_of_getElem? hstore]
      exact h
    · rw [Archives.store, Archives.call_of_directory hstore _ _ _ hrun]
      have hdirectory : s.directoryOf st.root archiveId = some at_ :=
        directoryAt_eq_some.mpr hholds.leads
      have hat := hholds.leads.isPlace
      have hgrown := hholds.extends_put_log (log ++ ResponseLog.line ⟨request.archiveKey, body⟩)
      simp only [noteStored, hdirectory, Option.getD_some]
      have hcount : ∀ other id r, s.lastRead other id = some r → r.count ≤ s.stored.length :=
        fun _ _ _ hread => (h.read hread).1
      constructor
      case index =>
        intro other entry hentry
        refine h.index_set hstore ?_ (DirectoryStore.root_note ..) ?_ hentry
        · exact hindexed.note (hcount number) archiveId at_ _
        · exact fun other st' hother hindexed' => hindexed'.concat (hcount other) hother
      case unread =>
        intro other hnone
        apply h.unread
        rw [List.getElem?_eq_none_iff] at hnone ⊢
        rwa [List.length_set] at hnone
      case log =>
        intro place hplace' found hfound
        rw [within_concat]
        change (s.archives.disk.put _ _).logAt place = some found at hfound
        rw [logAt_put_log hat hplace'] at hfound
        by_cases hsame : place = at_
        · subst hsame
          rw [if_pos rfl, Option.some.injEq] at hfound
          rw [if_pos rfl, responses_concat, ResponseLog.ofList_append,
            ← h.log hat log hholds.logged.2, hfound]
        · rw [if_neg hsame] at hfound
          rw [if_neg (Ne.symm hsame), List.append_nil]
          exact h.log hplace' found hfound
      case held =>
        intro e he
        rcases List.mem_append.mp he with he | he
        · obtain ⟨old, hold⟩ := h.held e he
          exact hgrown.holds hold
        · rw [List.mem_singleton.mp he]
          exact hgrown.holds hholds
      case read =>
        intro other id r hread
        have hread' := h.read hread
        refine ⟨?_, hgrown.leadsTo hread'.2⟩
        rw [List.length_append]
        omega

theorem tells_answer (rs : Keyed String) (key : String) :
    tells (DirectoryStore.answer rs key) = true := by
  rw [DirectoryStore.answer]
  cases rs.get? key <;> rfl

theorem tells_error {e : ArchiveError} (h : ∀ key, e ≠ .responseNotFound key) :
    tells (.error e) = false := by
  cases e with
  | responseNotFound key => exact absurd rfl (h key)
  | _ => rfl

theorem noteRead_of_known {number : Nat} {archiveId key : String} {e : StoredResponse}
    (h : first? (s.known number archiveId) key = some e) (answer : Except ArchiveError String) :
    s.noteRead root number archiveId key answer = s.lastRead := by
  rw [noteRead, h]

theorem noteRead_of_not_tells {answer : Except ArchiveError String} (h : tells answer = false)
    (number : Nat) (archiveId key : String) :
    s.noteRead root number archiveId key answer = s.lastRead := by
  rw [noteRead, h]
  cases first? (s.known number archiveId) key <;> rfl

/-- The session after a store has read the log of the archive in a directory. -/
def afterRead (s : Session) (number : Nat) (st : DirectoryStore) (archiveId : String)
    (at_ : Place) : Session where
  archives := s.archives.replace number
    { store := .directory <|
        st.withIndex archiveId (ResponseLog.firsts (responses (within s.stored at_))) }
  stored := s.stored
  lastRead := fun n id =>
    if n = number ∧ id = archiveId then some ⟨at_, s.stored.length⟩ else s.lastRead n id

theorem lastRead_afterRead (s : Session) (number : Nat) (st : DirectoryStore) (archiveId : String)
    (at_ : Place) (n : Nat) (id : String) :
    (s.afterRead number st archiveId at_).lastRead n id
      = if n = number ∧ id = archiveId then some ⟨at_, s.stored.length⟩ else s.lastRead n id := rfl

/-- A store that has read the log of an archive knows all that was stored in it. -/
theorem known_afterRead (s : Session) (number : Nat) (st : DirectoryStore) (archiveId : String)
    (at_ : Place) (n : Nat) (id : String) :
    (s.afterRead number st archiveId at_).known n id
      = if n = number ∧ id = archiveId then within s.stored at_ else s.known n id := by
  simp only [known, afterRead]
  by_cases h : n = number ∧ id = archiveId
  · rw [if_pos h, if_pos h]
    simp only [List.take_length, List.drop_length]
    exact List.append_nil _
  · rw [if_neg h, if_neg h]

theorem Indexed.afterRead {number : Nat} {st : DirectoryStore} (h : s.Indexed number st)
    (archiveId : String) (at_ : Place) : (s.afterRead number st archiveId at_).Indexed number
      (st.withIndex archiveId (ResponseLog.firsts (responses (within s.stored at_)))) := by
  intro id
  rw [known_afterRead, lastRead_afterRead, DirectoryStore.withIndex, Keyed.get?_insert]
  by_cases hid : id = archiveId
  · rw [if_pos hid, if_pos ⟨rfl, hid⟩, if_pos ⟨rfl, hid⟩]
    rfl
  · rw [if_neg hid, if_neg fun hif => hid hif.2, if_neg fun hif => hid hif.2]
    exact h id

theorem Indexed.afterRead_of_ne {number other : Nat} {st' : DirectoryStore}
    (h : s.Indexed other st') (hother : number ≠ other) (st : DirectoryStore) (archiveId : String)
    (at_ : Place) : (s.afterRead number st archiveId at_).Indexed other st' := by
  intro id
  rw [known_afterRead, lastRead_afterRead, if_neg fun hif => hother hif.1.symm,
    if_neg fun hif => hother hif.1.symm]
  exact h id

/-- The account stays right when a store reads the log of an archive. -/
theorem Sound.afterRead (h : Sound root s) {number : Nat} {st : DirectoryStore} {archiveId : String}
    {at_ : Place} (hstore : s.archives.stores[number]? = some ⟨.directory st, {}⟩)
    (hroot : st.root = root) (hindexed : s.Indexed number st)
    (hleads : s.archives.disk.LeadsTo (join root archiveId) at_) :
    Sound root (s.afterRead number st archiveId at_) where
  index hentry := by
    refine h.index_set hstore (hindexed.afterRead archiveId at_) hroot ?_ hentry
    exact fun other st' hother hindexed' => hindexed'.afterRead_of_ne hother st archiveId at_
  unread {other} hnone id := by
    change (s.archives.stores.set number _)[other]? = none at hnone
    rw [List.getElem?_eq_none_iff, List.length_set, ← List.getElem?_eq_none_iff] at hnone
    have hother : other ≠ number := by
      rintro rfl
      rw [hstore] at hnone
      cases hnone
    exact (if_neg fun hif => hother hif.1).trans (h.unread hnone id)
  log := h.log
  held := h.held
  read {other id r} hread := by
    change (if other = number ∧ id = archiveId then some _ else s.lastRead other id)
      = some r at hread
    split at hread
    · rename_i hif
      cases hread
      rw [hif.2]
      exact ⟨Nat.le_refl _, hleads⟩
    · exact h.read hread

theorem Sound.retrieve (h : Sound root s) (number : Nat) (archiveId : String) (request : Request) :
    Sound root (s.step root (.retrieve number archiveId request)) := by
  rw [step]
  cases hstore : s.archives.stores[number]? with
  | none =>
    rw [Archives.retrieve, Archives.call_of_none hstore]
    dsimp only
    rw [noteRead_of_not_tells rfl]
    exact h
  | some entry =>
    obtain ⟨st, rfl, rfl, hindexed⟩ := h.index hstore
    have hknown? := hindexed.known?_eq archiveId request.archiveKey
    rcases st.retrieve_cases s.archives.disk archiveId request
      with ⟨body, hknown, hrun⟩ | ⟨-, e, he, hrun⟩ | ⟨hknown, at_, log, found, hholds, hlog, hrun⟩
    · rw [Archives.retrieve, Archives.call_of_directory hstore _ _ _ hrun,
        Archives.set_of_getElem? hstore]
      rw [hknown] at hknown?
      obtain ⟨first, hfirst, -⟩ := Option.map_eq_some_iff.mp hknown?.symm
      dsimp only
      rw [noteRead_of_known hfirst]
      exact h
    · rw [Archives.retrieve, Archives.call_of_directory hstore _ _ _ hrun,
        Archives.set_of_getElem? hstore]
      dsimp only
      rw [noteRead_of_not_tells (tells_error he)]
      exact h
    · rw [Archives.retrieve, Archives.call_of_directory hstore _ _ _ hrun]
      rw [h.log hholds.leads.isPlace log hholds.logged.2, ResponseLog.read_ofList,
        Except.ok.injEq] at hlog
      have hnone : first? (s.known number archiveId) request.archiveKey = none := by
        rw [hknown] at hknown?
        exact Option.map_eq_none_iff.mp hknown?.symm
      have hdirectory : s.directoryOf st.root archiveId = some at_ :=
        directoryAt_eq_some.mpr hholds.leads
      simp only [noteRead, hnone, tells_answer, hdirectory, ← hlog]
      exact h.afterRead hstore rfl hindexed hholds.leads

/-! ## All calls -/

/-- Every call keeps the account right. -/
theorem Sound.step (h : Sound root s) (call : StoreCall) : Sound root (s.step root call) := by
  cases call with
  | openStore => exact h.openStore
  | create number description => exact h.create number description
  | store number archiveId request body => exact h.store number archiveId request body
  | retrieve number archiveId request => exact h.retrieve number archiveId request

/-- The account of a session is right throughout. -/
theorem sound_run {disk : Disk} (h : LogsEmpty disk) (calls : List StoreCall) :
    Sound root (run root disk calls) := by
  have hcalls : ∀ s, Sound root s → Sound root (calls.foldl (Session.step root) s) := by
    induction calls with
    | nil => exact fun s hs => hs
    | cons call calls ih => exact fun s hs => ih _ (hs.step call)
  exact hcalls _ (sound_start h)

end Session

end Intake
