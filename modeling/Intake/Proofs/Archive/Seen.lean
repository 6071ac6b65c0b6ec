import Intake.Proofs.Archive.Reached

/-!
# What a store sees of an archive

A store sees the responses that an archive holds, and may have some in its index from when it last
read the archive (`Archives.Sees`). A response that is stored is held from then on unless there is
one under its key, and is put into the index as well, if there is one (`Archives.Sees.store`). What
is retrieved comes from the index if it can, and else it is what is held (`Archives.Sees.retrieve`).

The index may say something else than what is held (`Archives.Agrees` is that it does not): other
stores may have stored a response under a key before, of which the index does not know.
-/

namespace Intake

open Disk

/-- Responses with others that came later, of which the first one under each key is kept. -/
def Keyed.keeping (held : Keyed String) (rs : List LoggedResponse) : Keyed String :=
  rs.foldl (fun known r => known.insertNew r.key r.body) held

/-- Under a key is what was held under it, or the first one of the others. -/
theorem Keyed.get?_keeping (held : Keyed String) (rs : List LoggedResponse) (key : String) :
    (held.keeping rs).get? key
      = (held.get? key).or ((rs.find? (·.key = key)).map (·.body)) :=
  ResponseLog.get?_foldl_insertNew rs held key

theorem Keyed.keeping_nil (held : Keyed String) : held.keeping [] = held := rfl

theorem Keyed.keeping_append (held : Keyed String) (rs rs' : List LoggedResponse) :
    held.keeping (rs ++ rs') = (held.keeping rs).keeping rs' :=
  List.foldl_append

theorem DirectoryStore.index_note_self (s : DirectoryStore) (archiveId : String)
    (r : LoggedResponse) : (s.note archiveId r).index.get? archiveId
      = (s.index.get? archiveId).map fun known => known.insertNew r.key r.body := by
  rw [note]
  cases hindex : s.index.get? archiveId with
  | none => exact hindex
  | some known => exact Keyed.get?_insert_self ..

namespace Archives

variable {a : Archives} {number : Nat} {archiveId : String} {held : Keyed String}
  {seen : Option (Keyed String)}

/-- The responses that an archive holds as a store without limits sees it, and those that the store
has in its index if it has read the archive. -/
inductive Sees (a : Archives) (number : Nat) (archiveId : String) (held : Keyed String) :
    Option (Keyed String) → Prop where
  | memory {s : MemoryStore} {archive : StoredArchive}
      (hopen : a.stores[number]? = some ⟨.memory s, {}⟩)
      (hfound : s.archives.get? archiveId = some archive) (hheld : archive.responses = held) :
      Sees a number archiveId held none
  | directory {s : DirectoryStore} {at_ : Place} {rs : List LoggedResponse}
      {seen : Option (Keyed String)} (hopen : a.stores[number]? = some ⟨.directory s, {}⟩)
      (hholds : a.disk.Holds (s.directoryOf archiveId) at_ (ResponseLog.ofList rs))
      (hheld : ResponseLog.firsts rs = held) (hseen : s.index.get? archiveId = seen) :
      Sees a number archiveId held seen

/-! ## Storing -/

/-- Storing a response in an archive that is seen does not fail. -/
theorem Sees.store (h : a.Sees number archiveId held seen) (request : Request) (body : String) :
    ∃ a', (Archives.store number archiveId request body).run a = (.ok (), a')
      ∧ a'.Sees number archiveId (held.insertNew request.archiveKey body)
        (seen.map fun known => known.insertNew request.archiveKey body) := by
  cases h with
  | @memory s archive hopen hfound hheld =>
    refine ⟨_, call_of_memory hopen _ _ _ (MemoryStore.store_of_get? hfound request body), ?_⟩
    exact .memory (getElem?_set_of_getElem? hopen _) (Keyed.get?_insert_self ..) (by rw [hheld])
  | @directory s at_ rs _ hopen hholds hheld hseen =>
    refine ⟨_, call_of_directory hopen _ _ _
      (DirectoryStore.store_of_holds hholds request body), ?_⟩
    generalize hr : (⟨request.archiveKey, body⟩ : LoggedResponse) = r
    have hstored : (a.disk.put (at_ ++ [responsesFile])
        (.file (ResponseLog.ofList rs ++ ResponseLog.line r))).Holds
          ((s.note archiveId r).directoryOf archiveId) at_ (ResponseLog.ofList (rs ++ [r])) := by
      rw [ResponseLog.ofList_append, DirectoryStore.directoryOf, DirectoryStore.root_note]
      exact hholds.put_log _
    refine .directory (getElem?_set_of_getElem? hopen _) hstored ?_ ?_
    · rw [ResponseLog.firsts_append, hheld, ← hr]
    · rw [DirectoryStore.index_note_self, hseen, ← hr]

/-! ## Retrieving -/

/-- What is answered for a key: what the index has under it, or else what is held. -/
def reply (seen : Option (Keyed String)) (held : Keyed String) (key : String) :
    Except ArchiveError String :=
  (seen >>= (·.get? key)).elim (DirectoryStore.answer held key) .ok

/-- What the index has is what is held. -/
def Agrees (seen : Option (Keyed String)) (held : Keyed String) : Prop :=
  ∀ known ∈ seen, ∀ key body, known.get? key = some body → held.get? key = some body

theorem agrees_self (held : Keyed String) : Agrees (some held) held := by
  rintro known ⟨⟩ key body hbody
  exact hbody

theorem Agrees.reply_eq (h : Agrees seen held) (key : String) :
    reply seen held key = DirectoryStore.answer held key := by
  rw [reply]
  cases hknown : seen >>= (·.get? key) with
  | none => rfl
  | some body =>
    obtain ⟨known, hseen, hbody⟩ := Option.bind_eq_some_iff.mp hknown
    rw [DirectoryStore.answer, h known hseen key body hbody]
    rfl

/-- An index that answers every key with what is held says nothing else. -/
theorem agrees_of_reply_eq
    (h : ∀ key, reply seen held key = DirectoryStore.answer held key) : Agrees seen held := by
  intro known hseen key body hbody
  have hreply : reply seen held key = .ok body := by
    rw [reply, show seen = some known from hseen]
    show (known.get? key).elim _ _ = _
    rw [hbody]
    rfl
  rw [h key, DirectoryStore.answer] at hreply
  cases hheld : held.get? key with
  | none =>
    rw [hheld] at hreply
    cases hreply
  | some other =>
    rw [hheld] at hreply
    cases hreply
    rfl

/-- Retrieving answers from the index or with what is held, and leaves the archives as they are. The
index is what it was, or what is held. -/
theorem Sees.retrieve (h : a.Sees number archiveId held seen) (request : Request) :
    ∃ a' seen', (Archives.retrieve number archiveId request).run a
        = (reply seen held request.archiveKey, a')
      ∧ a'.Sees number archiveId held seen' ∧ a'.unread = a.unread
      ∧ (seen' = seen ∨ seen' = some held) := by
  cases h with
  | @memory s archive hopen hfound hheld =>
    refine ⟨a, none, ?_, .memory hopen hfound hheld, rfl, .inl rfl⟩
    rw [Archives.retrieve, call_of_memory hopen _ _ _ (MemoryStore.retrieve_of_get? hfound request),
      hheld, set_of_getElem? hopen]
    rfl
  | @directory s at_ rs _ hopen hholds hheld hseen =>
    have hknown? : s.known? archiveId request.archiveKey
        = seen >>= (·.get? request.archiveKey) := by
      rw [DirectoryStore.known?, hseen]
    cases hknown : s.known? archiveId request.archiveKey with
    | some body =>
      refine ⟨a, seen, ?_, .directory hopen hholds hheld hseen, rfl, .inl rfl⟩
      rw [Archives.retrieve, call_of_directory hopen _ _ _
        (DirectoryStore.retrieve_of_known hknown a.disk), set_of_getElem? hopen, reply, ← hknown?,
        hknown]
      rfl
    | none =>
      have hrun := DirectoryStore.retrieve_of_holds hholds (ResponseLog.read_ofList rs) hknown
      rw [hheld] at hrun
      have hreply : reply seen held request.archiveKey
          = DirectoryStore.answer held request.archiveKey := by
        rw [reply, ← hknown?, hknown]
        rfl
      rw [hreply]
      refine ⟨_, some held, call_of_directory hopen _ _ _ hrun, ?_, unread_set hopen rfl, .inr rfl⟩
      exact .directory (getElem?_set_of_getElem? hopen _) hholds hheld
        (DirectoryStore.index_withIndex_self ..)

end Archives

end Intake
