import Intake.Proofs.Archive.Kept

/-!
# Looking into archives

Retrieving a response changes nothing but what a store in a directory has in its index
(`DirectoryStore.retrieve_run`), and of that only what it has of the archive that it looks into. So
whoever looks into one archive sees the same before and after others were looked into
(`Archives.SameView.after_retrieve`).

An archive that was itself looked into is seen the same as well if the index is current, that is if
it does not contradict the log.
-/

namespace Intake

open Disk

namespace DirectoryStore

/-! ## One call -/

variable {s s' : DirectoryStore} {d : Disk} {archiveId other : String}

theorem root_lookUp (s : DirectoryStore) (d : Disk) (archiveId key : String) :
    (s.lookUp d archiveId key).2.root = s.root := by
  unfold lookUp
  split
  · rfl
  · split <;> rfl

/-- Looking into an archive leaves what the index has of others. -/
theorem index_lookUp_of_ne (h : other ≠ archiveId) (d : Disk) (key : String) :
    (s.lookUp d archiveId key).2.index.get? other = s.index.get? other := by
  unfold lookUp
  split
  · rfl
  · split
    · rfl
    · exact (Keyed.get?_insert ..).trans (if_neg h)

/-- Stores that have the same of an archive in their indexes see the same in it. -/
theorem lookUp_congr (hroot : s'.root = s.root)
    (hindex : s'.index.get? archiveId = s.index.get? archiveId) (d : Disk) (key : String) :
    (s'.lookUp d archiveId key).1 = (s.lookUp d archiveId key).1
      ∧ (s'.lookUp d archiveId key).2.index.get? archiveId
        = (s.lookUp d archiveId key).2.index.get? archiveId := by
  have hknown : s'.known? archiveId key = s.known? archiveId key := by
    rw [known?, known?, hindex]
  rw [lookUp, lookUp, hknown, hroot]
  cases s.known? archiveId key with
  | some body => exact ⟨rfl, hindex⟩
  | none =>
    cases logged s.root d archiveId with
    | error e => exact ⟨rfl, hindex⟩
    | ok responses =>
      refine ⟨rfl, ?_⟩
      rw [index_withIndex_self, index_withIndex_self]

/-! ## Current indexes -/

/-- What the index has of an archive is also in the log. -/
def Current (s : DirectoryStore) (d : Disk) (archiveId : String) : Prop :=
  ∀ known, s.index.get? archiveId = some known → ∃ responses,
    logged s.root d archiveId = .ok responses
      ∧ ∀ key body, known.get? key = some body → responses.get? key = some body

/-- A store whose index is current answers from the log. -/
theorem Current.lookUp_eq (h : s.Current d archiveId) (key : String) :
    (s.lookUp d archiveId key).1 = logged s.root d archiveId >>= fun responses =>
      answer responses key := by
  rw [lookUp]
  cases hknown : s.known? archiveId key with
  | none => cases logged s.root d archiveId <;> rfl
  | some body =>
    obtain ⟨known, hindex, hbody⟩ := Option.bind_eq_some_iff.mp hknown
    obtain ⟨responses, hlogged, hall⟩ := h known hindex
    rw [hlogged]
    show _ = answer responses key
    rw [answer, hall key body hbody]
    rfl

/-- The index stays current. -/
theorem Current.lookUp (h : s.Current d archiveId) (key : String) :
    (s.lookUp d archiveId key).2.Current d archiveId := by
  unfold DirectoryStore.lookUp
  cases s.known? archiveId key with
  | some body => exact h
  | none =>
    cases hlogged : logged s.root d archiveId with
    | error e => exact h
    | ok responses =>
      intro known hindex
      have hresponses : responses = known :=
        Option.some.inj ((index_withIndex_self ..).symm.trans hindex)
      exact ⟨responses, hlogged, fun key body hbody => hresponses ▸ hbody⟩

theorem Current.congr (h : s.Current d archiveId) (hroot : s'.root = s.root)
    (hindex : s'.index.get? archiveId = s.index.get? archiveId) : s'.Current d archiveId := by
  intro known hknown
  rw [hindex] at hknown
  rw [hroot]
  exact h known hknown

end DirectoryStore

/-! ## Views -/

namespace Archives

variable {a a' : Archives} {number : Nat} {archiveId other : String}

/-- The index of a store in a directory does not contradict the log of an archive. -/
def Current (a : Archives) (number : Nat) (archiveId : String) : Prop :=
  ∀ s limits, a.stores[number]? = some ⟨.directory s, limits⟩ → s.Current a.disk archiveId

/-- An archive is seen the same in both, through a store that may retrieve without a limit. -/
inductive SameView (number : Nat) (archiveId : String) (a a' : Archives) : Prop where
  | memory {s : MemoryStore} {limits : CallLimits}
      (hopen : a.stores[number]? = some ⟨.memory s, limits⟩)
      (hopen' : a'.stores[number]? = some ⟨.memory s, limits⟩)
      (hfree : limits.retrieve = none)
  | directory {s s' : DirectoryStore} {limits : CallLimits}
      (hopen : a.stores[number]? = some ⟨.directory s, limits⟩)
      (hopen' : a'.stores[number]? = some ⟨.directory s', limits⟩)
      (hfree : limits.retrieve = none) (hdisk : a'.disk = a.disk) (hroot : s'.root = s.root)
      (hview : s'.index.get? archiveId = s.index.get? archiveId
        ∨ s.Current a.disk archiveId ∧ s'.Current a.disk archiveId)

/-- A store in memory answers and stays as it is. -/
theorem retrieve_of_memory {s : MemoryStore} {limits : CallLimits}
    (h : a.stores[number]? = some ⟨.memory s, limits⟩) (hfree : limits.retrieve = none)
    (archiveId : String) (request : Request) :
    (Archives.retrieve number archiveId request).run a
      = (((MemoryStore.retrieve archiveId request).run s).1, a) := by
  have hget : limits.get .retrieve = none := hfree
  have hrun := MemoryStore.retrieve_run s archiveId request
  rw [Archives.retrieve, call_of_memory_of_free h hget _ _ hrun, hrun, set_of_getElem? h]

/-- A store in a directory looks up. -/
theorem retrieve_of_directory {s : DirectoryStore} {limits : CallLimits}
    (h : a.stores[number]? = some ⟨.directory s, limits⟩) (hfree : limits.retrieve = none)
    (archiveId : String) (request : Request) :
    (Archives.retrieve number archiveId request).run a
      = ((s.lookUp a.disk archiveId request.archiveKey).1,
        a.replace number ⟨.directory (s.lookUp a.disk archiveId request.archiveKey).2, limits⟩) := by
  have hget : limits.get .retrieve = none := hfree
  rw [Archives.retrieve, call_of_directory_of_free h hget _ _
    (s.retrieve_run a.disk archiveId request), replace]

theorem SameView.refl {entry : OpenStore} (h : a.stores[number]? = some entry)
    (hfree : entry.limits.retrieve = none) (archiveId : String) :
    SameView number archiveId a a := by
  obtain ⟨s | s, limits⟩ := entry
  · exact .memory h h hfree
  · exact .directory h h hfree rfl rfl (.inl rfl)

/-- What is seen the same is answered the same, and then still seen the same. -/
theorem SameView.retrieve (h : SameView number archiveId a a') (request : Request) :
    ((Archives.retrieve number archiveId request).run a).1
        = ((Archives.retrieve number archiveId request).run a').1
      ∧ SameView number archiveId ((Archives.retrieve number archiveId request).run a).2
        ((Archives.retrieve number archiveId request).run a').2 := by
  cases h with
  | memory hopen hopen' hfree =>
    rw [retrieve_of_memory hopen hfree, retrieve_of_memory hopen' hfree]
    exact ⟨rfl, .memory hopen hopen' hfree⟩
  | @directory s s' limits hopen hopen' hfree hdisk hroot hview =>
    rw [retrieve_of_directory hopen hfree, retrieve_of_directory hopen' hfree, hdisk]
    have hroots : (s'.lookUp a.disk archiveId request.archiveKey).2.root
        = (s.lookUp a.disk archiveId request.archiveKey).2.root := by
      rw [DirectoryStore.root_lookUp, DirectoryStore.root_lookUp, hroot]
    have hsame : (s.lookUp a.disk archiveId request.archiveKey).1
          = (s'.lookUp a.disk archiveId request.archiveKey).1
        ∧ ((s'.lookUp a.disk archiveId request.archiveKey).2.index.get? archiveId
            = (s.lookUp a.disk archiveId request.archiveKey).2.index.get? archiveId
          ∨ (s.lookUp a.disk archiveId request.archiveKey).2.Current a.disk archiveId
            ∧ (s'.lookUp a.disk archiveId request.archiveKey).2.Current a.disk archiveId) := by
      rcases hview with hindex | ⟨hcurrent, hcurrent'⟩
      · obtain ⟨hanswer, hafter⟩ :=
          DirectoryStore.lookUp_congr hroot hindex a.disk request.archiveKey
        exact ⟨hanswer.symm, .inl hafter⟩
      · refine ⟨?_, .inr ⟨hcurrent.lookUp _, hcurrent'.lookUp _⟩⟩
        rw [hcurrent.lookUp_eq, hcurrent'.lookUp_eq, hroot]
    exact ⟨hsame.1, .directory (getElem?_set_of_getElem? hopen _)
      (getElem?_set_of_getElem? hopen' _) hfree hdisk hroots hsame.2⟩

/-- An archive is seen the same after one was looked into that is another one, or that the index
does not contradict. -/
theorem SameView.after_retrieve (h : SameView number archiveId a a')
    (hother : other ≠ archiveId ∨ a.Current number archiveId) (request : Request) :
    SameView number archiveId a ((Archives.retrieve number other request).run a').2 := by
  cases h with
  | memory hopen hopen' hfree =>
    rw [retrieve_of_memory hopen' hfree]
    exact .memory hopen hopen' hfree
  | @directory s s' limits hopen hopen' hfree hdisk hroot hview =>
    rw [retrieve_of_directory hopen' hfree, hdisk]
    refine .directory hopen (getElem?_set_of_getElem? hopen' _) hfree hdisk
      ((DirectoryStore.root_lookUp ..).trans hroot) ?_
    by_cases hsame : other = archiveId
    · subst hsame
      have hcurrent : s.Current a.disk other :=
        hother.resolve_left (fun hne => hne rfl) s limits hopen
      have hcurrent' : s'.Current a.disk other := by
        rcases hview with hindex | ⟨-, hcurrent'⟩
        · exact hcurrent.congr hroot hindex
        · exact hcurrent'
      exact .inr ⟨hcurrent, hcurrent'.lookUp _⟩
    · have hindex := DirectoryStore.index_lookUp_of_ne (s := s') (Ne.symm hsame) a.disk
        request.archiveKey
      rcases hview with hview | ⟨hcurrent, hcurrent'⟩
      · exact .inl (hindex.trans hview)
      · exact .inr ⟨hcurrent, hcurrent'.congr (DirectoryStore.root_lookUp ..) hindex⟩

/-- A store may retrieve without a limit, and of an identifier that stands for several of some
archives its index does not contradict the log. -/
structure Settled (a : Archives) (number : Nat) (identifiers : List String) : Prop where
  unlimited : ∃ entry, a.stores[number]? = some entry ∧ entry.limits.retrieve = none
  apart : identifiers.Pairwise fun archiveId other =>
    archiveId ≠ other ∨ a.Current number archiveId

/-- Stores in memory have no index. -/
theorem settled_of_memory {s : MemoryStore} {limits : CallLimits}
    (h : a.stores[number]? = some ⟨.memory s, limits⟩) (hfree : limits.retrieve = none)
    (identifiers : List String) : a.Settled number identifiers where
  unlimited := ⟨_, h, hfree⟩
  apart := List.pairwise_of_forall fun _ _ => .inr fun _ _ hopen => by
    cases h.symm.trans hopen

end Archives

end Intake
