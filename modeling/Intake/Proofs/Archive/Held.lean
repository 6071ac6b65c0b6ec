import Intake.Proofs.Archive.Views

/-!
# What archives hold

`Archives.held` are the responses that a store can give for an archive. In memory these are the
responses that the archive has. A store in a directory gives what its index has, and else what it
reads in the log.

A store gives only what it holds (`Archives.mem_held_of_retrieve`), and by retrieving it comes to
hold nothing more (`Archives.holdsWithin_retrieve`). This is so for every store, whatever is on the
disk and however many calls it still answers.
-/

namespace Intake

namespace DirectoryStore

variable {s : DirectoryStore} {d : Disk} {archiveId : String}

/-- The responses that a store can give for an archive: those in its index, and those in the log. -/
def held (s : DirectoryStore) (d : Disk) (archiveId : String) : Keyed String :=
  ((logged s.root d archiveId).toOption.getD .empty).union
    ((s.index.get? archiveId).getD .empty)

theorem get?_held (s : DirectoryStore) (d : Disk) (archiveId key : String) :
    (s.held d archiveId).get? key = (s.known? archiveId key).or
      (((logged s.root d archiveId).toOption.getD .empty).get? key) := by
  rw [held, Keyed.get?_union, known?]
  cases s.index.get? archiveId <;> rfl

theorem answer_eq_ok {responses : Keyed String} {key body : String} :
    answer responses key = .ok body ↔ responses.get? key = some body := by
  rw [answer]
  cases responses.get? key with
  | none => constructor <;> rintro ⟨⟩
  | some found => rw [Option.elim_some, Except.ok.injEq, Option.some.injEq]

/-- A store gives only what it holds. -/
theorem get?_held_of_lookUp {key body : String} (h : (s.lookUp d archiveId key).1 = .ok body) :
    (s.held d archiveId).get? key = some body := by
  rw [get?_held]
  unfold lookUp at h
  cases hknown : s.known? archiveId key with
  | some known =>
    rw [hknown] at h
    cases h
    rfl
  | none =>
    cases hlogged : logged s.root d archiveId with
    | error e =>
      rw [hknown, hlogged] at h
      cases h
    | ok responses =>
      rw [hknown, hlogged] at h
      exact answer_eq_ok.mp h

/-- Looking into an archive puts nothing new under any key, in this archive or another one. -/
theorem keys_held_lookUp (s : DirectoryStore) (d : Disk) (archiveId key other : String) :
    ((s.lookUp d archiveId key).2.held d other).keys ⊆ (s.held d other).keys := by
  intro k hk
  rw [Keyed.mem_keys, get?_held, root_lookUp] at hk
  rw [Keyed.mem_keys, get?_held]
  by_cases hother : other = archiveId
  · subst hother
    unfold lookUp at hk
    cases hknown : s.known? other key with
    | some body =>
      rw [hknown] at hk
      exact hk
    | none =>
      cases hlogged : logged s.root d other with
      | error e =>
        rw [hknown, hlogged] at hk
        exact hk
      | ok responses =>
        -- the index is what the log holds now
        have hindex : (s.withIndex other responses).known? other k = responses.get? k := by
          rw [known?, index_withIndex_self]
          rfl
        rw [hknown, hlogged] at hk
        change (((s.withIndex other responses).known? other k).or (responses.get? k)).isSome = true
          at hk
        rw [hindex, Option.or_self] at hk
        show ((s.known? other k).or (responses.get? k)).isSome = true
        rw [Option.isSome_or, hk, Bool.or_true]
  · rwa [known?, index_lookUp_of_ne hother] at hk

end DirectoryStore

namespace Archives

variable {a a' : Archives} {number : Nat} {archiveId key : String}

/-- The responses that a store can give for an archive. A store that is not open has none. -/
def held (a : Archives) (number : Nat) (archiveId : String) : Keyed String :=
  match a.stores[number]? with
  | none => .empty
  | some ⟨.memory s, _⟩ => (s.archives.get? archiveId).elim .empty (·.responses)
  | some ⟨.directory s, _⟩ => s.held a.disk archiveId

theorem held_of_memory {s : MemoryStore} {limits : CallLimits}
    (h : a.stores[number]? = some ⟨.memory s, limits⟩) (archiveId : String) :
    a.held number archiveId = (s.archives.get? archiveId).elim .empty (·.responses) := by
  rw [held, h]

theorem held_of_directory {s : DirectoryStore} {limits : CallLimits}
    (h : a.stores[number]? = some ⟨.directory s, limits⟩) (archiveId : String) :
    a.held number archiveId = s.held a.disk archiveId := by
  rw [held, h]

/-! ## What retrieving does -/

/-- The ways in which a store answers for a key of an archive: it refuses to, or it answers from
memory or looks up in its directory. -/
inductive Answered (a : Archives) (number : Nat) (archiveId key : String) :
    Except ArchiveError String → Archives → Prop where
  | refused (e : ArchiveError) : Answered a number archiveId key (.error e) a
  | memory {s : MemoryStore} {limits limits' : CallLimits}
      (hopen : a.stores[number]? = some ⟨.memory s, limits⟩) :
      Answered a number archiveId key (s.lookUp archiveId key)
        (a.replace number ⟨.memory s, limits'⟩)
  | directory {s : DirectoryStore} {limits limits' : CallLimits}
      (hopen : a.stores[number]? = some ⟨.directory s, limits⟩) :
      Answered a number archiveId key (s.lookUp a.disk archiveId key).1
        (a.replace number ⟨.directory (s.lookUp a.disk archiveId key).2, limits'⟩)

theorem answered_retrieve (a : Archives) (number : Nat) (archiveId : String) (request : Request) :
    Answered a number archiveId request.archiveKey
      ((Archives.retrieve number archiveId request).run a).1
      ((Archives.retrieve number archiveId request).run a).2 := by
  have hcalled := called_call a number .retrieve (MemoryStore.retrieve archiveId request)
    (DirectoryStore.retrieve archiveId request)
  rw [← Archives.retrieve] at hcalled
  rcases hdone : (Archives.retrieve number archiveId request).run a with ⟨r, a'⟩
  rw [hdone] at hcalled
  cases hcalled with
  | refused e => exact .refused e
  | memory hopen hspend hrun =>
    rw [MemoryStore.retrieve_run] at hrun
    cases hrun
    exact .memory hopen
  | directory hopen hspend hrun =>
    rw [DirectoryStore.retrieve_run] at hrun
    cases hrun
    exact .directory hopen

theorem Answered.get?_held {r : Except ArchiveError String}
    (h : Answered a number archiveId key r a') {body : String} (hr : r = .ok body) :
    (a.held number archiveId).get? key = some body := by
  cases h with
  | refused e => cases hr
  | @memory s limits limits' hopen =>
    rw [held_of_memory hopen]
    rw [MemoryStore.lookUp] at hr
    cases hfound : s.archives.get? archiveId with
    | none =>
      rw [hfound] at hr
      cases hr
    | some archive =>
      rw [hfound] at hr
      exact DirectoryStore.answer_eq_ok.mp hr
  | directory hopen =>
    rw [held_of_directory hopen]
    exact DirectoryStore.get?_held_of_lookUp hr

/-- A store gives only what it holds. -/
theorem mem_held_of_retrieve {request : Request} {body : String}
    (h : ((Archives.retrieve number archiveId request).run a).1 = .ok body) :
    request.archiveKey ∈ (a.held number archiveId).keys := by
  rw [Keyed.mem_keys, (a.answered_retrieve number archiveId request).get?_held h]
  rfl

/-! ## What stays -/

/-- A store holds nothing under a key under which it held nothing before. -/
def HoldsWithin (number : Nat) (a a' : Archives) : Prop :=
  ∀ archiveId, (a'.held number archiveId).keys ⊆ (a.held number archiveId).keys

theorem HoldsWithin.refl (number : Nat) (a : Archives) : HoldsWithin number a a :=
  fun _ => List.Subset.refl _

theorem HoldsWithin.trans {a'' : Archives} (h : HoldsWithin number a a')
    (h' : HoldsWithin number a' a'') : HoldsWithin number a a'' :=
  fun archiveId => List.Subset.trans (h' archiveId) (h archiveId)

theorem HoldsWithin.size_le (h : HoldsWithin number a a') (archiveId : String) :
    (a'.held number archiveId).size ≤ (a.held number archiveId).size := by
  have hle := (Keyed.nodup_keys (a'.held number archiveId)).length_le_of_subset (h archiveId)
  rwa [Keyed.keys, Keyed.keys, List.length_map, List.length_map] at hle

theorem Answered.holdsWithin {r : Except ArchiveError String}
    (h : Answered a number archiveId key r a') : HoldsWithin number a a' := by
  intro other
  cases h with
  | refused e => exact List.Subset.refl _
  | memory hopen =>
    rw [held_of_memory hopen, held_of_memory (getElem?_set_of_getElem? hopen _)]
    exact List.Subset.refl _
  | @directory s limits limits' hopen =>
    rw [held_of_directory hopen, held_of_directory (getElem?_set_of_getElem? hopen _)]
    exact s.keys_held_lookUp a.disk archiveId key other

/-- By retrieving a store comes to hold nothing more. -/
theorem holdsWithin_retrieve (a : Archives) (number : Nat) (archiveId : String)
    (request : Request) :
    HoldsWithin number a ((Archives.retrieve number archiveId request).run a).2 :=
  (a.answered_retrieve number archiveId request).holdsWithin

end Archives

end Intake
