import Intake.Proofs.Archive.Reached
import Intake.Proofs.Archive.Session
import Mathlib.Data.List.Forall2

/-!
# The log of an archive, line by line

Whatever the texts are that are stored in an archive, the log splits at its line ends into one line
for each response (`ResponseLog.Frames`): a line end in a text stands escaped in the line of the
response. So the log is always read, and what is read are the responses by their keys.

The responses are those that steps have stored in the directory of the archive, through any store
and under any spelling of its path (`Archives.storedIn`). One step adds the line of the response
that it stores there to the log, and nothing else (`Archives.holds_step`), and so do all steps
(`Archives.holds_after`). A store can store in an archive that it has created at any time
(`Archives.IsAt.storedBy_eq`). Together this is `Archives.frames_storedIn`.
-/

namespace Intake

open Disk

/-! ## Lines -/

namespace ResponseLog

/-- A line, without its end, is one of a response: there is something in it, nothing in it ends a
line, and it is read as the response. -/
structure IsLineOf (line : List UInt8) (r : LoggedResponse) : Prop where
  nonempty : line ≠ []
  unbroken : 10 ∉ line ∧ 13 ∉ line
  read : ∃ text, String.fromUTF8? ⟨line.toArray⟩ = some text
    ∧ LoggedResponse.wire.ofString text = .ok r

/-- A log is made up of the lines that it is split into, each with its end, and these are one for
each of some responses, in their order. -/
structure Frames (log : ByteArray) (rs : List LoggedResponse) : Prop where
  ended : log.data.toList = (linesFrom [] log.data.toList).flatMap (· ++ [10])
  lines : List.Forall₂ IsLineOf (linesFrom [] log.data.toList) rs

theorem isLineOf_octets (r : LoggedResponse) : IsLineOf (octets r) r where
  nonempty := by
    rw [octets, Text.toList_toUTF8, LoggedResponse.toList_encode]
    rintro ⟨⟩
  unbroken := by
    constructor
    · intro h
      exact absurd (le_of_mem_octets h) (by decide)
    · intro h
      exact absurd (le_of_mem_octets h) (by decide)
  read := ⟨_, fromUTF8?_octets r, r.ofString_encode⟩

/-- The log of some responses has a line for each of them. -/
theorem frames_ofList (rs : List LoggedResponse) : Frames (ofList rs) rs where
  ended := by rw [lines_ofList, toList_ofList, List.flatMap_map]
  lines := by
    rw [lines_ofList, List.forall₂_map_left_iff, List.forall₂_same]
    exact fun r _ => isLineOf_octets r

end ResponseLog

namespace Archives

/-! ## One call -/

section

variable {α : Type} {a a' : Archives} {number : Nat} {kind : ArchiveCall} {inMemory : MemoryM α}
  {inDirectory : DirectoryM α} {r : Except ArchiveError α}

/-- A store without limits in the directory at a path. -/
def IsAt (a : Archives) (number : Nat) (root : String) : Prop :=
  ∃ s, a.stores[number]? = some ⟨.directory s, {}⟩ ∧ s.root = root

/-- A call leaves every store where it is, if it leaves the one that is called. -/
theorem Called.isAt (h : Called a number kind inMemory inDirectory r a')
    (hwork : ∀ {s : DirectoryStore} {d : Disk} {r s' d'},
      inDirectory.run (s, d) = (r, (s', d')) → s'.root = s.root) {other : Nat} {root : String}
    (hat : a.IsAt other root) : a'.IsAt other root := by
  obtain ⟨t, hother, rfl⟩ := hat
  cases h with
  | refused e => exact ⟨t, hother, rfl⟩
  | memory hopen hspend hrun =>
    have hne : number ≠ other := by
      rintro rfl
      rw [hopen] at hother
      cases hother
    exact ⟨t, (List.getElem?_set_ne hne).trans hother, rfl⟩
  | @directory s s' limits limits' r disk hopen hspend hrun =>
    by_cases heq : number = other
    · subst heq
      rw [hopen, Option.some.injEq] at hother
      cases hother
      rw [CallLimits.spend_of_get (CallLimits.get_empty kind)] at hspend
      cases hspend
      exact ⟨s', getElem?_set_of_getElem? hopen _, hwork hrun⟩
    · exact ⟨t, (List.getElem?_set_ne heq).trans hother, rfl⟩

/-- The logs on the disk are what they were, and the stores where they were. -/
structure LeavesLogs (a a' : Archives) : Prop where
  logs : a.disk.KeepsLogs a'.disk
  stores : ∀ {number : Nat} {root : String}, a.IsAt number root → a'.IsAt number root

/-- A call leaves the logs if what it does in a directory leaves them. -/
theorem Called.leavesLogs (h : Called a number kind inMemory inDirectory r a')
    (hwork : ∀ {s : DirectoryStore} {d : Disk} {r s' d'},
      inDirectory.run (s, d) = (r, (s', d')) → s'.root = s.root ∧ d.KeepsLogs d') :
    a.LeavesLogs a' where
  logs := by
    cases h with
    | refused e => exact .refl _
    | memory hopen hspend hrun => exact .refl _
    | directory hopen hspend hrun => exact (hwork hrun).2
  stores := h.isAt fun hrun => (hwork hrun).1

end

variable {a : Archives} {number : Nat} {archiveId path root : String} {request : Request}
  {body : String} {at_ : Place} {rs : List LoggedResponse} {s : DirectoryStore}

/-! ## What steps store -/

/-- The directory that the path of a store for an archive leads to, if the store is in one. -/
def directoryOf (a : Archives) (number : Nat) (archiveId : String) : Option Place :=
  match a.stores[number]? with
  | some ⟨.directory s, _⟩ => a.disk.directoryAt (s.directoryOf archiveId)
  | _ => none

/-- The response that a step stores in the archive in a directory: the step is a call of a store
whose path for the archive leads there, and the call does not fail. -/
def storedBy (a : Archives) (at_ : Place) : ArchiveStep → Option LoggedResponse
  | .call number (.store archiveId request body) =>
    match ((Archives.store number archiveId request body).run a).1 with
    | .error _ => none
    | .ok _ =>
      if a.directoryOf number archiveId = some at_ then some ⟨request.archiveKey, body⟩ else none
  | _ => none

/-- The responses that steps store in the archive in a directory, in the order of the steps. -/
def storedIn (a : Archives) (at_ : Place) : List ArchiveStep → List LoggedResponse
  | [] => []
  | st :: steps => (a.storedBy at_ st).toList ++ (a.step st).storedIn at_ steps

theorem storedBy_of_error {e : ArchiveError}
    (h : ((Archives.store number archiveId request body).run a).1 = .error e) (at_ : Place) :
    a.storedBy at_ (.call number (.store archiveId request body)) = none := by
  rw [storedBy, h]

theorem storedBy_of_ok {limits : CallLimits} {there : Place}
    (h : ((Archives.store number archiveId request body).run a).1 = .ok ())
    (hopen : a.stores[number]? = some ⟨.directory s, limits⟩)
    (hleads : a.disk.LeadsTo (s.directoryOf archiveId) there) (at_ : Place) :
    a.storedBy at_ (.call number (.store archiveId request body))
      = if there = at_ then some ⟨request.archiveKey, body⟩ else none := by
  have hthere : a.directoryOf number archiveId = some there := by
    rw [directoryOf, hopen]
    exact directoryAt_eq_some.mpr hleads
  rw [storedBy, h, hthere]
  simp only [Option.some.injEq]

theorem storedBy_of_memory {ms : MemoryStore} {limits : CallLimits}
    (hopen : a.stores[number]? = some ⟨.memory ms, limits⟩) (at_ : Place) :
    a.storedBy at_ (.call number (.store archiveId request body)) = none := by
  have hnone : a.directoryOf number archiveId = none := by
    rw [directoryOf, hopen]
  rw [storedBy, hnone]
  split <;> rfl

/-! ## One step -/

/-- Storing a response adds its line to the log of the archive that it is stored in, and to no other
one. -/
theorem holds_store (h : a.disk.Holds path at_ (ResponseLog.ofList rs)) (number : Nat)
    (archiveId : String) (request : Request) (body : String) :
    ((Archives.store number archiveId request body).run a).2.disk.Holds path at_
      (ResponseLog.ofList
        (rs ++ (a.storedBy at_ (.call number (.store archiveId request body))).toList)) := by
  have hcalled := called_call a number .store (MemoryStore.store archiveId request body)
    (DirectoryStore.store archiveId request body)
  rw [← Archives.store] at hcalled
  rcases hdone : (Archives.store number archiveId request body).run a with ⟨r, a'⟩
  rw [hdone] at hcalled
  have hanswer := congrArg Prod.fst hdone
  clear hdone
  cases hcalled with
  | refused e =>
    rw [storedBy_of_error hanswer, Option.toList_none, List.append_nil]
    exact h
  | memory hopen hspend hrun =>
    rw [storedBy_of_memory hopen, Option.toList_none, List.append_nil]
    exact h
  | @directory s s' limits limits' r disk hopen hspend hrun =>
    rcases s.store_cases a.disk archiveId request body
      with ⟨e, hrun'⟩ | ⟨other, log, hholds, hrun'⟩
    · cases hrun'.symm.trans hrun
      rw [storedBy_of_error hanswer, Option.toList_none, List.append_nil]
      exact h
    · cases hrun'.symm.trans hrun
      rw [storedBy_of_ok hanswer hopen hholds.leads]
      by_cases heq : other = at_
      · subst heq
        have hlog := hholds.logged.2
        rw [h.logged.2, Option.some.injEq] at hlog
        rw [if_pos rfl, Option.toList_some, ResponseLog.ofList_append, hlog]
        exact h.put_log _
      · rw [if_neg heq, Option.toList_none, List.append_nil]
        refine (hholds.extends_put_log _).holds_of_logAt h ?_
        rw [logAt_put_log hholds.leads.isPlace h.leads.isPlace, if_neg (Ne.symm heq)]
        exact h.logged.2

/-- A step stores a response, or it stores nothing and leaves the logs. -/
theorem step_cases (a : Archives) (st : ArchiveStep) :
    (∃ number archiveId request body, st = .call number (.store archiveId request body))
      ∨ (∀ at_, a.storedBy at_ st = none) ∧ a.LeavesLogs (a.step st) := by
  have hadded : ∀ {disk : Disk} {entry : OpenStore}, a.disk.KeepsLogs disk →
      a.LeavesLogs { disk, stores := a.stores ++ [entry] } := by
    intro disk entry hdisk
    refine ⟨hdisk, fun ⟨s, hopen, hroot⟩ => ⟨s, ?_, hroot⟩⟩
    exact (List.getElem?_append_left (List.getElem?_eq_some_iff.mp hopen).1).trans hopen
  cases st with
  | openMemory => exact .inr ⟨fun _ => rfl, hadded (.refl _)⟩
  | openDirectory root =>
    refine .inr ⟨fun _ => rfl, ?_⟩
    have hdisk := (sameFiles_makeDirectories root a.disk).keepsLogs
    rw [step, openDirectory_run]
    revert hdisk
    rcases (makeDirectories root).run a.disk with ⟨fault | _, disk⟩
    · exact fun hdisk => ⟨hdisk, id⟩
    · exact hadded
  | call number op =>
    cases op with
    | store archiveId request body => exact .inl ⟨number, archiveId, request, body, rfl⟩
    | create m =>
      refine .inr ⟨fun _ => rfl, ?_⟩
      rw [step, ArchiveOp.perform, snd_run_bind_pure]
      refine (called_call ..).leavesLogs fun {s d} _ _ _ hrun => ?_
      obtain ⟨r, d', hrun', hlogs, -⟩ := s.create_cases d m
      cases hrun'.symm.trans hrun
      exact ⟨rfl, hlogs⟩
    | retrieve archiveId request =>
      refine .inr ⟨fun _ => rfl, ?_⟩
      rw [step, ArchiveOp.perform, snd_run_bind_pure]
      refine (called_call ..).leavesLogs fun {s d} _ _ _ hrun => ?_
      cases (s.retrieve_run d archiveId request).symm.trans hrun
      exact ⟨DirectoryStore.root_lookUp .., .refl d⟩
    | search query =>
      refine .inr ⟨fun _ => rfl, ?_⟩
      rw [step, ArchiveOp.perform, snd_run_bind_pure]
      refine (called_call ..).leavesLogs fun {s d} _ _ _ hrun => ?_
      obtain ⟨r, hrun'⟩ := s.search_run d query
      cases hrun'.symm.trans hrun
      exact ⟨rfl, .refl d⟩

/-- Each step adds the line of the response that it stores in an archive to the log of the archive,
and nothing else. -/
theorem holds_step (h : a.disk.Holds path at_ (ResponseLog.ofList rs)) (st : ArchiveStep) :
    (a.step st).disk.Holds path at_ (ResponseLog.ofList (rs ++ (a.storedBy at_ st).toList)) := by
  rcases a.step_cases st with ⟨number, archiveId, request, body, rfl⟩ | ⟨hnone, hleft⟩
  · rw [step, ArchiveOp.perform, snd_run_bind_pure]
    exact holds_store h number archiveId request body
  · rw [hnone, Option.toList_none, List.append_nil]
    exact hleft.logs.grown.holds_of_logAt h
      (hleft.logs.kept h.leads.isPlace h.leads.2 _ h.logged.2)

/-- Each step leaves the stores where they are. -/
theorem IsAt.step (h : a.IsAt number root) (st : ArchiveStep) : (a.step st).IsAt number root := by
  rcases a.step_cases st with ⟨other, archiveId, request, body, rfl⟩ | ⟨-, hleft⟩
  · rw [Archives.step, ArchiveOp.perform, snd_run_bind_pure]
    refine (called_call ..).isAt (fun {s d} _ _ _ hrun => ?_) h
    rcases s.store_cases d archiveId request body with ⟨e, hrun'⟩ | ⟨at_, log, -, hrun'⟩
    · cases hrun'.symm.trans hrun
      rfl
    · cases hrun'.symm.trans hrun
      exact DirectoryStore.root_note ..
  · exact hleft.stores h

/-- A store that finds an archive stores in it what it is given. -/
theorem IsAt.storedBy_eq (h : a.IsAt number root) {log : ByteArray}
    (hholds : a.disk.Holds (join root archiveId) at_ log) (request : Request) (body : String) :
    a.storedBy at_ (.call number (.store archiveId request body))
      = some ⟨request.archiveKey, body⟩ := by
  obtain ⟨s, hopen, rfl⟩ := h
  have hrun := call_of_directory hopen .store (MemoryStore.store archiveId request body) _
    (DirectoryStore.store_of_holds hholds request body)
  rw [← Archives.store] at hrun
  rw [storedBy_of_ok (congrArg Prod.fst hrun) hopen hholds.leads, if_pos rfl]

/-! ## All steps -/

theorem holds_after (h : a.disk.Holds path at_ (ResponseLog.ofList rs))
    (steps : List ArchiveStep) : (a.after steps).disk.Holds path at_
      (ResponseLog.ofList (rs ++ a.storedIn at_ steps)) := by
  induction steps generalizing a rs with
  | nil =>
    rw [storedIn, List.append_nil]
    exact h
  | cons st steps ih =>
    rw [storedIn, ← List.append_assoc]
    exact ih (holds_step h st)

theorem IsAt.after (h : a.IsAt number root) (steps : List ArchiveStep) :
    (a.after steps).IsAt number root := by
  induction steps generalizing a with
  | nil => exact h
  | cons st steps ih => exact ih (h.step st)

/-- The calls of a store that store some responses in an archive, one after the other. -/
def storing (number : Nat) (archiveId : String) (calls : List (Request × String)) :
    List ArchiveStep :=
  calls.map fun (request, body) => .call number (.store archiveId request body)

/-- A store that finds an archive stores in it all that it is given, one after the other. -/
theorem IsAt.storedIn_storing (h : a.IsAt number root)
    (hholds : a.disk.Holds (join root archiveId) at_ (ResponseLog.ofList rs))
    (calls : List (Request × String)) : a.storedIn at_ (storing number archiveId calls)
      = calls.map fun (request, body) => ⟨request.archiveKey, body⟩ := by
  induction calls generalizing a rs with
  | nil => rfl
  | cons c calls ih =>
    show (a.storedBy at_ (.call number (.store archiveId c.1 c.2))).toList
      ++ storedIn _ at_ (storing number archiveId calls) = _
    rw [h.storedBy_eq hholds, ih (h.step _) (holds_step hholds _)]
    rfl

/-! ## The log of an archive -/

/-- The log of an archive that a store has created, after any steps. Whatever the store is given to
store in it is stored; the log has a line for each response that was stored in it, by this store or
another one; and it is read as the responses by their keys, the first one under each key. -/
theorem frames_storedIn {m : ArchiveMetadata} {created : Archives}
    (hopen : a.stores[number]? = some ⟨.directory s, {}⟩)
    (hcreate : (create number m).run a = (.ok (), created)) :
    ∃ at_, created.directoryOf number m.archiveId = some at_ ∧ ∀ steps,
      (∀ calls, (created.after steps).storedIn at_ (storing number m.archiveId calls)
        = calls.map fun (request, body) => ⟨request.archiveKey, body⟩)
      ∧ ∃ log index,
        (Disk.content (join (s.directoryOf m.archiveId) responsesFile)).run
            (created.after steps).disk = (.ok log, (created.after steps).disk)
          ∧ ResponseLog.Frames log (created.storedIn at_ steps)
          ∧ ResponseLog.read log = .ok index
          ∧ (∀ key, index.get? key
            = ((created.storedIn at_ steps).find? (·.key = key)).map (·.body))
          ∧ ∀ key, key ∈ index.keys ↔ ∃ r ∈ created.storedIn at_ steps, r.key = key := by
  obtain ⟨r, disk, hrun, -, hholds⟩ := s.create_cases a.disk m
  rw [create, call_of_directory hopen _ _ _ hrun, set_of_getElem? hopen, Prod.mk.injEq] at hcreate
  obtain ⟨rfl, rfl⟩ := hcreate
  obtain ⟨at_, hholds⟩ := hholds rfl
  have hempty : Holds (Archives.mk disk a.stores).disk (join s.root m.archiveId) at_
      (ResponseLog.ofList []) := hholds
  have hat : IsAt ⟨disk, a.stores⟩ number s.root := ⟨s, hopen, rfl⟩
  refine ⟨at_, ?_, fun steps => ?_⟩
  · rw [directoryOf, hopen]
    exact directoryAt_eq_some.mpr hholds.leads
  · have hafter := holds_after hempty steps
    refine ⟨(hat.after steps).storedIn_storing hafter, ?_⟩
    rw [List.nil_append] at hafter
    refine ⟨_, _, content_join isFileName_responsesFile hafter.logged.1 hafter.leads
      (logAt_eq_some.mp hafter.logged.2), ResponseLog.frames_ofList _,
      ResponseLog.read_ofList _, ResponseLog.get?_firsts _, fun key => ?_⟩
    rw [Keyed.mem_keys, ResponseLog.get?_firsts, Option.isSome_map, List.find?_isSome]
    simp only [decide_eq_true_eq]

/-- A text with ends of lines is stored, then another one under the same key, through a store that
spells the root and the archive otherwise, and then an empty one under a key that is the end of a
line. -/
def lineEnds : List ArchiveStep :=
  [.call 0 (.store "x" { uri := "k" } "one\r\ntwo\n"), .openDirectory "./root",
    .call 1 (.store "./x" { uri := "k" } "second"), .call 0 (.retrieve "x" { uri := "k" }),
    .call 0 (.store "x" { uri := "\n" } "")]

theorem frames_lineEnds : ∃ created log index,
    (create 0 oneFetch).run (after {} [.openDirectory "root"]) = (.ok (), created)
      ∧ (Disk.content "root/x/responses.jsonl").run (created.after lineEnds).disk
        = (.ok log, (created.after lineEnds).disk)
      ∧ (ResponseLog.linesFrom [] log.data.toList).length = 3
      ∧ ResponseLog.read log = .ok index
      ∧ index.get? "k" = some "one\r\ntwo\n" ∧ index.get? "\n" = some ""
      ∧ index.get? "two" = none := by
  have hopen : (after {} [.openDirectory "root"]).stores[0]?
      = some ⟨.directory { root := "root" }, {}⟩ := by rfl
  have hok : ((create 0 oneFetch).run (after {} [.openDirectory "root"])).1.toOption = some () := by
    decide +kernel
  have hstored : ((create 0 oneFetch).run (after {} [.openDirectory "root"])).2.storedIn
      ["root", "x"] lineEnds = [⟨"k", "one\r\ntwo\n"⟩, ⟨"k", "second"⟩, ⟨"\n", ""⟩] := by
    decide +kernel
  have hplace : ((create 0 oneFetch).run (after {} [.openDirectory "root"])).2.directoryOf 0 "x"
      = some ["root", "x"] := by
    decide +kernel
  rcases hcreate : (create 0 oneFetch).run (after {} [.openDirectory "root"])
    with ⟨e | ⟨⟩, created⟩
  · rw [hcreate] at hok
    cases hok
  rw [hcreate] at hstored hplace
  obtain ⟨at_, hat, hlog⟩ := frames_storedIn hopen hcreate
  obtain rfl : ["root", "x"] = at_ := Option.some.inj (hplace.symm.trans hat)
  obtain ⟨-, log, index, hcontent, hframes, hread, hget, -⟩ := hlog lineEnds
  rw [hstored] at hframes hget
  refine ⟨created, log, index, rfl, hcontent, ?_, hread, hget "k", hget "\n", hget "two"⟩
  rw [hframes.lines.length_eq]
  rfl

end Archives

end Intake
