import Intake.Proofs.Archive.Mirror
import Intake.Proofs.Text.Uuid

/-!
# A store in a directory answers like one in memory

`Archives.answers` is what an open store answers to a list of calls, one after the other.
`Archives.answers_directory_eq_memory` says that a store that was opened on an empty directory
answers any calls as a new store in memory does: with the same bodies, the same descriptions in the
same order, and the same errors. The stores mirror each other before the first call
(`DirectoryStore.mirrors_start`), every call is answered alike by stores that do and leaves them so
(`Archives.Paired.perform`), and so all calls are.

The names of the archives are file names that the file system takes, like the identifiers that new
archives get (`Uuid.isArchiveName_text`), and their descriptions are documents that can be read.
-/

namespace Intake

open Disk

/-- The identifiers that new archives get are names of archives. -/
theorem Uuid.isArchiveName_text (u : Uuid) {root : String} (hroot : Char.ofNat 0 ∉ root.toList)
    (hshort : root.utf8ByteSize + 53 < 4096) : IsArchiveName root u.text := by
  have hsize := u.utf8ByteSize_text
  have hother : ∀ {c}, c ≠ '-' → (∀ d, Text.hexDigit d ≠ c) → c ∉ u.text.toList := by
    intro c hhyphen hdigit hmem
    rcases mem_text hmem with rfl | ⟨d, rfl⟩
    · exact hhyphen rfl
    · exact hdigit d rfl
  have hne : ∀ name : String, name.utf8ByteSize < 36 → u.text ≠ name := by
    rintro name hname rfl
    omega
  have hname : IsFileName u.text := ⟨hother (by decide) (by decide), hne "" (by decide),
    hne "." (by decide), hne ".." (by decide), by omega⟩
  exact isArchiveName_of_short hname hroot (hother (by decide) (by decide)) (by omega)

/-- A call of a store. -/
inductive ArchiveOp where
  | create (description : ArchiveMetadata)
  | store (archiveId : String) (request : Request) (body : String)
  | retrieve (archiveId : String) (request : Request)
  | search (query : ArchiveQuery)

/-- What a store answers to a call that does not fail. -/
inductive ArchiveReply where
  | done
  | body (text : String)
  | archives (descriptions : List ArchiveMetadata)

namespace ArchiveOp

/-- The call of the store with a number. -/
def perform (number : Nat) : ArchiveOp → ArchiveM ArchiveReply
  | .create description => do
    Archives.create number description
    return .done
  | .store archiveId request body => do
    Archives.store number archiveId request body
    return .done
  | .retrieve archiveId request => do return .body (← Archives.retrieve number archiveId request)
  | .search query => do return .archives (← Archives.search number query)

/-- A call for archives below a root that the file system takes: their identifiers are names of
archives, and a new description does not nest deeper than documents are read. -/
def IsAccepted (root : String) : ArchiveOp → Prop
  | .create description => IsArchiveName root description.archiveId
    ∧ (ArchiveMetadata.wire.write description).depth ≤ Json.maxDepth
  | .store archiveId _ _ | .retrieve archiveId _ => IsArchiveName root archiveId
  | .search _ => True

end ArchiveOp

/-- A path leads to a directory with nothing in it. -/
def Disk.IsEmptyDirectory (d : Disk) (path : String) : Prop :=
  ∃ at_, d.stat path = .ok (at_, .directory)
    ∧ ∀ below, IsPlace below → below ≠ [] → d.node? (at_ ++ below) = none

/-- A new directory is empty. -/
theorem Disk.isEmptyDirectory_put {d : Disk} {path : String} {at_ : Place} (hat : IsPlace at_)
    (hroot : at_ ≠ []) (hfree : d.IsFree at_)
    (hstat : (d.put at_ .directory).stat path = .ok (at_, .directory)) :
    (d.put at_ .directory).IsEmptyDirectory path := by
  refine ⟨at_, hstat, fun below hbelow hne => ?_⟩
  have hplace : IsPlace (at_ ++ below) := by
    intro name hname
    exact (List.mem_append.mp hname).elim (hat name) (hbelow name)
  rw [node?_put d hat hplace hroot, if_neg (by simpa using hne), hfree below hplace]

/-- A new store in an empty directory mirrors a new store in memory. -/
theorem DirectoryStore.mirrors_start {d : Disk} {root : String} {at_ : Place}
    (hopened : d.stat root = .ok (at_, .directory))
    (hempty : ∀ below, IsPlace below → below ≠ [] → d.node? (at_ ++ below) = none) :
    Mirrors { root } d at_ {} where
  opened := hopened
  archive := by rintro id archive ⟨⟩
  free {id} _ rest hplace := by
    rw [List.append_assoc]
    refine hempty _ (fun name hname => hplace name ?_) (by simp)
    rw [List.append_assoc]
    exact List.mem_append_right _ hname
  unread _ := rfl

namespace Archives

/-- What the store with a number answers to calls, one after the other. -/
def answers (number : Nat) : List ArchiveOp → Archives → List (Except ArchiveError ArchiveReply)
  | [], _ => []
  | op :: ops, a =>
    let done := (op.perform number).run a
    done.1 :: answers number ops done.2

/-! ## Open stores -/

/-- One open store is in a directory and mirrors another one, which is in memory. -/
def Paired (root : String) (at_ : Place) (a : Archives) (number : Nat) (b : Archives)
    (other : Nat) : Prop :=
  ∃ s ms, a.stores[number]? = some ⟨.directory s, {}⟩ ∧ s.root = root
    ∧ b.stores[other]? = some ⟨.memory ms, {}⟩ ∧ s.Mirrors a.disk at_ ms

variable {root : String} {at_ : Place} {a b : Archives} {number other : Nat}

/-- A call that is answered alike by stores is answered alike by open stores. -/
theorem Paired.call {α : Type} (h : a.Paired root at_ number b other) (kind : ArchiveCall)
    {inMemory : MemoryM α} {inDirectory : DirectoryM α}
    (halike : ∀ (s : DirectoryStore) ms, s.root = root → s.Mirrors a.disk at_ ms →
      s.AnswersAlike a.disk at_ ms inMemory inDirectory) :
    ∃ r a' b', (Archives.call number kind inMemory inDirectory).run a = (r, a')
      ∧ (Archives.call other kind inMemory inDirectory).run b = (r, b')
      ∧ a'.Paired root at_ number b' other := by
  obtain ⟨s, ms, hdirectory, hroot, hmemory, hmirrors⟩ := h
  obtain ⟨r, ms', s', d', hrun, hrun', hroot', hmirrors'⟩ := halike s ms hroot hmirrors
  refine ⟨r, _, _, call_of_directory hdirectory kind _ _ hrun',
    call_of_memory hmemory kind _ _ hrun, s', ms', ?_, hroot'.trans hroot, ?_, hmirrors'⟩
  · exact getElem?_set_of_getElem? hdirectory _
  · exact getElem?_set_of_getElem? hmemory _

/-- Every call is answered alike by both stores, which mirror each other afterwards. -/
theorem Paired.perform (h : a.Paired root at_ number b other) {op : ArchiveOp}
    (hop : op.IsAccepted root) :
    ∃ r a' b', (op.perform number).run a = (r, a') ∧ (op.perform other).run b = (r, b')
      ∧ a'.Paired root at_ number b' other := by
  have hthen : ∀ {α : Type} {x y : ArchiveM α} (f : α → ArchiveReply),
      (∃ r a' b', x.run a = (r, a') ∧ y.run b = (r, b') ∧ a'.Paired root at_ number b' other) →
      ∃ r a' b', (x >>= fun v => pure (f v)).run a = (r, a')
        ∧ (y >>= fun v => pure (f v)).run b = (r, b') ∧ a'.Paired root at_ number b' other := by
    rintro α x y f ⟨r, a', b', hx, hy, h'⟩
    rw [Work.run_bind, Work.run_bind, hx, hy]
    cases r with
    | error e => exact ⟨_, a', b', rfl, rfl, h'⟩
    | ok v => exact ⟨_, a', b', rfl, rfl, h'⟩
  cases op with
  | create description =>
    refine hthen (fun _ => .done) (h.call .create fun s ms hroot hmirrors => ?_)
    subst hroot
    exact hmirrors.create hop.1 hop.2
  | store archiveId request body =>
    refine hthen (fun _ => .done) (h.call .store fun s ms hroot hmirrors => ?_)
    subst hroot
    exact hmirrors.store hop request body
  | retrieve archiveId request =>
    refine hthen .body (h.call .retrieve fun s ms hroot hmirrors => ?_)
    subst hroot
    exact hmirrors.retrieve hop request
  | search query =>
    exact hthen .archives (h.call .search fun s ms _ hmirrors => hmirrors.search query)

theorem Paired.answers_eq (h : a.Paired root at_ number b other) {ops : List ArchiveOp}
    (hops : ∀ op ∈ ops, op.IsAccepted root) : answers number ops a = answers other ops b := by
  induction ops generalizing a b with
  | nil => rfl
  | cons op ops ih =>
    obtain ⟨r, a', b', ha, hb, h'⟩ := h.perform (hops op (List.mem_cons_self ..))
    rw [answers, answers, ha, hb]
    exact congrArg (r :: ·) (ih h' fun op hop => hops op (List.mem_cons_of_mem _ hop))

/-! ## An empty directory -/

/-- A store that was opened on an empty directory answers all calls as a new store in memory. -/
theorem answers_directory_eq_memory (hempty : a.disk.IsEmptyDirectory root) {ops : List ArchiveOp}
    (hops : ∀ op ∈ ops, op.IsAccepted root) (b : Archives) :
    ∃ opened, (openDirectory root).run a = (.ok a.stores.length, opened)
      ∧ answers a.stores.length ops opened
        = answers b.stores.length ops (b.add (.memory {})) := by
  obtain ⟨at_, hopened, hnothing⟩ := hempty
  obtain ⟨-, hpath, hleads⟩ := stat_eq_directory.mp hopened
  have hmade := makeDirectories_of_leadsTo hpath hleads
  refine ⟨a.add (.directory { root }), ?_, ?_⟩
  · rw [openDirectory_run, hmade]
  · have hpaired : (a.add (.directory { root })).Paired root at_ a.stores.length
        (b.add (.memory {})) b.stores.length :=
      ⟨_, _, List.getElem?_concat_length, rfl, List.getElem?_concat_length,
        DirectoryStore.mirrors_start hopened hnothing⟩
    exact hpaired.answers_eq hops

/-- An archive of one fetch. -/
def oneFetch : ArchiveMetadata where
  archiveId := "x"
  origin := "origin"
  backendName := "backend"
  backendVersion := "1"
  category := "category"
  backendArgs := .empty
  createdAt := .epoch

/-- The archive is created, a response is stored in it twice, and all is looked for. -/
def storedTwice : List ArchiveOp :=
  [.create oneFetch, .create oneFetch, .store "x" { uri := "k" } "first",
    .store "x" { uri := "k" } "second", .retrieve "x" { uri := "k" }, .retrieve "x" { uri := "l" },
    .retrieve "y" { uri := "k" },
    .search { origin := "origin", backendName := "backend", category := "category" }]

theorem answers_storedTwice : ∃ opened,
    (openDirectory "archives").run { disk := ({} : Disk).put ["archives"] .directory }
        = (.ok 0, opened)
      ∧ answers 0 storedTwice opened
        = [.ok .done, .error (.storage "archive already exists: x"), .ok .done, .ok .done,
          .ok (.body "first"), .error (.responseNotFound "l"), .error (.archiveNotFound "y"),
          .ok (.archives [oneFetch])] := by
  have hplace : IsPlace ["archives"] := by
    unfold IsPlace
    decide
  have hempty : IsEmptyDirectory (({} : Disk).put ["archives"] .directory) "archives" :=
    isEmptyDirectory_put hplace (by simp) (fun _ _ => rfl) (by decide)
  have hname : ∀ id ∈ ["x", "y"], IsArchiveName "archives" id := by
    intro id hid
    have hfile : ∀ id ∈ ["x", "y"], '/' ∉ id.toList ∧ id ≠ "" ∧ id ≠ "." ∧ id ≠ ".."
        ∧ Char.ofNat 0 ∉ id.toList ∧ id.utf8ByteSize = 1 := by decide
    obtain ⟨hslash, hnonempty, hdot, hdots, hnul, hsize⟩ := hfile id hid
    have hroot : "archives".utf8ByteSize = 8 := rfl
    exact isArchiveName_of_short ⟨hslash, hnonempty, hdot, hdots, by omega⟩ (by decide) hnul
      (by omega)
  have hops : ∀ op ∈ storedTwice, op.IsAccepted "archives" := by
    have hdepth : (ArchiveMetadata.wire.write oneFetch).depth ≤ Json.maxDepth := by decide
    have hx := hname "x" (by simp)
    have hy := hname "y" (by simp)
    simp only [storedTwice, List.forall_mem_cons, ArchiveOp.IsAccepted]
    exact ⟨⟨hx, hdepth⟩, ⟨hx, hdepth⟩, hx, hx, hx, hx, hy, trivial, by rintro op ⟨⟩⟩
  obtain ⟨opened, hrun, hanswers⟩ := answers_directory_eq_memory
    (a := { disk := ({} : Disk).put ["archives"] .directory }) hempty hops {}
  refine ⟨opened, hrun, hanswers.trans ?_⟩
  have hselect : ({ origin := "origin", backendName := "backend", category := "category" } :
      ArchiveQuery).select [oneFetch] = [oneFetch] := by
    simp [ArchiveQuery.select, ArchiveQuery.accepts, oneFetch]
  rw [← hselect]
  rfl

end Archives

end Intake
