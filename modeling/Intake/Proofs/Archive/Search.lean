import Intake.Proofs.Archive.Reached

/-!
# Looking for archives

A store meets its archives in whatever order its map or its directory lists them
(`Archives.Lists`). What it answers to a query does not depend on that order
(`Archives.search_exact`): it answers with the archives that the query accepts, each once, the older
ones first and those of one instant in the order of their identifiers. This is an order because no
two archives of a store that came about by steps have one identifier (`Archives.Lists.nodup`).

With a later bound a query gives the end of what it gives with an earlier one
(`ArchiveQuery.select_suffix`).
-/

namespace Intake

open Disk

/-! ## Queries -/

/-- Of a list in which a property is never lost, those with the property are the end. -/
theorem filter_suffix_of_pairwise {α : Type} {r : α → α → Prop} {p : α → Bool} {xs : List α}
    (h : xs.Pairwise r) (hkept : ∀ {a b}, r a b → p a = true → p b = true) :
    xs.filter p <:+ xs := by
  induction xs with
  | nil => exact List.suffix_refl []
  | cons x xs ih =>
    obtain ⟨hx, hxs⟩ := List.pairwise_cons.mp h
    cases hp : p x with
    | true =>
      have hall : ∀ b ∈ x :: xs, p b = true := by
        intro b hb
        rcases List.mem_cons.mp hb with rfl | hb
        · exact hp
        · exact hkept (hx b hb) hp
      rw [List.filter_eq_self.mpr hall]
    | false =>
      rw [List.filter_cons_of_neg (by simp [hp])]
      exact (ih hxs).trans (List.suffix_cons x xs)

namespace ArchiveQuery

variable {q : ArchiveQuery} {m : ArchiveMetadata} {xs : List ArchiveMetadata}

theorem accepts_iff : q.accepts m = true ↔ m.origin = q.origin ∧ m.backendName = q.backendName
    ∧ m.category = q.category ∧ ∀ bound ∈ q.archivedAfter, bound ≤ m.createdAt := by
  cases hbound : q.archivedAfter <;> simp [accepts, hbound, and_assoc]

theorem mem_select : m ∈ q.select xs ↔ m ∈ xs ∧ q.accepts m = true :=
  (List.mergeSort_perm _ _).mem_iff.trans List.mem_filter

theorem pairwise_select (q : ArchiveQuery) (xs : List ArchiveMetadata) :
    (q.select xs).Pairwise fun m n => m.comesFirst n = true :=
  List.pairwise_mergeSort ArchiveMetadata.comesFirst_trans ArchiveMetadata.comesFirst_total _

theorem nodup_select (hids : (xs.map (·.archiveId)).Nodup) :
    ((q.select xs).map (·.archiveId)).Nodup :=
  ((List.mergeSort_perm _ _).map _).nodup_iff.mpr (hids.sublist (List.filter_sublist.map _))

/-- Of two archives that are found one after the other the first one is older, or they are of one
instant and the first one has the lesser identifier. -/
theorem pairwise_lt_select (hids : (xs.map (·.archiveId)).Nodup) :
    (q.select xs).Pairwise fun m n =>
      m.createdAt < n.createdAt ∨ m.createdAt = n.createdAt ∧ m.archiveId < n.archiveId := by
  have hne := List.pairwise_map.mp (nodup_select (q := q) hids)
  refine ((pairwise_select q xs).and hne).imp fun {m n} ⟨hfirst, hid⟩ => ?_
  obtain ⟨hle, hids⟩ := ArchiveMetadata.comesFirst_iff.mp hfirst
  by_cases heq : m.createdAt = n.createdAt
  · exact .inr ⟨heq, String.not_le.mp fun hle' => hid (String.le_antisymm (hids heq) hle')⟩
  · exact .inl (Instant.lt_iff_le_and_ne.mpr ⟨hle, heq⟩)

/-- One bound is no later than another one; no bound is the lowest one. -/
def BoundLe (bound later : Option Instant) : Prop := ∀ t ∈ bound, ∃ u ∈ later, t ≤ u

/-- With a later bound the archives found are the end of those found with an earlier one. -/
theorem select_suffix (hids : (xs.map (·.archiveId)).Nodup) {later : Option Instant}
    (hle : BoundLe q.archivedAfter later) :
    ({ q with archivedAfter := later } : ArchiveQuery).select xs <:+ q.select xs := by
  let inTime : ArchiveMetadata → Bool := fun m => later.all (· ≤ m.createdAt)
  have haccepts : ∀ m, ({ q with archivedAfter := later } : ArchiveQuery).accepts m
      = (inTime m && q.accepts m) := by
    intro m
    have hearlier : inTime m = true → q.archivedAfter.all (· ≤ m.createdAt) = true := by
      intro hin
      rw [Option.all_eq_true] at hin ⊢
      intro t ht
      obtain ⟨u, hu, htu⟩ := hle t ht
      exact decide_eq_true (Instant.le_trans htu (of_decide_eq_true (hin u hu)))
    simp only [accepts]
    cases hin : inTime m with
    | false =>
      have hlater : later.all (· ≤ m.createdAt) = false := hin
      rw [hlater, Bool.and_false, Bool.false_and]
    | true =>
      have hlater : later.all (· ≤ m.createdAt) = true := hin
      rw [hlater, hearlier hin, Bool.true_and]
  -- both are the archives found with the earlier bound that are in time, in their order
  have hselect : ({ q with archivedAfter := later } : ArchiveQuery).select xs
      = (q.select xs).filter inTime := by
    have hperm : (({ q with archivedAfter := later } : ArchiveQuery).select xs).Perm
        ((q.select xs).filter inTime) := by
      refine (List.mergeSort_perm _ _).trans ?_
      rw [List.filter_congr fun m _ => haccepts m, ← List.filter_filter]
      exact ((List.mergeSort_perm _ _).filter _).symm
    refine hperm.eq_of_pairwise (fun m n hm hn hmn hnm => ?_) (pairwise_select _ xs)
      ((pairwise_select q xs).filter _)
    exact List.inj_on_of_nodup_map hids (mem_select.mp hm).1
      (mem_select.mp (List.mem_of_mem_filter hn)).1
      (ArchiveMetadata.archiveId_eq_of_comesFirst hmn hnm)
  rw [hselect]
  refine filter_suffix_of_pairwise (pairwise_select q xs) fun {m n} hfirst hin => ?_
  rw [Option.all_eq_true] at hin ⊢
  intro u hu
  exact decide_eq_true (Instant.le_trans (of_decide_eq_true (hin u hu))
    (ArchiveMetadata.comesFirst_iff.mp hfirst).1)

end ArchiveQuery

/-! ## Descriptions in a directory -/

/-- The description that is read in a directory: what is in its file, if the path of the file is
taken and the file can be read. -/
theorem DirectoryStore.describe?_eq_some {d : Disk} {base : String} {m : ArchiveMetadata} :
    describe? d base = some m ↔ IsPath (join base metadataFile)
      ∧ ∃ outer content, d.LeadsTo base outer
        ∧ d.node? (outer ++ [metadataFile]) = some (.file content)
        ∧ ArchiveMetadata.wire.ofBytes content = .ok m := by
  constructor
  · intro h
    unfold describe? at h
    split at h
    · rename_i there content hstat
      obtain ⟨hpath, outer, hleads, rfl, hnode⟩ := (stat_join isFileName_metadataFile).mp hstat
      refine ⟨hpath, outer, content, hleads, hnode, ?_⟩
      cases hread : ArchiveMetadata.wire.ofBytes content with
      | error e =>
        rw [hread] at h
        cases h
      | ok other =>
        rw [hread] at h
        exact congrArg Except.ok (Option.some.inj h)
    · cases h
  · rintro ⟨hpath, outer, content, hleads, hnode, hread⟩
    rw [describe?, (stat_join isFileName_metadataFile).mpr ⟨hpath, outer, hleads, rfl, hnode⟩]
    dsimp only
    rw [hread]
    rfl

/-- The description that is read under a name in a directory has an identifier that ends in the
name. -/
theorem DirectoryStore.last_of_describe? {d : Disk} (h : d.IsOrderly) {root name : String}
    (hname : IsFileName name) {m : ArchiveMetadata}
    (hread : describe? d (join root name) = some m) :
    (segments m.archiveId).getLast? = some name := by
  obtain ⟨-, outer, content, hleads, hnode, hdecoded⟩ := describe?_eq_some.mp hread
  have hlast := h.named outer hleads.isPlace content m hnode hdecoded
  obtain ⟨at_, -, rfl, -⟩ := (leadsTo_join hname).mp hleads
  rw [← hlast, List.getLast?_concat]

namespace Archives

variable {a : Archives} {number : Nat} {listing other : List ArchiveMetadata}

/-! ## Listings -/

/-- The descriptions of the archives of a store in an order in which the store can meet them: as its
map lists the identifiers, or its directory the names in it. -/
inductive Lists (a : Archives) (number : Nat) : List ArchiveMetadata → Prop where
  | memory {s : MemoryStore} {identifiers : List String}
      (hopen : a.stores[number]? = some ⟨.memory s, {}⟩)
      (hlisted : identifiers.Perm s.archives.keys) :
      Lists a number (identifiers.filterMap fun id => (s.archives.get? id).map (·.description))
  | directory {s : DirectoryStore} {at_ : Place} {names : List String}
      (hopen : a.stores[number]? = some ⟨.directory s, {}⟩)
      (hroot : a.disk.stat s.root = .ok (at_, .directory))
      (hlisted : names.Perm (a.disk.namesIn at_)) :
      Lists a number
        (names.filterMap fun name => DirectoryStore.describe? a.disk (join s.root name))

/-- Two listings of one store are of the same archives. -/
theorem Lists.perm (h : a.Lists number listing) (h' : a.Lists number other) :
    listing.Perm other := by
  cases h with
  | memory hopen hlisted =>
    cases h' with
    | memory hopen' hlisted' =>
      cases hopen.symm.trans hopen'
      exact (hlisted.trans hlisted'.symm).filterMap _
    | directory hopen' _ _ => cases hopen.symm.trans hopen'
  | directory hopen hroot hlisted =>
    cases h' with
    | memory hopen' _ => cases hopen.symm.trans hopen'
    | directory hopen' hroot' hlisted' =>
      cases hopen.symm.trans hopen'
      cases hroot.symm.trans hroot'
      exact (hlisted.trans hlisted'.symm).filterMap _

/-- No two archives that a store lists have one identifier. -/
theorem Lists.nodup (hsound : a.IsSound) (h : a.Lists number listing) :
    (listing.map (·.archiveId)).Nodup := by
  have hdistinct : ∀ (keyOf : String → Option String) {keys : List String}
      {f : String → Option ArchiveMetadata}, keys.Nodup →
      (∀ key ∈ keys, ∀ m, f key = some m → keyOf m.archiveId = some key) →
      ((keys.filterMap f).map (·.archiveId)).Nodup := by
    intro keyOf keys f hkeys hids
    rw [List.map_filterMap, List.Nodup, List.pairwise_filterMap]
    refine List.Pairwise.imp_of_mem (fun {key key'} hkey hkey' hne => ?_) hkeys
    intro id hid id' hid' heq
    obtain ⟨m, hm, rfl⟩ := Option.map_eq_some_iff.mp hid
    obtain ⟨m', hm', rfl⟩ := Option.map_eq_some_iff.mp hid'
    have hsame := hids key hkey m hm
    rw [heq, hids key' hkey' m' hm', Option.some.injEq] at hsame
    exact hne hsame.symm
  cases h with
  | @memory s identifiers hopen hlisted =>
    have hstore := hsound.stores _ (List.mem_of_getElem? hopen)
    cases hstore with
    | memory hids =>
      refine hdistinct some (hlisted.nodup_iff.mpr s.archives.nodup_keys) ?_
      intro id _ m hm
      obtain ⟨archive, hfound, rfl⟩ := Option.map_eq_some_iff.mp hm
      exact congrArg some (hids id archive hfound)
  | @directory s at_ names hopen hroot hlisted =>
    refine hdistinct (fun id => (segments id).getLast?)
      (hlisted.nodup_iff.mpr (nodup_namesIn a.disk at_)) fun name hname m hm => ?_
    obtain ⟨hslash, hsome⟩ := mem_namesIn.mp (hlisted.mem_iff.mp hname)
    have hat := (stat_eq_directory.mp hroot).2.2.isPlace
    have hfile := (hsound.disk.tree at_ name (hat.concat hslash) hsome).1
    exact DirectoryStore.last_of_describe? hsound.disk hfile hm

/-- Every open store can be listed, but for one in a directory whose root is the empty path. -/
theorem IsSound.exists_lists (h : a.IsSound) (hopen : number < a.stores.length) :
    (∃ listing, a.Lists number listing)
      ∨ ∃ s, a.stores[number]? = some ⟨.directory s, {}⟩ ∧ s.root = "" := by
  have hstore := List.getElem?_eq_getElem hopen
  generalize a.stores[number] = entry at hstore
  cases h.stores entry (List.mem_of_getElem? hstore) with
  | memory hids => exact .inl ⟨_, .memory hstore (.refl _)⟩
  | @directory s at_ hpath hleads =>
    by_cases hempty : s.root.isEmpty = true
    · exact .inr ⟨s, hstore, String.isEmpty_iff.mp hempty⟩
    · rw [Bool.not_eq_true] at hempty
      exact .inl ⟨_, .directory hstore (stat_eq_directory.mpr ⟨hempty, hpath, hleads⟩) (.refl _)⟩

/-- Looking for archives is selecting from a listing. -/
theorem Lists.search_eq (hsound : a.IsSound) (h : a.Lists number listing) (q : ArchiveQuery) :
    (search number q).run a = (.ok (q.select listing), a) := by
  have hnodup := h.nodup hsound
  have hlisting : ∃ own, a.Lists number own
      ∧ (search number q).run a = (.ok (q.select own), a) := by
    cases h with
    | @memory s identifiers hopen _ =>
      refine ⟨_, .memory hopen (.refl _), ?_⟩
      have hrun : (MemoryStore.search q).run s
          = (.ok (q.select (s.archives.values.map (·.description))), s) := rfl
      rw [search, call_of_memory hopen _ _ _ hrun, set_of_getElem? hopen, Keyed.filterMap_keys]
    | @directory s at_ names hopen hroot _ =>
      refine ⟨_, .directory hopen hroot (.refl _), ?_⟩
      have hrun : (DirectoryStore.search q).run (s, a.disk)
          = (.ok (q.select ((a.disk.namesIn at_).filterMap fun name =>
            DirectoryStore.describe? a.disk (join s.root name))), (s, a.disk)) := by
        simp only [DirectoryStore.search, Work.run_bind, Work.run_get, DirectoryStore.onDisk_run,
          list_run hroot, Work.mapError_ok, Work.run_pure]
      rw [search, call_of_directory hopen _ _ _ hrun, set_of_getElem? hopen]
  obtain ⟨own, hown, hrun⟩ := hlisting
  rw [hrun, q.select_of_perm (h.perm hown) hnodup]

/-! ## Searching -/

/-- What an open store answers to a query, in whatever order it meets its archives: those that the
query accepts, each once, in the order of their instants and then of their identifiers; and with a
later bound the end of them. Every open store meets its archives in some order, but for one whose
root is the empty path, which can be opened and not be listed. -/
theorem search_exact (h : a.IsReached) (hopen : number < a.stores.length) (q : ArchiveQuery) :
    ((∃ listing, a.Lists number listing)
      ∨ ∃ s, a.stores[number]? = some ⟨.directory s, {}⟩ ∧ s.root = "")
    ∧ ∀ listing, a.Lists number listing → ∃ found, (search number q).run a = (.ok found, a)
      ∧ (∀ other, a.Lists number other → q.select other = found)
      ∧ (∀ m, m ∈ found ↔ m ∈ listing ∧ m.origin = q.origin ∧ m.backendName = q.backendName
        ∧ m.category = q.category ∧ ∀ bound ∈ q.archivedAfter, bound ≤ m.createdAt)
      ∧ (found.Pairwise fun m n =>
        m.createdAt < n.createdAt ∨ m.createdAt = n.createdAt ∧ m.archiveId < n.archiveId)
      ∧ ∀ later, ArchiveQuery.BoundLe q.archivedAfter later →
        ∃ rest, (search number { q with archivedAfter := later }).run a = (.ok rest, a)
          ∧ rest <:+ found := by
  refine ⟨h.isSound.exists_lists hopen, fun listing hlists => ?_⟩
  have hnodup := hlists.nodup h.isSound
  refine ⟨q.select listing, hlists.search_eq h.isSound q, fun other hother => ?_, fun m => ?_,
    ArchiveQuery.pairwise_lt_select hnodup, fun later hle => ?_⟩
  · exact (q.select_of_perm (hlists.perm hother) hnodup).symm
  · rw [ArchiveQuery.mem_select, ArchiveQuery.accepts_iff]
  · exact ⟨_, hlists.search_eq h.isSound _, ArchiveQuery.select_suffix hnodup hle⟩

/-- A store in memory with two archives of one instant. -/
def ofOneInstant : Archives :=
  after {} [.openMemory, .call 0 (.create { oneFetch with archiveId := "y" }),
    .call 0 (.create oneFetch)]

theorem search_ofOneInstant : ∃ found,
    (search 0 { origin := "origin", backendName := "backend", category := "category" }).run
        ofOneInstant = (.ok found, ofOneInstant)
      ∧ (∀ m, m ∈ found ↔ m = { oneFetch with archiveId := "y" } ∨ m = oneFetch)
      ∧ found.Pairwise fun m n => m.archiveId < n.archiveId := by
  have hreached : ofOneInstant.IsReached := ⟨{}, _, isBlank_empty, rfl⟩
  obtain ⟨-, hall⟩ := search_exact hreached (show 0 < _ by decide)
    { origin := "origin", backendName := "backend", category := "category" }
  -- the map may as well list the later identifier first
  have hstore : ofOneInstant.stores[0]? = some ⟨.memory ⟨(Keyed.empty.insert "y"
      { description := { oneFetch with archiveId := "y" } }).insert "x"
        { description := oneFetch }⟩, {}⟩ := rfl
  have hlists : ofOneInstant.Lists 0 [{ oneFetch with archiveId := "y" }, oneFetch] :=
    Lists.memory hstore (List.Perm.swap "x" "y" [])
  obtain ⟨found, hrun, -, hmem, hsorted, -⟩ := hall _ hlists
  have hfound : ∀ m, m ∈ found ↔ m = { oneFetch with archiveId := "y" } ∨ m = oneFetch := by
    intro m
    rw [hmem]
    constructor
    · rintro ⟨hm, -⟩
      simpa using hm
    · rintro (rfl | rfl)
      · exact ⟨.head _, rfl, rfl, rfl, by rintro bound ⟨⟩⟩
      · exact ⟨.tail _ (.head _), rfl, rfl, rfl, by rintro bound ⟨⟩⟩
  have hinstant : ∀ m ∈ found, m.createdAt = .epoch := by
    intro m hm
    rcases (hfound m).mp hm with rfl | rfl
    · rfl
    · rfl
  refine ⟨found, hrun, hfound, hsorted.imp_of_mem fun {m n} hm hn hlt => ?_⟩
  rw [hinstant m hm, hinstant n hn] at hlt
  rcases hlt with hlt | ⟨-, hid⟩
  · exact absurd rfl (Instant.lt_iff_le_and_ne.mp hlt).2
  · exact hid

end Archives

end Intake
