import Intake.Item
import Intake.Proofs.Wire.Records
import Intake.Work

/-!
# Items that can be read back

Whoever consumes a queue reads the items from its entries. `Item.IsConsumable` says which items come
back as they were put in, and `Item.ofBytes_toBytes_iff` that it is these and no others: the two
times are finite, no extra bears the name of a fixed field, and nothing in the item nests so deep
that there is no room left for the item around it.
-/

namespace Intake

open Intake.Json (Tree Draft)

namespace Json.Tree

theorem mem_keys_of_normalizeMembers {ms : List (String × Tree)} {m : String × Tree}
    (h : m ∈ normalizeMembers ms) : m.1 ∈ ms.map (·.1) := by
  induction ms with
  | nil => cases h
  | cons head ms ih =>
    obtain ⟨k, x⟩ := head
    simp only [normalizeMembers] at h
    split at h
    · exact List.mem_cons_of_mem _ (ih h)
    · rcases Entries.mem_insert h with rfl | h
      · exact List.mem_cons_self ..
      · exact List.mem_cons_of_mem _ (ih h)

end Json.Tree

/-- The keys of the object of some members are keys of members. -/
theorem Wire.mem_keys_objectOf {ms : List (String × Tree)} {key : String}
    (h : key ∈ (objectOf ms).keys) : key ∈ ms.map (·.1) := by
  have hkeys : (objectOf ms).keys = (Tree.normalizeMembers ms).map (·.1) :=
    Json.map_fst_membersOf _ _
  rw [hkeys] at h
  obtain ⟨m, hm, rfl⟩ := List.mem_map.mp h
  exact Tree.mem_keys_of_normalizeMembers hm

namespace Item

variable {room : Nat}

/-- The members of the extras in the document of an item. -/
def extraTrees (i : Item) : List (String × Tree) := (i.extras.map Json.tree).entries

theorem map_fst_extraTrees (i : Item) : i.extraTrees.map (·.1) = i.extras.keys := by
  rw [extraTrees, Keyed.keys, Keyed.map, List.map_map]
  rfl

theorem nodup_names : fields.names.Nodup := by
  decide

theorem extraMembers_ofMembers (ms : List (String × Tree)) :
    extraMembers (Draft.ofMembers ms)
      = Draft.ofMembers (ms.filter fun m => !fields.names.contains m.1) := by
  induction ms with
  | nil => rfl
  | cons m ms ih =>
    obtain ⟨k, x⟩ := m
    rw [extraMembers] at ih ⊢
    rw [Draft.ofMembers, List.filter_cons, List.filter_cons, ih]
    show (if (!fields.names.contains k) = true then _ else _)
      = Draft.ofMembers (if (!fields.names.contains k) = true then _ else _)
    split <;> rfl

/-- If no extra bears the name of a fixed field, the extras are the members that are no fixed
fields. -/
theorem filter_members {i : Item} (h : ∀ key ∈ i.extras.keys, key ∉ fields.names) :
    (fields.write i.fixed ++ i.extraTrees).filter (fun m => !fields.names.contains m.1)
      = i.extraTrees := by
  have hfixed : (fields.write i.fixed).filter (fun m => !fields.names.contains m.1) = [] := by
    rw [List.filter_eq_nil_iff]
    intro m hm
    simp [Fields.mem_names_of_mem_write hm]
  have hextras : i.extraTrees.filter (fun m => !fields.names.contains m.1) = i.extraTrees := by
    rw [List.filter_eq_self]
    intro m hm
    have hkey : m.1 ∈ i.extras.keys := by
      rw [← map_fst_extraTrees]
      exact List.mem_map_of_mem hm
    simp [h m.1 hkey]
  rw [List.filter_append, hfixed, hextras, List.nil_append]

/-- The fixed fields are found behind no extra. -/
theorem get?_members {i : Item} (h : ∀ key ∈ i.extras.keys, key ∉ fields.names) {key : String}
    (hkey : key ∈ fields.names) :
    Entries.get? key (fields.write i.fixed ++ i.extraTrees)
      = Entries.get? key (fields.write i.fixed) := by
  have hnone : Entries.get? key i.extraTrees = none := by
    refine Entries.get?_eq_none_of_forall_ne fun m hm heq => h key ?_ hkey
    rw [← map_fst_extraTrees, ← heq]
    exact List.mem_map_of_mem hm
  rw [Entries.get?_append, hnone, Option.or_none]

/-- The reading of an item's own document, step by step. -/
theorem read_write (i : Item) : wire.read (room + 1) (.ofTree (wire.write i)) = (do
    let members := Draft.ofMembers (fields.write i.fixed ++ i.extraTrees)
    fields.walk (checkExtra room) room true [] members
    let fixed ← fields.gather room members
    let extras ← (Draft.membersToTree? room (extraMembers members)).elim (.error .malformed) .ok
    return ofFixed fixed (Wire.objectOf extras)) := rfl

/-- An item is read back if and only if no extra bears the name of a fixed field, the fixed fields
read back and there is room for the extras. -/
theorem readsBack_wire {i : Item} : wire.ReadsBack (room + 1) i ↔
    (∀ key ∈ i.extras.keys, key ∉ fields.names) ∧ fields.ReadsBack room i.fixed
      ∧ Tree.membersDepth i.extraTrees ≤ room := by
  rw [Wire.ReadsBack, read_write]
  dsimp only
  rw [extraMembers_ofMembers, Draft.membersToTree?_ofMembers]
  constructor
  · intro h
    cases hwalk : fields.walk (checkExtra room) room true []
        (Draft.ofMembers (fields.write i.fixed ++ i.extraTrees)) with
    | error e =>
      rw [hwalk] at h
      cases h
    | ok u =>
    cases hgather : fields.gather room (Draft.ofMembers (fields.write i.fixed ++ i.extraTrees)) with
    | error e =>
      rw [hwalk, hgather] at h
      cases h
    | ok fixed =>
    rw [hwalk, hgather] at h
    by_cases hroom : Tree.membersDepth ((fields.write i.fixed ++ i.extraTrees).filter
        fun m => !fields.names.contains m.1) ≤ room
    · rw [if_pos hroom] at h
      have hitem : ofFixed fixed (Wire.objectOf ((fields.write i.fixed ++ i.extraTrees).filter
          fun m => !fields.names.contains m.1)) = i := Except.ok.inj h
      have hnamed : ∀ key ∈ i.extras.keys, key ∉ fields.names := by
        intro key hkey
        rw [← hitem] at hkey
        obtain ⟨m, hm, rfl⟩ := List.mem_map.mp (Wire.mem_keys_objectOf hkey)
        simpa using (List.mem_filter.mp hm).2
      have hfixed : fixed = i.fixed := by rw [← hitem]; rfl
      rw [filter_members hnamed] at hroom
      rw [hfixed] at hgather
      exact ⟨hnamed,
        (Fields.gather_eq_ok_iff nodup_names fun _ => get?_members hnamed).mp hgather, hroom⟩
    · rw [if_neg hroom] at h
      cases h
  · rintro ⟨hnamed, hfixed, hroom⟩
    have hwalk : fields.walk (checkExtra room) room true []
        (Draft.ofMembers (fields.write i.fixed ++ i.extraTrees)) = .ok () := by
      refine Fields.walk_ofMembers ?_ ?_ (fun _ _ => List.not_mem_nil) ?_
      · intro m hm hname
        rcases List.mem_append.mp hm with hm | hm
        · exact Fields.check_of_mem_write nodup_names hfixed hm
        · refine absurd hname (hnamed m.1 ?_)
          rw [← map_fst_extraTrees]
          exact List.mem_map_of_mem hm
      · intro m hm hname
        have hextra : m ∈ i.extraTrees := (List.mem_append.mp hm).resolve_left fun hm =>
          hname (Fields.mem_names_of_mem_write hm)
        rw [checkExtra, Draft.toTree?_ofTree,
          if_pos (Tree.membersDepth_le_iff.mp hroom m hextra)]
        rfl
      · rw [List.map_append, map_fst_extraTrees, List.nodup_append]
        refine ⟨Fields.nodup_write nodup_names _, ?_, ?_⟩
        · refine List.pairwise_map.mpr (i.extras.ascending.imp ?_)
          intro a b hlt heq
          rw [heq] at hlt
          exact String.lt_irrefl _ hlt
        · intro key hkey other hother heq
          obtain ⟨m, hm, rfl⟩ := List.mem_map.mp hkey
          exact hnamed other hother (heq ▸ Fields.mem_names_of_mem_write hm)
    rw [hwalk, (Fields.gather_eq_ok_iff nodup_names fun _ => get?_members hnamed).mpr hfixed,
      filter_members hnamed, if_pos hroom]
    show Except.ok (ofFixed i.fixed (Wire.objectOf (i.extras.map Json.tree).entries)) = .ok i
    rw [Wire.objectOf_map_tree]
    rfl

/-- The fixed fields read back if and only if the times are finite and there is room for the search
fields and the data. -/
theorem readsBack_fields {i : Item} : fields.ReadsBack room i.fixed ↔
    i.updatedOn.isFinite = true ∧ i.timestamp.isFinite = true
      ∧ (Json.object i.searchFields).tree.depth ≤ room ∧ i.data.tree.depth ≤ room := by
  have htext : ∀ {name : String} (a : Option String),
      Fields.FieldReadsBack room (.omittable name .text) a := fun a =>
    (Fields.fieldReadsBack_omittable (by rintro b ⟨⟩)).mpr fun b _ => Wire.readsBack_text b
  have hoffset : ∀ {name : String} (a : Option Int64),
      Fields.FieldReadsBack room (.omittable name .int64) a := fun a =>
    (Fields.fieldReadsBack_omittable (by rintro b ⟨⟩)).mpr fun b _ => Wire.readsBack_int64 b
  have hjob : ∀ {name : String} (a : Option JobId),
      Fields.FieldReadsBack room (.omittable name JobId.wire) a := fun a =>
    (Fields.fieldReadsBack_omittable (by rintro b ⟨⟩)).mpr fun b _ => b.readsBack_wire
  simp only [fields, fixed, Fields.ReadsBack, Fields.fieldReadsBack_required,
    Fields.fieldReadsBack_defaulted, Wire.readsBack_text, Wire.readsBack_float,
    Wire.readsBack_object, Wire.readsBack_json, htext, hoffset, hjob, true_and, and_true]

/-! ## Items in a queue -/

/-- An item that comes back from a queue as it was put in. -/
structure IsConsumable (i : Item) : Prop where
  updatedOn : i.updatedOn.isFinite = true
  timestamp : i.timestamp.isFinite = true
  named : ∀ key ∈ i.extras.keys, key ∉ fields.names
  searchFields : (Json.object i.searchFields).tree.depth < Json.maxDepth
  data : i.data.tree.depth < Json.maxDepth
  extras : ∀ e ∈ i.extras.entries, e.2.tree.depth < Json.maxDepth

/-- The octets of an item are read as the item if and only if it is consumable. -/
theorem ofBytes_toBytes_iff (i : Item) : ofBytes i.toBytes = .ok i ↔ i.IsConsumable := by
  have hread : ofBytes i.toBytes = .ok i ↔ wire.ReadsBack Json.maxDepth i := by
    rw [ofBytes, toBytes, Wire.ofBytes_toBytes, Wire.ReadsBack]
    cases wire.read Json.maxDepth (.ofTree (wire.write i)) with
    | error e => exact ⟨by rintro ⟨⟩, by rintro ⟨⟩⟩
    | ok j => simp
  have hextras : Tree.membersDepth i.extraTrees ≤ 126
      ↔ ∀ e ∈ i.extras.entries, e.2.tree.depth < Json.maxDepth := by
    rw [Tree.membersDepth_le_iff, extraTrees, Keyed.map]
    simp only [List.forall_mem_map]
    exact forall₂_congr fun e _ => Nat.lt_succ_iff.symm
  have hwire : wire.ReadsBack Json.maxDepth i ↔ _ := @readsBack_wire 126 i
  rw [hread, hwire, readsBack_fields, hextras]
  constructor
  · rintro ⟨hnamed, ⟨hupdated, htimestamp, hsearch, hdata⟩, hextras⟩
    exact ⟨hupdated, htimestamp, hnamed, Nat.lt_succ_iff.mpr hsearch, Nat.lt_succ_iff.mpr hdata,
      hextras⟩
  · rintro ⟨hupdated, htimestamp, hnamed, hsearch, hdata, hextras⟩
    exact ⟨hnamed, ⟨hupdated, htimestamp, Nat.lt_succ_iff.mp hsearch, Nat.lt_succ_iff.mp hdata⟩,
      hextras⟩

/-- Stamping an item makes no difference to that. -/
theorem isConsumable_annotate {i : Item} {version : String} {jobId : JobId} :
    (i.annotate version jobId).IsConsumable ↔ i.IsConsumable := by
  constructor <;> rintro ⟨hupdated, htimestamp, hnamed, hsearch, hdata, hextras⟩ <;>
    exact ⟨hupdated, htimestamp, hnamed, hsearch, hdata, hextras⟩

end Item

end Intake
