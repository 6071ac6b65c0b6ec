import Intake.Proofs.Wire.Items
import Intake.Proofs.Wire.Settled

/-!
# The form of items

Every item has octets, and these are the text of one document. Whether the item is read from them
can be seen from the item and from how deep this document nests (`Item.HasForm`,
`Item.ofBytes_toBytes_iff_hasForm`). An item without the form is refused or taken for an item with
other extras.

Each item that is read from any octets has the form (`Item.hasForm_of_ofBytes`). Once read, it is
written in one way only.
-/

namespace Intake

open Intake.Json (Tree Draft)

namespace Item

/-! ## How deep items nest -/

/-- Nothing nests in an item but its search fields, its data and its extras. -/
theorem depth_write (i : Item) : (wire.write i).depth
    = max (max (Json.object i.searchFields).tree.depth i.data.tree.depth)
        (Tree.membersDepth i.extraTrees) + 1 := by
  have htext : ∀ s, (Wire.text.write s).depth = 0 := fun _ => rfl
  have hint : ∀ n, (Wire.int64.write n).depth = 0 := fun _ => rfl
  have hjob : ∀ id, (JobId.wire.write id).depth = 0 := fun _ => rfl
  have hfloat : ∀ x, (Wire.float.write x).depth = 0 := by
    intro x
    show ((Json.Number.ofFloat? x).elim Tree.null .number).depth = 0
    cases Json.Number.ofFloat? x <;> rfl
  show Tree.membersDepth (fields.write i.fixed ++ i.extraTrees) + 1 = _
  simp only [fields, fixed, Fields.write, Tree.membersDepth_append, Fields.membersDepth_required,
    Fields.membersDepth_defaulted, Fields.membersDepth_omittable, htext, hint, hjob, hfloat,
    implies_true, Nat.zero_max, Nat.max_zero]
  rfl

/-! ## Items with the form -/

/-- The names of the fixed fields. -/
def fixedNames : List String :=
  ["backend_name", "backend_version", "category", "origin", "uuid", "updated_on", "timestamp",
    "offset", "tag", "search_fields", "data", "harvest_version", "job_id"]

theorem names_fields : fields.names = fixedNames := rfl

/-- What the document of an item must be like so that the item is read from it: both times are
numbers in it, no key stands twice or in the place of a missing field, and it nests no deeper than
documents may. -/
structure HasForm (i : Item) : Prop where
  updatedOn : i.updatedOn.isFinite = true
  timestamp : i.timestamp.isFinite = true
  named : ∀ key ∈ i.extras.keys, key ∉ fixedNames
  depth : (wire.write i).depth ≤ Json.maxDepth

/-- The items with the form are those that come back from a queue. -/
theorem hasForm_iff_isConsumable (i : Item) : i.HasForm ↔ i.IsConsumable := by
  have hextras : Tree.membersDepth i.extraTrees < Json.maxDepth
      ↔ ∀ e ∈ i.extras.entries, e.2.tree.depth < Json.maxDepth := by
    rw [Json.maxDepth, Nat.lt_succ_iff, Tree.membersDepth_le_iff, extraTrees, Keyed.map]
    simp only [List.forall_mem_map]
    exact forall₂_congr fun e _ => Nat.lt_succ_iff.symm
  have hdepth : (wire.write i).depth ≤ Json.maxDepth
      ↔ ((Json.object i.searchFields).tree.depth < Json.maxDepth
        ∧ i.data.tree.depth < Json.maxDepth)
        ∧ ∀ e ∈ i.extras.entries, e.2.tree.depth < Json.maxDepth := by
    rw [depth_write, Nat.succ_le_iff, Nat.max_lt, Nat.max_lt, hextras]
  constructor
  · rintro ⟨hupdated, htimestamp, hnamed, h⟩
    obtain ⟨⟨hsearch, hdata⟩, hextras⟩ := hdepth.mp h
    rw [← names_fields] at hnamed
    exact ⟨hupdated, htimestamp, hnamed, hsearch, hdata, hextras⟩
  · rintro ⟨hupdated, htimestamp, hnamed, hsearch, hdata, hextras⟩
    rw [names_fields] at hnamed
    exact ⟨hupdated, htimestamp, hnamed, hdepth.mpr ⟨⟨hsearch, hdata⟩, hextras⟩⟩

/-! ## What reading leaves -/

/-- What an item was read from: an object from which its fixed fields were gathered, and whose other
members are its extras. -/
theorem read_eq_ok {d : Draft} {i : Item} (h : wire.read (room + 1) d = .ok i) :
    ∃ members closed ts, d = .object members closed
      ∧ fields.gather room members = .ok i.fixed
      ∧ Draft.membersToTree? room (extraMembers members) = some ts
      ∧ i.extras = Wire.objectOf ts := by
  cases d with
  | object members closed =>
    replace h : (do
        fields.walk (checkExtra room) room closed [] members
        let fixed ← fields.gather room members
        let extras ←
          (Draft.membersToTree? room (extraMembers members)).elim (.error .malformed) .ok
        return ofFixed fixed (Wire.objectOf extras)) = Except.ok i := h
    obtain ⟨-, -, h⟩ := exists_of_bind_eq_ok h
    obtain ⟨fixed, hgather, h⟩ := exists_of_bind_eq_ok h
    obtain ⟨extras, hextras, h⟩ := exists_of_bind_eq_ok h
    obtain ⟨ts, htrees, hts⟩ := exists_of_elim_eq_ok hextras
    cases hts
    cases h
    exact ⟨members, closed, _, rfl, hgather, htrees, rfl⟩
  | _ => exact absurd h Wire.refuse_ne_ok

/-- No extra of an item that was read bears the name of a fixed field. -/
theorem named_of_read {d : Draft} {i : Item} (h : wire.read (room + 1) d = .ok i) :
    ∀ key ∈ i.extras.keys, key ∉ fields.names := by
  obtain ⟨members, closed, ts, rfl, -, htrees, hextras⟩ := read_eq_ok h
  intro key hkey
  rw [hextras] at hkey
  have hmem : some key ∈ (extraMembers members).map (·.1) := by
    rw [Draft.map_fst_membersToTree? htrees]
    obtain ⟨t, ht, rfl⟩ := List.mem_map.mp (Wire.mem_keys_objectOf hkey)
    exact List.mem_map_of_mem ht
  obtain ⟨m, hm, hname⟩ := List.mem_map.mp hmem
  have hother := (List.mem_filter.mp hm).2
  rw [hname] at hother
  simpa using hother

theorem exact_fields : fields.Exact room := by
  have htext : ∀ {name : String}, Fields.FieldExact room (.required name .text) :=
    Fields.fieldExact_required (Wire.exact_of_readsBack Wire.readsBack_text)
  have hfloat : ∀ {name : String}, Fields.FieldExact room (.required name .float) :=
    Fields.fieldExact_required Wire.exact_float
  have homitted : ∀ {β : Type} {name : String} {w : Wire β}, (∀ b, w.write b ≠ .null) →
      (∀ b, w.ReadsBack room b) → Fields.FieldExact room (.omittable name w) :=
    fun hnull h => Fields.fieldExact_omittable hnull (Wire.exact_of_readsBack h)
  exact ⟨htext, htext, htext, htext, htext, hfloat, hfloat,
    homitted (by rintro b ⟨⟩) Wire.readsBack_int64,
    homitted (by rintro b ⟨⟩) Wire.readsBack_text,
    Fields.fieldExact_defaulted Wire.exact_object, Fields.fieldExact_required Wire.exact_json,
    homitted (by rintro b ⟨⟩) Wire.readsBack_text,
    homitted (by rintro b ⟨⟩) JobId.readsBack_wire⟩

/-- Every value that is read for a fixed field reads back, as do the search fields of an item that
has none. -/
theorem stable_fields : fields.Stable (room + 1) := by
  have htext : ∀ {name : String}, Fields.FieldStable (room + 1) (.required name .text) :=
    Fields.fieldStable_required (Wire.stable_of_readsBack Wire.readsBack_text)
  have hfloat : ∀ {name : String}, Fields.FieldStable (room + 1) (.required name .float) :=
    Fields.fieldStable_required Wire.stable_float
  have homitted : ∀ {β : Type} {name : String} {w : Wire β}, (∀ b, w.write b ≠ .null) →
      (∀ b, w.ReadsBack (room + 1) b) → Fields.FieldStable (room + 1) (.omittable name w) :=
    fun hnull h => Fields.fieldStable_omittable hnull (Wire.stable_of_readsBack h)
  have hnone : Wire.object.ReadsBack (room + 1) .empty :=
    Wire.readsBack_object.mpr (Nat.succ_le_succ (Nat.zero_le room))
  exact ⟨htext, htext, htext, htext, htext, hfloat, hfloat,
    homitted (by rintro b ⟨⟩) Wire.readsBack_int64,
    homitted (by rintro b ⟨⟩) Wire.readsBack_text,
    Fields.fieldStable_defaulted Wire.stable_object hnone,
    Fields.fieldStable_required Wire.stable_json,
    homitted (by rintro b ⟨⟩) Wire.readsBack_text,
    homitted (by rintro b ⟨⟩) JobId.readsBack_wire⟩

/-- An item that was read reads back. -/
theorem readsBack_of_read {d : Draft} {i : Item} (h : wire.read (room + 2) d = .ok i) :
    wire.ReadsBack (room + 2) i := by
  obtain ⟨members, closed, ts, -, hgather, htrees, hextras⟩ := read_eq_ok h
  have hroom : Tree.membersDepth i.extraTrees ≤ room + 1 := by
    rw [extraTrees, hextras]
    exact Wire.membersDepth_objectOf_le htrees
  exact readsBack_wire.mpr
    ⟨named_of_read h, Fields.readsBack_of_gather stable_fields hgather, hroom⟩

/-- What is read from the document of an item is the item, unless it has other extras. -/
theorem eq_of_read_write {i j : Item}
    (h : wire.read (room + 1) (.ofTree (wire.write i)) = .ok j)
    (hkeys : j.extras.keys = i.extras.keys) : j = i := by
  have hnamed : ∀ key ∈ i.extras.keys, key ∉ fields.names := hkeys ▸ named_of_read h
  obtain ⟨members, closed, ts, hmembers, hgather, htrees, hextras⟩ := read_eq_ok h
  obtain ⟨rfl, -⟩ : Draft.ofMembers (fields.write i.fixed ++ i.extraTrees) = members
      ∧ true = closed := Draft.object.inj hmembers
  have hfixed : j.fixed = i.fixed :=
    Fields.eq_of_gather exact_fields nodup_names (fun _ => get?_members hnamed) hgather
  have hsame : j.extras = i.extras := by
    rw [extraMembers_ofMembers, filter_members hnamed, Draft.membersToTree?_ofMembers] at htrees
    split at htrees
    · cases htrees
      rw [hextras, extraTrees, Wire.objectOf_map_tree]
    · cases htrees
  calc j = ofFixed j.fixed j.extras := rfl
    _ = ofFixed i.fixed i.extras := by rw [hfixed, hsame]
    _ = i := rfl

/-! ## Octets -/

theorem read_of_ofBytes {bytes : ByteArray} {i : Item} (h : ofBytes bytes = .ok i) :
    wire.read Json.maxDepth (Draft.read bytes).draft = .ok i := by
  have hread : wire.ofBytes bytes = .ok i := eq_ok_of_mapError_eq_ok h
  exact (Wire.read_of_ofBytes hread).2

/-- The octets of an item are the text of its document, with nothing before or behind it. -/
theorem read_toBytes (i : Item) : Draft.read i.toBytes = ⟨.ofTree (wire.write i), true⟩ :=
  Draft.read_compact (Json.Tree.readsBack _)

/-- Every item has octets, the text of its document. It is read from them if and only if it has the
form; if it has not, nothing is read or an item with other extras. -/
theorem ofBytes_toBytes_iff_hasForm (i : Item) :
    Draft.read i.toBytes = ⟨.ofTree (wire.write i), true⟩
      ∧ (ofBytes i.toBytes = .ok i ↔ i.HasForm)
      ∧ (¬ i.HasForm → ∀ j, ofBytes i.toBytes = .ok j → j.extras.keys ≠ i.extras.keys) := by
  have hform : ofBytes i.toBytes = .ok i ↔ i.HasForm :=
    (ofBytes_toBytes_iff i).trans (hasForm_iff_isConsumable i).symm
  refine ⟨read_toBytes i, hform, fun hnot j hread hkeys => hnot (hform.mp ?_)⟩
  have hwritten := read_of_ofBytes hread
  rw [read_toBytes] at hwritten
  rw [hread, eq_of_read_write hwritten hkeys]

/-- An item that was read from octets is read again from its own, whatever the first ones looked
like. -/
theorem hasForm_of_ofBytes {bytes : ByteArray} {i : Item} (h : ofBytes bytes = .ok i) :
    i.HasForm := by
  have hreads : wire.ReadsBack (125 + 2) i := readsBack_of_read (read_of_ofBytes h)
  rw [hasForm_iff_isConsumable, ← ofBytes_toBytes_iff, ofBytes, toBytes, Wire.ofBytes_toBytes]
  exact congrArg (Except.mapError _) hreads

/-- Reading settles how an item is written: whatever text it was read from, it has octets of its
own, it is read from these as it was, and it is then written as before. -/
theorem ofBytes_toBytes_of_ofBytes {bytes : ByteArray} {i : Item} (h : ofBytes bytes = .ok i) :
    Draft.read i.toBytes = ⟨.ofTree (wire.write i), true⟩
      ∧ ofBytes i.toBytes = .ok i
      ∧ (ofBytes i.toBytes).map toBytes = .ok i.toBytes := by
  have hread : ofBytes i.toBytes = .ok i :=
    (ofBytes_toBytes_iff i).mpr ((hasForm_iff_isConsumable i).mp (hasForm_of_ofBytes h))
  refine ⟨read_toBytes i, hread, ?_⟩
  rw [hread]
  rfl

/-- A text of an item with blanks, an escape, whole numbers for the times, an extra that stands
twice and other spellings that no item is written with. -/
def spelled : String :=
  " \x7b\"x\": 1, \"uuid\": \"a\\u0062\", \"origin\": \"o\", \"category\": \"c\", \"tag\": null,
    \"backend_version\": \"1\", \"backend_name\": \"b\", \"timestamp\": 3, \"updated_on\": -0,
    \"x\": [1e0, \x7b\"z\": 1, \"y\": 2, \"z\": 3\x7d], \"data\": null,
    \"job_id\": \"\x7b67E55044-10B1-426F-9247-BB680E5FE0C8\x7d\"\x7d "

/-- The item of that text is read from its own octets. -/
theorem ofBytes_toBytes_spelled :
    ∃ i, ofBytes spelled.toUTF8 = .ok i ∧ ofBytes i.toBytes = .ok i := by
  have hread : (ofBytes spelled.toUTF8).isOk = true := by
    unfold spelled
    rw [ofBytes, Wire.ofBytes, Draft.read_ofList]
    decide +kernel
  cases hitem : ofBytes spelled.toUTF8 with
  | error e =>
    rw [hitem] at hread
    cases hread
  | ok i => exact ⟨i, rfl, (ofBytes_toBytes_of_ofBytes hitem).2.1⟩

end Item

end Intake
