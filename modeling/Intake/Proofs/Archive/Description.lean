import Mathlib.Data.List.Perm.Basic
import Intake.Archive.Metadata
import Intake.Proofs.Json.Pretty
import Intake.Proofs.Wire.Stable

/-!
# Descriptions of archives

A description is read back from the document that is written for it over several lines, if and only
if it does not nest deeper than documents are read (`ArchiveMetadata.ofBytes_pretty_eq_ok`).

What a query selects does not depend on the order in which the archives are met
(`ArchiveQuery.select_of_perm`): those of one instant come in the order of their identifiers, and no
two have the same.
-/

namespace Intake

open Json (Tree)

theorem Instant.lt_iff_le_and_ne {a b : Instant} : a < b ↔ a ≤ b ∧ a ≠ b := by
  constructor
  · intro h
    rw [Instant.lt_def] at h
    refine ⟨Instant.le_def.mpr (by omega), ?_⟩
    rintro rfl
    omega
  · rintro ⟨hle, hne⟩
    by_contra hlt
    refine hne (Instant.le_antisymm hle (Instant.le_def.mpr ?_))
    rw [Instant.lt_def] at hlt
    rw [Instant.le_def] at hle
    omega

namespace ArchiveMetadata

/-! ## Documents -/

/-- The arguments of the backend are all that nests in a description. -/
theorem depth_write (m : ArchiveMetadata) :
    (wire.write m).depth = (Json.object m.backendArgs).tree.depth + 1 := by
  show Tree.membersDepth [("archive_id", .text m.archiveId), ("origin", .text m.origin),
    ("backend_name", .text m.backendName), ("backend_version", .text m.backendVersion),
    ("category", .text m.category), ("backend_args", (Json.object m.backendArgs).tree),
    ("created_at", .text m.createdAt.text)] + 1 = _
  simp [Tree.membersDepth, Tree.depth]

/-- The fields of a description as they are written. -/
def fields : Fields (String × String × String × String × String × BackendArgs × Instant) :=
  .cons (.required "archive_id" .text) <|
    .cons (.required "origin" .text) <|
    .cons (.required "backend_name" .text) <|
    .cons (.required "backend_version" .text) <|
    .cons (.required "category" .text) <|
    .cons (.required "backend_args" .object) <|
    .last (.required "created_at" .instant)

theorem exact_record {room : Nat} : (fields.record "ArchiveMetadata").Exact (room + 1) := by
  have htext : ∀ {name : String}, Fields.FieldExact room (.required name .text) :=
    Fields.fieldExact_required (Wire.exact_of_readsBack Wire.readsBack_text)
  have hfields : fields.Exact room :=
    ⟨htext, htext, htext, htext, htext, Fields.fieldExact_required Wire.exact_object,
      Fields.fieldExact_required (Wire.exact_of_readsBack Wire.readsBack_instant)⟩
  exact Fields.exact_record hfields (by decide) _

theorem exact_wire {room : Nat} : wire.Exact (room + 1) :=
  Wire.exact_via (fun _ => rfl) exact_record

/-- A description reads back if and only if there is room for the arguments of the backend. -/
theorem readsBack_wire_iff {room : Nat} {m : ArchiveMetadata} :
    wire.ReadsBack (room + 1) m ↔ (wire.write m).depth ≤ room + 1 := by
  have hnames : fields.names.Nodup := by decide
  rw [depth_write, Nat.add_le_add_iff_right]
  refine (Wire.readsBack_via_iff (fun _ => rfl) exact_record).trans
    ((Fields.readsBack_record_iff hnames _).trans ?_)
  simp only [fields, Fields.ReadsBack, Fields.fieldReadsBack_required, Wire.readsBack_text,
    Wire.readsBack_object, Wire.readsBack_instant, true_and, and_true]

/-- What is read from the document of a description over several lines: the description, if it does
not nest deeper than documents are read, and else nothing. -/
theorem ofBytes_pretty_eq_ok {m other : ArchiveMetadata} :
    wire.ofBytes (wire.write m).pretty.toUTF8 = .ok other
      ↔ other = m ∧ (wire.write m).depth ≤ Json.maxDepth := by
  rw [Wire.ofBytes_of_read wire (Json.Draft.read_pretty _)]
  constructor
  · intro h
    obtain rfl := exact_wire m other h
    exact ⟨rfl, readsBack_wire_iff.mp h⟩
  · rintro ⟨rfl, hdepth⟩
    exact readsBack_wire_iff.mpr hdepth

/-- A description is read back from its document over several lines. -/
theorem ofBytes_pretty {m : ArchiveMetadata} (h : (wire.write m).depth ≤ Json.maxDepth) :
    wire.ofBytes (wire.write m).pretty.toUTF8 = .ok m :=
  ofBytes_pretty_eq_ok.mpr ⟨rfl, h⟩

/-! ## Order -/

theorem comesFirst_iff {a b : ArchiveMetadata} : a.comesFirst b = true
    ↔ a.createdAt ≤ b.createdAt ∧ (a.createdAt = b.createdAt → a.archiveId ≤ b.archiveId) := by
  simp only [comesFirst, Bool.or_eq_true, Bool.and_eq_true, decide_eq_true_eq, beq_iff_eq,
    Instant.lt_iff_le_and_ne]
  constructor
  · rintro (⟨hle, hne⟩ | ⟨heq, hid⟩)
    · exact ⟨hle, fun heq => absurd heq hne⟩
    · exact ⟨heq ▸ Instant.le_refl _, fun _ => hid⟩
  · rintro ⟨hle, hid⟩
    by_cases heq : a.createdAt = b.createdAt
    · exact .inr ⟨heq, hid heq⟩
    · exact .inl ⟨hle, heq⟩

theorem comesFirst_trans (a b c : ArchiveMetadata) (hab : a.comesFirst b = true)
    (hbc : b.comesFirst c = true) : a.comesFirst c = true := by
  rw [comesFirst_iff] at *
  refine ⟨Instant.le_trans hab.1 hbc.1, fun heq => ?_⟩
  have hsame : a.createdAt = b.createdAt := Instant.le_antisymm hab.1 (heq ▸ hbc.1)
  exact String.le_trans (hab.2 hsame) (hbc.2 (hsame ▸ heq))

theorem comesFirst_total (a b : ArchiveMetadata) : (a.comesFirst b || b.comesFirst a) = true := by
  rw [Bool.or_eq_true, comesFirst_iff, comesFirst_iff]
  by_cases heq : a.createdAt = b.createdAt
  · rcases String.le_total a.archiveId b.archiveId with hid | hid
    · exact .inl ⟨heq ▸ Instant.le_refl _, fun _ => hid⟩
    · exact .inr ⟨heq ▸ Instant.le_refl _, fun _ => hid⟩
  · rcases Instant.le_total a.createdAt b.createdAt with hle | hle
    · exact .inl ⟨hle, fun h => absurd h heq⟩
    · exact .inr ⟨hle, fun h => absurd h.symm heq⟩

/-- Archives of which each comes before the other one have the same identifier. -/
theorem archiveId_eq_of_comesFirst {a b : ArchiveMetadata} (hab : a.comesFirst b = true)
    (hba : b.comesFirst a = true) : a.archiveId = b.archiveId := by
  rw [comesFirst_iff] at hab hba
  have heq := Instant.le_antisymm hab.1 hba.1
  exact String.le_antisymm (hab.2 heq) (hba.2 heq.symm)

end ArchiveMetadata

/-- What a query selects of archives with different identifiers does not depend on their order. -/
theorem ArchiveQuery.select_of_perm (q : ArchiveQuery) {xs ys : List ArchiveMetadata}
    (h : xs.Perm ys) (hids : (xs.map (·.archiveId)).Nodup) : q.select xs = q.select ys := by
  have hmem : ∀ {zs : List ArchiveMetadata} {a}, a ∈ q.select zs → a ∈ zs := fun ha =>
    List.mem_of_mem_filter ((List.mergeSort_perm _ _).mem_iff.mp ha)
  have hsorted : ∀ zs, (q.select zs).Pairwise fun a b => a.comesFirst b = true := fun zs =>
    List.pairwise_mergeSort ArchiveMetadata.comesFirst_trans ArchiveMetadata.comesFirst_total _
  have hperm : (q.select xs).Perm (q.select ys) :=
    (List.mergeSort_perm _ _).trans ((h.filter _).trans (List.mergeSort_perm _ _).symm)
  refine hperm.eq_of_pairwise (fun a b ha hb hab hba => ?_) (hsorted xs) (hsorted ys)
  exact List.inj_on_of_nodup_map hids (hmem ha) (h.mem_iff.mpr (hmem hb))
    (ArchiveMetadata.archiveId_eq_of_comesFirst hab hba)

end Intake
