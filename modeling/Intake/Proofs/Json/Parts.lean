import Intake.Proofs.Json.Depth

/-!
# Parts of a value

A value that was put together is taken apart into the same parts: a number into the number, an
object into its members, and an object from a list of members has each of them under its key
(`Json.get?_record`). It nests one level deeper than its members (`Json.depth_record_le`).
-/

namespace Intake

-- one meaning of powers, whatever is imported beside
attribute [local instance (high)] instPowNat

theorem Keyed.mem_of_mem_ofList {α : Type} {entries : List (String × α)} {e : String × α}
    (h : e ∈ (Keyed.ofList entries).entries) : e ∈ entries := by
  have hfold : ∀ m : Keyed α, e ∈ (entries.foldl (fun m e => m.insert e.1 e.2) m).entries →
      e ∈ m.entries ∨ e ∈ entries := by
    clear h
    induction entries with
    | nil => exact fun m h => .inl h
    | cons head rest ih =>
      intro m h
      rcases ih (m.insert head.1 head.2) h with h | h
      · rcases Entries.mem_insert h with rfl | h
        · exact .inr (List.mem_cons_self ..)
        · exact .inl h
      · exact .inr (List.mem_cons_of_mem _ h)
  exact (hfold .empty h).resolve_left List.not_mem_nil

namespace Json

/-! ## Numbers -/

theorem uint64?_ofUInt64 (n : UInt64) : (Json.ofUInt64 n).uint64? = some n := by
  simp [Json.ofUInt64, Json.uint64?, Json.number?, Json.number, Number.ofUInt64,
    Number.toUInt64?]

theorem Number.toInt64?_ofUInt64 {n : UInt64} (h : n.toNat < 2 ^ (63 : Nat)) :
    (Number.ofUInt64 n).toInt64? = some (Int64.ofNat n.toNat) := by
  have hint : (n.toNat : Int) < 2 ^ (63 : Nat) := by omega
  rw [← Int64.ofInt_eq_ofNat]
  unfold Number.ofUInt64
  simp only [Number.toInt64?, if_pos hint]

/-- A number without sign is one with sign if it is small enough. -/
theorem int64?_ofUInt64 {n : UInt64} (h : n.toNat < 2 ^ (63 : Nat)) :
    (Json.ofUInt64 n).int64? = some (Int64.ofNat n.toNat) := by
  have hnumber : (Json.ofUInt64 n).number? = some (Number.ofUInt64 n) := rfl
  rw [Json.int64?, hnumber, Option.bind_eq_bind, Option.bind_some, Number.toInt64?_ofUInt64 h]

/-! ## Objects -/

theorem members?_object (o : Keyed Json) : (Json.object o).members? = some o := by
  have hkeyed : keyedOf (o.map Json.tree).entries (Json.object o).sorted = o := by
    refine Keyed.ext_get? fun key => ?_
    have hentries :
        (keyedOf (o.map Json.tree).entries (Json.object o).sorted).entries = o.entries :=
      membersOf_map_tree o.entries rfl _
    rw [Keyed.get?, hentries]
    rfl
  exact congrArg some hkeyed

/-- An object put together from members has each of them under its key. -/
theorem get?_record {members : List (String × Json)} (hkeys : (members.map (·.1)).Nodup)
    {m : String × Json} (hm : m ∈ members) : (Json.record members).get? m.1 = some m.2 := by
  rw [Json.get?, Json.record, members?_object, Option.bind_eq_bind, Option.bind_some,
    Keyed.get?_ofList_of_mem hkeys hm]

theorem depth_record_le {members : List (String × Json)} {room : Nat}
    (h : ∀ m ∈ members, m.2.tree.depth ≤ room) :
    (Json.record members).tree.depth ≤ room + 1 := by
  refine Nat.succ_le_succ (Tree.membersDepth_le_iff.mpr fun m hm => ?_)
  obtain ⟨e, he, rfl⟩ := List.mem_map.mp hm
  exact h e (Keyed.mem_of_mem_ofList he)

end Json

end Intake
