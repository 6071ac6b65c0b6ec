import Intake.Wire.Format

/-!
# Documents that nest too deep

A whole draft gives back its document if that does not nest deeper than there is room, and nothing
otherwise (`Json.Draft.toTree?_ofTree`). No draft gives a document that is deeper than the room
(`Json.Draft.depth_le_of_toTree?`), and its normal form is no deeper either
(`Json.Tree.depth_normalize_le`). A value is its own normal form, and so it is read back from its
document as it is (`Json.ofTree_tree`, `Wire.objectOf_map_tree`).
-/

namespace Intake

namespace Json

namespace Draft

/-! ## Room -/

mutual

/-- A whole draft gives back its document, if there is room for it. -/
theorem toTree?_ofTree (room : Nat) : (t : Tree) →
    (ofTree t).toTree? room = if t.depth ≤ room then some t else none
  | .null => by simp [ofTree, toTree?, Tree.depth]
  | .bool _ => by simp [ofTree, toTree?, Tree.depth]
  | .number _ => by simp [ofTree, toTree?, Tree.depth]
  | .text _ => by simp [ofTree, toTree?, Tree.depth]
  | .array xs => by
    cases room with
    | zero => simp [ofTree, toTree?, Tree.depth]
    | succ room =>
      simp only [ofTree, toTree?, Tree.depth, if_true, itemsToTree?_ofItems room xs,
        Nat.add_le_add_iff_right]
      split <;> rfl
  | .object ms => by
    cases room with
    | zero => simp [ofTree, toTree?, Tree.depth]
    | succ room =>
      simp only [ofTree, toTree?, Tree.depth, if_true, membersToTree?_ofMembers room ms,
        Nat.add_le_add_iff_right]
      split <;> rfl

theorem itemsToTree?_ofItems (room : Nat) : (xs : List Tree) →
    itemsToTree? room (ofItems xs) = if Tree.itemsDepth xs ≤ room then some xs else none
  | [] => by simp [ofItems, itemsToTree?, Tree.itemsDepth]
  | x :: xs => by
    simp only [ofItems, itemsToTree?, toTree?_ofTree room x, itemsToTree?_ofItems room xs,
      Tree.itemsDepth, Nat.max_le]
    by_cases hx : x.depth ≤ room <;> by_cases hxs : Tree.itemsDepth xs ≤ room <;> simp [hx, hxs]

theorem membersToTree?_ofMembers (room : Nat) : (ms : List (String × Tree)) →
    membersToTree? room (ofMembers ms) = if Tree.membersDepth ms ≤ room then some ms else none
  | [] => by simp [ofMembers, membersToTree?, Tree.membersDepth]
  | (k, x) :: ms => by
    simp only [ofMembers, membersToTree?, toTree?_ofTree room x, membersToTree?_ofMembers room ms,
      Tree.membersDepth, Nat.max_le]
    by_cases hx : x.depth ≤ room <;> by_cases hms : Tree.membersDepth ms ≤ room <;> simp [hx, hms]

end

mutual

/-- A draft gives no document that nests deeper than there is room. -/
theorem depth_le_of_toTree? (room : Nat) : (d : Draft) → ∀ {t}, d.toTree? room = some t →
    t.depth ≤ room
  | .null, t, h => by
    cases h
    exact Nat.zero_le _
  | .bool _, t, h => by
    cases h
    exact Nat.zero_le _
  | .number n, t, h => by
    obtain ⟨x, -, rfl⟩ := Option.map_eq_some_iff.mp h
    exact Nat.zero_le _
  | .text s, t, h => by
    obtain ⟨x, -, rfl⟩ := Option.map_eq_some_iff.mp h
    exact Nat.zero_le _
  | .array xs closed, t, h => by
    cases room with
    | zero => cases h
    | succ room =>
      rw [toTree?] at h
      split at h
      · obtain ⟨ts, hts, rfl⟩ := Option.map_eq_some_iff.mp h
        exact Nat.succ_le_succ (itemsDepth_le_of_itemsToTree? room xs hts)
      · cases h
  | .object ms closed, t, h => by
    cases room with
    | zero => cases h
    | succ room =>
      rw [toTree?] at h
      split at h
      · obtain ⟨ts, hts, rfl⟩ := Option.map_eq_some_iff.mp h
        exact Nat.succ_le_succ (membersDepth_le_of_membersToTree? room ms hts)
      · cases h
  | .broken, t, h => by cases h

theorem itemsDepth_le_of_itemsToTree? (room : Nat) : (xs : List Draft) → ∀ {ts},
    itemsToTree? room xs = some ts → Tree.itemsDepth ts ≤ room
  | [], ts, h => by
    cases h
    exact Nat.zero_le _
  | x :: xs, ts, h => by
    rw [itemsToTree?] at h
    obtain ⟨t, ht, h⟩ := Option.bind_eq_some_iff.mp h
    obtain ⟨rest, hrest, h⟩ := Option.bind_eq_some_iff.mp h
    cases h
    exact Nat.max_le.mpr ⟨depth_le_of_toTree? room x ht,
      itemsDepth_le_of_itemsToTree? room xs hrest⟩

theorem membersDepth_le_of_membersToTree? (room : Nat) : (ms : List (Option String × Draft)) →
    ∀ {ts}, membersToTree? room ms = some ts → Tree.membersDepth ts ≤ room
  | [], ts, h => by
    cases h
    exact Nat.zero_le _
  | (k, x) :: ms, ts, h => by
    rw [membersToTree?] at h
    obtain ⟨key, hkey, h⟩ := Option.bind_eq_some_iff.mp h
    obtain ⟨t, ht, h⟩ := Option.bind_eq_some_iff.mp h
    obtain ⟨rest, hrest, h⟩ := Option.bind_eq_some_iff.mp h
    cases h
    exact Nat.max_le.mpr ⟨depth_le_of_toTree? room x ht,
      membersDepth_le_of_membersToTree? room ms hrest⟩

end

/-- The documents of members have their keys. -/
theorem map_fst_membersToTree? {room : Nat} {ms : List (Option String × Draft)}
    {ts : List (String × Tree)} (h : membersToTree? room ms = some ts) :
    ms.map (·.1) = ts.map fun t => some t.1 := by
  induction ms generalizing ts with
  | nil =>
    cases h
    rfl
  | cons m ms ih =>
    obtain ⟨k, x⟩ := m
    rw [membersToTree?] at h
    obtain ⟨key, hkey, h⟩ := Option.bind_eq_some_iff.mp h
    obtain ⟨t, -, h⟩ := Option.bind_eq_some_iff.mp h
    obtain ⟨rest, hrest, h⟩ := Option.bind_eq_some_iff.mp h
    cases h
    rw [List.map_cons, List.map_cons, ih hrest, hkey]

end Draft

/-! ## Values -/

namespace Tree

theorem membersDepth_le_iff {ms : List (String × Tree)} {room : Nat} :
    membersDepth ms ≤ room ↔ ∀ m ∈ ms, m.2.depth ≤ room := by
  induction ms with
  | nil => simp [membersDepth]
  | cons m ms ih =>
    obtain ⟨k, x⟩ := m
    rw [membersDepth, Nat.max_le, ih, List.forall_mem_cons]

theorem membersDepth_insert_le (k : String) (x : Tree) (ms : List (String × Tree)) :
    membersDepth (Entries.insert k x ms) ≤ max x.depth (membersDepth ms) := by
  refine membersDepth_le_iff.mpr fun m hm => ?_
  rcases Entries.mem_insert hm with rfl | hm
  · exact Nat.le_max_left _ _
  · exact Nat.le_trans (membersDepth_le_iff.mp (Nat.le_refl _) m hm) (Nat.le_max_right _ _)

mutual

/-- A document in normal form nests no deeper: members may be dropped, but none are moved. -/
theorem depth_normalize_le : (t : Tree) → t.normalize.depth ≤ t.depth
  | .null => Nat.le_refl _
  | .bool _ => Nat.le_refl _
  | .number _ => Nat.le_refl _
  | .text _ => Nat.le_refl _
  | .array xs => Nat.succ_le_succ (itemsDepth_normalizeItems_le xs)
  | .object ms => Nat.succ_le_succ (membersDepth_normalizeMembers_le ms)

theorem itemsDepth_normalizeItems_le : (xs : List Tree) →
    itemsDepth (normalizeItems xs) ≤ itemsDepth xs
  | [] => Nat.le_refl _
  | x :: xs => by
    have hx := depth_normalize_le x
    have hxs := itemsDepth_normalizeItems_le xs
    rw [normalizeItems, itemsDepth, itemsDepth]
    omega

theorem membersDepth_normalizeMembers_le : (ms : List (String × Tree)) →
    membersDepth (normalizeMembers ms) ≤ membersDepth ms
  | [] => Nat.le_refl _
  | (k, x) :: ms => by
    have hx := depth_normalize_le x
    have hms := membersDepth_normalizeMembers_le ms
    have hinsert := membersDepth_insert_le k x.normalize (normalizeMembers ms)
    rw [normalizeMembers, membersDepth]
    split <;> omega

end

mutual

/-- A document in normal form is its own normal form. -/
theorem normalize_of_sorted : (t : Tree) → t.Sorted → t.normalize = t
  | .null, _ => rfl
  | .bool _, _ => rfl
  | .number _, _ => rfl
  | .text _, _ => rfl
  | .array xs, h => by rw [normalize, normalizeItems_of_sorted xs h]
  | .object ms, h => by rw [normalize, normalizeMembers_of_sorted ms h.1 h.2]

theorem normalizeItems_of_sorted : (xs : List Tree) → ItemsSorted xs → normalizeItems xs = xs
  | [], _ => rfl
  | x :: xs, h => by
    rw [normalizeItems, normalize_of_sorted x h.1, normalizeItems_of_sorted xs h.2]

theorem normalizeMembers_of_sorted : (ms : List (String × Tree)) → Entries.Ascending ms →
    MembersSorted ms → normalizeMembers ms = ms
  | [], _, _ => rfl
  | (k, x) :: ms, hascending, h => by
    obtain ⟨hfirst, hrest⟩ := List.pairwise_cons.mp hascending
    have habsent : Entries.get? k ms = none :=
      Entries.get?_eq_none_of_forall_ne fun e he heq => String.lt_irrefl k (heq ▸ hfirst e he)
    have hinsert : Entries.insert k x ms = (k, x) :: ms := by
      cases ms with
      | nil => rfl
      | cons m ms => exact if_pos (hfirst m (List.mem_cons_self ..))
    simp only [normalizeMembers, normalizeMembers_of_sorted ms hrest h.2,
      normalize_of_sorted x h.1, habsent, hinsert]
    rfl

end

end Tree

/-- A value is the value of its document. -/
theorem ofTree_tree (j : Json) : ofTree j.tree = j := by
  obtain ⟨t, ht⟩ := j
  simp only [ofTree, Tree.normalize_of_sorted t ht]

theorem membersOf_map_tree (entries : List (String × Json)) {ms : List (String × Tree)}
    (hms : ms = entries.map fun e => (e.1, e.2.tree)) (h : Tree.MembersSorted ms) :
    membersOf ms h = entries := by
  induction entries generalizing ms with
  | nil =>
    subst hms
    rfl
  | cons e entries ih =>
    subst hms
    exact congrArg ((e.1, e.2) :: ·) (ih rfl h.2)

end Json

theorem Json.map_tree_membersOf (ms : List (String × Tree)) (h : Tree.MembersSorted ms) :
    (membersOf ms h).map (fun e => (e.1, e.2.tree)) = ms := by
  induction ms with
  | nil => rfl
  | cons m ms ih =>
    obtain ⟨k, x⟩ := m
    rw [membersOf, List.map_cons, ih]

/-- The members of an object that was put together from members are these in normal form. -/
theorem Wire.map_tree_objectOf (ms : List (String × Json.Tree)) :
    ((objectOf ms).map Json.tree).entries = Json.Tree.normalizeMembers ms :=
  Json.map_tree_membersOf _ _

/-- The object of the members of an object is the object. -/
theorem Wire.objectOf_map_tree (o : Keyed Json) : objectOf (o.map Json.tree).entries = o := by
  have hsorted := (Json.object o).sorted
  have hnormal : Json.Tree.normalizeMembers (o.map Json.tree).entries = (o.map Json.tree).entries :=
    Json.Tree.normalizeMembers_of_sorted _ hsorted.1 hsorted.2
  have hentries : (objectOf (o.map Json.tree).entries).entries = o.entries :=
    Json.membersOf_map_tree o.entries hnormal _
  refine Keyed.ext_get? fun key => ?_
  rw [Keyed.get?, hentries]
  rfl

end Intake
