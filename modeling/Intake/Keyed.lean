/-!
# Values under text keys

`Keyed α` is a finite map from texts to `α`, kept as a list of entries in ascending order of their
keys, each key once. The order is that of code points, which is also the order of the keys' UTF-8
octets, so two maps with the same entries are the same list.

The operations are single passes over the list; what they do is said through `get?`
(`get?_insert`, `get?_erase`), and `ext_get?` says that `get?` determines the map.
-/

namespace Intake

/-! ## Entries -/

namespace Entries

variable {α : Type u}

/-- An entry put in its place, over an entry with the same key if there is one. -/
def insert (key : String) (value : α) : List (String × α) → List (String × α)
  | [] => [(key, value)]
  | (k, v) :: rest =>
    if key < k then (key, value) :: (k, v) :: rest
    else if key = k then (key, value) :: rest
    else (k, v) :: insert key value rest

/-- The value under a key. -/
def get? (key : String) : List (String × α) → Option α
  | [] => none
  | (k, v) :: rest => if key = k then some v else get? key rest

/-- All entries but those under a key. -/
def erase (key : String) (entries : List (String × α)) : List (String × α) :=
  entries.filter fun e => e.1 ≠ key

/-- The keys ascend, and so each stands once. -/
abbrev Ascending (entries : List (String × α)) : Prop :=
  entries.Pairwise fun a b => a.1 < b.1

theorem mem_insert {key : String} {value : α} {e : String × α} {entries : List (String × α)}
    (h : e ∈ insert key value entries) : e = (key, value) ∨ e ∈ entries := by
  induction entries with
  | nil => simpa [insert] using h
  | cons head rest ih =>
    obtain ⟨k, v⟩ := head
    simp only [insert] at h
    split at h
    · simpa using h
    · split at h
      · simp only [List.mem_cons] at h ⊢
        exact h.imp_right Or.inr
      · simp only [List.mem_cons] at h ⊢
        rcases h with rfl | h
        · exact .inr (.inl rfl)
        · exact (ih h).imp_right .inr

theorem Ascending.insert {entries : List (String × α)} (h : Ascending entries) (key : String)
    (value : α) : Ascending (insert key value entries) := by
  induction entries with
  | nil => simp [Ascending, Entries.insert]
  | cons head rest ih =>
    obtain ⟨k, v⟩ := head
    have hrest := List.pairwise_cons.mp h
    simp only [Entries.insert]
    split
    · rename_i hlt
      refine List.pairwise_cons.mpr ⟨fun e he => ?_, h⟩
      rcases List.mem_cons.mp he with rfl | he
      · exact hlt
      · exact String.lt_trans hlt (hrest.1 e he)
    · split
      · rename_i heq
        subst heq
        exact List.pairwise_cons.mpr ⟨hrest.1, hrest.2⟩
      · rename_i hlt hne
        refine List.pairwise_cons.mpr ⟨fun e he => ?_, ih hrest.2⟩
        rcases mem_insert he with rfl | he
        · exact Std.lt_of_le_of_ne (String.not_lt.mp hlt) (Ne.symm hne)
        · exact hrest.1 e he

theorem Ascending.erase {entries : List (String × α)} (h : Ascending entries) (key : String) :
    Ascending (erase key entries) :=
  h.sublist List.filter_sublist

theorem Ascending.map {β : Type v} {entries : List (String × α)} (h : Ascending entries)
    (f : α → β) : Ascending (entries.map fun e => (e.1, f e.2)) :=
  List.pairwise_map.mpr (h.imp id)

theorem get?_insert (key : String) (value : α) (k : String) (entries : List (String × α)) :
    get? k (insert key value entries) = if k = key then some value else get? k entries := by
  induction entries with
  | nil => simp [insert, get?]
  | cons head rest ih =>
    obtain ⟨k', v⟩ := head
    simp only [insert]
    split
    · simp [get?]
    · split
      · rename_i heq
        subst heq
        by_cases hk : k = key <;> simp [get?, hk]
      · rename_i hne
        simp only [get?, ih]
        by_cases hk : k = k'
        · subst hk
          simp [Ne.symm hne]
        · simp [hk]

theorem get?_erase (key k : String) (entries : List (String × α)) :
    get? k (erase key entries) = if k = key then none else get? k entries := by
  induction entries with
  | nil => simp [erase, get?]
  | cons head rest ih =>
    obtain ⟨k', v⟩ := head
    simp only [erase] at ih ⊢
    by_cases hk' : k' = key
    · subst hk'
      simp only [ne_eq, not_true_eq_false, decide_false, Bool.false_eq_true, not_false_eq_true,
        List.filter_cons_of_neg, ih, get?]
      by_cases hk : k = k' <;> simp [hk]
    · simp only [ne_eq, hk', not_false_eq_true, decide_true, List.filter_cons_of_pos, get?, ih]
      by_cases hk : k = k'
      · subst hk
        simp [hk']
      · simp [hk]

theorem get?_map {β : Type v} (f : α → β) (key : String) (entries : List (String × α)) :
    get? key (entries.map fun e => (e.1, f e.2)) = (get? key entries).map f := by
  induction entries with
  | nil => rfl
  | cons head rest ih =>
    obtain ⟨k, v⟩ := head
    by_cases h : key = k <;> simp [get?, h, ih]

theorem get?_eq_none_of_forall_ne {key : String} {entries : List (String × α)}
    (h : ∀ e ∈ entries, e.1 ≠ key) : get? key entries = none := by
  induction entries with
  | nil => rfl
  | cons head rest ih =>
    obtain ⟨k, v⟩ := head
    have hk : key ≠ k := fun hk => h (k, v) (by simp) hk.symm
    simp only [get?, if_neg hk]
    exact ih fun e he => h e (by simp [he])

theorem mem_of_get? {key : String} {value : α} {entries : List (String × α)}
    (h : get? key entries = some value) : (key, value) ∈ entries := by
  induction entries with
  | nil => simp [get?] at h
  | cons head rest ih =>
    obtain ⟨k, v⟩ := head
    by_cases hk : key = k
    · subst hk
      simp [get?] at h
      simp [h]
    · simp only [get?, if_neg hk] at h
      simp [ih h]

theorem get?_of_mem {key : String} {value : α} {entries : List (String × α)}
    (h : Ascending entries) (hmem : (key, value) ∈ entries) : get? key entries = some value := by
  induction entries with
  | nil => simp at hmem
  | cons head rest ih =>
    obtain ⟨k, v⟩ := head
    have hrest := List.pairwise_cons.mp h
    rcases List.mem_cons.mp hmem with heq | hlater
    · cases heq
      simp [get?]
    · have hne : key ≠ k := by
        rintro rfl
        exact String.lt_irrefl _ (hrest.1 (key, value) hlater)
      simp only [get?, if_neg hne]
      exact ih hrest.2 hlater

/-- Lists of entries in ascending order that answer every look-up alike are equal. -/
theorem eq_of_get?_eq {xs ys : List (String × α)} (hx : Ascending xs) (hy : Ascending ys)
    (h : ∀ key, get? key xs = get? key ys) : xs = ys := by
  induction xs generalizing ys with
  | nil =>
    cases ys with
    | nil => rfl
    | cons y ys => simpa [get?] using h y.1
  | cons x xs ih =>
    cases ys with
    | nil => simpa [get?] using h x.1
    | cons y ys =>
      obtain ⟨k, v⟩ := x
      obtain ⟨l, w⟩ := y
      have hx' := List.pairwise_cons.mp hx
      have hy' := List.pairwise_cons.mp hy
      have hmemy : (k, v) ∈ (l, w) :: ys := mem_of_get? (by rw [← h k]; simp [get?])
      have hmemx : (l, w) ∈ (k, v) :: xs := mem_of_get? (by rw [h l]; simp [get?])
      have hhead : (k, v) = (l, w) := by
        rcases List.mem_cons.mp hmemy with heq | hy
        · exact heq
        · rcases List.mem_cons.mp hmemx with heq | hx
          · exact heq.symm
          · exact absurd (String.lt_trans (hx'.1 _ hx) (hy'.1 _ hy)) (String.lt_irrefl _)
      cases hhead
      refine congrArg _ (ih hx'.2 hy'.2 fun key => ?_)
      by_cases hk : key = k
      · subst hk
        rw [get?_eq_none_of_forall_ne fun e he heq => String.lt_irrefl _ (heq ▸ hx'.1 e he),
          get?_eq_none_of_forall_ne fun e he heq => String.lt_irrefl _ (heq ▸ hy'.1 e he)]
      · simpa [get?, hk] using h key

end Entries

/-! ## Maps -/

/-- A finite map from texts to `α`, as its entries in ascending order of their keys. -/
structure Keyed (α : Type u) where
  entries : List (String × α) := []
  ascending : Entries.Ascending entries := by exact List.Pairwise.nil

namespace Keyed

variable {α : Type u}

/-- The map without entries. -/
def empty : Keyed α := {}

instance : Inhabited (Keyed α) := ⟨empty⟩

/-- The value under a key. -/
def get? (m : Keyed α) (key : String) : Option α :=
  Entries.get? key m.entries

/-- Whether there is a value under a key. -/
def contains (m : Keyed α) (key : String) : Bool :=
  (m.get? key).isSome

/-- The map with a value put under a key, in the place of what was there. -/
def insert (m : Keyed α) (key : String) (value : α) : Keyed α :=
  ⟨Entries.insert key value m.entries, m.ascending.insert key value⟩

/-- The map with a value put under a key, unless something is there. -/
def insertNew (m : Keyed α) (key : String) (value : α) : Keyed α :=
  if m.contains key then m else m.insert key value

/-- The map without a key. -/
def erase (m : Keyed α) (key : String) : Keyed α :=
  ⟨Entries.erase key m.entries, m.ascending.erase key⟩

/-- The map with a function applied to each value. -/
def map {β : Type v} (f : α → β) (m : Keyed α) : Keyed β :=
  ⟨m.entries.map fun e => (e.1, f e.2), m.ascending.map f⟩

/-- The map that holds the entries of a list; of two under one key the later one. -/
def ofList (entries : List (String × α)) : Keyed α :=
  entries.foldl (fun m e => m.insert e.1 e.2) empty

/-- Both maps together; under a common key the second one's value. -/
def union (m n : Keyed α) : Keyed α :=
  n.entries.foldl (fun m e => m.insert e.1 e.2) m

/-- The entries in ascending order of their keys. -/
def toList (m : Keyed α) : List (String × α) := m.entries

/-- The keys in ascending order. -/
def keys (m : Keyed α) : List String := m.entries.map (·.1)

/-- The values in ascending order of their keys. -/
def values (m : Keyed α) : List α := m.entries.map (·.2)

/-- How many entries there are. -/
def size (m : Keyed α) : Nat := m.entries.length

/-- Whether there is no entry. -/
def isEmpty (m : Keyed α) : Bool := m.entries.isEmpty

instance [BEq α] : BEq (Keyed α) := ⟨fun m n => m.entries == n.entries⟩

/-! ## Laws -/

@[simp]
theorem get?_empty (key : String) : (empty : Keyed α).get? key = none := rfl

theorem get?_insert (m : Keyed α) (key : String) (value : α) (k : String) :
    (m.insert key value).get? k = if k = key then some value else m.get? k :=
  Entries.get?_insert key value k m.entries

@[simp]
theorem get?_insert_self (m : Keyed α) (key : String) (value : α) :
    (m.insert key value).get? key = some value := by
  simp [get?_insert]

theorem get?_insertNew (m : Keyed α) (key : String) (value : α) (k : String) :
    (m.insertNew key value).get? k =
      if k = key then some ((m.get? key).getD value) else m.get? k := by
  by_cases hk : k = key
  · subst hk
    cases h : m.get? k <;> simp [insertNew, contains, h]
  · simp only [insertNew, if_neg hk]
    split
    · rfl
    · simp [get?_insert, hk]

theorem mem_keys {m : Keyed α} {key : String} : key ∈ m.keys ↔ (m.get? key).isSome = true := by
  constructor
  · intro h
    obtain ⟨⟨k, value⟩, hmem, rfl⟩ := List.mem_map.mp h
    rw [get?, Entries.get?_of_mem m.ascending hmem]
    rfl
  · intro h
    obtain ⟨value, hvalue⟩ := Option.isSome_iff_exists.mp h
    exact List.mem_map.mpr ⟨(key, value), Entries.mem_of_get? hvalue, rfl⟩

/-- Each key stands once. -/
theorem nodup_keys (m : Keyed α) : m.keys.Nodup := by
  refine List.pairwise_map.mpr (m.ascending.imp ?_)
  intro a b hlt heq
  rw [heq] at hlt
  exact String.lt_irrefl _ hlt

theorem get?_erase (m : Keyed α) (key k : String) :
    (m.erase key).get? k = if k = key then none else m.get? k :=
  Entries.get?_erase key k m.entries

@[simp]
theorem get?_map {β : Type v} (f : α → β) (m : Keyed α) (key : String) :
    (m.map f).get? key = (m.get? key).map f :=
  Entries.get?_map f key m.entries

theorem get?_foldl_insert_of_notMem (entries : List (String × α)) (m : Keyed α) (key : String)
    (h : key ∉ entries.map (·.1)) :
    (entries.foldl (fun m e => m.insert e.1 e.2) m).get? key = m.get? key := by
  induction entries generalizing m with
  | nil => rfl
  | cons head rest ih =>
    simp only [List.map_cons, List.mem_cons, not_or] at h
    rw [List.foldl_cons, ih _ h.2, get?_insert, if_neg h.1]

theorem get?_ofList_of_notMem (entries : List (String × α)) (key : String)
    (h : key ∉ entries.map (·.1)) : (ofList entries).get? key = none :=
  get?_foldl_insert_of_notMem entries empty key h

/-- In a list with each key once every entry is found. -/
theorem get?_ofList_of_mem {entries : List (String × α)} (hkeys : (entries.map (·.1)).Nodup)
    {e : String × α} (he : e ∈ entries) : (ofList entries).get? e.1 = some e.2 := by
  obtain ⟨before, after, rfl⟩ := List.append_of_mem he
  rw [List.map_append, List.map_cons, List.nodup_append, List.nodup_cons] at hkeys
  have hafter : e.1 ∉ after.map (·.1) := hkeys.2.1.1
  rw [ofList, List.foldl_append, List.foldl_cons, get?_foldl_insert_of_notMem _ _ _ hafter,
    get?_insert_self]

theorem get?_foldl_insert (entries : List (String × α)) (h : Entries.Ascending entries)
    (m : Keyed α) (key : String) :
    (entries.foldl (fun m e => m.insert e.1 e.2) m).get? key
      = (Entries.get? key entries).or (m.get? key) := by
  induction entries generalizing m with
  | nil => simp [Entries.get?]
  | cons head rest ih =>
    obtain ⟨k, v⟩ := head
    have hrest := List.pairwise_cons.mp h
    rw [List.foldl_cons, ih hrest.2, get?_insert, Entries.get?]
    by_cases hk : key = k
    · subst hk
      rw [Entries.get?_eq_none_of_forall_ne
        fun e he heq => String.lt_irrefl _ (heq ▸ hrest.1 e he)]
      simp
    · simp [hk]

theorem get?_union (m n : Keyed α) (key : String) :
    (m.union n).get? key = (n.get? key).or (m.get? key) :=
  get?_foldl_insert n.entries n.ascending m key

/-- Maps that answer every look-up alike are equal. -/
theorem ext_get? {m n : Keyed α} (h : ∀ key, m.get? key = n.get? key) : m = n := by
  obtain ⟨xs, hx⟩ := m
  obtain ⟨ys, hy⟩ := n
  cases Entries.eq_of_get?_eq hx hy h
  rfl

theorem insert_insert (m : Keyed α) (key : String) (old new : α) :
    (m.insert key old).insert key new = m.insert key new := by
  refine ext_get? fun k => ?_
  rw [get?_insert, get?_insert, get?_insert]
  by_cases hk : k = key
  · rw [if_pos hk, if_pos hk]
  · rw [if_neg hk, if_neg hk, if_neg hk]

end Keyed

end Intake
