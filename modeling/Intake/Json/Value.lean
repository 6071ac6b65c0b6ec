import Intake.Keyed
import Intake.Json.Number

/-!
# JSON values

A `Tree` is a JSON document as it stands: the members of an object in their order, and a key twice
if it is there twice. A `Json` is a value: in every object of the tree the keys ascend and each
stands once, so that equal values are equal trees. `Json.ofTree` takes the value of a document, in
which the last member with a key counts.

A `Json` is taken apart by `view` and put together by the functions of the same names as the cases
of the view. An object is a `Keyed Json`.
-/

namespace Intake

namespace Json

/-- A JSON document: members in the order of the text. -/
inductive Tree where
  | null
  | bool (value : Bool)
  | number (value : Number)
  | text (value : String)
  | array (items : List Tree)
  | object (members : List (String × Tree))

instance : Inhabited Tree := ⟨.null⟩

namespace Tree

/-! ## Equality -/

mutual

/-- Equality of documents, numbers being compared as numbers. -/
protected def beq : Tree → Tree → Bool
  | .null, .null => true
  | .bool a, .bool b => a == b
  | .number a, .number b => a == b
  | .text a, .text b => a == b
  | .array xs, .array ys => itemsBeq xs ys
  | .object xs, .object ys => membersBeq xs ys
  | _, _ => false

/-- Equality of lists of items. -/
def itemsBeq : List Tree → List Tree → Bool
  | [], [] => true
  | x :: xs, y :: ys => x.beq y && itemsBeq xs ys
  | _, _ => false

/-- Equality of lists of members. -/
def membersBeq : List (String × Tree) → List (String × Tree) → Bool
  | [], [] => true
  | (k, x) :: xs, (l, y) :: ys => k == l && x.beq y && membersBeq xs ys
  | _, _ => false

end

instance : BEq Tree := ⟨Tree.beq⟩

/-! ## Depth -/

mutual

/-- How many arrays and objects stand inside each other. -/
def depth : Tree → Nat
  | .array xs => itemsDepth xs + 1
  | .object ms => membersDepth ms + 1
  | _ => 0

/-- The greatest depth among items. -/
def itemsDepth : List Tree → Nat
  | [] => 0
  | x :: xs => max x.depth (itemsDepth xs)

/-- The greatest depth among the values of members. -/
def membersDepth : List (String × Tree) → Nat
  | [] => 0
  | (_, x) :: ms => max x.depth (membersDepth ms)

end

/-! ## Normal form -/

mutual

/-- In every object the keys ascend. -/
def Sorted : Tree → Prop
  | .array xs => ItemsSorted xs
  | .object ms => Entries.Ascending ms ∧ MembersSorted ms
  | _ => True

/-- Every item is sorted. -/
def ItemsSorted : List Tree → Prop
  | [] => True
  | x :: xs => x.Sorted ∧ ItemsSorted xs

/-- The value of every member is sorted. -/
def MembersSorted : List (String × Tree) → Prop
  | [] => True
  | (_, x) :: ms => x.Sorted ∧ MembersSorted ms

end

theorem itemsSorted_iff {xs : List Tree} : ItemsSorted xs ↔ ∀ x ∈ xs, x.Sorted := by
  induction xs with
  | nil => simp [ItemsSorted]
  | cons x xs ih => simp [ItemsSorted, ih]

theorem membersSorted_iff {ms : List (String × Tree)} :
    MembersSorted ms ↔ ∀ m ∈ ms, m.2.Sorted := by
  induction ms with
  | nil => simp [MembersSorted]
  | cons m ms ih =>
    obtain ⟨k, x⟩ := m
    simp [MembersSorted, ih]

mutual

/-- The document with the members of each object in ascending order of their keys; of several
members with one key the last one is kept. -/
def normalize : Tree → Tree
  | .array xs => .array (normalizeItems xs)
  | .object ms => .object (normalizeMembers ms)
  | t => t

/-- Every item in normal form. -/
def normalizeItems : List Tree → List Tree
  | [] => []
  | x :: xs => x.normalize :: normalizeItems xs

/-- The members of one object in normal form. -/
def normalizeMembers : List (String × Tree) → List (String × Tree)
  | [] => []
  | (k, x) :: ms =>
    let rest := normalizeMembers ms
    if (Entries.get? k rest).isSome then rest else Entries.insert k x.normalize rest

end

theorem MembersSorted.insert {ms : List (String × Tree)} (h : MembersSorted ms) {x : Tree}
    (hx : x.Sorted) (k : String) : MembersSorted (Entries.insert k x ms) := by
  rw [membersSorted_iff] at h ⊢
  intro m hm
  rcases Entries.mem_insert hm with rfl | hm
  · exact hx
  · exact h m hm

mutual

theorem normalize_sorted : (t : Tree) → t.normalize.Sorted
  | .null => trivial
  | .bool _ => trivial
  | .number _ => trivial
  | .text _ => trivial
  | .array xs => normalizeItems_sorted xs
  | .object ms => normalizeMembers_sorted ms

theorem normalizeItems_sorted : (xs : List Tree) → ItemsSorted (normalizeItems xs)
  | [] => trivial
  | x :: xs => ⟨normalize_sorted x, normalizeItems_sorted xs⟩

theorem normalizeMembers_sorted : (ms : List (String × Tree)) →
    Entries.Ascending (normalizeMembers ms) ∧ MembersSorted (normalizeMembers ms)
  | [] => ⟨.nil, trivial⟩
  | (k, x) :: ms => by
    have ih := normalizeMembers_sorted ms
    have hx := normalize_sorted x
    simp only [normalizeMembers]
    split
    · exact ih
    · exact ⟨ih.1.insert k _, ih.2.insert hx k⟩

end

end Tree

end Json

/-- A JSON value. -/
structure Json where
  tree : Json.Tree
  sorted : tree.Sorted

namespace Json

/-- Equality of values, numbers being compared as numbers. -/
instance : BEq Json := ⟨fun a b => a.tree == b.tree⟩

/-- The value of a document. -/
def ofTree (t : Tree) : Json := ⟨t.normalize, t.normalize_sorted⟩

/-! ## Putting values together -/

/-- The value without content. -/
def null : Json := ⟨.null, trivial⟩

/-- A truth value. -/
def bool (b : Bool) : Json := ⟨.bool b, trivial⟩

/-- A number. -/
def number (n : Number) : Json := ⟨.number n, trivial⟩

/-- A string. -/
def text (s : String) : Json := ⟨.text s, trivial⟩

/-- An array of values. -/
def array (xs : List Json) : Json :=
  ⟨.array (xs.map Json.tree), Tree.itemsSorted_iff.mpr fun t h => by
    obtain ⟨x, _, rfl⟩ := List.mem_map.mp h
    exact x.sorted⟩

/-- An object with these members. -/
def object (o : Keyed Json) : Json :=
  ⟨.object (o.map Json.tree).entries, (o.map Json.tree).ascending,
    Tree.membersSorted_iff.mpr fun m h => by
      obtain ⟨e, _, rfl⟩ := List.mem_map.mp h
      exact e.2.sorted⟩

/-- The double if it is finite, and `null` otherwise. -/
def ofFloat (x : Float) : Json := (Number.ofFloat? x).elim null number

/-- A whole number without sign. -/
def ofUInt64 (n : UInt64) : Json := number (.ofUInt64 n)

/-- A whole number with sign. -/
def ofInt64 (n : Int64) : Json := number (.ofInt64 n)

/-- A count; counts stay far below the largest whole number there is. -/
def ofNat (n : Nat) : Json := ofUInt64 (UInt64.ofNat n)

/-- The value, or `null` where there is none. -/
def ofOption (f : α → Json) : Option α → Json
  | none => null
  | some a => f a

/-- An object from its members. -/
def record (members : List (String × Json)) : Json := object (Keyed.ofList members)

instance : Inhabited Json := ⟨null⟩

/-! ## Taking values apart -/

/-- The items of an array that is a value. -/
def itemsOf : (xs : List Tree) → Tree.ItemsSorted xs → List Json
  | [], _ => []
  | x :: xs, h => ⟨x, h.1⟩ :: itemsOf xs h.2

/-- The members of an object that is a value. -/
def membersOf : (ms : List (String × Tree)) → Tree.MembersSorted ms → List (String × Json)
  | [], _ => []
  | (k, x) :: ms, h => (k, ⟨x, h.1⟩) :: membersOf ms h.2

theorem map_fst_membersOf (ms : List (String × Tree)) (h : Tree.MembersSorted ms) :
    (membersOf ms h).map (·.1) = ms.map (·.1) := by
  induction ms with
  | nil => rfl
  | cons m ms ih =>
    obtain ⟨k, x⟩ := m
    simp [membersOf, ih]

/-- The members of an object that is a value, by their keys. -/
def keyedOf (ms : List (String × Tree)) (h : Entries.Ascending ms ∧ Tree.MembersSorted ms) :
    Keyed Json where
  entries := membersOf ms h.2
  ascending := by
    have h' := List.pairwise_map (f := Prod.fst) (R := (· < ·)) |>.mpr h.1
    rw [← map_fst_membersOf ms h.2] at h'
    exact List.pairwise_map.mp h'

/-- A value taken apart. -/
inductive View where
  | null
  | bool (value : Bool)
  | number (value : Number)
  | text (value : String)
  | array (items : List Json)
  | object (members : Keyed Json)

/-- The case of a value and its parts. -/
def view : Json → View
  | ⟨.null, _⟩ => .null
  | ⟨.bool b, _⟩ => .bool b
  | ⟨.number n, _⟩ => .number n
  | ⟨.text s, _⟩ => .text s
  | ⟨.array xs, h⟩ => .array (itemsOf xs h)
  | ⟨.object ms, h⟩ => .object (keyedOf ms h)

/-- Whether the value is `null`. -/
def isNull (j : Json) : Bool :=
  match j.tree with
  | .null => true
  | _ => false

/-- The text of a string value. -/
def text? (j : Json) : Option String :=
  match j.tree with
  | .text s => some s
  | _ => none

/-- The truth value. -/
def bool? (j : Json) : Option Bool :=
  match j.tree with
  | .bool b => some b
  | _ => none

/-- The number. -/
def number? (j : Json) : Option Number :=
  match j.tree with
  | .number n => some n
  | _ => none

/-- A whole number without sign. -/
def uint64? (j : Json) : Option UInt64 := j.number? >>= Number.toUInt64?

/-- A whole number with sign. -/
def int64? (j : Json) : Option Int64 := j.number? >>= Number.toInt64?

/-- Any number, as a double. -/
def float? (j : Json) : Option Float := j.number?.map Number.toFloat

/-- The items of an array. -/
def items? (j : Json) : Option (List Json) :=
  match j.view with
  | .array xs => some xs
  | _ => none

/-- The members of an object. -/
def members? (j : Json) : Option (Keyed Json) :=
  match j.view with
  | .object o => some o
  | _ => none

/-- The value under a key of an object. -/
def get? (j : Json) (key : String) : Option Json := j.members? >>= (·.get? key)

end Json

end Intake
