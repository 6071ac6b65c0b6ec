import Intake.Proofs.Decimal.Whole
import Intake.Proofs.Wire.Records

/-!
# Reading again what was read

A text may spell a value in many ways: with blanks, with the members in any order, with escapes, a
double as a whole number, a UUID with braces. What a format has read no longer knows of that: the
value is written in one way, and this way is read as the value again (`Wire.Stable`). For most
formats it holds because every value reads back. For doubles it needs that whole numbers are
finite as doubles, and for values that they nest no deeper than the document they are read from.

A format may also refuse what it has written, such as the `null` that stands for an infinite
double. It never takes it for another value (`Wire.Exact`).

Both are said of records by their fields (`Fields.readsBack_of_gather`, `Fields.eq_of_gather`).
-/

namespace Intake

open Intake.Json (Tree Draft Number)

variable {α : Type} {room : Nat}

/-! ## Results of several steps

What each step gave where all of them together gave a value. -/

section

variable {β ε : Type} {b : β}

theorem exists_of_map_eq_ok {r : Except ε α} {f : α → β} (h : r.map f = .ok b) :
    ∃ a, r = .ok a ∧ f a = b := by
  cases r with
  | error e => cases h
  | ok a => exact ⟨a, rfl, Except.ok.inj h⟩

theorem exists_of_bind_eq_ok {r : Except ε α} {f : α → Except ε β} (h : r >>= f = .ok b) :
    ∃ a, r = .ok a ∧ f a = .ok b := by
  cases r with
  | error e => cases h
  | ok a => exact ⟨a, rfl, h⟩

theorem eq_ok_of_mapError_eq_ok {r : Except ε α} {f : ε → β} {a : α}
    (h : r.mapError f = .ok a) : r = .ok a := by
  cases r with
  | error e => cases h
  | ok a' =>
    cases h
    rfl

theorem exists_of_elim_eq_ok {o : Option α} {e : ε} {f : α → Except ε β}
    (h : o.elim (.error e) f = .ok b) : ∃ a, o = some a ∧ f a = .ok b := by
  cases o with
  | none => cases h
  | some a => exact ⟨a, rfl, h⟩

end

namespace Wire

/-- Each value that is read reads back. -/
def Stable (w : Wire α) (room : Nat) : Prop :=
  ∀ d a, w.read room d = .ok a → w.ReadsBack room a

/-- Nothing but the value itself is read from the document that is written for it. -/
def Exact (w : Wire α) (room : Nat) : Prop :=
  ∀ a b, w.read room (.ofTree (w.write a)) = .ok b → b = a

variable {w : Wire α}

theorem stable_of_readsBack (h : ∀ a, w.ReadsBack room a) : w.Stable room := fun _ a _ => h a

theorem exact_of_readsBack (h : ∀ a, w.ReadsBack room a) : w.Exact room := fun a _ hb =>
  Except.ok.inj (hb.symm.trans (h a))

/-! ## Doubles -/

theorem isFinite_toFloat (n : Number) : n.toFloat.isFinite = true := by
  cases n with
  | int n hleast hbelow => exact Decimal.isFinite_ofInt hleast hbelow
  | float x hx => exact hx

theorem stable_float : float.Stable room := by
  intro d x hread
  cases d with
  | number n =>
    cases n with
    | none => cases hread
    | some n =>
      cases hread
      exact readsBack_float.mpr (isFinite_toFloat n)
  | text s => cases s <;> cases hread
  | _ => cases hread

theorem exact_float : float.Exact room := by
  intro x y hread
  by_cases hx : x.isFinite = true
  · exact Except.ok.inj (hread.symm.trans (readsBack_float.mpr hx))
  · have hnull : float.write x = .null := by
      show (Number.ofFloat? x).elim .null .number = Tree.null
      rw [Number.ofFloat?, dif_neg hx]
      rfl
    rw [hnull] at hread
    cases hread

/-! ## Values -/

theorem read_json (d : Draft) : json.read room d = (d.toTree? room).elim
    (Except.error DecodeError.malformed) fun t => .ok (Json.ofTree t) := rfl

theorem stable_json : json.Stable room := by
  intro d j hread
  rw [read_json] at hread
  obtain ⟨t, htree, hj⟩ := exists_of_elim_eq_ok hread
  cases hj
  exact readsBack_json.mpr
    (Nat.le_trans t.depth_normalize_le (Draft.depth_le_of_toTree? room d htree))

theorem exact_json : json.Exact room := by
  intro j k hread
  have hdraft : json.write j = j.tree := rfl
  rw [read_json, hdraft, Draft.toTree?_ofTree] at hread
  split at hread
  · cases hread
    exact Json.ofTree_tree j
  · cases hread

theorem read_object (ms : List (Option String × Draft)) (closed : Bool) :
    object.read (room + 1) (.object ms closed) = if closed then
      (Draft.membersToTree? room ms).elim (Except.error DecodeError.malformed)
        fun ts => .ok (objectOf ts)
    else .error .malformed := rfl

/-- The object of members that were read has room where they were read. -/
theorem membersDepth_objectOf_le {ms : List (Option String × Draft)} {ts : List (String × Tree)}
    (h : Draft.membersToTree? room ms = some ts) :
    Tree.membersDepth ((objectOf ts).map Json.tree).entries ≤ room := by
  rw [map_tree_objectOf]
  exact Nat.le_trans (Tree.membersDepth_normalizeMembers_le ts)
    (Draft.membersDepth_le_of_membersToTree? room ms h)

theorem stable_object : object.Stable room := by
  intro d o hread
  cases d with
  | object ms closed =>
    cases room with
    | zero => cases hread
    | succ room =>
      rw [read_object] at hread
      split at hread
      · obtain ⟨ts, htrees, ho⟩ := exists_of_elim_eq_ok hread
        cases ho
        exact readsBack_object.mpr (Nat.succ_le_succ (membersDepth_objectOf_le htrees))
      · cases hread
  | number n => cases n <;> cases hread
  | text s => cases s <;> cases hread
  | _ => cases hread

theorem exact_object : object.Exact room := by
  intro o p hread
  cases room with
  | zero => cases hread
  | succ room =>
    have hdraft : Draft.ofTree (object.write o)
        = .object (Draft.ofMembers (o.map Json.tree).entries) true := rfl
    rw [hdraft, read_object, if_pos rfl, Draft.membersToTree?_ofMembers] at hread
    split at hread
    · cases hread
      exact objectOf_map_tree o
    · cases hread

/-! ## Options -/

/-- What is read where a value may be missing. -/
theorem read_optional {d : Draft} {a : Option α} (h : w.optional.read room d = .ok a) :
    a = none ∨ ∃ b, a = some b ∧ w.read room d = .ok b := by
  have hsome (h : (w.read room d).map some = .ok a) :
      ∃ b, a = some b ∧ w.read room d = .ok b := by
    obtain ⟨b, hread, hb⟩ := exists_of_map_eq_ok h
    exact ⟨b, hb.symm, hread⟩
  cases d with
  | null =>
    cases h
    exact .inl rfl
  | _ => exact .inr (hsome h)

end Wire

/-! ## Records -/

namespace Fields

/-- A field whose values read back: those that are read for it, and the one that it has when it is
not there. -/
structure FieldStable (room : Nat) (f : Field α) : Prop where
  present : ∀ d a, f.wire.read room d = .ok a → FieldReadsBack room f a
  absent : ∀ a ∈ f.absent, FieldReadsBack room f a

/-- A field for whose values nothing else is read, also when it is not written. -/
structure FieldExact (room : Nat) (f : Field α) : Prop where
  written : ∀ a b, f.omits a = false → f.wire.read room (.ofTree (f.wire.write a)) = .ok b → b = a
  omitted : ∀ a, f.omits a = true → f.absent = some a

section

variable {name : String} {wire : Wire α}

theorem fieldStable_required (h : wire.Stable room) :
    FieldStable room (.required name wire) where
  present d a hread := h d a hread
  absent a ha := by cases ha

theorem fieldExact_required (h : wire.Exact room) : FieldExact room (.required name wire) where
  written a b _ := h a b
  omitted a ha := by cases ha

theorem fieldStable_defaulted {default : α} (h : wire.Stable room)
    (hdefault : wire.ReadsBack room default) :
    FieldStable room (.defaulted name wire default) where
  present d a hread := h d a hread
  absent a ha := by
    cases ha
    exact hdefault

theorem fieldExact_defaulted {default : α} (h : wire.Exact room) :
    FieldExact room (.defaulted name wire default) where
  written a b _ := h a b
  omitted a ha := by cases ha

theorem fieldStable_omittable (hnull : ∀ a, wire.write a ≠ .null) (h : wire.Stable room) :
    FieldStable room (.omittable name wire) where
  present d a hread := by
    refine (fieldReadsBack_omittable hnull).mpr fun b hb => ?_
    obtain rfl | ⟨c, rfl, hc⟩ := Wire.read_optional hread
    · cases hb
    · cases hb
      exact h d b hc
  absent a ha := by
    cases ha
    exact (fieldReadsBack_omittable hnull).mpr (by rintro b ⟨⟩)

theorem fieldExact_omittable (hnull : ∀ a, wire.write a ≠ .null) (h : wire.Exact room) :
    FieldExact room (.omittable name wire) where
  written a b hwritten hread := by
    cases a with
    | none => cases hwritten
    | some a =>
      have hsome : (wire.read room (.ofTree (wire.write a))).map some = .ok b :=
        (Wire.read_optional_write (hnull a)).symm.trans hread
      obtain ⟨c, hwire, rfl⟩ := exists_of_map_eq_ok hsome
      rw [h a c hwire]
  omitted a ha := by
    cases a with
    | none => rfl
    | some a => cases ha

end

/-- Each field of a record is stable. -/
def Stable (room : Nat) {α : Type} : Fields α → Prop
  | .last f => FieldStable room f
  | .cons f rest => FieldStable room f ∧ rest.Stable room

/-- Each field of a record is exact. -/
def Exact (room : Nat) {α : Type} : Fields α → Prop
  | .last f => FieldExact room f
  | .cons f rest => FieldExact room f ∧ rest.Exact room

theorem readsBack_of_gatherField {f : Field α} (hf : FieldStable room f)
    {ms : List (Option String × Draft)} {a : α} (h : gatherField room ms f = .ok a) :
    FieldReadsBack room f a := by
  unfold gatherField at h
  split at h
  · exact hf.present _ a h
  · obtain ⟨b, habsent, hb⟩ := exists_of_elim_eq_ok h
    cases hb
    exact hf.absent a habsent

theorem eq_of_gatherField {f : Field α} (hf : FieldExact room f) {ms : List (String × Tree)}
    {a b : α} (hms : Entries.get? f.name ms = Entries.get? f.name (writeField f a))
    (h : gatherField room (Draft.ofMembers ms) f = .ok b) : b = a := by
  rw [gatherField, member?_ofMembers, hms, get?_writeField] at h
  cases hwritten : f.omits a with
  | false =>
    rw [if_pos ⟨rfl, hwritten⟩] at h
    exact hf.written a b hwritten h
  | true =>
    rw [if_neg (by simp [hwritten]), hf.omitted a hwritten] at h
    exact (Except.ok.inj h).symm

/-- What `gather` gives, of its two parts. -/
theorem gather_cons_eq_ok {β : Type} {f : Field α} {rest : Fields β}
    {ms : List (Option String × Draft)} {a : α} {b : β}
    (h : gather room ms (.cons f rest) = .ok (a, b)) :
    gatherField room ms f = .ok a ∧ rest.gather room ms = .ok b := by
  obtain ⟨a', hfirst, h⟩ := exists_of_bind_eq_ok h
  obtain ⟨b', hrest, h⟩ := exists_of_bind_eq_ok h
  cases h
  exact ⟨hfirst, hrest⟩

/-- A record that was gathered from members reads back. -/
theorem readsBack_of_gather {fields : Fields α} (hfields : fields.Stable room)
    {ms : List (Option String × Draft)} {a : α} (h : fields.gather room ms = .ok a) :
    fields.ReadsBack room a := by
  induction fields with
  | last f => exact readsBack_of_gatherField hfields h
  | cons f rest ih =>
    obtain ⟨a, b⟩ := a
    obtain ⟨hfirst, hrest⟩ := gather_cons_eq_ok h
    exact ⟨readsBack_of_gatherField hfields.1 hfirst, ih hfields.2 hrest⟩

/-- What is gathered from the members that a record is written as is the record. -/
theorem eq_of_gather {fields : Fields α} (hfields : fields.Exact room)
    (hnames : fields.names.Nodup) {ms : List (String × Tree)} {a b : α}
    (hms : ∀ key ∈ fields.names, Entries.get? key ms = Entries.get? key (fields.write a))
    (h : fields.gather room (Draft.ofMembers ms) = .ok b) : b = a := by
  induction fields with
  | last f => exact eq_of_gatherField hfields (hms f.name (List.mem_singleton_self _)) h
  | cons f rest ih =>
    obtain ⟨a, a'⟩ := a
    obtain ⟨b, b'⟩ := b
    obtain ⟨hname, hrest⟩ := List.nodup_cons.mp hnames
    obtain ⟨hgather, hgather'⟩ := gather_cons_eq_ok h
    obtain ⟨hfield, hothers⟩ := get?_write_cons hname hms
    rw [eq_of_gatherField hfields.1 hfield hgather, ih hfields.2 hrest hothers hgather']

/-- The fields that are gathered when a record is read from the document that is written for one. -/
theorem gather_of_read_record {fields : Fields α} {name : String} {a b : α}
    (h : (fields.record name).read (room + 1) (.ofTree ((fields.record name).write a)) = .ok b) :
    fields.gather room (Draft.ofMembers (fields.write a)) = .ok b := by
  obtain ⟨-, -, hgather⟩ := exists_of_bind_eq_ok (r := fields.walk pass room true []
    (Draft.ofMembers (fields.write a))) h
  exact hgather

theorem exact_record {fields : Fields α} (hfields : fields.Exact room)
    (hnames : fields.names.Nodup) (name : String) : (fields.record name).Exact (room + 1) :=
  fun _ _ h => eq_of_gather hfields hnames (fun _ _ => rfl) (gather_of_read_record h)

/-- A record reads back if and only if its fields do. -/
theorem readsBack_record_iff {fields : Fields α} (hnames : fields.names.Nodup) {a : α}
    (name : String) : (fields.record name).ReadsBack (room + 1) a ↔ fields.ReadsBack room a :=
  ⟨fun h => (gather_eq_ok_iff hnames fun _ _ => rfl).mp (gather_of_read_record h),
    fun h => readsBack_record hnames h name⟩

end Fields

namespace Wire

variable {β : Type} {w : Wire α} {read : α → β} {write : β → α}

theorem exact_via (hread : ∀ b, read (write b) = b) (h : w.Exact room) :
    (w.via read write).Exact room := by
  intro b c hc
  obtain ⟨a, ha, rfl⟩ := exists_of_map_eq_ok hc
  rw [h (write b) a ha, hread]

/-- A value reads back if and only if the value that it stands for does, of which nothing else is
read. -/
theorem readsBack_via_iff (hread : ∀ b, read (write b) = b) (h : w.Exact room) {b : β} :
    (w.via read write).ReadsBack room b ↔ w.ReadsBack room (write b) := by
  refine ⟨fun hb => ?_, readsBack_via (hread b)⟩
  obtain ⟨a, ha, -⟩ := exists_of_map_eq_ok hb
  exact Eq.trans ha (congrArg Except.ok (h (write b) a ha))

end Wire

end Intake
