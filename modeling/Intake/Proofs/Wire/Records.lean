import Intake.Id
import Intake.Proofs.Instant.Text
import Intake.Proofs.Json.Depth
import Intake.Proofs.Json.Numerals
import Intake.Proofs.Json.Reading
import Intake.Proofs.Text.Uuid
import Intake.Wire.Record

/-!
# Reading back what was written

A format reads back a value if it reads the value from the document that it writes for it
(`Wire.ReadsBack`). Texts, identifiers and instants always read back; a double does if it is finite,
and a JSON value if it does not nest deeper than there is room.

A record reads back if its fields do, and have different names (`Fields.readsBack_record`).
-/

namespace Intake

open Intake.Json (Tree Draft Number)

-- one meaning of powers, whatever is imported beside
attribute [local instance (high)] instPowNat

namespace Wire

variable {α β : Type} {room : Nat}

/-- A value is read from the document that is written for it, if so many arrays and objects may
open. -/
def ReadsBack (w : Wire α) (room : Nat) (a : α) : Prop :=
  w.read room (.ofTree (w.write a)) = .ok a

/-- A value is read from its octets as it is read from its document. -/
theorem ofBytes_toBytes (w : Wire α) (a : α) :
    w.ofBytes (w.toBytes a) = w.read Json.maxDepth (.ofTree (w.write a)) :=
  ofString_encode w (Tree.readsBack _)

/-! ## Texts and numbers -/

theorem readsBack_text (s : String) : text.ReadsBack room s := rfl

/-- A double reads back if and only if it is finite. -/
theorem readsBack_float {x : Float} : float.ReadsBack room x ↔ x.isFinite = true := by
  constructor
  · intro h
    by_contra hx
    have hnull : float.write x = .null := by
      show (Number.ofFloat? x).elim .null .number = Tree.null
      rw [Number.ofFloat?, dif_neg hx]
      rfl
    rw [ReadsBack, hnull] at h
    cases h
  · intro hx
    have hnumber : float.write x = .number (.float x hx) := by
      show (Number.ofFloat? x).elim .null .number = Tree.number (.float x hx)
      rw [Number.ofFloat?, dif_pos hx]
      rfl
    rw [ReadsBack, hnumber]
    rfl

theorem readsBack_int64 (n : Int64) : int64.ReadsBack room n := by
  show (if n.toInt < 2 ^ (63 : Nat) then Except.ok (Int64.ofInt n.toInt)
    else .error (DecodeError.outOfRange n.toInt .int64)) = .ok n
  rw [if_pos n.toInt_lt, Int64.ofInt_toInt]

theorem readsBack_ofText {wanted : Wanted} {write : α → String}
    {read : String → Except DecodeError α} {a : α} (h : read (write a) = .ok a) :
    (ofText wanted write read).ReadsBack room a := h

theorem readsBack_uuid (u : Uuid) : uuid.ReadsBack room u := by
  refine readsBack_ofText ?_
  rw [Uuid.parse_text]
  rfl

theorem readsBack_instant (t : Instant) : instant.ReadsBack room t := by
  refine readsBack_ofText ?_
  rw [Instant.parse?_text]
  rfl

/-! ## Values and options -/

/-- A value reads back if and only if there is room for it. -/
theorem readsBack_json {j : Json} : json.ReadsBack room j ↔ j.tree.depth ≤ room := by
  show ((Draft.ofTree j.tree).toTree? room).elim (.error DecodeError.malformed)
    (fun t => .ok (Json.ofTree t)) = Except.ok j ↔ _
  rw [Draft.toTree?_ofTree]
  by_cases h : j.tree.depth ≤ room
  · simp [h, Json.ofTree_tree]
  · simp [h]

/-- An object of values reads back if and only if there is room for it. -/
theorem readsBack_object {o : Keyed Json} :
    object.ReadsBack room o ↔ (Json.object o).tree.depth ≤ room := by
  show object.read room (.object (Draft.ofMembers (o.map Json.tree).entries) true) = .ok o
    ↔ Tree.membersDepth (o.map Json.tree).entries + 1 ≤ room
  cases room with
  | zero =>
    constructor
    · intro h
      cases h
    · intro h
      omega
  | succ room =>
    show (Draft.membersToTree? room (Draft.ofMembers (o.map Json.tree).entries)).elim
      (.error DecodeError.malformed) (fun ts => .ok (objectOf ts)) = Except.ok o ↔ _
    rw [Draft.membersToTree?_ofMembers, Nat.add_le_add_iff_right]
    by_cases h : Tree.membersDepth (o.map Json.tree).entries ≤ room
    · simp [h, objectOf_map_tree]
    · simp [h]

theorem read_optional_write {w : Wire α} {a : α} (hnull : w.write a ≠ .null) :
    w.optional.read room (.ofTree (w.write a))
      = (w.read room (.ofTree (w.write a))).map some := by
  cases h : w.write a with
  | null => exact absurd h hnull
  | _ => rfl

/-- A value that may be missing reads back as it does otherwise, unless it is written as `null`. -/
theorem readsBack_some {w : Wire α} {a : α} (hnull : w.write a ≠ .null) :
    w.optional.ReadsBack room (some a) ↔ w.ReadsBack room a := by
  show w.optional.read room (.ofTree (w.write a)) = .ok (some a) ↔ _
  rw [read_optional_write hnull, ReadsBack]
  cases w.read room (.ofTree (w.write a)) with
  | error e => exact ⟨by rintro ⟨⟩, by rintro ⟨⟩⟩
  | ok b =>
    show Except.ok (some b) = Except.ok (some a) ↔ _
    simp

theorem readsBack_via {w : Wire α} {read : α → β} {write : β → α} {b : β}
    (hread : read (write b) = b) (h : w.ReadsBack room (write b)) :
    (w.via read write).ReadsBack room b := by
  show (w.read room (.ofTree (w.write (write b)))).map read = .ok b
  rw [show w.read room (.ofTree (w.write (write b))) = .ok (write b) from h]
  exact congrArg Except.ok hread

end Wire

theorem JobId.readsBack_wire {room : Nat} (id : JobId) : JobId.wire.ReadsBack room id :=
  Wire.readsBack_via rfl (Wire.readsBack_uuid id.uuid)

theorem TaskId.readsBack_wire {room : Nat} (id : TaskId) : TaskId.wire.ReadsBack room id :=
  Wire.readsBack_via rfl (Wire.readsBack_text id.text)

/-! ## Members -/

namespace Entries

theorem get?_append {α : Type} (key : String) (xs ys : List (String × α)) :
    get? key (xs ++ ys) = (get? key xs).or (get? key ys) := by
  induction xs with
  | nil => rfl
  | cons x xs ih =>
    obtain ⟨k, v⟩ := x
    rw [List.cons_append, get?, get?]
    split
    · rfl
    · exact ih

end Entries

namespace Fields

variable {room : Nat}

theorem member?_ofMembers (key : String) (ms : List (String × Tree)) :
    member? key (Draft.ofMembers ms) = (Entries.get? key ms).map Draft.ofTree := by
  induction ms with
  | nil => rfl
  | cons m ms ih =>
    obtain ⟨k, x⟩ := m
    rw [Draft.ofMembers, member?, Entries.get?]
    by_cases hk : key = k
    · rw [if_pos hk, if_pos (by rw [hk])]
      rfl
    · rw [if_neg hk, if_neg (fun h => hk (Option.some.inj h).symm), ih]

theorem mem_names_of_mem_write {fields : Fields α} {a : α} {m : String × Tree}
    (h : m ∈ fields.write a) : m.1 ∈ fields.names := by
  have hfield : ∀ {γ : Type} {f : Field γ} {c : γ}, m ∈ writeField f c → m.1 = f.name := by
    intro γ f c hm
    unfold writeField at hm
    split at hm
    · cases hm
    · rw [List.mem_singleton.mp hm]
  induction fields with
  | last f => exact List.mem_singleton.mpr (hfield h)
  | cons f rest ih =>
    obtain ⟨a, b⟩ := a
    rcases List.mem_append.mp h with h | h
    · rw [names, hfield h]
      exact List.mem_cons_self ..
    · exact List.mem_cons_of_mem _ (ih h)

theorem get?_writeField (f : Field α) (a : α) (key : String) :
    Entries.get? key (writeField f a)
      = if key = f.name ∧ f.omits a = false then some (f.wire.write a) else none := by
  unfold writeField
  cases f.omits a <;> simp [Entries.get?]

theorem get?_write_of_notMem {fields : Fields α} {key : String} (h : key ∉ fields.names) (a : α) :
    Entries.get? key (fields.write a) = none :=
  Entries.get?_eq_none_of_forall_ne fun _ hm heq => h (heq ▸ mem_names_of_mem_write hm)

/-- Each name stands once among the members that are written for a record. -/
theorem nodup_write {fields : Fields α} (hnames : fields.names.Nodup) (a : α) :
    ((fields.write a).map (·.1)).Nodup := by
  have hsublist : ∀ {γ : Type} (f : Field γ) (c : γ),
      ((writeField f c).map (·.1)).Sublist [f.name] := by
    intro γ f c
    unfold writeField
    split
    · exact List.nil_sublist _
    · exact List.Sublist.refl _
  refine hnames.sublist ?_
  clear hnames
  induction fields with
  | last f => exact hsublist f a
  | cons f rest ih =>
    obtain ⟨a, b⟩ := a
    rw [write, List.map_append]
    exact (hsublist f a).append (ih b)

/-! ## Records -/

/-- A field reads back: it is not written at this value and stands for the value when it is not
there, or its format reads the value back. -/
def FieldReadsBack (room : Nat) (f : Field α) (a : α) : Prop :=
  if f.omits a then f.absent = some a else f.wire.ReadsBack room a

variable {α : Type} {name : String} {wire : Wire α}

theorem fieldReadsBack_required {a : α} :
    FieldReadsBack room (.required name wire) a ↔ wire.ReadsBack room a := Iff.rfl

theorem fieldReadsBack_defaulted {default a : α} :
    FieldReadsBack room (.defaulted name wire default) a ↔ wire.ReadsBack room a := Iff.rfl

theorem fieldReadsBack_omittable (hnull : ∀ a, wire.write a ≠ .null) {a : Option α} :
    FieldReadsBack room (.omittable name wire) a ↔ ∀ b ∈ a, wire.ReadsBack room b := by
  cases a with
  | none => exact ⟨fun _ => by rintro b ⟨⟩, fun _ => rfl⟩
  | some a =>
    simp only [Option.mem_some_iff, forall_eq']
    exact Wire.readsBack_some (hnull a)

/-- Each field of a record reads back. -/
def ReadsBack (room : Nat) {α : Type} : Fields α → α → Prop
  | .last f, a => FieldReadsBack room f a
  | .cons f rest, (a, b) => FieldReadsBack room f a ∧ rest.ReadsBack room b

theorem gatherField_eq_ok_iff {f : Field α} {a : α} {ms : List (String × Tree)}
    (hms : Entries.get? f.name ms = Entries.get? f.name (writeField f a)) :
    gatherField room (Draft.ofMembers ms) f = .ok a ↔ FieldReadsBack room f a := by
  rw [gatherField, member?_ofMembers, hms, get?_writeField, FieldReadsBack]
  cases hwritten : f.omits a with
  | false =>
    simp only [and_self, if_true, Option.map_some, Bool.false_eq_true, if_false]
    rfl
  | true =>
    simp only [Bool.true_eq_false, and_false, if_false, Option.map_none, if_true]
    cases f.absent with
    | none => simp
    | some b => simp

/-- Members in which the fields of a record are found as they are written: its first field and the
others. -/
theorem get?_write_cons {β : Type} {f : Field α} {rest : Fields β} (hname : f.name ∉ rest.names)
    {ms : List (String × Tree)} {a : α} {b : β}
    (hms : ∀ key ∈ (cons f rest).names,
      Entries.get? key ms = Entries.get? key ((cons f rest).write (a, b))) :
    Entries.get? f.name ms = Entries.get? f.name (writeField f a)
      ∧ ∀ key ∈ rest.names, Entries.get? key ms = Entries.get? key (rest.write b) := by
  constructor
  · rw [hms f.name (List.mem_cons_self ..), write, Entries.get?_append,
      get?_write_of_notMem hname, Option.or_none]
  · intro key hkey
    have hne : key ≠ f.name := fun heq => hname (heq ▸ hkey)
    rw [hms key (List.mem_cons_of_mem _ hkey), write, Entries.get?_append, get?_writeField,
      if_neg (fun h => hne h.1), Option.none_or]

/-- The record that is gathered from members is the one for which they stand, if and only if its
fields read back. -/
theorem gather_eq_ok_iff {fields : Fields α} (hnames : fields.names.Nodup) {a : α}
    {ms : List (String × Tree)}
    (hms : ∀ key ∈ fields.names, Entries.get? key ms = Entries.get? key (fields.write a)) :
    fields.gather room (Draft.ofMembers ms) = .ok a ↔ fields.ReadsBack room a := by
  induction fields with
  | last f => exact gatherField_eq_ok_iff (hms f.name (List.mem_singleton_self _))
  | cons f rest ih =>
    obtain ⟨a, b⟩ := a
    obtain ⟨hname, hrest⟩ := List.nodup_cons.mp hnames
    obtain ⟨hfield, hothers⟩ := get?_write_cons hname hms
    rw [ReadsBack, ← gatherField_eq_ok_iff hfield, ← ih hrest hothers, gather]
    cases gatherField room (Draft.ofMembers ms) f with
    | error e => simp [bind, Except.bind]
    | ok c =>
      cases rest.gather room (Draft.ofMembers ms) with
      | error e => simp [bind, Except.bind]
      | ok d => simp [bind, Except.bind, pure, Except.pure]

/-- No fault is met in the members that are written for a record whose fields read back. -/
theorem check_of_mem_write {fields : Fields α} (hnames : fields.names.Nodup) {a : α}
    (h : fields.ReadsBack room a) {m : String × Tree} (hm : m ∈ fields.write a) :
    fields.check room m.1 (.ofTree m.2) = .ok () := by
  have hfield : ∀ {γ : Type} {f : Field γ} {c : γ}, FieldReadsBack room f c →
      m ∈ writeField f c → m.1 = f.name ∧ f.wire.read room (.ofTree m.2) = .ok c := by
    intro γ f c hc hm
    unfold writeField at hm
    unfold FieldReadsBack at hc
    split at hm
    · cases hm
    · rename_i hwritten
      rw [if_neg hwritten] at hc
      rw [List.mem_singleton.mp hm]
      exact ⟨rfl, hc⟩
  induction fields with
  | last f =>
    obtain ⟨hname, hread⟩ := hfield h hm
    rw [check, if_pos hname.symm, hread]
    rfl
  | cons f rest ih =>
    obtain ⟨a, b⟩ := a
    obtain ⟨hname, hrest⟩ := List.nodup_cons.mp hnames
    rw [check]
    rcases List.mem_append.mp hm with hm | hm
    · obtain ⟨hname, hread⟩ := hfield h.1 hm
      rw [if_pos hname.symm, hread]
      rfl
    · have hne : f.name ≠ m.1 := fun heq => hname (heq ▸ mem_names_of_mem_write hm)
      rw [if_neg hne]
      exact ih hrest h.2 hm

/-- Members without a fault, among which no field stands twice, are gone through to the end. -/
theorem walk_ofMembers {fields : Fields α} {other : Draft → Except DecodeError Unit}
    {ms : List (String × Tree)} {seen : List String}
    (hfields : ∀ m ∈ ms, m.1 ∈ fields.names → fields.check room m.1 (.ofTree m.2) = .ok ())
    (hothers : ∀ m ∈ ms, m.1 ∉ fields.names → other (.ofTree m.2) = .ok ())
    (hseen : ∀ m ∈ ms, m.1 ∉ seen) (honce : (ms.map (·.1)).Nodup) :
    fields.walk other room true seen (Draft.ofMembers ms) = .ok () := by
  induction ms generalizing seen with
  | nil => rfl
  | cons m ms ih =>
    obtain ⟨k, x⟩ := m
    rw [List.map_cons, List.nodup_cons] at honce
    have hrest := fun {more} (hmore : ∀ m ∈ ms, m.1 ∉ more) =>
      ih (fun m hm => hfields m (List.mem_cons_of_mem _ hm))
        (fun m hm => hothers m (List.mem_cons_of_mem _ hm)) hmore honce.2
    rw [Draft.ofMembers, walk]
    split
    · rename_i hname
      rw [if_neg (hseen (k, x) (List.mem_cons_self ..)),
        hfields (k, x) (List.mem_cons_self ..) hname]
      refine hrest fun m hm hmem => ?_
      rcases List.mem_cons.mp hmem with heq | hmem
      · exact honce.1 (List.mem_map.mpr ⟨m, hm, heq⟩)
      · exact hseen m (List.mem_cons_of_mem _ hm) hmem
    · rename_i hname
      rw [hothers (k, x) (List.mem_cons_self ..) hname]
      exact hrest fun m hm => hseen m (List.mem_cons_of_mem _ hm)

/-- A record reads back if its fields do. -/
theorem readsBack_record {fields : Fields α} (hnames : fields.names.Nodup) {a : α}
    (h : fields.ReadsBack room a) (name : String) :
    (fields.record name).ReadsBack (room + 1) a := by
  have hwalk : fields.walk pass room true [] (Draft.ofMembers (fields.write a)) = .ok () :=
    walk_ofMembers (fun m hm _ => check_of_mem_write hnames h hm)
      (fun m hm hno => absurd (mem_names_of_mem_write hm) hno) (fun _ _ => List.not_mem_nil)
      (nodup_write hnames a)
  have hgather := (gather_eq_ok_iff hnames fun _ _ => rfl).mpr h
  show (do
    fields.walk pass room true [] (Draft.ofMembers (fields.write a))
    fields.gather room (Draft.ofMembers (fields.write a))) = Except.ok a
  rw [hwalk]
  exact hgather

end Fields

end Intake
