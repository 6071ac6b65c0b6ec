import Intake.Proofs.Wire.Stable

/-!
# Formats that settle a value

A record may also be read from an array, in which the last fields may be missing. A field that may
be missing there may be missing in an object as well, and it has the same value in both cases
(`Fields.ShortsAbsent`). So a record that was read in one of the two ways is read again from the
object that is written for it (`Fields.stable_record`).

A value that may be missing is told from none unless it is itself written as `null`
(`Wire.readsBack_optional_iff`). How deep a record nests is found field by field
(`Json.Tree.membersDepth_append`).

A format settles its values (`Wire.Settles`) if each of them is read from its own text, unless that
nests too deep, and if whatever was read from any text is read again from its own.
-/

namespace Intake

open Intake.Json (Tree Draft)

variable {α : Type} {room : Nat}

namespace Wire

theorem refuse_ne_ok {wanted : Wanted} {d : Draft} {a : α} : refuse wanted d ≠ .ok a := by
  intro h
  obtain ⟨found, -, h⟩ := exists_of_bind_eq_ok h
  cases h

/-! ## Values that may be missing -/

variable {w : Wire α}

theorem readsBack_none : w.optional.ReadsBack room none := rfl

/-- A value that may be missing reads back if and only if, where there is one, it is not written as
`null` and reads back. -/
theorem readsBack_optional_iff {a : Option α} :
    w.optional.ReadsBack room a ↔ ∀ b ∈ a, w.write b ≠ .null ∧ w.ReadsBack room b := by
  cases a with
  | none => exact ⟨fun _ => by rintro b ⟨⟩, fun _ => readsBack_none⟩
  | some a =>
    simp only [Option.mem_some_iff, forall_eq']
    by_cases hnull : w.write a = .null
    · refine ⟨fun h => ?_, fun h => absurd hnull h.1⟩
      replace h : w.optional.read room (.ofTree (w.write a)) = .ok (some a) := h
      rw [hnull] at h
      cases h
    · exact (readsBack_some hnull).trans (and_iff_right hnull).symm

end Wire

theorem Fields.fieldReadsBack_optional {name : String} {wire : Wire α} {a : Option α} :
    FieldReadsBack room (.optional name wire) a
      ↔ ∀ b ∈ a, wire.write b ≠ .null ∧ wire.ReadsBack room b :=
  Wire.readsBack_optional_iff

/-! ## How deep records nest -/

theorem Json.Tree.membersDepth_append (ms ns : List (String × Tree)) :
    membersDepth (ms ++ ns) = max (membersDepth ms) (membersDepth ns) := by
  induction ms with
  | nil => exact (Nat.zero_max _).symm
  | cons m ms ih => rw [List.cons_append, membersDepth, membersDepth, ih, Nat.max_assoc]

namespace Fields

variable {name : String} {wire : Wire α}

theorem membersDepth_required (a : α) :
    Tree.membersDepth (writeField (.required name wire) a) = (wire.write a).depth :=
  Nat.max_zero _

theorem membersDepth_optional (a : Option α) :
    Tree.membersDepth (writeField (.optional name wire) a) = (wire.optional.write a).depth :=
  Nat.max_zero _

theorem membersDepth_defaulted {default : α} (a : α) :
    Tree.membersDepth (writeField (.defaulted name wire default) a) = (wire.write a).depth :=
  Nat.max_zero _

/-- A field that may be left out adds nothing to the depth of a record if its values do not
nest. -/
theorem membersDepth_omittable (h : ∀ a, (wire.write a).depth = 0) (a : Option α) :
    Tree.membersDepth (writeField (.omittable name wire) a) = 0 := by
  cases a with
  | none => rfl
  | some a => exact (Nat.max_zero _).trans (h a)

end Fields

/-! ## Records from arrays -/

namespace Fields

/-- A field that may be missing at the end of an array stands for a value that it also has where it
is missing in an object. -/
def ShortsAbsent {α : Type} : Fields α → Prop
  | .last f => ∀ a ∈ f.short, a ∈ f.absent
  | .cons f rest => (∀ a ∈ f.short, a ∈ f.absent) ∧ rest.ShortsAbsent

variable {record : String} {size given : Nat} {closed : Bool}

theorem readsBack_of_takeField {f : Field α} (hf : FieldStable room f)
    (hshort : ∀ a ∈ f.short, a ∈ f.absent) {items rest : List Draft} {a : α}
    (h : takeField record size given room closed f items = .ok (a, rest)) :
    FieldReadsBack room f a := by
  cases items with
  | nil =>
    rw [takeField] at h
    split at h
    · obtain ⟨b, hb, h⟩ := exists_of_elim_eq_ok h
      cases h
      exact hf.absent _ (hshort _ hb)
    · cases h
  | cons d items =>
    obtain ⟨b, hread, h⟩ := exists_of_map_eq_ok h
    cases h
    exact hf.present d _ hread

/-- A record that was read from an array reads back. -/
theorem readsBack_of_takeAll {fields : Fields α} (hfields : fields.Stable room)
    (hshorts : fields.ShortsAbsent) {items : List Draft} {a : α}
    (h : fields.takeAll record size given room closed items = .ok a) : fields.ReadsBack room a := by
  induction fields generalizing given items with
  | last f =>
    obtain ⟨⟨b, rest⟩, hfirst, h⟩ := exists_of_bind_eq_ok h
    dsimp only at h
    split at h
    · cases h
      exact readsBack_of_takeField hfields hshorts hfirst
    · cases h
  | cons f rest ih =>
    obtain ⟨⟨b, items⟩, hfirst, h⟩ := exists_of_bind_eq_ok h
    obtain ⟨c, hrest, h⟩ := exists_of_bind_eq_ok h
    cases h
    exact ⟨readsBack_of_takeField hfields.1 hshorts.1 hfirst, ih hfields.2 hshorts.2 hrest⟩

/-- A record that was read reads back, whether it stood there as an object or as an array. -/
theorem stable_record {fields : Fields α} (hfields : fields.Stable room)
    (hshorts : fields.ShortsAbsent) (hnames : fields.names.Nodup) (name : String) :
    (fields.record name).Stable (room + 1) := by
  intro d a h
  refine readsBack_record hnames ?_ name
  cases d with
  | object members closed =>
    obtain ⟨-, -, hgather⟩ := exists_of_bind_eq_ok (r := fields.walk pass room closed [] members) h
    exact readsBack_of_gather hfields hgather
  | array items closed => exact readsBack_of_takeAll hfields hshorts h
  | _ => exact absurd h Wire.refuse_ne_ok

end Fields

/-! ## Values that stand for others -/

namespace Wire

variable {β : Type} {w : Wire α} {read : α → β} {write : β → α}

theorem stable_via (hwrite : ∀ a, write (read a) = a) (h : w.Stable room) :
    (w.via read write).Stable room := by
  intro d b hb
  obtain ⟨a, ha, rfl⟩ := exists_of_map_eq_ok hb
  have hreads : w.ReadsBack room (write (read a)) := by
    rw [hwrite]
    exact h d a ha
  exact readsBack_via (by rw [hwrite]) hreads

/-- Where values stand for those of another type one by one, they read back as those do. -/
theorem readsBack_via_iff_of_inverse (hread : ∀ b, read (write b) = b)
    (hwrite : ∀ a, write (read a) = a) {b : β} :
    (w.via read write).ReadsBack room b ↔ w.ReadsBack room (write b) := by
  refine ⟨fun hb => ?_, readsBack_via (hread b)⟩
  obtain ⟨a, ha, rfl⟩ := exists_of_map_eq_ok hb
  show w.read room (.ofTree (w.write (write (read a)))) = .ok (write (read a))
  rw [hwrite a]
  rwa [show (w.via read write).write (read a) = w.write a from congrArg w.write (hwrite a)] at ha

/-- Where values stand for records one by one, they read back if and only if the fields do. -/
theorem readsBack_via_record_iff {fields : Fields α} (hnames : fields.names.Nodup) {name : String}
    (hread : ∀ b, read (write b) = b) (hwrite : ∀ a, write (read a) = a) {b : β} :
    ((fields.record name).via read write).ReadsBack (room + 1) b
      ↔ fields.ReadsBack room (write b) :=
  (readsBack_via_iff_of_inverse hread hwrite).trans (Fields.readsBack_record_iff hnames name)

/-! ## Texts -/

theorem exists_ofBytes_eq_ok {bytes : ByteArray} (h : (w.ofBytes bytes).isOk = true) :
    ∃ a, w.ofBytes bytes = .ok a := by
  cases hread : w.ofBytes bytes with
  | error e =>
    rw [hread] at h
    cases h
  | ok a => exact ⟨a, rfl⟩

/-- A format settles its values: each one is read from its own text if and only if that does not
nest too deep, and one that was read from any text is read from its own. -/
structure Settles (w : Wire α) : Prop where
  own : ∀ a, w.ofBytes (w.toBytes a) = .ok a ↔ (w.write a).depth ≤ Json.maxDepth
  again : ∀ bytes a, w.ofBytes bytes = .ok a → w.ofBytes (w.toBytes a) = .ok a

theorem settles_of_stable
    (hown : ∀ a, w.ReadsBack Json.maxDepth a ↔ (w.write a).depth ≤ Json.maxDepth)
    (hstable : w.Stable Json.maxDepth) : w.Settles where
  own a := by
    rw [ofBytes_toBytes]
    exact hown a
  again bytes a h := by
    rw [ofBytes_toBytes]
    exact hstable _ a (read_of_ofBytes h).2

end Wire

end Intake
