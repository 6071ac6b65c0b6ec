import Intake.Proofs.Stream.Events

/-!
# What a summary accumulates

A summary is told of each item, of each record that was left out, and of each word of the backend,
in any order. What it tells of all of them is `FetchSummary.Tells`. The two counters, the latest
name, the two kinds of marks and the extras follow different parts of the events: an item without an
update time counts and names, but leaves the marks of the update times as they are.

The items are accumulated as by updates alone (`FetchSummary.items_foldl_observe`), for which the
marks are known (`FetchSummary.foldl_update_ofItems`).
-/

namespace Intake

-- one meaning of powers, whatever is imported beside
attribute [local instance (high)] instPowNat

instance Instant.isLinearOrder : Std.IsLinearOrder Instant where
  le_refl := le_refl
  le_trans _ _ _ := le_trans
  le_antisymm _ _ := le_antisymm
  le_total := le_total

/-! ## Marks -/

namespace Watermarks

variable {α : Type} [LE α]

/-- Marks that tell of some values in their order: of none that there is none, and else the least,
the greatest and the last one, which lies between them. -/
inductive Marks : Watermarks α → List α → Prop where
  | none : Marks {} []
  | some {values : List α} {least greatest latest : α}
      (least_mem : least ∈ values) (least_le : ∀ a ∈ values, least ≤ a)
      (greatest_mem : greatest ∈ values) (le_greatest : ∀ a ∈ values, a ≤ greatest)
      (last : values.getLast? = some latest) (between : least ≤ latest ∧ latest ≤ greatest) :
      Marks ⟨some least, some greatest, some latest⟩ values

theorem marks_of [DecidableLE α] [Min α] [Max α] [Std.IsLinearOrder α]
    (hmin : ∀ a b : α, min a b = if a ≤ b then a else b)
    (hmax : ∀ a b : α, max a b = if a ≤ b then b else a) (values : List α) :
    (of values).Marks values := by
  have : Std.LawfulOrderLeftLeaningMin α :=
    ⟨fun a b h => (hmin a b).trans (if_pos h), fun a b h => (hmin a b).trans (if_neg h)⟩
  have : Std.LawfulOrderLeftLeaningMax α := by
    refine ⟨fun a b h => (hmax a b).trans ?_, fun a b h => (hmax a b).trans ?_⟩
    · split
      · exact Std.IsPartialOrder.le_antisymm b a h ‹_›
      · rfl
    · exact if_pos ((Std.IsLinearPreorder.le_total a b).resolve_right h)
  cases values with
  | nil => exact .none
  | cons a values =>
    have hmem : a ∈ a :: values := List.mem_cons_self
    obtain ⟨least, hleast⟩ := Option.isSome_iff_exists.mp (List.isSome_min?_of_mem hmem)
    obtain ⟨greatest, hgreatest⟩ := Option.isSome_iff_exists.mp (List.isSome_max?_of_mem hmem)
    obtain ⟨latest, hlatest⟩ :=
      Option.isSome_iff_exists.mp (List.getLast?_isSome.mpr (List.cons_ne_nil a values))
    obtain ⟨least_mem, least_le⟩ := List.min?_eq_some_iff.mp hleast
    obtain ⟨greatest_mem, le_greatest⟩ := List.max?_eq_some_iff.mp hgreatest
    have hlast : latest ∈ a :: values := List.mem_of_getLast? hlatest
    rw [of, hleast, hgreatest, hlatest]
    exact .some least_mem least_le greatest_mem le_greatest hlatest
      ⟨least_le latest hlast, le_greatest latest hlast⟩

end Watermarks

/-! ## Parts of the events -/

namespace StreamEvent

/-- The item that an event gives, if any. -/
def item? : StreamEvent → Option Item
  | .gave item => some item
  | _ => none

/-- The word of the backend that an event is, if it is one. -/
def remark? : StreamEvent → Option Json
  | .remarked value => some value
  | _ => none

end StreamEvent

namespace FetchSummary

theorem items_foldl_observe (s : FetchSummary) (events : List StreamEvent) :
    (events.foldl observe s).items = (events.filterMap StreamEvent.item?).foldl update s.items := by
  induction events generalizing s with
  | nil => rfl
  | cons e events ih =>
    rw [List.foldl_cons, ih]
    cases e <;> rfl

theorem skipped_foldl_observe (s : FetchSummary) (events : List StreamEvent) :
    (events.foldl observe s).skipped
      = s.skipped + UInt64.ofNat (events.countP StreamEvent.isSkip) := by
  induction events generalizing s with
  | nil => exact (UInt64.add_zero _).symm
  | cons e events ih =>
    rw [List.foldl_cons, ih, List.countP_cons]
    cases e <;> simp [observe, StreamEvent.isSkip, skip, setExtras, update, UInt64.ofNat_add,
      UInt64.add_assoc, UInt64.add_comm]

theorem extras_foldl_observe (s : FetchSummary) (events : List StreamEvent) :
    (events.foldl observe s).extras
      = (events.filterMap StreamEvent.remark?).getLast?.or s.extras := by
  induction events generalizing s with
  | nil => rfl
  | cons e events ih =>
    rw [List.foldl_cons, ih]
    cases e with
    | remarked value =>
      show _ = (value :: events.filterMap StreamEvent.remark?).getLast?.or s.extras
      rw [List.getLast?_cons]
      cases (events.filterMap StreamEvent.remark?).getLast? <;> rfl
    | _ => rfl

/-! ## All of them -/

/-- What a summary tells of the events from which it was made. -/
structure Tells (s : FetchSummary) (events : List StreamEvent) : Prop where
  fetched : s.fetched.toNat = (events.filterMap StreamEvent.item?).length
  skipped : s.skipped.toNat = events.countP StreamEvent.isSkip
  lastUuid : s.lastUuid = (events.filterMap StreamEvent.item?).getLast?.map Item.uuid
  updates : s.updates.Marks ((events.filterMap StreamEvent.item?).filterMap Item.updatedAt)
  offsets : s.offsets.Marks ((events.filterMap StreamEvent.item?).filterMap Item.offset)
  extras : s.extras = (events.filterMap StreamEvent.remark?).getLast?

/-- A summary tells of all events since it was new, as long as these are fewer than its counters
count. -/
theorem tells_foldl_observe {events : List StreamEvent} (h : events.length < 2 ^ (64 : Nat)) :
    (events.foldl observe {}).Tells events := by
  have hitems : (events.foldl observe {}).items = ofItems (events.filterMap StreamEvent.item?) :=
    (items_foldl_observe {} events).trans (foldl_update_ofItems [] _)
  have hcounted : ∀ k ≤ events.length, (UInt64.ofNat k).toNat = k := fun k hk =>
    UInt64.toNat_ofNat_of_lt' (Nat.lt_of_le_of_lt hk h)
  constructor
  case fetched =>
    show (events.foldl observe {}).items.fetched.toNat = _
    rw [hitems]
    exact hcounted _ (List.length_filterMap_le ..)
  case skipped =>
    rw [skipped_foldl_observe, UInt64.zero_add]
    exact hcounted _ List.countP_le_length
  case lastUuid => exact congrArg FetchSummary.lastUuid hitems
  case updates =>
    show (events.foldl observe {}).items.updates.Marks _
    rw [hitems]
    exact Watermarks.marks_of (fun _ _ => rfl) (fun _ _ => rfl) _
  case offsets =>
    show (events.foldl observe {}).items.offsets.Marks _
    rw [hitems]
    exact Watermarks.marks_of (fun _ _ => rfl) (fun _ _ => rfl) _
  case extras => rw [extras_foldl_observe, Option.or_none]

/-- Three items, one without a position and the last one with a time that is no instant. -/
theorem tells_of_three_items :
    let item (uuid : String) (updatedOn : Float) (offset : Option Int64) : Item :=
      { backendName := "b", backendVersion := "1", category := "c", origin := "o", uuid, updatedOn,
        timestamp := 0, offset, data := .null }
    let events : List StreamEvent := [.gave (item "u" 2 (some 7)), .skipped, .gave (item "v" 1 none),
      .remarked .null, .gave (item "w" 1e300 (some 3))]
    let s : FetchSummary := events.foldl observe {}
    s.Tells events ∧ s.lastUuid = some "w" ∧ s.offsets = ⟨some 3, some 7, some 3⟩ := by
  intro item events s
  exact ⟨tells_foldl_observe (by decide), rfl, by decide +kernel⟩

end FetchSummary

end Intake
