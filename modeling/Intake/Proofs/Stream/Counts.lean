import Intake.Proofs.Stream.Drain

/-!
# What a stream counts

A stream counts an item when it gives it, and at no other time: a fetch that runs on may skip
records and make remarks, but what its summary tells of items stays (`Fetch.items_advance`).
`ItemStream.items_next` says the same of one step of a stream, also over the archives it goes
through, and `ItemStream.items_drain` and `ItemStream.items_afterSteps` say it of a whole stream and
of its first steps.

What a summary tells of items after all its updates is `FetchSummary.ofItems`: their number, the
marks of their update times and of their positions, and the latest name.
`ItemStream.fetched_summary` says that a summary that is not shown yet counts nothing.
-/

namespace Intake

/-! ## Marks -/

namespace Watermarks

variable {α : Type}

/-- The marks of some values in their order. -/
def of [Min α] [Max α] (values : List α) : Watermarks α :=
  ⟨values.min?, values.max?, values.getLast?⟩

/-- The marks of some values and one more. -/
theorem observe_of [LE α] [DecidableLE α] [Min α] [Max α]
    (hmin : ∀ a b : α, min a b = if a ≤ b then a else b)
    (hmax : ∀ a b : α, max a b = if a ≤ b then b else a) (values : List α) (a : α) :
    (of values).observe a = of (values ++ [a]) := by
  cases values with
  | nil => rfl
  | cons b values =>
    have hlast : (b :: (values ++ [a])).getLast? = some a :=
      List.getLast?_concat (l := b :: values)
    simp only [of, observe, hlast, List.cons_append, List.min?_cons', List.max?_cons',
      Option.elim_some, List.foldl_append, List.foldl_cons, List.foldl_nil, hmin, hmax]

theorem observe_instants (values : List Instant) (a : Option Instant) :
    Watermarks.observe? (of values) a = of (values ++ a.toList) := by
  cases a with
  | none => rw [Option.toList_none, List.append_nil]; rfl
  | some a => exact observe_of (fun _ _ => rfl) (fun _ _ => rfl) values a

theorem observe_offsets (values : List Int64) (a : Option Int64) :
    Watermarks.observe? (of values) a = of (values ++ a.toList) := by
  cases a with
  | none => rw [Option.toList_none, List.append_nil]; rfl
  | some a => exact observe_of (fun _ _ => rfl) (fun _ _ => rfl) values a

end Watermarks

/-! ## What summaries tell of items -/

namespace FetchSummary

/-- What a summary tells of items: all but the skipped records and the backend's word. -/
def items (s : FetchSummary) : FetchSummary := { s with skipped := 0, extras := none }

/-- What is to be told of some items in their order: their number, the marks of their update times
and of their positions, and the latest name. -/
def ofItems (items : List Item) : FetchSummary where
  fetched := UInt64.ofNat items.length
  updates := .of (items.filterMap Item.updatedAt)
  lastUuid := items.getLast?.map Item.uuid
  offsets := .of (items.filterMap Item.offset)

@[simp]
theorem fetched_update (s : FetchSummary) (item : Item) :
    (s.update item).fetched = s.fetched + 1 := rfl

@[simp]
theorem items_skip (s : FetchSummary) : s.skip.items = s.items := rfl

@[simp]
theorem items_setExtras (s : FetchSummary) (value : Json) : (s.setExtras value).items = s.items :=
  rfl

theorem update_ofItems (items : List Item) (item : Item) :
    (ofItems items).update item = ofItems (items ++ [item]) := by
  have hsingle : ∀ {β : Type} (f : Item → Option β), [item].filterMap f = (f item).toList := by
    intro β f
    cases h : f item <;> simp [h]
  simp only [ofItems, update, Watermarks.observe_instants, Watermarks.observe_offsets,
    List.filterMap_append, hsingle, List.length_append, UInt64.ofNat_add, List.getLast?_concat]
  rfl

/-- Updating a summary with items one after the other tells of them all. -/
theorem foldl_update_ofItems (items more : List Item) :
    more.foldl update (ofItems items) = ofItems (items ++ more) := by
  induction more generalizing items with
  | nil => rw [List.append_nil]; rfl
  | cons item more ih =>
    rw [List.foldl_cons, update_ofItems, ih, List.append_assoc]
    rfl

end FetchSummary

/-! ## Steps of a stream -/

/-- Running a fetch to its next item leaves what is told of items. -/
theorem Fetch.items_advance (f : Fetch) (p : FetchProgress) :
    (f.advance p).2.summary.items = p.summary.items := by
  induction f generalizing p with
  | ask request next ih => rw [advance, ih]
  | skip next ih => rw [advance, ih, FetchSummary.items_skip]
  | remark value next ih => rw [advance, ih, FetchSummary.items_setExtras]
  | replaying next ih => rw [advance, ih]
  | now next ih => rw [advance, ih]
  | give item rest => rfl
  | done => rfl
  | fail e => rfl

namespace ItemStream

/-- The items in an answer of a stream. -/
def given : Option (Except BackendError Item) → List Item
  | some (.ok item) => [item]
  | some (.error _) => []
  | none => []

/-- How much a step of a stream that answered like this adds to the number of items. -/
def counted : Option (Except BackendError Item) → UInt64
  | some (.ok _) => 1
  | some (.error _) => 0
  | none => 0

/-- A summary that is not shown yet counts no item. -/
theorem fetched_summary (s : ItemStream) :
    s.summary.elim 0 FetchSummary.fetched = s.seen.fetched := by
  unfold summary
  split
  · rfl
  · rename_i h
    simp only [FetchSummary.hasObserved, Bool.or_eq_true, decide_eq_true_eq, not_or,
      UInt64.lt_iff_toNat_lt] at h
    apply UInt64.toNat_inj.mp
    have h0 : ¬(0 : UInt64).toNat < s.seen.fetched.toNat := h.1.1
    rw [UInt64.toNat_zero] at h0
    rw [Option.elim_none, UInt64.toNat_zero]
    omega

theorem items_proceed (s : ItemStream) (a : ActiveFetch) (w : Workspace)
    (onEnd : ItemStream → Workspace → Next)
    (hend : ∀ t v, (onEnd t v).2.1.seen.items
      = (given (onEnd t v).1).foldl FetchSummary.update t.seen.items) :
    (s.proceed a w onEnd).2.1.seen.items
      = (given (s.proceed a w onEnd).1).foldl FetchSummary.update s.seen.items := by
  have hitems := a.fetch.items_advance ⟨a.source, s.seen, w⟩
  unfold proceed
  rcases h : a.fetch.advance ⟨a.source, s.seen, w⟩ with ⟨stop, p⟩
  rw [h] at hitems
  change p.summary.items = s.seen.items at hitems
  cases stop with
  | item item rest => exact congrArg (·.update item) hitems
  | ended =>
    have hrest := hend { s with active := none, seen := p.summary } p.workspace
    rw [← hitems]
    exact hrest
  | failed e => exact hitems

theorem items_nextArchived (pending : List ArchiveMetadata) (s : ItemStream) (w : Workspace) :
    (nextArchived pending s w).2.1.seen.items
      = (given (nextArchived pending s w).1).foldl FetchSummary.update s.seen.items := by
  induction pending generalizing s w with
  | nil => rfl
  | cons m rest ih =>
    rw [nextArchived]
    split
    · rfl
    · exact items_proceed { s with pending := rest } _ w _ ih

/-- A step of a stream tells of the item that it gives, and of nothing else. -/
theorem items_next (s : ItemStream) (w : Workspace) :
    (s.next w).2.1.seen.items
      = (given (s.next w).1).foldl FetchSummary.update s.seen.items := by
  unfold next
  split
  · split
    · exact items_proceed s _ w _ (items_nextArchived s.pending)
    · exact items_nextArchived s.pending s w
  · rfl

/-- A step of a stream counts the item that it gives, and nothing else. -/
theorem fetched_next (s : ItemStream) (w : Workspace) :
    (s.next w).2.1.seen.fetched = s.seen.fetched + counted (s.next w).1 := by
  have hfetched := congrArg FetchSummary.fetched (s.items_next w)
  rcases h : (s.next w).1 with _ | _ | item
  · rw [h] at hfetched
    exact hfetched.trans (UInt64.add_zero _).symm
  · rw [h] at hfetched
    exact hfetched.trans (UInt64.add_zero _).symm
  · rw [h] at hfetched
    exact hfetched

/-! ## Several steps -/

/-- A stream and its workspace after so many steps. -/
def afterSteps (s : ItemStream) (w : Workspace) : Nat → ItemStream × Workspace
  | 0 => (s, w)
  | n + 1 => (s.next w).2.1.afterSteps (s.next w).2.2 n

/-- A stream that was gone through tells of the items that it gave. -/
theorem items_drain (s : ItemStream) (w : Workspace) :
    (s.drain w).stream.seen.items = (s.drain w).items.foldl FetchSummary.update s.seen.items := by
  fun_induction s.drain w with
  | case1 s w s' w' h => simpa [h, given] using s.items_next w
  | case2 s w e s' w' h => simpa [h, given] using s.items_next w
  | case3 s w item s' w' h ih =>
    have hnext : s'.seen.items = s.seen.items.update item := by
      simpa [h, given] using s.items_next w
    rw [hnext] at ih
    exact ih

/-- After some of its items a stream tells of these. -/
theorem items_afterSteps {s : ItemStream} {w : Workspace} {items rest : List Item}
    (h : (s.drain w).items = items ++ rest) :
    (s.afterSteps w items.length).1.seen.items = items.foldl FetchSummary.update s.seen.items := by
  induction items generalizing s w with
  | nil => rfl
  | cons item items ih =>
    rcases hnext : s.next w with ⟨_ | e | item', s', w'⟩
    · simp [drain_of_none hnext] at h
    · simp [drain_of_error hnext] at h
    · rw [drain_of_item hnext] at h
      simp only [StreamCourse.after, List.cons_append, List.nil_append, List.cons.injEq] at h
      obtain ⟨rfl, h⟩ := h
      have hitems : s'.seen.items = s.seen.items.update item' := by
        simpa [hnext, given] using s.items_next w
      rw [List.length_cons, afterSteps, hnext, ih h, hitems, List.foldl_cons]

end ItemStream

end Intake
