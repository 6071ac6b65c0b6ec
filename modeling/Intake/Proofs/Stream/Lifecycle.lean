import Intake.Backend.Scripted
import Intake.Proofs.Stream.Accumulation
import Intake.Proofs.Stream.Start

/-!
# The life of a stream

A stream gives items until it fails or comes to its end, and then it gives nothing any more: it
does nothing and stays as it is (`ItemStream.quiet`). So its answers are some items, perhaps one
failure, and then nothing, and its state is told by them (`ItemStream.stands_afterSteps`). The
summary counts the items and the records that were left out, step by step.
-/

namespace Intake

namespace ItemStream

/-! ## How a stream stands -/

/-- How a stream stands after it has answered. -/
def stateFor : Option (Except BackendError Item) → StreamState
  | some (.ok _) => .streaming
  | some (.error _) => .failed
  | none => .exhausted

theorem state_proceed (s : ItemStream) (a : ActiveFetch) (w : Workspace)
    (onEnd : ItemStream → Workspace → Next) (h : s.state = .streaming)
    (hend : ∀ t v, t.state = .streaming → (onEnd t v).2.1.state = stateFor (onEnd t v).1) :
    (s.proceed a w onEnd).2.1.state = stateFor (s.proceed a w onEnd).1 := by
  unfold proceed
  rcases a.fetch.advance ⟨a.source, s.seen, w⟩ with ⟨_ | _ | _, p⟩
  · exact h
  · exact hend _ _ h
  · rfl

theorem state_nextArchived (pending : List ArchiveMetadata) (s : ItemStream) (w : Workspace)
    (h : s.state = .streaming) :
    (nextArchived pending s w).2.1.state = stateFor (nextArchived pending s w).1 := by
  induction pending generalizing s w with
  | nil => rfl
  | cons m rest ih =>
    rw [nextArchived]
    split
    · rfl
    · exact state_proceed { s with pending := rest } _ w _ h ih

/-- A stream goes on after an item, has failed after a failure, and else is at its end. -/
theorem state_next (s : ItemStream) (w : Workspace) (h : s.state = .streaming) :
    (s.next w).2.1.state = stateFor (s.next w).1 := by
  unfold next
  rw [h]
  cases s.active with
  | some a => exact s.state_proceed a w _ h (state_nextArchived s.pending)
  | none => exact state_nextArchived s.pending s w h

/-- A stream that was gone through is at its end, or else it has failed. -/
theorem state_drain (s : ItemStream) (w : Workspace) (h : s.state = .streaming) :
    (s.drain w).stream.state = if (s.drain w).error.isSome then .failed else .exhausted := by
  fun_induction s.drain w with
  | case1 s w s' w' hnext => simpa [hnext, stateFor] using s.state_next w h
  | case2 s w e s' w' hnext => simpa [hnext, stateFor] using s.state_next w h
  | case3 s w item s' w' hnext ih =>
    have hstate : s'.state = .streaming := by simpa [hnext, stateFor] using s.state_next w h
    exact ih hstate

theorem isExhausted_drain (s : ItemStream) (w : Workspace) (h : s.state = .streaming) :
    (s.drain w).stream.isExhausted = (s.drain w).error.isNone := by
  rw [isExhausted, s.state_drain w h]
  cases (s.drain w).error <;> rfl

/-- A stream that begins can give items. -/
theorem state_of_start {backend : Backend} {args : BackendArgs} {category : String}
    {options : StreamOptions} {w v : Workspace} {s : ItemStream}
    (h : start backend args category options w = (.ok s, v)) : s.state = .streaming := by
  obtain ⟨-, built, -, h⟩ := start_eq_ok h
  split at h
  · obtain ⟨archive, pending, -, -, rfl⟩ := replaying_eq_ok h
    rfl
  · obtain ⟨mode, -, rfl⟩ := fetching_eq_ok h
    rfl

/-- A stream that begins shows no summary. -/
theorem summary_of_start {backend : Backend} {args : BackendArgs} {category : String}
    {options : StreamOptions} {w v : Workspace} {s : ItemStream}
    (h : start backend args category options w = (.ok s, v)) : s.summary = none := by
  rw [summary, seen_of_start h, isExhausted, state_of_start h]
  rfl

/-! ## Streams that have ended -/

/-- Whether a stream answered with an item. -/
def isItem : Option (Except BackendError Item) → Bool
  | some (.ok _) => true
  | _ => false

/-- Whether a stream answered with a failure. -/
def isFailure : Option (Except BackendError Item) → Bool
  | some (.error _) => true
  | _ => false

theorem isItem_of_isFailure {a : Option (Except BackendError Item)} (h : isFailure a = true) :
    isItem a = false := by
  rcases a with _ | _ | item
  · rfl
  · rfl
  · cases h

/-- A stream that has ended gives nothing, does nothing and stays as it is. -/
theorem quiet {s : ItemStream} (h : s.state ≠ .streaming) (w : Workspace) (n : Nat) :
    s.answers w n = List.replicate n none ∧ s.eventsIn w n = [] ∧ s.afterSteps w n = (s, w) := by
  have hnext : s.next w = (none, s, w) ∧ s.events w = [] := by
    unfold next events
    cases hstate : s.state with
    | streaming => exact absurd hstate h
    | exhausted => exact ⟨rfl, rfl⟩
    | failed => exact ⟨rfl, rfl⟩
  induction n with
  | zero => exact ⟨rfl, rfl, rfl⟩
  | succ n ih =>
    obtain ⟨hanswers, hevents, hsteps⟩ := ih
    rw [answers, eventsIn, afterSteps, hnext.1, hnext.2, hanswers, hevents, hsteps]
    exact ⟨rfl, rfl, rfl⟩

/-! ## The course of the answers -/

/-- How a stream stands after some answers. -/
inductive Stands : StreamState → List (Option (Except BackendError Item)) → Prop where
  | streaming (items : List Item) : Stands .streaming (items.map fun item => some (.ok item))
  | failed (items : List Item) (e : BackendError) (n : Nat) :
      Stands .failed
        ((items.map fun item => some (.ok item)) ++ some (.error e) :: List.replicate n none)
  | exhausted (items : List Item) (n : Nat) :
      Stands .exhausted ((items.map fun item => some (.ok item)) ++ none :: List.replicate n none)

theorem Stands.cons {state : StreamState} {answers : List (Option (Except BackendError Item))}
    (h : Stands state answers) (item : Item) : Stands state (some (.ok item) :: answers) := by
  cases h with
  | streaming items => exact .streaming (item :: items)
  | failed items e n => exact .failed (item :: items) e n
  | exhausted items n => exact .exhausted (item :: items) n

/-- The answers of a stream are some items, and after them a failure or the end, and then nothing.
Its state says which. -/
theorem stands_afterSteps {s : ItemStream} (h : s.state = .streaming) (w : Workspace) (n : Nat) :
    Stands (s.afterSteps w n).1.state (s.answers w n) := by
  induction n generalizing s w with
  | zero =>
    rw [afterSteps, answers, h]
    exact .streaming []
  | succ n ih =>
    have hstate := s.state_next w h
    rw [afterSteps, answers]
    rcases hnext : s.next w with ⟨_ | e | item, s', w'⟩
    · replace hstate : s'.state = .exhausted := by
        rw [hnext] at hstate
        exact hstate
      obtain ⟨hanswers, -, hsteps⟩ := quiet (by rw [hstate]; decide) w' n
      rw [hanswers, hsteps, hstate]
      exact .exhausted [] n
    · replace hstate : s'.state = .failed := by
        rw [hnext] at hstate
        exact hstate
      obtain ⟨hanswers, -, hsteps⟩ := quiet (by rw [hstate]; decide) w' n
      rw [hanswers, hsteps, hstate]
      exact .failed [] e n
    · replace hstate : s'.state = .streaming := by
        rw [hnext] at hstate
        exact hstate
      exact (ih hstate w').cons item

namespace Stands

variable {state : StreamState} {answers : List (Option (Except BackendError Item))}

theorem streaming_iff (h : Stands state answers) :
    state = .streaming ↔ ∀ a ∈ answers, isItem a = true := by
  cases h with
  | streaming items =>
    refine ⟨fun _ a ha => ?_, fun _ => rfl⟩
    obtain ⟨item, -, rfl⟩ := List.mem_map.mp ha
    rfl
  | failed items e n =>
    refine ⟨by rintro ⟨⟩, fun hall => ?_⟩
    cases hall (some (.error e)) (List.mem_append_right _ (List.mem_cons_self ..))
  | exhausted items n =>
    refine ⟨by rintro ⟨⟩, fun hall => ?_⟩
    cases hall none (List.mem_append_right _ (List.mem_cons_self ..))

theorem isFailure_of_mem_items {items : List Item} {a : Option (Except BackendError Item)}
    (h : a ∈ items.map fun item => some (.ok item)) : isFailure a = false := by
  obtain ⟨item, -, rfl⟩ := List.mem_map.mp h
  rfl

theorem isFailure_of_mem_replicate {n : Nat} {a : Option (Except BackendError Item)}
    (h : a ∈ List.replicate n none) : isFailure a = false := by
  rw [List.eq_of_mem_replicate h]
  rfl

/-- A failure is answered once, by the stream that has failed. -/
theorem countP_isFailure (h : Stands state answers) :
    answers.countP isFailure = if state = .failed then 1 else 0 := by
  have hitems : ∀ items : List Item,
      List.countP isFailure (items.map fun item => some (.ok item)) = 0 := fun items =>
    List.countP_eq_zero.mpr fun a ha => by simp [isFailure_of_mem_items ha]
  have hrest : ∀ n, List.countP isFailure (List.replicate n none) = 0 := fun n =>
    List.countP_eq_zero.mpr fun a ha => by simp [isFailure_of_mem_replicate ha]
  cases h with
  | streaming items => exact hitems items
  | failed items e n =>
    rw [List.countP_append, List.countP_cons, hitems, hrest]
    rfl
  | exhausted items n =>
    rw [List.countP_append, List.countP_cons, hitems, hrest]
    rfl

theorem failed_iff (h : Stands state answers) :
    state = .failed ↔ ∃ a ∈ answers, isFailure a = true := by
  rw [← List.countP_pos_iff, h.countP_isFailure]
  split <;> simp [*]

theorem exhausted_iff (h : Stands state answers) : state = .exhausted
    ↔ ∃ before after, answers = before ++ none :: after ∧ ∀ a ∈ before, isFailure a = false := by
  have hnone : ∀ items : List Item,
      (none : Option (Except BackendError Item)) ∉ items.map fun item => some (.ok item) := by
    intro items hmem
    obtain ⟨item, -, hitem⟩ := List.mem_map.mp hmem
    cases hitem
  cases h with
  | streaming items =>
    refine ⟨by rintro ⟨⟩, ?_⟩
    rintro ⟨before, after, hanswers, -⟩
    refine absurd ?_ (hnone items)
    rw [hanswers]
    exact List.mem_append_right _ (List.mem_cons_self ..)
  | failed items e n =>
    refine ⟨by rintro ⟨⟩, ?_⟩
    rintro ⟨before, after, hanswers, hbefore⟩
    -- the failure would stand before the end
    obtain ⟨more, hmore, hrest⟩ | ⟨more, hmore, hrest⟩ := List.append_eq_append_iff.mp hanswers
    · cases more with
      | nil => cases hrest
      | cons a more =>
        have hfailure := hbefore a (by simp [hmore])
        rw [← (List.cons.inj hrest).1] at hfailure
        cases hfailure
    · cases more with
      | nil => cases hrest
      | cons a more =>
        refine absurd ?_ (hnone items)
        rw [hmore, (List.cons.inj hrest).1]
        exact List.mem_append_right _ (List.mem_cons_self ..)
  | exhausted items n =>
    exact ⟨fun _ => ⟨_, _, rfl, fun a ha => isFailure_of_mem_items ha⟩, fun _ => rfl⟩

end Stands

/-! ## What is counted -/

/-- The summary counts the items that were given. -/
theorem fetched_afterSteps (s : ItemStream) (w : Workspace) (n : Nat) :
    (s.afterSteps w n).1.seen.fetched
      = s.seen.fetched + UInt64.ofNat ((s.answers w n).countP isItem) := by
  induction n generalizing s w with
  | zero => exact (UInt64.add_zero _).symm
  | succ n ih =>
    rw [afterSteps, answers, ih, fetched_next, List.countP_cons]
    rcases (s.next w).1 with _ | _ | item
    · simp [counted, isItem]
    · simp [counted, isItem]
    · simp [counted, isItem, UInt64.ofNat_add, UInt64.add_assoc, UInt64.add_comm]

/-- The summary counts the records that were left out. -/
theorem skipped_afterSteps (s : ItemStream) (w : Workspace) (n : Nat) :
    (s.afterSteps w n).1.seen.skipped
      = s.seen.skipped + UInt64.ofNat ((s.eventsIn w n).countP StreamEvent.isSkip) := by
  rw [seen_afterSteps, FetchSummary.skipped_foldl_observe]

/-- A summary is not shown as long as nothing was counted and the stream is not at its end. -/
theorem summary_eq_none_iff (s : ItemStream) : s.summary = none
    ↔ s.seen.fetched = 0 ∧ s.seen.skipped = 0 ∧ s.state ≠ .exhausted := by
  have hzero : ∀ x : UInt64, ¬0 < x ↔ x = 0 := by
    intro x
    rw [UInt64.not_lt]
    exact UInt64.le_zero_iff
  simp only [summary, FetchSummary.hasObserved, isExhausted]
  simp [hzero, and_assoc]

/-- A summary that is shown shows all that was counted. -/
theorem eq_seen_of_mem_summary (s : ItemStream) : ∀ shown ∈ s.summary, shown = s.seen := by
  intro shown hmem
  unfold summary at hmem
  split at hmem
  · exact (Option.some.inj hmem).symm
  · cases hmem

/-- Counters that have not run over show how much was counted. -/
theorem counters_of_lt {s : ItemStream} {items skips : Nat}
    (hfetched : s.seen.fetched = UInt64.ofNat items)
    (hskipped : s.seen.skipped = UInt64.ofNat skips)
    (hitems : items < UInt64.size) (hskips : skips < UInt64.size) :
    s.seen.fetched.toNat = items ∧ s.seen.skipped.toNat = skips
      ∧ (s.summary = none ↔ items = 0 ∧ skips = 0 ∧ s.state ≠ .exhausted) := by
  have hcounted : ∀ k < UInt64.size, (UInt64.ofNat k).toNat = k := fun k hk =>
    UInt64.toNat_ofNat_of_lt' hk
  have hzero : ∀ k < UInt64.size, UInt64.ofNat k = 0 ↔ k = 0 := by
    intro k hk
    rw [← UInt64.toNat_inj, hcounted k hk]
    rfl
  rw [s.summary_eq_none_iff, hfetched, hskipped, hcounted items hitems, hcounted skips hskips,
    hzero items hitems, hzero skips hskips]
  exact ⟨rfl, rfl, Iff.rfl⟩

/-! ## The whole life -/

/-- A stream that has answered with something else than an item is quiet from then on. -/
theorem quiet_afterSteps {s : ItemStream} (h : s.state = .streaming) {w : Workspace} {n : Nat}
    (hended : ∃ a ∈ s.answers w n, isItem a = false) (m : Nat) :
    s.answers w (n + m) = s.answers w n ++ List.replicate m none
      ∧ s.eventsIn w (n + m) = s.eventsIn w n
      ∧ s.afterSteps w (n + m) = s.afterSteps w n := by
  obtain ⟨a, ha, hlast⟩ := hended
  have hstate : (s.afterSteps w n).1.state ≠ .streaming := by
    intro hstreaming
    rw [(stands_afterSteps h w n).streaming_iff.mp hstreaming a ha] at hlast
    cases hlast
  obtain ⟨hanswers, hevents, hsteps⟩ := quiet hstate (s.afterSteps w n).2 m
  rw [answers_add, eventsIn_add, afterSteps_add, hanswers, hevents, hsteps, List.append_nil]
  exact ⟨rfl, rfl, rfl⟩

/-- The life of a stream over any number of steps, whatever its backend does and wherever it takes
its responses from. Once it has answered with a failure or with nothing, it answers with nothing,
does nothing and stays as it is. It fails once at most. Its summary counts the items that it gave
and the records that were left out, up to the size of the counters. It has failed exactly if it
answered with a failure, and it is at its end exactly if it answered with nothing and no failure
came before. Its summary is shown once anything was counted or it is at its end. -/
theorem life_of_start {backend : Backend} {args : BackendArgs} {category : String}
    {options : StreamOptions} {w v : Workspace} {s : ItemStream}
    (h : start backend args category options w = (.ok s, v)) (n : Nat) :
    let t := (s.afterSteps v n).1
    let items := (s.answers v n).countP isItem
    let skips := (s.eventsIn v n).countP StreamEvent.isSkip
    ((∃ a ∈ s.answers v n, isItem a = false) → ∀ m,
        s.answers v (n + m) = s.answers v n ++ List.replicate m none
          ∧ s.eventsIn v (n + m) = s.eventsIn v n
          ∧ s.afterSteps v (n + m) = s.afterSteps v n)
      ∧ (s.answers v n).countP isFailure ≤ 1
      ∧ t.seen.fetched = UInt64.ofNat items
      ∧ t.seen.skipped = UInt64.ofNat skips
      ∧ (t.state = .failed ↔ ∃ a ∈ s.answers v n, isFailure a = true)
      ∧ (t.state = .exhausted ↔ ∃ before after, s.answers v n = before ++ none :: after
          ∧ ∀ a ∈ before, isFailure a = false)
      ∧ (t.summary = none
          ↔ t.seen.fetched = 0 ∧ t.seen.skipped = 0 ∧ t.state ≠ .exhausted)
      ∧ (∀ shown ∈ t.summary, shown = t.seen)
      ∧ (items < UInt64.size → skips < UInt64.size →
          t.seen.fetched.toNat = items ∧ t.seen.skipped.toNat = skips
            ∧ (t.summary = none ↔ items = 0 ∧ skips = 0 ∧ t.state ≠ .exhausted)) := by
  intro t items skips
  have hstreaming := state_of_start h
  have hseen := seen_of_start h
  have hstands : Stands t.state (s.answers v n) := stands_afterSteps hstreaming v n
  have hfetched : t.seen.fetched = UInt64.ofNat items := by
    have hcount := s.fetched_afterSteps v n
    rw [hseen] at hcount
    exact hcount.trans (UInt64.zero_add _)
  have hskipped : t.seen.skipped = UInt64.ofNat skips := by
    have hcount := s.skipped_afterSteps v n
    rw [hseen] at hcount
    exact hcount.trans (UInt64.zero_add _)
  refine ⟨quiet_afterSteps hstreaming, ?_, hfetched, hskipped, hstands.failed_iff,
    hstands.exhausted_iff, t.summary_eq_none_iff, t.eq_seen_of_mem_summary,
    counters_of_lt hfetched hskipped⟩
  rw [hstands.countP_isFailure]
  split <;> omega

end ItemStream

/-! ## A stream that fails after one item -/

namespace FailsAfterOne

open ItemStream (start isItem isFailure isItem_of_isFailure life_of_start)

/-- The arguments of a scripted backend that leaves out every second record and fails where it would
give a second item. -/
def args : BackendArgs :=
  ((Keyed.empty.insert "items" (.ofUInt64 5)).insert "skip_odd" (.bool true)).insert "fail_after"
    (.ofUInt64 1)

/-- The script that the arguments tell. -/
def script : Script where
  origin := Script.defaultOrigin
  items := 5
  failAfter := some 1
  skipOdd := true

/-- A workspace without archives in which the time stands still. -/
def workspace : Workspace where
  supply := { clock := fun _ => .epoch, identifiers := fun _ => .sequential 0 0 }

/-- The stream of the backend. -/
def stream : ItemStream where
  backend := .plain
  category := "item"
  active := some ⟨script.fetch "plain" "0.1.0",
    { transport := fun _ => script.respond, mode := .live }⟩

theorem build_args : Backend.plain.build args = .ok
    { origin := script.origin
      fetch := script.fetch "plain" "0.1.0"
      transport := fun _ => script.respond } := by
  have hscript : Script.ofArgs args = .ok script := by rfl
  show (Script.ofArgs args >>= fun s => pure _) = _
  rw [hscript]
  rfl

/-- The stream gives an item and fails at its second step, in which it leaves out a record. There is
nothing after that. -/
theorem life_of_stream : start .plain args "item" {} workspace = (.ok stream, workspace)
    ∧ (stream.answers workspace 2).map isFailure = [false, true]
    ∧ (stream.afterSteps workspace 2).1.seen.skipped = 1
    ∧ ∀ m, stream.answers workspace (2 + m)
      = stream.answers workspace 2 ++ List.replicate m none := by
  have hstart : start .plain args "item" {} workspace = (.ok stream, workspace) :=
    ItemStream.start_live build_args (by decide) none workspace
  obtain ⟨hanswers, hskips⟩ : (stream.answers workspace 2).map isFailure = [false, true]
      ∧ (stream.eventsIn workspace 2).countP StreamEvent.isSkip = 1 := by
    decide +kernel
  have hended : ∃ a ∈ stream.answers workspace 2, isItem a = false := by
    obtain ⟨a, ha, hfailure⟩ : ∃ a ∈ stream.answers workspace 2, isFailure a = true :=
      List.mem_map.mp (by rw [hanswers]; decide)
    exact ⟨a, ha, isItem_of_isFailure hfailure⟩
  obtain ⟨hquiet, -, -, hskipped, -⟩ := life_of_start hstart 2
  refine ⟨hstart, hanswers, ?_, fun m => (hquiet hended m).1⟩
  rw [hskipped, hskips]
  rfl

end FailsAfterOne

end Intake
