import Intake.Item
import Intake.Request

/-!
# Fetches

A fetch is what a backend does from its start to its end, as a tree: at each node it does one
thing, and how it goes on may depend on what it is told. It can ask its source for the response to
a request, which may be refused; note that a record was left out; say something about the whole
fetch; ask whether the responses are replayed; read the clock; and give an item. It ends by itself
or fails.

A fetch knows nothing of where its responses come from. Every way down a fetch ends, so what runs it
ends as well, whatever the responses are.
-/

namespace Intake

/-- What a backend does, one step at a time. -/
inductive Fetch where
  /-- Ask for the response to a request. -/
  | ask (request : Request) (next : Except BackendError String → Fetch)
  /-- Note that a record was left out. -/
  | skip (next : Fetch)
  /-- Say something about the fetch; the last word counts. -/
  | remark (value : Json) (next : Fetch)
  /-- Ask whether the responses are replayed from an archive. -/
  | replaying (next : Bool → Fetch)
  /-- Read the clock. -/
  | now (next : Instant → Fetch)
  /-- Give an item. -/
  | give (item : Item) (next : Fetch)
  | done
  | fail (error : BackendError)

namespace Fetch

/-- The fetches that come right after one. -/
inductive Follows : Fetch → Fetch → Prop where
  | ask (request : Request) (next : Except BackendError String → Fetch)
      (response : Except BackendError String) : Follows (next response) (.ask request next)
  | skip (next : Fetch) : Follows next (.skip next)
  | remark (value : Json) (next : Fetch) : Follows next (.remark value next)
  | replaying (next : Bool → Fetch) (answer : Bool) : Follows (next answer) (.replaying next)
  | now (next : Instant → Fetch) (time : Instant) : Follows (next time) (.now next)
  | give (item : Item) (next : Fetch) : Follows next (.give item next)

/-- Every way down a fetch ends. -/
theorem follows_wf : WellFounded Follows := by
  refine ⟨fun f => ?_⟩
  induction f with
  | ask request next ih =>
    refine ⟨_, fun g h => ?_⟩
    cases h with
    | ask _ _ response => exact ih response
  | skip next ih =>
    refine ⟨_, fun g h => ?_⟩
    cases h
    exact ih
  | remark value next ih =>
    refine ⟨_, fun g h => ?_⟩
    cases h
    exact ih
  | replaying next ih =>
    refine ⟨_, fun g h => ?_⟩
    cases h with
    | replaying _ answer => exact ih answer
  | now next ih =>
    refine ⟨_, fun g h => ?_⟩
    cases h with
    | now _ time => exact ih time
  | give item next ih =>
    refine ⟨_, fun g h => ?_⟩
    cases h
    exact ih
  | done => exact ⟨_, fun g h => by cases h⟩
  | fail error => exact ⟨_, fun g h => by cases h⟩

/-- A fetch that is left of another one. -/
abbrev Below : Fetch → Fetch → Prop := Relation.TransGen Follows

theorem below_wf : WellFounded Below := follows_wf.transGen

end Fetch

end Intake
