import Intake.Backend.Scripted

/-!
# Steady fetches

Two fetches are alike if they do the same as long as they are told the same, whatever the clock
shows to the one and to the other: the clock only goes into the timestamps of items. A fetch that is
alike to itself is steady. It depends on nothing but the responses that it gets, and it does not ask
whether they are replayed.

The fetches of scripted backends are steady (`Backend.steady_scripted`).
-/

namespace Intake

/-- The item apart from the time at which it was fetched. -/
def Item.untimed (item : Item) : Item := { item with timestamp := 0 }

namespace Fetch

/-- Fetches that do the same when they are told the same, at any times. -/
inductive Alike : Fetch → Fetch → Prop where
  | ask (request : Request) {next next' : Except BackendError String → Fetch}
      (h : ∀ response, Alike (next response) (next' response)) :
      Alike (.ask request next) (.ask request next')
  | skip {next next' : Fetch} (h : Alike next next') : Alike (.skip next) (.skip next')
  | remark (value : Json) {next next' : Fetch} (h : Alike next next') :
      Alike (.remark value next) (.remark value next')
  | now {next next' : Instant → Fetch} (h : ∀ time time', Alike (next time) (next' time')) :
      Alike (.now next) (.now next')
  | give {item item' : Item} {rest rest' : Fetch} (hitem : item.untimed = item'.untimed)
      (h : Alike rest rest') : Alike (.give item rest) (.give item' rest')
  | done : Alike .done .done
  | fail (error : BackendError) : Alike (.fail error) (.fail error)

/-- A fetch that depends on nothing but the responses that it gets. -/
def Steady (f : Fetch) : Prop := Alike f f

end Fetch

/-- A backend whose fetches depend on nothing but its arguments and the responses. -/
def Backend.Steady (b : Backend) : Prop :=
  ∀ args built, b.build args = .ok built → built.fetch.Steady

/-! ## Scripted backends -/

namespace Script

theorem untimed_item (s : Script) (name version : String) (record : Json) (time time' : Instant) :
    (s.item name version record time).untimed = (s.item name version record time').untimed := by
  simp only [Item.untimed, item]

theorem steady_finish (s : Script) : s.finish.Steady := by
  unfold finish
  cases s.extras with
  | none => exact .done
  | some value => exact .remark value .done

/-- What is done with a record is steady if the fetch goes on so. -/
theorem steady_handle (s : Script) (name version : String) (page produced : UInt64) (record : Json)
    {next : UInt64 → Fetch} (h : ∀ produced, (next produced).Steady) :
    (s.handle name version page produced record next).Steady := by
  unfold handle
  split
  · exact s.steady_finish
  split
  · exact .skip (h produced)
  split
  · exact .fail _
  · exact .now fun time time' => .give (s.untimed_item name version record time time') (h _)

theorem steady_fetchPages (s : Script) (name version : String) (pages : Nat)
    (page produced : UInt64) : (s.fetchPages name version pages page produced).Steady := by
  induction pages generalizing page produced with
  | zero => exact .done
  | succ pages ih =>
    refine .ask (s.request page) fun response => ?_
    cases response with
    | error e => exact .fail e
    | ok body =>
      dsimp only
      split
      · exact .fail _
      · exact s.steady_handle name version page produced _ fun produced => ih (page + 1) produced

theorem steady_fetch (s : Script) (name version : String) : (s.fetch name version).Steady := by
  unfold fetch
  generalize 2 ^ 64 = pages
  exact s.steady_fetchPages name version pages 0 0

end Script

/-- The fetches of scripted backends are steady, whatever the arguments are. -/
theorem Backend.steady_scripted (name version : String) (capabilities : Capabilities) :
    (scripted name version capabilities).Steady := by
  intro args built hbuilt
  change (Script.ofArgs args >>= fun s => pure _) = .ok built at hbuilt
  cases hscript : Script.ofArgs args with
  | error e =>
    rw [hscript] at hbuilt
    cases hbuilt
  | ok s =>
    rw [hscript] at hbuilt
    cases hbuilt
    exact s.steady_fetch name version

end Intake
