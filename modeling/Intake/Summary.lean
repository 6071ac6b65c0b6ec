import Intake.Item

/-!
# Summaries of a fetch

A summary counts the items and the skipped records of a fetch and keeps, of the items' update times
and of their positions, the least, the greatest and the latest one. These watermarks are what a
supervisor needs to watch a fetch or to go on with it later.

`FetchSummary.mapping` is the flat object that shows a summary, with times as seconds; `wire` is the
document that it is stored as.
-/

namespace Intake

/-- The least, the greatest and the latest of the values seen so far. -/
structure Watermarks (α : Type) where
  least : Option α := none
  greatest : Option α := none
  latest : Option α := none
deriving DecidableEq, BEq

/-- The marks after one more value. -/
def Watermarks.observe [LE α] [DecidableLE α] (w : Watermarks α) (a : α) : Watermarks α where
  least := some (w.least.elim a fun b => if b ≤ a then b else a)
  greatest := some (w.greatest.elim a fun b => if b ≤ a then a else b)
  latest := some a

/-- The marks after a value that may be missing. -/
def Watermarks.observe? [LE α] [DecidableLE α] (w : Watermarks α) : Option α → Watermarks α
  | none => w
  | some a => w.observe a

/-- Statistics of a fetch, in the order in which the items were seen. -/
structure FetchSummary where
  fetched : UInt64 := 0
  skipped : UInt64 := 0
  updates : Watermarks Instant := {}
  lastUuid : Option String := none
  offsets : Watermarks Int64 := {}
  /-- What the backend has to say when the fetch ends. -/
  extras : Option Json := none
deriving BEq

namespace FetchSummary

/-- The summary after one more item. -/
def update (s : FetchSummary) (item : Item) : FetchSummary :=
  { s with
    fetched := s.fetched + 1
    lastUuid := some item.uuid
    updates := s.updates.observe? item.updatedAt
    offsets := s.offsets.observe? item.offset }

/-- The summary after a record that the backend left out. -/
def skip (s : FetchSummary) : FetchSummary := { s with skipped := s.skipped + 1 }

/-- The summary with the backend's word on the fetch. -/
def setExtras (s : FetchSummary) (value : Json) : FetchSummary := { s with extras := some value }

/-- Whether anything was seen. -/
def hasObserved (s : FetchSummary) : Bool := 0 < s.fetched || 0 < s.skipped

/-- The summary as members of an object, with times as seconds since the start of 1970. -/
def statistics (s : FetchSummary) : List (String × Json) :=
  let time (t : Option Instant) : Json := .ofOption (fun t => .ofFloat t.epochSeconds) t
  [ ("fetched", .ofUInt64 s.fetched),
    ("skipped", .ofUInt64 s.skipped),
    ("min_updated_on", time s.updates.least),
    ("max_updated_on", time s.updates.greatest),
    ("last_updated_on", time s.updates.latest),
    ("last_uuid", .ofOption .text s.lastUuid),
    ("min_offset", .ofOption .ofInt64 s.offsets.least),
    ("max_offset", .ofOption .ofInt64 s.offsets.greatest),
    ("last_offset", .ofOption .ofInt64 s.offsets.latest),
    ("extras", s.extras.getD .null)]

/-- The summary as a flat object. -/
def mapping (s : FetchSummary) : Keyed Json := .ofList s.statistics

/-- The fields of the document in their order. -/
def fields :=
  Fields.cons (.required "fetched" .uint64) <|
  .cons (.required "skipped" .uint64) <|
  .cons (.optional "min_updated_on" .instant) <|
  .cons (.optional "max_updated_on" .instant) <|
  .cons (.optional "last_updated_on" .instant) <|
  .cons (.optional "last_uuid" .text) <|
  .cons (.optional "min_offset" .int64) <|
  .cons (.optional "max_offset" .int64) <|
  .cons (.optional "last_offset" .int64) <|
  .last (.optional "extras" .json)

/-- The document of a summary. -/
def wire : Wire FetchSummary :=
  (fields.record "FetchSummary").via
    (fun (fetched, skipped, minUpdate, maxUpdate, lastUpdate, lastUuid, minOffset, maxOffset,
        lastOffset, extras) =>
      { fetched, skipped, lastUuid, extras
        updates := ⟨minUpdate, maxUpdate, lastUpdate⟩
        offsets := ⟨minOffset, maxOffset, lastOffset⟩ })
    (fun s => (s.fetched, s.skipped, s.updates.least, s.updates.greatest, s.updates.latest,
      s.lastUuid, s.offsets.least, s.offsets.greatest, s.offsets.latest, s.extras))

end FetchSummary

end Intake
