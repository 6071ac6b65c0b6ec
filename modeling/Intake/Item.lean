import Intake.Id
import Intake.Wire.Record

/-!
# Items

An item is one fetched record. Thirteen fields are fixed; what else a backend has to say goes into
`extras`, whose members stand among the fixed fields in the document of the item.

`Item.wire` is that document. Reading takes every member that is no fixed field into the extras.
-/

namespace Intake

open Intake.Json (Tree Draft)

/-- A fetched record. -/
structure Item where
  backendName : String
  backendVersion : String
  category : String
  origin : String
  /-- The name of the record within its origin. -/
  uuid : String
  /-- When the record was last changed at the source, in seconds since the start of 1970. -/
  updatedOn : Float
  /-- When the record was fetched, in seconds since the start of 1970. -/
  timestamp : Float
  /-- The position of the record, for sources that are read by position. -/
  offset : Option Int64 := none
  tag : Option String := none
  searchFields : Keyed Json := .empty
  data : Json
  /-- The version of the runner that forwarded the item. -/
  runnerVersion : Option String := none
  /-- The job that forwarded the item. -/
  jobId : Option JobId := none
  extras : Keyed Json := .empty
deriving BEq

namespace Item

/-! ## Building -/

/-- The item with a position. -/
def withOffset (item : Item) (offset : Int64) : Item := { item with offset := some offset }

/-- The item with a tag. -/
def withTag (item : Item) (tag : String) : Item := { item with tag := some tag }

/-- The item with one more member among the extras. -/
def withExtra (item : Item) (key : String) (value : Json) : Item :=
  { item with extras := item.extras.insert key value }

/-- The item with one more search field. -/
def withSearchField (item : Item) (key : String) (value : Json) : Item :=
  { item with searchFields := item.searchFields.insert key value }

/-- The item stamped with the runner's version and the job that forwards it. -/
def annotate (item : Item) (version : String) (jobId : JobId) : Item :=
  { item with runnerVersion := some version, jobId := some jobId }

/-- The instant of the last change at the source, if it is one. -/
def updatedAt (item : Item) : Option Instant := Instant.ofEpochSeconds? item.updatedOn

/-! ## The document of an item -/

/-- The types of the fixed fields. -/
abbrev Fixed : Type :=
  String × String × String × String × String × Float × Float × Option Int64 × Option String
    × Keyed Json × Json × Option String × Option JobId

/-- The fixed fields in the order of the document. -/
def fields : Fields Fixed :=
  .cons (.required "backend_name" .text) <|
  .cons (.required "backend_version" .text) <|
  .cons (.required "category" .text) <|
  .cons (.required "origin" .text) <|
  .cons (.required "uuid" .text) <|
  .cons (.required "updated_on" .float) <|
  .cons (.required "timestamp" .float) <|
  .cons (.omittable "offset" .int64) <|
  .cons (.omittable "tag" .text) <|
  .cons (.defaulted "search_fields" .object .empty) <|
  .cons (.required "data" .json) <|
  .cons (.omittable "harvest_version" .text) <|
  .last (.omittable "job_id" JobId.wire)

/-- The values of the fixed fields. -/
def fixed (i : Item) : Fixed :=
  (i.backendName, i.backendVersion, i.category, i.origin, i.uuid, i.updatedOn, i.timestamp,
    i.offset, i.tag, i.searchFields, i.data, i.runnerVersion, i.jobId)

/-- The item with these fixed fields and extras. -/
def ofFixed : Fixed → Keyed Json → Item
  | (backendName, backendVersion, category, origin, uuid, updatedOn, timestamp, offset, tag,
      searchFields, data, runnerVersion, jobId), extras =>
    { backendName, backendVersion, category, origin, uuid, updatedOn, timestamp, offset, tag,
      searchFields, data, runnerVersion, jobId, extras }

/-- The members of an object that are no fixed fields. -/
def extraMembers (members : List (Option String × Draft)) : List (Option String × Draft) :=
  members.filter fun m => !(m.1.any fun key => fields.names.contains key)

/-- Reads a member that is no fixed field, for its faults only. -/
def checkExtra (room : Nat) (d : Draft) : Except DecodeError Unit :=
  (d.toTree? room).elim (.error .malformed) fun _ => .ok ()

/-- The document of an item: the fixed fields, and after them the extras. -/
def wire : Wire Item where
  write i := .object (fields.write i.fixed ++ (i.extras.map Json.tree).entries)
  read room
    | .object members closed => do
      let room ← Wire.enter room
      fields.walk (checkExtra room) room closed [] members
      let fixed ← fields.gather room members
      let extras ←
        (Draft.membersToTree? room (extraMembers members)).elim (.error .malformed) .ok
      return ofFixed fixed (Wire.objectOf extras)
    | d => Wire.refuse (.record "Item") d

/-- The octets that stand for an item in a queue. -/
def toBytes (i : Item) : ByteArray := wire.toBytes i

/-- The item that the octets of a queue entry stand for. -/
def ofBytes (bytes : ByteArray) : Except QueueError Item :=
  (wire.ofBytes bytes).mapError fun e => .serialization e.message

end Item

end Intake
