import Intake.Backend.Basic

/-!
# Scripted backends

A scripted backend makes up its records from its arguments, one record to a page. With it streams
and jobs can be tried out without a data source: it can leave records out, fail after some items,
or be offline.
-/

namespace Intake

/-- What a scripted backend is told to do. -/
structure Script where
  origin : String
  /-- How many records there are. -/
  items : UInt64 := 0
  /-- Fail where the next item would be given after so many. -/
  failAfter : Option UInt64 := none
  /-- Leave out the records of odd pages. -/
  skipOdd : Bool := false
  /-- Refuse every request. -/
  offline : Bool := false
  /-- What is said at the end of the fetch. -/
  extras : Option Json := none
deriving BEq

namespace Script

-- one meaning of powers, whatever is imported beside
attribute [local instance (high)] instPowNat

/-- The origin of a script that names none. -/
def defaultOrigin : String := "https://example.com/scripted"

/-- When the first record was changed, in seconds since the start of 1970; each further record was
changed a minute later. -/
def firstUpdate : Int64 := 1600000000

/-- The origin that arguments name. -/
def originOf (args : BackendArgs) : Except BackendError String :=
  match args.get? "origin" with
  | none => .ok defaultOrigin
  | some value =>
    match value.text? with
    | some origin => .ok origin
    | none => .error (.fetch ("invalid origin: " ++ value.written))

/-- The script that arguments tell. Of the arguments only the origin can be wrong; any other one of
the wrong kind counts as missing. -/
def ofArgs (args : BackendArgs) : Except BackendError Script := do
  let origin ← originOf args
  return {
    origin
    items := (args.get? "items" >>= Json.uint64?).getD 0
    failAfter := args.get? "fail_after" >>= Json.uint64?
    skipOdd := (args.get? "skip_odd" >>= Json.bool?).getD false
    offline := (args.get? "offline" >>= Json.bool?).getD false
    extras := args.get? "extras" }

/-! ## The data source -/

/-- The record on a page. -/
def record (page : UInt64) : Json := .record [
  ("id", .text s!"item-{page}"),
  ("updated_on", .ofInt64 (firstUpdate + page.toInt64 * 60)),
  ("offset", .ofUInt64 page)]

/-- The answer to a request: a record, or `null` on the pages after the last record. -/
def respond (s : Script) (request : Request) : Except BackendError String :=
  if s.offline then .error (.transport [request.uri ++ " is unreachable"])
  else
    match request.params.get? "page" >>= Json.uint64? with
    | none => .error (.fetch "missing page parameter")
    | some page => .ok (if s.items ≤ page then "null" else (record page).written)

/-! ## The fetch -/

/-- The request for a page. -/
def request (s : Script) (page : UInt64) : Request :=
  ({ uri := s.origin } : Request).withParam "page" (.ofUInt64 page)

/-- The item of a record. -/
def item (s : Script) (name version : String) (record : Json) (time : Instant) : Item where
  backendName := name
  backendVersion := version
  category := "item"
  origin := s.origin
  uuid := (record.get? "id" >>= Json.text?).getD ""
  updatedOn := (record.get? "updated_on" >>= Json.float?).getD 0
  timestamp := time.epochSeconds
  offset := some ((record.get? "offset" >>= Json.int64?).getD 0)
  data := record

/-- How the fetch ends. -/
def finish (s : Script) : Fetch := s.extras.elim .done (.remark · .done)

/-- What is done with the record on a page, if it is one; `next` goes on after so many items. -/
def handle (s : Script) (name version : String) (page produced : UInt64) (record : Json)
    (next : UInt64 → Fetch) : Fetch :=
  if record.isNull then s.finish
  else if s.skipOdd && page % 2 == 1 then .skip (next produced)
  else if s.failAfter == some produced then
    .fail (.fetch s!"scripted failure after {produced} items")
  else .now fun time => .give (s.item name version record time) (next (produced + 1))

/-- The fetch over as many pages as given, from one page on and after so many items. -/
def fetchPages (s : Script) (name version : String) : Nat → UInt64 → UInt64 → Fetch
  | 0, _, _ => .done
  | pages + 1, page, produced => .ask (s.request page) fun
    | .error e => .fail e
    | .ok body =>
      match Wire.json.ofString body with
      | .error e => .fail (.fetch (s!"malformed page {page}: " ++ e.message))
      | .ok record =>
        s.handle name version page produced record (s.fetchPages name version pages (page + 1))

/-- The fetch of a script. There are `2 ^ 64` numbers for pages, and the data source has no record
on the last page. -/
def fetch (s : Script) (name version : String) : Fetch :=
  s.fetchPages name version (2 ^ (64 : Nat)) 0 0

end Script

namespace Backend

/-- A scripted backend. -/
def scripted (name version : String) (capabilities : Capabilities) : Backend where
  name := name
  version := version
  categories := ["item"]
  capabilities := capabilities
  build args := do
    let s ← Script.ofArgs args
    return { origin := s.origin, fetch := s.fetch name version, transport := fun _ => s.respond }

/-- A scripted backend whose responses can be recorded, and whose fetches can be resumed. -/
def archiving : Backend := scripted "archiving" "0.1.0" .all

/-- A scripted backend that can do neither. -/
def plain : Backend := scripted "plain" "0.1.0" .none

end Backend

end Intake
