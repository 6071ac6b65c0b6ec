import Intake.Backend.Basic
import Intake.Json.Double

/-!
# Backends with pages from their arguments

A paged backend is given its whole data source in its arguments: the texts that stand on the
pages, and in them what the fetch is to do. A page can hold different texts one request after the
other, and it can refuse.

Each page is a document that may name records to skip, a remark, the page to go to, a failure and an
item. With such pages every course of a fetch can be written down as data.
-/

namespace Intake

namespace Paged

/-! ## The data source -/

/-- The page that a request asks for; the first one if it names none. -/
def pageOf (request : Request) : UInt64 := (request.params.get? "page" >>= Json.uint64?).getD 0

/-- What a page answers: a text, or the reasons for which it cannot be reached. -/
def answer? (entry : Json) : Option (Except BackendError String) :=
  match entry.text? with
  | some body => some (.ok body)
  | none => (entry.get? "chain" >>= Json.items?).map fun reasons =>
      .error (.transport (reasons.map fun r => r.text?.getD ""))

/-- What stands on a page when it is asked for after `before` other times. Where a page has several
texts the last one stays. -/
def entryAt? (page : Json) (before : Nat) : Option Json :=
  match page.items? with
  | none => some page
  | some entries => entries[before]?.or entries.getLast?

/-- The answer to a request after earlier ones. -/
def transport (pages : List Json) : Transport := fun asked request =>
  let n := pageOf request
  let before := asked.countP fun r => pageOf r == n
  ((pages[n.toNat]? >>= (entryAt? · before)) >>= answer?).getD
    (.error (.fetch s!"no page {n}"))

/-! ## The fetch -/

/-- The item on a page, with what the page says about it. -/
def itemOf (page value : Json) (replaying : Bool) : Except BackendError Item :=
  match Item.wire.read Json.maxDepth (.ofTree value.tree) with
  | .error _ => .error (.fetch "bad item")
  | .ok item =>
    let item := (page.get? "updated_on").elim item fun x => { item with updatedOn := x.toDouble }
    .ok (if page.get? "mark" >>= Json.bool? == some true then
      item.withExtra "replaying" (.bool replaying) else item)

/-- Gives the item on a page if there is one. -/
def giveItem (page : Json) (next : Fetch) : Fetch :=
  match page.get? "item" with
  | none => next
  | some value => .replaying fun replaying =>
    match itemOf page value replaying with
    | .error e => .fail e
    | .ok item => .give item next

/-- Notes some records that were left out. -/
def skipping : Nat → Fetch → Fetch
  | 0, next => next
  | n + 1, next => skipping n (.skip next)

/-- What a page says is to be done: first to skip records, then to make a remark, to fail and to
give an item. -/
def perform (page : Json) (next : Fetch) : Fetch :=
  -- a page that fails has been skipped from and remarked on before
  let skipped := (page.get? "skip" >>= Json.uint64?).getD 0
  let rest := (page.get? "fail" >>= Json.text?).elim (giveItem page next) (.fail <| .fetch ·)
  skipping skipped.toNat ((page.get? "extras").elim rest (.remark · rest))

/-- How many requests a fetch may make. -/
def requestLimit : Nat := 200

/-- The fetch with some requests left, from one page on. A page that is `null` is the end. -/
def fetchPages (origin : String) : Nat → UInt64 → Fetch
  | 0, _ => .fail (.fetch "request limit")
  | left + 1, n =>
    .ask (({ uri := origin } : Request).withParam "page" (.ofUInt64 n)) fun
      | .error e => .fail e
      | .ok body =>
        match Json.ofText? body with
        | none => .fail (.fetch "page is not JSON")
        | some page =>
          if page.isNull then .done
          else perform page
            (fetchPages origin left ((page.get? "goto" >>= Json.uint64?).getD (n + 1)))

/-- A paged backend set up with an origin and pages. -/
def build (args : BackendArgs) : Except BackendError BackendInstance :=
  match args.get? "origin" >>= Json.text? with
  | none => .error (.fetch "origin required")
  | some origin => .ok {
      origin
      fetch := fetchPages origin requestLimit 0
      transport := transport ((args.get? "pages" >>= Json.items?).getD []) }

end Paged

end Intake
