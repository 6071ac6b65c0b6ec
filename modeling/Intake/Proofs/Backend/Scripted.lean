import Intake.Backend.Scripted
import Intake.Proofs.Json.Parts
import Intake.Proofs.Stream.Drain
import Intake.Proofs.Wire.Records

/-!
# What a script does at its own data source

The fetch of a script goes over the pages of its data source in their order. What it does on each of
them depends on the number of the page and on how many items it gave before: it leaves the record
out, it fails, or it gives the record as an item. `Going.along` decides this for pages in a row, and
`Script.drain_fetchPages` says that the fetch does what is decided, from any page on: the two go
page by page, since a record is read as it was written (`Script.ofString_record`).

`Going.along_eq` is the decision in closed form: the pages that are kept are given up to the
failure, and left out are the other ones before the page of the failure.
-/

namespace Intake

-- one meaning of powers, whatever is imported beside
attribute [local instance (high)] instPowNat

/-! ## The decision -/

/-- What a script does on pages in a row: the pages whose records it gives, how many records it
leaves out, and whether it fails. -/
structure Going where
  given : List Nat := []
  skipped : Nat := 0
  failed : Bool := false

namespace Going

/-- The going with one more page given first. -/
def give (page : Nat) (g : Going) : Going := { g with given := page :: g.given }

/-- The going with one more record left out. -/
def skip (g : Going) : Going := { g with skipped := g.skipped + 1 }

/-- The going over some pages, of which those are left out that are not to be kept. `left` is how
many items are given before the failure, if there is to be one. -/
def along (keeps : Nat → Bool) : List Nat → Option Nat → Going
  | [], _ => {}
  | p :: pages, left =>
    if keeps p then
      if left = some 0 then { failed := true } else (along keeps pages (left.map (· - 1))).give p
    else (along keeps pages left).skip

variable {keeps : Nat → Bool}

/-- No page is both given and left out. -/
theorem length_along_le (keeps : Nat → Bool) (pages : List Nat) (left : Option Nat) :
    (along keeps pages left).given.length + (along keeps pages left).skipped ≤ pages.length := by
  induction pages generalizing left with
  | nil => exact Nat.le_refl 0
  | cons p pages ih =>
    rw [along, List.length_cons]
    split
    · split
      · exact Nat.zero_le _
      · have hrest := ih (left.map (· - 1))
        simp only [give, List.length_cons]
        omega
    · have hrest := ih left
      simp only [skip]
      omega

/-- The going in closed form. It comes to its failure at the page that is kept after so many other
ones, if there is such a page. -/
theorem along_eq {pages : List Nat} (hpages : pages.Pairwise (· < ·)) (left : Option Nat) :
    along keeps pages left =
      { given := left.elim (pages.filter keeps) (pages.filter keeps).take
        skipped := pages.countP fun q =>
          !keeps q && (left.bind ((pages.filter keeps)[·]?)).all (q < ·)
        failed := left.any (· < (pages.filter keeps).length) } := by
  induction pages generalizing left with
  | nil => cases left <;> simp [along]
  | cons p pages ih =>
    obtain ⟨hp, hpages⟩ := List.pairwise_cons.mp hpages
    rw [along]
    cases hkeep : keeps p with
    | false =>
      -- the page is before that of the failure, which is one of the pages after it
      have hbefore : (left.bind ((pages.filter keeps)[·]?)).all (p < ·) = true := by
        rw [Option.all_eq_true]
        intro e he
        obtain ⟨i, -, hi⟩ := Option.bind_eq_some_iff.mp he
        exact decide_eq_true (hp e (List.mem_filter.mp (List.mem_of_getElem? hi)).1)
      simp [skip, hkeep, ih hpages, hbefore]
    | true =>
      have hlater : ∀ q ∈ pages, ¬ q < p := fun q hq => Nat.lt_asymm (hp q hq)
      have hnone : pages.countP (fun q => !keeps q && decide (q < p)) = 0 :=
        List.countP_eq_zero.mpr fun q hq => by simp [hlater q hq]
      cases left with
      | none => simp [give, hkeep, ih hpages]
      | some n =>
        cases n with
        | zero => simp [hkeep, hnone]
        | succ n => simp [give, hkeep, ih hpages]

/-- The going that comes to its failure. -/
theorem along_of_getElem? {pages : List Nat} (hpages : pages.Pairwise (· < ·)) {f e : Nat}
    (he : (pages.filter keeps)[f]? = some e) :
    along keeps pages (some f) =
      { given := (pages.filter keeps).take f
        skipped := pages.countP fun q => decide (q ∉ pages.filter keeps ∧ q < e)
        failed := true } := by
  have hf : f < (pages.filter keeps).length := (List.getElem?_eq_some_iff.mp he).1
  have hcount : pages.countP (fun q => !keeps q && decide (q < e))
      = pages.countP fun q => decide (q ∉ pages.filter keeps ∧ q < e) :=
    List.countP_congr fun q hq => by simp [List.mem_filter, hq]
  rw [along_eq hpages, ← hcount]
  simp only [Option.elim_some, Option.bind_some, he, Option.all_some, Option.any_some, hf,
    decide_true]

/-- The going that comes to no failure. -/
theorem along_of_length_le {pages : List Nat} (hpages : pages.Pairwise (· < ·)) {left : Option Nat}
    (hleft : ∀ f, left = some f → (pages.filter keeps).length ≤ f) :
    along keeps pages left =
      { given := pages.filter keeps
        skipped := pages.length - (pages.filter keeps).length } := by
  have hcount : pages.countP (fun q => !keeps q) = pages.length - (pages.filter keeps).length := by
    have hsum := List.length_eq_countP_add_countP keeps (l := pages)
    rw [List.countP_eq_length_filter] at hsum
    simp only [Bool.not_eq_true, Bool.decide_eq_false] at hsum
    omega
  rw [along_eq hpages, ← hcount]
  cases left with
  | none => simp
  | some f =>
    have hle := hleft f rfl
    simp [List.take_of_length_le hle, hle]

end Going

/-- A value that does not nest too deep is read from its text. -/
theorem Wire.ofString_written {j : Json} (h : j.tree.depth ≤ Json.maxDepth) :
    Wire.json.ofString j.written = .ok j :=
  (ofString_encode Wire.json (Json.Tree.readsBack _)).trans (readsBack_json.mpr h)

namespace Script

variable {s : Script} {name version : String}

/-- The pages whose records are not left out. -/
def keeps (s : Script) (page : Nat) : Bool := !(s.skipOdd && page % 2 == 1)

/-! ## Records -/

/-- The text of a record is read as the record. -/
theorem ofString_record (page : UInt64) :
    Wire.json.ofString (record page).written = .ok (record page) := by
  have hdepth : (record page).tree.depth ≤ 0 + 1 := by
    refine Json.depth_record_le fun m hm => ?_
    simp only [List.mem_cons, List.not_mem_nil, or_false] at hm
    rcases hm with rfl | rfl | rfl <;> exact Nat.le_refl 0
  exact Wire.ofString_written (Nat.le_trans hdepth (by decide))

theorem ofString_null : Wire.json.ofString "null" = .ok .null := by
  have hwritten : Json.null.written = "null" := rfl
  rw [← hwritten]
  exact Wire.ofString_written (Nat.zero_le _)

theorem get?_record {page : UInt64} {m : String × Json}
    (hm : m ∈ [("id", .text s!"item-{page}"),
      ("updated_on", .ofInt64 (firstUpdate + page.toInt64 * 60)), ("offset", .ofUInt64 page)]) :
    (record page).get? m.1 = some m.2 := by
  refine Json.get?_record ?_ hm
  show ["id", "updated_on", "offset"].Nodup
  decide

/-- The item of a record has the name and the position of its page. -/
theorem item_record {page : Nat} (h : page < 2 ^ (63 : Nat)) (time : Instant) :
    (s.item name version (record (.ofNat page)) time).uuid = s!"item-{page}" ∧
      (s.item name version (record (.ofNat page)) time).offset = some (.ofNat page) := by
  have hpage : (UInt64.ofNat page).toNat = page :=
    UInt64.toNat_ofNat_of_lt' (Nat.lt_trans h (by decide))
  have hid : (record (.ofNat page)).get? "id" = some (.text s!"item-{UInt64.ofNat page}") :=
    get?_record (List.mem_cons_self ..)
  have hoffset : (record (.ofNat page)).get? "offset" = some (.ofUInt64 (.ofNat page)) :=
    get?_record (List.mem_cons_of_mem _ (List.mem_cons_of_mem _ (List.mem_cons_self ..)))
  constructor
  · show ((record (.ofNat page)).get? "id" >>= Json.text?).getD "" = _
    rw [hid]
    show s!"item-{(UInt64.ofNat page).toNat}" = _
    rw [hpage]
  · show some (((record (.ofNat page)).get? "offset" >>= Json.int64?).getD 0) = _
    rw [hoffset, Option.bind_eq_bind, Option.bind_some, Json.int64?_ofUInt64 (by rwa [hpage]),
      hpage]
    rfl

/-! ## Pages -/

/-- A source that asks the script's own data source and keeps nothing of the responses. -/
structure Serves (s : Script) (source : ResponseSource) : Prop where
  mode : source.mode = .live
  transport : ∀ asked, source.transport asked = s.respond

theorem respond_request (honline : s.offline = false) (page : UInt64) :
    s.respond (s.request page)
      = .ok (if s.items ≤ page then "null" else (record page).written) := by
  have hparam : (s.request page).params.get? "page" >>= Json.uint64? = some page := by
    rw [request, Request.withParam, Keyed.get?_insert_self, Option.bind_eq_bind, Option.bind_some,
      Json.uint64?_ofUInt64]
  simp [respond, honline, hparam]

/-- A fetch has asked for a page, and goes on with the response. -/
def afterAsking (s : Script) (page : UInt64) (p : FetchProgress) : FetchProgress :=
  { p with source := { p.source with asked := s.request page :: p.source.asked } }

theorem Serves.afterAsking {p : FetchProgress} (h : s.Serves p.source) (page : UInt64) :
    s.Serves (s.afterAsking page p).source := ⟨h.mode, h.transport⟩

/-- The fetch of a page goes on with the record on it, or with `null` after the last record. -/
theorem drain_page (honline : s.offline = false) {p : FetchProgress} (h : s.Serves p.source)
    (pages : Nat) (page produced : UInt64) :
    (s.fetchPages name version (pages + 1) page produced).drain p
      = (s.handle name version page produced (if s.items ≤ page then .null else record page)
          (s.fetchPages name version pages (page + 1))).drain (s.afterAsking page p) := by
  have hresponse : p.source.fetch (s.request page) p.workspace
      = (.ok (if s.items ≤ page then "null" else (record page).written),
          (s.afterAsking page p).source, p.workspace) := by
    rw [ResponseSource.fetch, h.mode]
    show (p.source.transport p.source.asked (s.request page), _, _) = _
    rw [h.transport, respond_request honline]
    rfl
  have hread : Wire.json.ofString (if s.items ≤ page then "null" else (record page).written)
      = .ok (if s.items ≤ page then .null else record page) := by
    split
    · exact ofString_null
    · exact ofString_record page
  rw [fetchPages, Fetch.drain, hresponse]
  simp only [hread]
  rfl

/-- What a fetch does that goes over pages as decided, after so many items and with a summary of
what was seen before. -/
structure Does (s : Script) (g : Going) (produced : Nat) (seen : FetchSummary) (c : FetchCourse) :
    Prop where
  items : c.items.map (fun i => (i.uuid, i.offset))
    = g.given.map fun q => (s!"item-{q}", some (Int64.ofNat q))
  error : c.error = if g.failed then
    some (.fetch s!"scripted failure after {produced + g.given.length} items") else none
  skipped : c.progress.summary.skipped = seen.skipped + .ofNat g.skipped
  extras : c.progress.summary.extras
    = if g.failed then seen.extras else s.extras.or seen.extras

namespace Does

variable {g : Going} {produced : Nat} {p : FetchProgress}

theorem finish (s : Script) (produced : Nat) (p : FetchProgress) :
    s.Does {} produced p.summary (s.finish.drain p) := by
  unfold Script.finish
  cases hextras : s.extras with
  | none => exact ⟨rfl, rfl, (UInt64.add_zero _).symm, by rw [hextras]; rfl⟩
  | some value => exact ⟨rfl, rfl, (UInt64.add_zero _).symm, by rw [hextras]; rfl⟩

theorem fail (s : Script) (produced : Nat) (p : FetchProgress) :
    s.Does { failed := true } produced p.summary
      ((Fetch.fail (.fetch s!"scripted failure after {produced} items")).drain p) :=
  ⟨rfl, rfl, (UInt64.add_zero _).symm, rfl⟩

theorem skip {next : Fetch} (h : ∀ q : FetchProgress, q.source = p.source →
      s.Does g produced q.summary (next.drain q)) :
    s.Does g.skip produced p.summary ((Fetch.skip next).drain p) := by
  have hnext := h { p with summary := p.summary.skip } rfl
  refine ⟨hnext.items, hnext.error, ?_, hnext.extras⟩
  calc ((Fetch.skip next).drain p).progress.summary.skipped
      = p.summary.skipped + 1 + .ofNat g.skipped := hnext.skipped
    _ = p.summary.skipped + .ofNat (g.skipped + 1) := by
        rw [UInt64.ofNat_add, UInt64.add_assoc, UInt64.add_comm 1]
        rfl

theorem give {item : Instant → Item} {page : Nat} {next : Fetch}
    (hitem : ∀ time, (item time).uuid = s!"item-{page}" ∧ (item time).offset = some (.ofNat page))
    (h : ∀ q : FetchProgress, q.source = p.source →
      s.Does g (produced + 1) q.summary (next.drain q)) :
    s.Does (g.give page) produced p.summary
      ((Fetch.now fun time => .give (item time) next).drain p) := by
  obtain ⟨huuid, hoffset⟩ := hitem p.workspace.supply.now.1
  have hnext := h ⟨p.source, p.summary.update (item p.workspace.supply.now.1),
    { p.workspace with supply := p.workspace.supply.now.2 }⟩ rfl
  have hcount : produced + 1 + g.given.length = produced + (page :: g.given).length := by
    rw [List.length_cons]
    omega
  refine ⟨?_, ?_, hnext.skipped, hnext.extras⟩
  · have hpair : ((item p.workspace.supply.now.1).uuid, (item p.workspace.supply.now.1).offset)
        = (s!"item-{page}", some (Int64.ofNat page)) := by rw [huuid, hoffset]
    exact congr (congrArg List.cons hpair) hnext.items
  · exact hcount ▸ hnext.error

end Does

/-- Numbers of pages and of items are as large as they are taken to be. -/
theorem toNat_ofNat {k : Nat} (h : k < 2 ^ (63 : Nat)) : (UInt64.ofNat k).toNat = k :=
  UInt64.toNat_ofNat_of_lt' (Nat.lt_trans h (by decide))

/-- What is done with the record on a page is decided by the number of the page and by how many
items are left before the failure. -/
theorem handle_record {k produced : Nat} (hk : k < 2 ^ (63 : Nat)) (hproduced : produced ≤ k)
    (hleft : ∀ f, s.failAfter = some f → produced ≤ f.toNat) (next : UInt64 → Fetch) :
    s.handle name version (.ofNat k) (.ofNat produced) (record (.ofNat k)) next =
      if s.keeps k then
        if s.failAfter.map (·.toNat - produced) = some 0 then
          .fail (.fetch s!"scripted failure after {produced} items")
        else .now fun time => .give (s.item name version (record (.ofNat k)) time)
          (next (.ofNat (produced + 1)))
      else .skip (next (.ofNat produced)) := by
  have hpage : (UInt64.ofNat k).toNat = k := toNat_ofNat hk
  have hcount : (UInt64.ofNat produced).toNat = produced :=
    toNat_ofNat (Nat.lt_of_le_of_lt hproduced hk)
  have hskips : (s.skipOdd && UInt64.ofNat k % 2 == 1) = !s.keeps k := by
    have hodd : (UInt64.ofNat k % 2 == 1) = (k % 2 == 1) := by
      rw [Bool.eq_iff_iff, beq_iff_eq, beq_iff_eq, ← UInt64.toNat_inj, UInt64.toNat_mod, hpage]
      exact Iff.rfl
    rw [keeps, hodd, Bool.not_not]
  have hfails : (s.failAfter == some (.ofNat produced)) = true
      ↔ s.failAfter.map (·.toNat - produced) = some 0 := by
    cases hfail : s.failAfter with
    | none => simp
    | some f =>
      have hle := hleft f hfail
      rw [Option.map_some, Option.some.injEq, beq_iff_eq, Option.some.injEq, ← UInt64.toNat_inj,
        hcount]
      omega
  have hmessage : s!"scripted failure after {UInt64.ofNat produced} items"
      = s!"scripted failure after {produced} items" := by
    show s!"scripted failure after {(UInt64.ofNat produced).toNat} items" = _
    rw [hcount]
  have hnull : (record (.ofNat k)).isNull = false := rfl
  have hnext : UInt64.ofNat produced + 1 = .ofNat (produced + 1) :=
    (UInt64.ofNat_add produced 1).symm
  rw [handle, hnull, if_neg Bool.false_ne_true, hskips, hmessage, hnext]
  cases hkeeps : s.keeps k with
  | false => rfl
  | true => simp only [hfails]; rfl

/-- The fetch goes over the pages from any one on as decided. -/
theorem drain_fetchPages (honline : s.offline = false) (hitems : s.items.toNat < 2 ^ (63 : Nat))
    {m k budget produced : Nat} (hk : k + m = s.items.toNat) (hbudget : m < budget)
    (hproduced : produced ≤ k) (hleft : ∀ f, s.failAfter = some f → produced ≤ f.toNat)
    {p : FetchProgress} (hserves : s.Serves p.source) :
    s.Does (.along s.keeps (List.range' k m) (s.failAfter.map (·.toNat - produced))) produced
      p.summary ((s.fetchPages name version budget (.ofNat k) (.ofNat produced)).drain p) := by
  induction m generalizing k budget produced p with
  | zero =>
    obtain ⟨budget, rfl⟩ := Nat.exists_eq_add_one_of_ne_zero (Nat.ne_of_gt hbudget)
    have hend : s.items ≤ .ofNat k := by
      rw [UInt64.le_iff_toNat_le, toNat_ofNat (by omega)]
      omega
    rw [drain_page honline hserves, if_pos hend]
    exact .finish s produced (s.afterAsking (.ofNat k) p)
  | succ m ih =>
    obtain ⟨budget, rfl⟩ :=
      Nat.exists_eq_add_one_of_ne_zero (Nat.ne_of_gt (Nat.zero_lt_of_lt hbudget))
    have hrecord : ¬ s.items ≤ .ofNat k := by
      rw [UInt64.le_iff_toNat_le, toNat_ofNat (by omega)]
      omega
    have hnext : UInt64.ofNat k + 1 = .ofNat (k + 1) := (UInt64.ofNat_add k 1).symm
    have hk' : k + 1 + m = s.items.toNat := by omega
    have hbudget' : m < budget := Nat.lt_of_succ_lt_succ hbudget
    have hserves' := hserves.afterAsking (.ofNat k)
    have hseen : p.summary = (s.afterAsking (.ofNat k) p).summary := rfl
    rw [drain_page honline hserves, if_neg hrecord, hnext, handle_record (by omega) hproduced hleft,
      List.range'_succ, Going.along, hseen]
    generalize s.afterAsking (.ofNat k) p = q at hserves' ⊢
    split
    · split
      · exact .fail s produced q
      · next hfail =>
        -- one item less is left before the failure
        have hleft' : ∀ f, s.failAfter = some f → produced + 1 ≤ f.toNat := by
          intro f hf
          have hle := hleft f hf
          rw [hf, Option.map_some, Option.some.injEq] at hfail
          omega
        have hone : (s.failAfter.map (·.toNat - produced)).map (· - 1)
            = s.failAfter.map (·.toNat - (produced + 1)) := by
          rw [Option.map_map]
          rfl
        rw [hone]
        refine .give (fun time => item_record (by omega) time) fun r hsource => ?_
        exact ih hk' hbudget' (Nat.succ_le_succ hproduced) hleft' (hsource ▸ hserves')
    · refine .skip fun r hsource => ?_
      exact ih hk' hbudget' (Nat.le_succ_of_le hproduced) hleft (hsource ▸ hserves')

/-- The whole fetch goes over all pages as decided. -/
theorem drain_fetch (honline : s.offline = false) (hitems : s.items.toNat < 2 ^ (63 : Nat))
    {p : FetchProgress} (hserves : s.Serves p.source) :
    s.Does (.along s.keeps (List.range s.items.toNat) (s.failAfter.map UInt64.toNat)) 0 p.summary
      ((s.fetch name version).drain p) := by
  have hbudget : s.items.toNat < 2 ^ (64 : Nat) := s.items.toNat_lt
  rw [List.range_eq_range']
  exact drain_fetchPages honline hitems (Nat.zero_add _) hbudget (Nat.le_refl 0)
    (fun _ _ => Nat.zero_le _) hserves

end Script

end Intake
