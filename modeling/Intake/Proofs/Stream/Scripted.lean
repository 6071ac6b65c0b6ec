import Intake.Proofs.Backend.Scripted
import Intake.Proofs.Stream.Counts
import Intake.Proofs.Stream.Start

/-!
# Streams of a scripted backend

A stream that fetches live from a scripted backend has a course that its arguments tell in closed
form (`ItemStream.scripted_course`). The pages that are kept are given in their order, up to the
failure if the arguments ask for one and there are more pages than that. At its end the stream shows
a summary of the pages that it gave (`FetchSummary.OfPages`) and of the ones it left out.
-/

namespace Intake

-- one meaning of powers, whatever is imported beside
attribute [local instance (high)] instPowNat

/-! ## Scripts and their arguments -/

/-- Arguments whose origin is a text tell a script. -/
theorem Script.ofArgs_eq_ok {args : BackendArgs}
    (horigin : ∀ value, args.get? "origin" = some value → value.text?.isSome = true) :
    ∃ origin, Script.ofArgs args = .ok {
      origin
      items := (args.get? "items" >>= Json.uint64?).getD 0
      failAfter := args.get? "fail_after" >>= Json.uint64?
      skipOdd := (args.get? "skip_odd" >>= Json.bool?).getD false
      offline := (args.get? "offline" >>= Json.bool?).getD false
      extras := args.get? "extras" } := by
  have hok : ∃ origin, Script.originOf args = .ok origin := by
    unfold Script.originOf
    cases hvalue : args.get? "origin" with
    | none => exact ⟨_, rfl⟩
    | some value =>
      obtain ⟨origin, htext⟩ := Option.isSome_iff_exists.mp (horigin value hvalue)
      exact ⟨origin, by simp only [htext]⟩
  obtain ⟨origin, horigin⟩ := hok
  exact ⟨origin, by rw [Script.ofArgs, horigin]; rfl⟩

/-! ## Summaries -/

/-- A summary of the items on some pages, given in this order, of records that were left out, and of
what was said at the end. -/
structure FetchSummary.OfPages (s : FetchSummary) (pages : List Nat) (skipped : Nat)
    (extras : Option Json) : Prop where
  fetched : s.fetched.toNat = pages.length
  skipped : s.skipped.toNat = skipped
  lastUuid : s.lastUuid = pages.getLast?.map fun p => s!"item-{p}"
  offsets : s.offsets = .of (pages.map Int64.ofNat)
  extras : s.extras = extras

/-- The course of a stream that gives the items on some pages in this order and then fails or ends,
with what it has seen. The summary is shown unless the stream failed before it saw anything. -/
structure StreamCourse.OfPages (c : StreamCourse) (pages : List Nat)
    (failure : Option BackendError) (skipped : Nat) (extras : Option Json) : Prop where
  items : c.items.map (fun i => (i.uuid, i.offset))
    = pages.map fun p => (s!"item-{p}", some (Int64.ofNat p))
  error : c.error = failure
  state : c.stream.state = if failure.isSome then .failed else .exhausted
  seen : c.stream.seen.OfPages pages skipped extras
  summary : c.stream.summary
    = if failure.isSome ∧ pages = [] ∧ skipped = 0 then none else some c.stream.seen

/-- What a summary tells of items that are those of some pages. -/
theorem FetchSummary.ofPages_of_items {s : FetchSummary} {items : List Item} {pages : List Nat}
    (hseen : s.items = .ofItems items) (hpages : pages.length < 2 ^ (64 : Nat))
    (hitems : items.map (fun i => (i.uuid, i.offset))
      = pages.map fun p => (s!"item-{p}", some (Int64.ofNat p))) :
    s.OfPages pages s.skipped.toNat s.extras := by
  have hlength : items.length = pages.length := by simpa using congrArg List.length hitems
  have huuids : items.map Item.uuid = pages.map fun p => s!"item-{p}" := by
    have hfirst := congrArg (List.map Prod.fst) hitems
    rw [List.map_map, List.map_map] at hfirst
    exact hfirst
  have hoffsets : items.map Item.offset = pages.map fun p => some (Int64.ofNat p) := by
    have hsecond := congrArg (List.map Prod.snd) hitems
    rw [List.map_map, List.map_map] at hsecond
    exact hsecond
  refine ⟨?_, rfl, ?_, ?_, rfl⟩
  · show s.items.fetched.toNat = _
    rw [hseen]
    show (UInt64.ofNat items.length).toNat = _
    rw [hlength, UInt64.toNat_ofNat_of_lt' hpages]
  · show s.items.lastUuid = _
    rw [hseen]
    show items.getLast?.map Item.uuid = _
    rw [← List.getLast?_map, huuids, List.getLast?_map]
  · show s.items.offsets = _
    have hfound : items.filterMap Item.offset = pages.map Int64.ofNat := by
      calc items.filterMap Item.offset = (items.map Item.offset).filterMap id := by
            rw [List.filterMap_map]
            rfl
        _ = pages.map Int64.ofNat := by
            rw [hoffsets, List.filterMap_map]
            exact congrFun List.filterMap_eq_map pages
    rw [hseen]
    show Watermarks.of (items.filterMap Item.offset) = _
    rw [hfound]

namespace ItemStream

theorem summary_of_ofPages {s : ItemStream} {pages : List Nat} {skipped : Nat}
    {extras : Option Json} (hseen : s.seen.OfPages pages skipped extras)
    {failure : Option BackendError}
    (hstate : s.state = if failure.isSome then .failed else .exhausted) :
    s.summary = if failure.isSome ∧ pages = [] ∧ skipped = 0 then none else some s.seen := by
  have hpos : ∀ k : UInt64, decide (0 < k) = decide (k.toNat ≠ 0) := by
    intro k
    rw [decide_eq_decide, UInt64.lt_iff_toNat_lt]
    exact Nat.pos_iff_ne_zero
  rw [summary, FetchSummary.hasObserved, isExhausted, hstate, hpos, hpos, hseen.fetched,
    hseen.skipped]
  cases failure with
  | none => simp
  | some e =>
    cases pages with
    | nil => cases skipped <;> simp
    | cons p pages => simp

/-- A stream without an archive begins with the fetch of its backend. -/
theorem start_scripted {name version : String} {capabilities : Capabilities} {args : BackendArgs}
    {script : Script} (hscript : Script.ofArgs args = .ok script) (after : Option Instant)
    (w : Workspace) :
    start (Backend.scripted name version capabilities) args "item" { archivedAfter := after } w
      = (.ok (resume { backend := Backend.scripted name version capabilities, category := "item" }
          (script.fetch name version) ⟨⟨fun _ => script.respond, .live, []⟩, {}, w⟩), w) := by
  have hbuild : (Backend.scripted name version capabilities).build args = .ok
      ⟨script.origin, script.fetch name version, fun _ => script.respond⟩ := by
    simp only [Backend.scripted, hscript]
    rfl
  exact start_live hbuild rfl after w

section Course

variable {blank s : ItemStream} {name version : String} {script : Script} {source : ResponseSource}
  {w : Workspace}

/-- The course of a stream that goes over the pages of a script as decided. -/
theorem drain_scripted (hs : s = blank.resume (script.fetch name version) ⟨source, {}, w⟩)
    (hstate : blank.state = .streaming) (hpending : blank.pending = [])
    (hserves : script.Serves source) (honline : script.offline = false)
    (hitems : script.items.toNat < 2 ^ (63 : Nat)) {g : Going}
    (hg : .along script.keeps (List.range script.items.toNat) (script.failAfter.map UInt64.toNat)
      = g) :
    (s.drain w).OfPages g.given
      (if g.failed then some (.fetch s!"scripted failure after {g.given.length} items") else none)
      g.skipped (if g.failed then none else script.extras) := by
  have hdoes : script.Does g 0 {} ((script.fetch name version).drain ⟨source, {}, w⟩) :=
    hg ▸ Script.drain_fetch honline hitems (p := ⟨source, {}, w⟩) hserves
  have hcount : g.given.length + g.skipped ≤ script.items.toNat := by
    have hle := Going.length_along_le script.keeps (List.range script.items.toNat)
      (script.failAfter.map UInt64.toNat)
    rwa [hg, List.length_range] at hle
  have hsmall : ∀ k ≤ script.items.toNat, k < 2 ^ (64 : Nat) := fun k hk =>
    Nat.lt_of_le_of_lt hk script.items.toNat_lt
  have htold : (s.drain w).stream.seen.items = .ofItems (s.drain w).items := by
    rw [items_drain, hs]
    exact FetchSummary.foldl_update_ofItems [] _
  obtain ⟨t, hdrain, hseen, hended⟩ := drain_resume_of_pending_nil hstate hpending
    (script.fetch name version) ⟨source, {}, w⟩
  rw [← hs] at hdrain
  change s.drain w = _ at hdrain
  rw [hdrain] at htold ⊢
  generalize (script.fetch name version).drain ⟨source, {}, w⟩ = d at hdoes hseen hended htold ⊢
  have hpages := FetchSummary.ofPages_of_items htold (hsmall _ (by omega)) hdoes.items
  have hskipped : t.seen.skipped.toNat = g.skipped := by
    rw [hseen, hdoes.skipped]
    show (0 + UInt64.ofNat g.skipped).toNat = _
    rw [UInt64.zero_add, UInt64.toNat_ofNat_of_lt' (hsmall _ (by omega))]
  have herror : d.error = if g.failed then
      some (.fetch s!"scripted failure after {g.given.length} items") else none := by
    rw [← Nat.zero_add g.given.length]
    exact hdoes.error
  rw [herror] at hended
  refine ⟨hdoes.items, herror, hended, { hpages with skipped := hskipped, extras := ?_ }, ?_⟩
  · show t.seen.extras = _
    rw [hseen, hdoes.extras]
    cases g.failed with
    | true => rfl
    | false => exact Option.or_none
  · exact summary_of_ofPages (s := t) { hpages with skipped := hskipped } hended

/-- A stream that comes to the failure of its script. -/
theorem drain_scripted_of_getElem?
    (hs : s = blank.resume (script.fetch name version) ⟨source, {}, w⟩)
    (hstate : blank.state = .streaming) (hpending : blank.pending = [])
    (hserves : script.Serves source) (honline : script.offline = false)
    (hitems : script.items.toNat < 2 ^ (63 : Nat)) {kept : List Nat}
    (hkept : (List.range script.items.toNat).filter script.keeps = kept) {f : UInt64} {e : Nat}
    (hf : script.failAfter = some f) (he : kept[f.toNat]? = some e) :
    (s.drain w).OfPages (kept.take f.toNat)
      (some (.fetch s!"scripted failure after {f} items"))
      ((List.range script.items.toNat).countP fun p => p ∉ kept ∧ p < e) none := by
  have halong := Going.along_of_getElem? List.pairwise_lt_range (hkept ▸ he)
  have hleft : script.failAfter.map UInt64.toNat = some f.toNat := by
    rw [hf]
    rfl
  rw [hkept, ← hleft] at halong
  have hgoing := drain_scripted hs hstate hpending hserves honline hitems halong
  have hcount : (kept.take f.toNat).length = f.toNat := by
    rw [List.length_take]
    exact Nat.min_eq_left (Nat.le_of_lt (List.getElem?_eq_some_iff.mp he).1)
  have hmessage : s!"scripted failure after {f} items"
      = s!"scripted failure after {(kept.take f.toNat).length} items" := by
    rw [hcount]
    rfl
  rw [hmessage]
  exact hgoing

/-- A stream that gives all there is to give. -/
theorem drain_scripted_of_length_le
    (hs : s = blank.resume (script.fetch name version) ⟨source, {}, w⟩)
    (hstate : blank.state = .streaming) (hpending : blank.pending = [])
    (hserves : script.Serves source) (honline : script.offline = false)
    (hitems : script.items.toNat < 2 ^ (63 : Nat)) {kept : List Nat}
    (hkept : (List.range script.items.toNat).filter script.keeps = kept)
    (hall : ∀ f, script.failAfter = some f → kept.length ≤ f.toNat) :
    (s.drain w).OfPages kept none (script.items.toNat - kept.length) script.extras := by
  have hleft : ∀ f, script.failAfter.map UInt64.toNat = some f →
      ((List.range script.items.toNat).filter script.keeps).length ≤ f := by
    intro k hk
    obtain ⟨f, hf, rfl⟩ := Option.map_eq_some_iff.mp hk
    exact hkept ▸ hall f hf
  have halong := Going.along_of_length_le List.pairwise_lt_range hleft
  rw [hkept, List.length_range] at halong
  exact drain_scripted hs hstate hpending hserves honline hitems halong

end Course

/-- The course of a live stream, from its arguments: `kept` are the pages whose records are not left
out. If the arguments ask for a failure after so many items and there are more pages to give, the
stream fails at the next of them; otherwise it gives them all and ends. -/
theorem scripted_course {name version : String} {capabilities : Capabilities} {args : BackendArgs}
    (horigin : ∀ value, args.get? "origin" = some value → value.text?.isSome = true)
    (honline : args.get? "offline" >>= Json.bool? ≠ some true)
    (hsmall : ((args.get? "items" >>= Json.uint64?).getD 0).toNat * 60 + 1600000000
      < 2 ^ (63 : Nat))
    (after : Option Instant) (w : Workspace) :
    let n := ((args.get? "items" >>= Json.uint64?).getD 0).toNat
    let kept := (List.range n).filter fun p =>
      p % 2 = 0 ∨ args.get? "skip_odd" >>= Json.bool? ≠ some true
    let failAfter := args.get? "fail_after" >>= Json.uint64?
    ∃ s, start (Backend.scripted name version capabilities) args "item"
        { archivedAfter := after } w = (.ok s, w) ∧
      (∀ f e, failAfter = some f → kept[f.toNat]? = some e →
        (s.drain w).OfPages (kept.take f.toNat)
          (some (.fetch s!"scripted failure after {f} items"))
          ((List.range n).countP fun p => p ∉ kept ∧ p < e) none) ∧
      ((∀ f, failAfter = some f → kept.length ≤ f.toNat) →
        (s.drain w).OfPages kept none (n - kept.length) (args.get? "extras")) := by
  intro n kept failAfter
  obtain ⟨origin, hscript⟩ := Script.ofArgs_eq_ok horigin
  generalize hs : Script.mk origin _ _ _ _ _ = script at hscript
  have hn : script.items.toNat = n := by rw [← hs]
  have hfail : script.failAfter = failAfter := by rw [← hs]
  have hextras : script.extras = args.get? "extras" := by rw [← hs]
  have honline' : script.offline = false := by
    rw [← hs]
    show (args.get? "offline" >>= Json.bool?).getD false = false
    rcases h : args.get? "offline" >>= Json.bool? with _ | _ | _
    · rfl
    · rfl
    · exact absurd h honline
  have hkept : (List.range n).filter script.keeps = kept := by
    refine List.filter_congr fun p _ => ?_
    have hskip : script.skipOdd = decide (args.get? "skip_odd" >>= Json.bool? = some true) := by
      rw [← hs]
      show (args.get? "skip_odd" >>= Json.bool?).getD false = _
      rcases args.get? "skip_odd" >>= Json.bool? with _ | _ | _ <;> rfl
    rw [Script.keeps, hskip, Bool.eq_iff_iff]
    simp [or_comm]
  have hitems : script.items.toNat < 2 ^ (63 : Nat) := by omega
  have hserves : script.Serves ⟨fun _ => script.respond, .live, []⟩ := ⟨rfl, fun _ => rfl⟩
  refine ⟨_, start_scripted hscript after w, fun f e hf he => ?_, fun hall => ?_⟩
  · rw [← hn] at hkept ⊢
    exact drain_scripted_of_getElem? rfl rfl rfl hserves honline' hitems hkept (hfail.trans hf) he
  · rw [← hn] at hkept ⊢
    rw [← hextras]
    exact drain_scripted_of_length_le rfl rfl rfl hserves honline' hitems hkept (hfail ▸ hall)

/-- Of three pages that are kept the stream gives two, and the two that it leaves out are before the
page of the failure, which is the last one. -/
theorem scripted_course_to_last_page :
    let args : BackendArgs := .ofList
      [("items", .ofUInt64 5), ("skip_odd", .bool true), ("fail_after", .ofUInt64 2)]
    let w : Workspace :=
      { supply := { clock := fun _ => .epoch, identifiers := fun _ => .sequential 0 0 } }
    ∃ s, start .plain args "item" {} w = (.ok s, w) ∧
      (s.drain w).OfPages [0, 2] (some (.fetch "scripted failure after 2 items")) 2 none := by
  intro args w
  have horigin : ∀ value, args.get? "origin" = some value → value.text?.isSome = true := by
    rintro value ⟨⟩
  have honline : args.get? "offline" >>= Json.bool? ≠ some true := by decide
  have hsmall : ((args.get? "items" >>= Json.uint64?).getD 0).toNat * 60 + 1600000000
      < 2 ^ (63 : Nat) := by
    decide
  obtain ⟨s, hs, hfails, -⟩ :=
    @scripted_course "plain" "0.1.0" .none args horigin honline hsmall none w
  exact ⟨s, hs, hfails 2 4 rfl rfl⟩

end ItemStream

end Intake
