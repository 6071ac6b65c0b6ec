import Intake.Proofs.Json.Strings
import Intake.Proofs.Wire.Records
import Intake.Request

/-!
# Keys of requests

Requests with one URI and the same parameters have one key, in whatever order the parameters were
put in. The other way round, a key settles the request as far as it can: the URI and the parameters
stand in it without any mark of where the one ends, and a request without parameters may have a URI
that reads like all of the key of another one (`Request.Spells`). Nothing else gives two requests
one key (`Request.archiveKey_ofParams`), for the question mark before the parameters stands outside
of every string, where a document has none.

Parameters are the same if they are written alike: the two zeros of the doubles are two values.
-/

namespace Intake

namespace Json

/-- An object is settled by its document. -/
theorem object_tree_inj {o p : Keyed Json} (h : (object o).tree = (object p).tree) : o = p := by
  have hentries : (o.map Json.tree).entries = (p.map Json.tree).entries := Tree.object.inj h
  rw [← Wire.objectOf_map_tree o, ← Wire.objectOf_map_tree p, hentries]

end Json

theorem Keyed.isEmpty_iff {α : Type} {m : Keyed α} : m.isEmpty = true ↔ m = .empty := by
  constructor
  · intro h
    have hentries : m.entries = [] := List.isEmpty_iff.mp h
    obtain ⟨entries, hascending⟩ := m
    cases hentries
    rfl
  · rintro rfl
    rfl

namespace Request

/-- The request for a URI with parameters put in one after the other. -/
def ofParams (uri : String) (params : List (String × Json)) : Request :=
  params.foldl (fun r p => r.withParam p.1 p.2) { uri }

/-- The URI of a request without parameters reads like the key of another request, which has
parameters. -/
structure Spells (r s : Request) : Prop where
  bare : r.params = .empty
  params : s.params ≠ .empty
  uri : r.uri = s.uri ++ "?" ++ (Json.object s.params).written

/-! ## What a request is -/

theorem ext {r s : Request} (huri : r.uri = s.uri) (hparams : r.params = s.params) : r = s := by
  obtain ⟨uri, params⟩ := r
  cases huri
  cases hparams
  rfl

theorem uri_foldl_withParam (r : Request) (params : List (String × Json)) :
    (params.foldl (fun r p => r.withParam p.1 p.2) r).uri = r.uri := by
  induction params generalizing r with
  | nil => rfl
  | cons p params ih => exact ih (r.withParam p.1 p.2)

theorem get?_foldl_withParam (r : Request) (params : List (String × Json)) (key : String) :
    (params.foldl (fun r p => r.withParam p.1 p.2) r).params.get? key
      = (Entries.get? key params.reverse).or (r.params.get? key) := by
  induction params generalizing r with
  | nil => rfl
  | cons p params ih =>
    obtain ⟨name, value⟩ := p
    rw [List.foldl_cons, ih, List.reverse_cons, Entries.get?_append, Option.or_assoc, withParam,
      Keyed.get?_insert, Entries.get?]
    split <;> rfl

theorem uri_ofParams (uri : String) (params : List (String × Json)) :
    (ofParams uri params).uri = uri :=
  uri_foldl_withParam _ params

/-- A parameter has the value that was put in last under its name. -/
theorem get?_ofParams (uri : String) (params : List (String × Json)) (key : String) :
    (ofParams uri params).params.get? key = Entries.get? key params.reverse := by
  rw [ofParams, get?_foldl_withParam, Keyed.get?_empty, Option.or_none]

/-- A request is settled by its URI and the last value under each name. -/
theorem ofParams_eq_iff {uri uri' : String} {params params' : List (String × Json)} :
    ofParams uri params = ofParams uri' params' ↔ uri = uri'
      ∧ ∀ key, Entries.get? key params.reverse = Entries.get? key params'.reverse := by
  constructor
  · intro h
    refine ⟨?_, fun key => ?_⟩
    · rw [← uri_ofParams uri params, h, uri_ofParams]
    · rw [← get?_ofParams uri, h, get?_ofParams]
  · rintro ⟨rfl, hparams⟩
    refine ext ?_ (Keyed.ext_get? fun key => ?_)
    · rw [uri_ofParams, uri_ofParams]
    · rw [get?_ofParams, get?_ofParams, hparams]

/-! ## Keys -/

theorem archiveKey_of_bare {r : Request} (h : r.params = .empty) : r.archiveKey = r.uri := by
  rw [archiveKey, if_pos (Keyed.isEmpty_iff.mpr h)]

theorem archiveKey_of_params {r : Request} (h : r.params ≠ .empty) :
    r.archiveKey = r.uri ++ "?" ++ (Json.object r.params).written := by
  rw [archiveKey, if_neg fun hempty => h (Keyed.isEmpty_iff.mp hempty)]

theorem toList_archiveKey {r : Request} (h : r.params ≠ .empty) :
    r.archiveKey.toList = r.uri.toList ++ '?' :: (Json.object r.params).tree.chars := by
  have hmark : "?".toList = ['?'] := rfl
  rw [archiveKey_of_params h, Json.written, Json.Tree.compact, String.toList_append,
    String.toList_append, hmark, String.toList_ofList, List.append_assoc]
  rfl

/-- Requests with parameters have one key only if they are equal. -/
theorem eq_of_archiveKey_eq {r s : Request} (hr : r.params ≠ .empty) (hs : s.params ≠ .empty)
    (h : r.archiveKey = s.archiveKey) : r = s := by
  have hchars := congrArg String.toList h
  rw [toList_archiveKey hr, toList_archiveKey hs] at hchars
  obtain ⟨huri, htree⟩ := Json.Tree.append_chars_inj hchars
  exact ext (String.toList_inj.mp huri) (Json.object_tree_inj htree)

/-- Requests have one key only if they are equal or one of them spells out the other one. -/
theorem archiveKey_eq_iff {r s : Request} :
    r.archiveKey = s.archiveKey ↔ r = s ∨ r.Spells s ∨ s.Spells r := by
  constructor
  · intro h
    by_cases hr : r.params = .empty <;> by_cases hs : s.params = .empty
    · rw [archiveKey_of_bare hr, archiveKey_of_bare hs] at h
      exact .inl (ext h (hr.trans hs.symm))
    · rw [archiveKey_of_bare hr, archiveKey_of_params hs] at h
      exact .inr (.inl ⟨hr, hs, h⟩)
    · rw [archiveKey_of_params hr, archiveKey_of_bare hs] at h
      exact .inr (.inr ⟨hs, hr, h.symm⟩)
    · exact .inl (eq_of_archiveKey_eq hr hs h)
  · rintro (rfl | ⟨hbare, hparams, huri⟩ | ⟨hbare, hparams, huri⟩)
    · rfl
    · rw [archiveKey_of_bare hbare, archiveKey_of_params hparams, huri]
    · rw [archiveKey_of_bare hbare, archiveKey_of_params hparams, huri]

/-- Requests are equal if they have one URI and the same last value under each name. They have one
key if they are equal, and else only if one of them has no parameters and spells out the other one.
Of two requests with parameters none does. -/
theorem archiveKey_ofParams (uri uri' : String) (params params' : List (String × Json)) :
    let r := ofParams uri params
    let s := ofParams uri' params'
    (r = s ↔ uri = uri'
        ∧ ∀ key, Entries.get? key params.reverse = Entries.get? key params'.reverse)
      ∧ (r.archiveKey = s.archiveKey ↔ r = s ∨ r.Spells s ∨ s.Spells r)
      ∧ (r.params ≠ .empty → s.params ≠ .empty → (r.archiveKey = s.archiveKey ↔ r = s)) := by
  intro r s
  refine ⟨ofParams_eq_iff, archiveKey_eq_iff, fun hr hs => ?_⟩
  exact ⟨eq_of_archiveKey_eq hr hs, congrArg archiveKey⟩

/-- A URI that holds a document, and a parameter whose text goes on like one, make no second request
with the key. -/
theorem archiveKey_ne_of_params :
    let r := ofParams "u?\x7b\"a\":\"" [("a", .text "?")]
    let s := ofParams "u" [("a", .text "?\x7b\"a\":\"?\"\x7d")]
    r.params ≠ .empty ∧ s.params ≠ .empty ∧ r.archiveKey ≠ s.archiveKey := by
  intro r s
  have hr : r.params ≠ .empty := fun h => by cases congrArg Keyed.size h
  have hs : s.params ≠ .empty := fun h => by cases congrArg Keyed.size h
  refine ⟨hr, hs, fun hkey => ?_⟩
  have hsame : r = s := ((archiveKey_ofParams _ _ _ _).2.2 hr hs).mp hkey
  have huri := congrArg Request.uri hsame
  simp [r, s, uri_ofParams] at huri

end Request

end Intake
