import Intake.Uuid

/-!
# Reading a written identifier

A text is read as an identifier exactly when it is one of the identifier's spellings
(`Uuid.parse_eq_ok_iff`): the thirty-two digits, the five groups that hyphens join, the groups in
braces, or the groups after the mark of a URN (`Uuid.Spells`). The reader looks for a spelling by
the length of the text in octets, so what carries the proof is that every character a spelling may
have is one octet long, and that no spelling has the length of another.

The written form is one of the spellings, so an identifier is read back from it
(`Uuid.parse_text`).
-/

namespace Intake.Uuid

open Intake.Text (hexDigit hexValue? hexValue?_hexDigit)

-- one zero for sums, whatever is imported beside
attribute [local instance (high)] Zero.ofOfNat0

/-! ## Characters -/

/-- Beyond the first 128 characters there are no letters with a case to change. -/
theorem toLower_of_le {c : Char} (h : 128 ≤ c.toNat) : c.toLower = c := by
  have hletter : ¬ (c.val ≥ 'A'.val ∧ c.val ≤ 'Z'.val) := by
    intro hletter
    have hle : c.toNat ≤ 90 := UInt32.le_iff_toNat_le.mp hletter.2
    omega
  exact dif_neg hletter

/-- The case of a digit does not matter, and a character changes its case within one length. -/
theorem hexValue?_toLower (c : Char) :
    hexValue? c.toLower = hexValue? c ∧ c.toLower.utf8Size = c.utf8Size := by
  by_cases h : c.toNat < 128
  · have hall : ∀ n : Fin 128, hexValue? (Char.ofNat n).toLower = hexValue? (Char.ofNat n)
        ∧ (Char.ofNat n).toLower.utf8Size = (Char.ofNat n).utf8Size := by
      decide
    have hc := hall ⟨c.toNat, h⟩
    rwa [Char.ofNat_toNat] at hc
  · rw [toLower_of_le (Nat.le_of_not_lt h)]
    exact ⟨rfl, rfl⟩

theorem utf8Size_of_hexValue? {c : Char} (h : (hexValue? c).isSome = true) : c.utf8Size = 1 := by
  have hle : c.toNat ≤ 127 := by
    unfold hexValue? at h
    simp only [Char.le_def, UInt32.le_iff_toNat_le] at h
    split at h
    · next hc => exact Nat.le_trans hc.2 (by decide)
    split at h
    · next hc => exact Nat.le_trans hc.2 (by decide)
    split at h
    · next hc => exact Nat.le_trans hc.2 (by decide)
    · cases h
  have hval : c.val ≤ 127 := UInt32.le_iff_toNat_le.mpr hle
  simp [Char.utf8Size, hval]

/-- Characters of one octet each make a text of as many octets. -/
theorem utf8ByteSize_of_forall {cs : List Char} (h : ∀ c ∈ cs, c.utf8Size = 1) :
    (String.ofList cs).utf8ByteSize = cs.length := by
  induction cs with
  | nil => rfl
  | cons c cs ih =>
    rw [String.ofList_cons, String.utf8ByteSize_append, String.utf8ByteSize_singleton,
      h c (List.mem_cons_self ..), ih fun d hd => h d (List.mem_cons_of_mem _ hd),
      List.length_cons, Nat.add_comm]

/-! ## Digits -/

/-- The characters are digits, of either case, with these values. -/
def Reads (cs : List Char) (ds : List (Fin 16)) : Prop := cs.map hexValue? = ds.map some

theorem reads_map_hexDigit (ds : List (Fin 16)) : Reads (ds.map hexDigit) ds := by
  have hcomp : hexValue? ∘ hexDigit = some := funext hexValue?_hexDigit
  rw [Reads, List.map_map, hcomp]

namespace Reads

variable {cs : List Char} {ds : List (Fin 16)}

theorem length_eq (h : Reads cs ds) : cs.length = ds.length := by
  have hlength := congrArg List.length h
  rwa [List.length_map, List.length_map] at hlength

theorem isSome (h : Reads cs ds) : ∀ c ∈ cs, (hexValue? c).isSome = true := by
  intro c hc
  have hmem : hexValue? c ∈ ds.map some := h ▸ List.mem_map_of_mem hc
  obtain ⟨d, -, hd⟩ := List.mem_map.mp hmem
  rw [← hd]
  rfl

theorem filterMap_eq (h : Reads cs ds) : cs.filterMap hexValue? = ds := by
  have hid : hexValue? = id ∘ hexValue? := rfl
  rw [hid, ← List.filterMap_map, h, List.filterMap_map]
  exact List.filterMap_some

/-- Characters that are all digits are read as what is found in them. -/
theorem of_isSome (h : ∀ c ∈ cs, (hexValue? c).isSome = true) :
    Reads cs (cs.filterMap hexValue?) := by
  induction cs with
  | nil => rfl
  | cons c cs ih =>
    obtain ⟨d, hd⟩ := Option.isSome_iff_exists.mp (h c (List.mem_cons_self ..))
    have hcs := ih fun e he => h e (List.mem_cons_of_mem _ he)
    rw [Reads, List.filterMap_cons_some hd, List.map_cons, List.map_cons, hd, hcs]

theorem hyphen_notMem (h : Reads cs ds) : '-' ∉ cs := by
  intro hc
  have := h.isSome _ hc
  exact absurd this (by decide)

end Reads

/-! ## Groups -/

/-- The characters are five groups of digits with these values, joined by hyphens. -/
def Hyphenated (cs : List Char) (ds : List (Fin 16)) : Prop :=
  ∃ groups : List (List Char), cs = ['-'].intercalate groups ∧
    groups.map List.length = groupSizes ∧ Reads groups.flatten ds

section Intercalate

variable {c : Char} {cs : List Char}

/-- What stands in joined groups: hyphens, and what stands in the groups. -/
theorem mem_intercalate {groups : List (List Char)} (h : c ∈ ['-'].intercalate groups) :
    c = '-' ∨ c ∈ groups.flatten := by
  induction groups with
  | nil => cases h
  | cons cs groups ih =>
    cases groups with
    | nil =>
      rw [List.intercalate_singleton] at h
      exact .inr (by simpa using h)
    | cons ds groups =>
      rw [List.intercalate_cons_cons, List.append_assoc, List.mem_append, List.singleton_append,
        List.mem_cons] at h
      rw [List.flatten_cons, List.mem_append]
      rcases h with h | h | h
      · exact .inr (.inl h)
      · exact .inl h
      · exact (ih h).imp_right .inr

/-- One hyphen stands between two groups. -/
theorem length_intercalate (cs : List Char) (groups : List (List Char)) :
    (['-'].intercalate (cs :: groups)).length = (cs :: groups).flatten.length + groups.length := by
  induction groups generalizing cs with
  | nil => simp
  | cons ds groups ih =>
    rw [List.intercalate_cons_cons, List.length_append, ih]
    simp
    omega

/-- The digits among joined groups are those of the groups. -/
theorem filterMap_intercalate (groups : List (List Char)) :
    (['-'].intercalate groups).filterMap hexValue? = groups.flatten.filterMap hexValue? := by
  induction groups with
  | nil => rfl
  | cons cs groups ih =>
    cases groups with
    | nil => simp
    | cons ds groups =>
      have hhyphen : ['-'].filterMap hexValue? = [] := by decide
      rw [List.intercalate_cons_cons, List.filterMap_append, List.filterMap_append, hhyphen, ih,
        List.append_nil, ← List.filterMap_append]
      rfl

/-- Between the hyphens stand the other characters. -/
theorem mem_flatten_splitOn (h : c ∈ (cs.splitOn '-').flatten) : c ∈ cs ∧ c ≠ '-' := by
  induction cs with
  | nil => cases h
  | cons d cs ih =>
    rw [List.splitOn_cons_eq_if_modifyHead] at h
    split at h
    · obtain ⟨hc, hne⟩ := ih h
      exact ⟨List.mem_cons_of_mem _ hc, hne⟩
    · next hd =>
      cases hgroups : cs.splitOn '-' with
      | nil => exact absurd hgroups (List.splitOn_ne_nil '-' cs)
      | cons g groups =>
        rw [hgroups, List.modifyHead_cons, List.flatten_cons, List.cons_append,
          List.mem_cons, ← List.flatten_cons, ← hgroups] at h
        rcases h with rfl | h
        · exact ⟨List.mem_cons_self .., by simpa using hd⟩
        · exact ⟨List.mem_cons_of_mem _ (ih h).1, (ih h).2⟩

theorem hyphen_notMem_of_length_splitOn (h : (cs.splitOn '-').length = 1) : '-' ∉ cs := by
  intro hc
  obtain ⟨g, hg⟩ := List.length_eq_one_iff.mp h
  have hjoin : ['-'].intercalate (cs.splitOn '-') = cs := List.intercalate_splitOn '-'
  have hflatten : (cs.splitOn '-').flatten = cs := by
    rw [hg, List.intercalate_singleton] at hjoin
    rw [hg, hjoin, List.flatten_singleton]
  exact (mem_flatten_splitOn (hflatten.symm ▸ hc)).2 rfl

end Intercalate

/-- No group is too short or too long exactly when all have the sizes that are expected. -/
theorem firstMisfit?_eq_none_iff {around group : Nat} {sizes : List Nat}
    {groups : List (List Char)} (h : groups.length = sizes.length) :
    firstMisfit? around group sizes groups = none ↔ groups.map List.length = sizes := by
  induction sizes generalizing group groups with
  | nil =>
    rw [List.length_eq_zero_iff.mp h]
    exact iff_of_true rfl rfl
  | cons n sizes ih =>
    cases groups with
    | nil => cases h
    | cons cs groups =>
      have hlength : groups.length = sizes.length := Nat.succ.inj h
      rw [firstMisfit?, List.map_cons, List.cons.injEq]
      split
      · next hn => rw [ih hlength, and_iff_right hn]
      · next hn => exact iff_of_false (by simp) fun hall => hn hall.1

/-- The reader finds fault with no character when there are digits and hyphens only. -/
theorem firstForeign?_eq_none_iff {position : Nat} {cs : List Char} :
    firstForeign? position cs = none ↔ ∀ c ∈ cs, c = '-' ∨ (hexValue? c).isSome = true := by
  induction cs generalizing position with
  | nil => simp [firstForeign?]
  | cons c cs ih =>
    rw [firstForeign?, List.forall_mem_cons]
    split
    · next hc => rw [ih, and_iff_right hc]
    · next hc => exact iff_of_false (by simp) fun hall => hc hall.1

namespace Hyphenated

variable {cs : List Char} {ds : List (Fin 16)}

theorem mem (h : Hyphenated cs ds) : ∀ c ∈ cs, c = '-' ∨ (hexValue? c).isSome = true := by
  obtain ⟨groups, rfl, -, hreads⟩ := h
  exact fun c hc => (mem_intercalate hc).imp_right (hreads.isSome c)

theorem splitOn_eq {groups : List (List Char)} (hsizes : groups.map List.length = groupSizes)
    (hreads : Reads groups.flatten ds) :
    (['-'].intercalate groups).splitOn '-' = groups := by
  refine List.splitOn_intercalate '-' (fun g hg hc => ?_) ?_
  · exact hreads.hyphen_notMem (List.mem_flatten_of_mem hg hc)
  · rintro rfl
    cases hsizes

theorem length_eq (h : Hyphenated cs ds) (hds : ds.length = 32) : cs.length = 36 := by
  obtain ⟨groups, rfl, hsizes, hreads⟩ := h
  have hcount : groups.length = 5 := by simpa [groupSizes] using congrArg List.length hsizes
  cases groups with
  | nil => cases hcount
  | cons g groups =>
    rw [length_intercalate, hreads.length_eq, hds, Nat.succ.inj hcount]

theorem utf8ByteSize_eq (h : Hyphenated cs ds) : (String.ofList cs).utf8ByteSize = cs.length := by
  refine utf8ByteSize_of_forall fun c hc => ?_
  rcases h.mem c hc with rfl | hc
  · rfl
  · exact utf8Size_of_hexValue? hc

/-- What the reader checks of groups, one after the other, is that they are groups of an
identifier. -/
theorem iff_checks (position around : Nat) :
    Hyphenated cs ds ↔ firstForeign? position cs = none ∧ (cs.splitOn '-').length = 5 ∧
      firstMisfit? around 0 groupSizes (cs.splitOn '-') = none ∧ cs.filterMap hexValue? = ds := by
  rw [firstForeign?_eq_none_iff]
  constructor
  · intro h
    refine ⟨h.mem, ?_⟩
    obtain ⟨groups, rfl, hsizes, hreads⟩ := h
    have hcount : groups.length = groupSizes.length := by
      simpa using congrArg List.length hsizes
    rw [splitOn_eq hsizes hreads, filterMap_intercalate, firstMisfit?_eq_none_iff hcount]
    exact ⟨hcount, hsizes, hreads.filterMap_eq⟩
  · rintro ⟨hmem, hcount, hmisfit, rfl⟩
    have hjoin : ['-'].intercalate (cs.splitOn '-') = cs := List.intercalate_splitOn '-'
    refine ⟨cs.splitOn '-', hjoin.symm, (firstMisfit?_eq_none_iff hcount).mp hmisfit, ?_⟩
    have hfound : (cs.splitOn '-').flatten.filterMap hexValue? = cs.filterMap hexValue? := by
      rw [← filterMap_intercalate, hjoin]
    rw [← hfound]
    refine Reads.of_isSome fun c hc => ?_
    obtain ⟨hc, hne⟩ := mem_flatten_splitOn hc
    exact (hmem c hc).resolve_left hne

end Hyphenated

/-! ## Spellings -/

/-- The spellings of an identifier, of which one begins with a mark: its digits in letters of either
case, alone, in five groups joined by hyphens, in groups between braces, or in groups after the
mark. -/
inductive Spells (mark : List Char) (u : Uuid) : List Char → Prop where
  | bare {cs : List Char} (h : Reads cs u.digits) : Spells mark u cs
  | grouped {cs : List Char} (h : Hyphenated cs u.digits) : Spells mark u cs
  | braced {cs : List Char} (h : Hyphenated cs u.digits) : Spells mark u ('{' :: cs ++ ['}'])
  | urn {cs : List Char} (h : Hyphenated cs u.digits) : Spells mark u (mark ++ cs)

/-- Only digits, hyphens, braces and the mark stand in a spelling. -/
theorem Spells.mem {mark : List Char} {u : Uuid} {cs : List Char} (h : Spells mark u cs) :
    ∀ c ∈ cs, c ∈ '-' :: '{' :: '}' :: mark ∨ (hexValue? c).isSome = true := by
  have hgroups : ∀ {ds : List Char}, Hyphenated ds u.digits → ∀ c ∈ ds,
      c ∈ '-' :: '{' :: '}' :: mark ∨ (hexValue? c).isSome = true :=
    fun hds c hc => (hds.mem c hc).imp_left fun hhyphen => by simp [hhyphen]
  intro c hc
  cases h with
  | bare hreads => exact .inr (hreads.isSome c hc)
  | grouped hds => exact hgroups hds c hc
  | braced hds =>
    simp only [List.cons_append, List.mem_cons, List.mem_append, List.not_mem_nil, or_false] at hc
    rcases hc with hc | hc | hc
    · exact .inl (by simp [hc])
    · exact hgroups hds c hc
    · exact .inl (by simp [hc])
  | urn hds =>
    rcases List.mem_append.mp hc with hc | hc
    · exact .inl (by simp [hc])
    · exact hgroups hds c hc

theorem ofDigits_eq_ok_iff {ds : List (Fin 16)} {octets : Nat} {u : Uuid} :
    ofDigits ds octets = .ok u ↔ ds = u.digits := by
  unfold ofDigits
  split
  · cases u
    rw [Except.ok.injEq, Uuid.mk.injEq]
  · next h => exact iff_of_false (by simp) fun hds => h (hds ▸ u.size)

/-- The reader takes the digits from the part of a text that should hold them: alone, where the
text is neither in braces nor in a URN, or in groups. -/
theorem parse_eq_ok_iff_part {s : String} {u : Uuid} {p : Part}
    (hp : part s.toList s.utf8ByteSize = p) :
    parse s = .ok u ↔ (s.utf8ByteSize ≠ 0 ∧ s.utf8ByteSize ≤ 45) ∧
      (p.spelling = .bare ∧ Reads p.chars u.digits ∨ Hyphenated p.chars u.digits) := by
  simp only [parse, hp]
  split
  · next hrange => exact iff_of_false (by simp) fun hu => by omega
  · next hrange =>
    have hoctets : s.utf8ByteSize ≠ 0 ∧ s.utf8ByteSize ≤ 45 := by omega
    rw [and_iff_right hoctets]
    constructor
    · intro hu
      split at hu
      · cases hu
      · next hforeign =>
        have hmem := firstForeign?_eq_none_iff.mp hforeign
        split at hu
        · next hbare =>
          have hhyphen := hyphen_notMem_of_length_splitOn hbare.1
          have hreads := Reads.of_isSome fun c hc =>
            (hmem c hc).resolve_left (ne_of_mem_of_not_mem hc hhyphen)
          exact .inl ⟨hbare.2, ofDigits_eq_ok_iff.mp hu ▸ hreads⟩
        · split at hu
          · cases hu
          · next hcount =>
            split at hu
            · cases hu
            · next hmisfit =>
              exact .inr ((Hyphenated.iff_checks _ _).mpr ⟨hforeign, by simpa using hcount, hmisfit,
                ofDigits_eq_ok_iff.mp hu⟩)
    · rintro (⟨hbare, hreads⟩ | hgroups)
      · have hforeign : firstForeign? p.start p.chars = none :=
          firstForeign?_eq_none_iff.mpr fun c hc => .inr (hreads.isSome c hc)
        have hsplit := List.splitOn_eq_singleton hreads.hyphen_notMem
        have hone : (p.chars.splitOn '-').length = 1 ∧ p.spelling = .bare :=
          ⟨by rw [hsplit]; rfl, hbare⟩
        simp only [hforeign, if_pos hone]
        exact ofDigits_eq_ok_iff.mpr hreads.filterMap_eq
      · obtain ⟨hforeign, hcount, hmisfit, hdigits⟩ :=
          (Hyphenated.iff_checks p.start (s.utf8ByteSize - p.chars.length)).mp hgroups
        have hfive : ¬((p.chars.splitOn '-').length = 1 ∧ p.spelling = .bare) := by omega
        simp only [hforeign, if_neg hfive, if_neg (not_not_intro hcount), hmisfit]
        exact ofDigits_eq_ok_iff.mpr hdigits

theorem unbraced?_eq_some_iff {cs inner : List Char} :
    unbraced? cs = some inner ↔ cs = '{' :: inner ++ ['}'] := by
  unfold unbraced?
  constructor
  · intro h
    split at h
    · next hbraces =>
      obtain ⟨hhead, hlast, hlength⟩ := hbraces
      cases cs with
      | nil => cases hhead
      | cons c rest =>
        have hc : c = '{' := Option.some.inj hhead
        have hrest : rest ≠ [] := by
          rintro rfl
          exact absurd hlength (Nat.not_succ_le_self 1)
        rw [List.getLast?_cons_of_ne_nil hrest] at hlast
        have hinner : rest.dropLast = inner := Option.some.inj h
        have hbrace : rest.getLast hrest = '}' := by
          rwa [List.getLast?_eq_some_getLast hrest, Option.some.injEq] at hlast
        rw [hc, ← hinner, List.cons_append, ← hbrace, List.dropLast_concat_getLast hrest]
    · cases h
  · rintro rfl
    rw [if_pos ⟨rfl, List.getLast?_concat, by simp⟩]
    simp

/-- A text looked at in groups or in braces or after a mark is one of the spellings. -/
theorem Spells.of_part {cs : List Char} {octets : Nat} {u : Uuid}
    (h : (part cs octets).spelling = .bare ∧ Reads (part cs octets).chars u.digits ∨
      Hyphenated (part cs octets).chars u.digits) :
    ∃ mark : List Char, mark.map Char.toLower = urnMark ∧ Spells mark u cs := by
  unfold part at h
  split at h
  · exact ⟨urnMark, rfl, .grouped (h.resolve_left fun h => by cases h.1)⟩
  split at h
  · next inner hbraces =>
    have hgroups : Hyphenated inner u.digits := by
      split at h <;> exact h.resolve_left fun h => by cases h.1
    rw [unbraced?_eq_some_iff.mp hbraces]
    exact ⟨urnMark, rfl, .braced hgroups⟩
  split at h
  · exact ⟨urnMark, rfl, h.elim (fun h => .bare h.2) .grouped⟩
  · next hmark =>
    have hgroups : Hyphenated (cs.drop 9) u.digits := by
      split at h <;> exact h.resolve_left fun h => by cases h.1
    have hspells : Spells (cs.take 9) u (cs.take 9 ++ cs.drop 9) := .urn hgroups
    rw [List.take_append_drop] at hspells
    exact ⟨cs.take 9, Decidable.not_not.mp hmark, hspells⟩

section Parts

variable {u : Uuid} {cs : List Char}

theorem utf8ByteSize_of_reads (h : Reads cs u.digits) : (String.ofList cs).utf8ByteSize = 32 := by
  rw [utf8ByteSize_of_forall fun c hc => utf8Size_of_hexValue? (h.isSome c hc), h.length_eq, u.size]

theorem utf8ByteSize_of_hyphenated (h : Hyphenated cs u.digits) :
    (String.ofList cs).utf8ByteSize = 36 := by
  rw [h.utf8ByteSize_eq, h.length_eq u.size]

/-- Digits alone are not in braces and do not begin with the mark of a URN, which is no digit. -/
theorem part_of_reads (h : Reads cs u.digits) : part cs 32 = ⟨cs, 0, .bare⟩ := by
  have hbraces : unbraced? cs = none := by
    cases hinner : unbraced? cs with
    | none => rfl
    | some inner =>
      have hmem : '{' ∈ cs := by
        rw [unbraced?_eq_some_iff.mp hinner]
        exact List.mem_cons_self ..
      exact absurd (h.isSome _ hmem) (by decide)
  have hmark : (cs.take 9).map Char.toLower ≠ urnMark := by
    intro hmark
    have hmem : 'u' ∈ (cs.take 9).map Char.toLower := by
      rw [hmark]
      exact List.mem_cons_self ..
    obtain ⟨c, hc, hlower⟩ := List.mem_map.mp hmem
    have hdigit := h.isSome c (List.mem_of_mem_take hc)
    rw [← (hexValue?_toLower c).1, hlower] at hdigit
    exact absurd hdigit (by decide)
  rw [part, if_neg (by decide), hbraces]
  exact if_pos hmark

theorem part_braced (cs : List Char) : part ('{' :: cs ++ ['}']) 38 = ⟨cs, 0, .hyphenated⟩ := by
  have hbraces : unbraced? ('{' :: cs ++ ['}']) = some cs := unbraced?_eq_some_iff.mpr rfl
  rw [part, if_neg (by decide), hbraces]
  rfl

theorem part_urn {mark : List Char} (hmark : mark.map Char.toLower = urnMark) (cs : List Char) :
    part (mark ++ cs) 45 = ⟨cs, 0, .hyphenated⟩ := by
  have hlength : mark.length = 9 := by simpa [urnMark] using congrArg List.length hmark
  have hbraces : unbraced? (mark ++ cs) = none := by
    cases hinner : unbraced? (mark ++ cs) with
    | none => rfl
    | some inner =>
      have hhead := congrArg List.head? (unbraced?_eq_some_iff.mp hinner)
      have hlower := congrArg List.head? hmark
      cases mark with
      | nil => cases hlength
      | cons c mark =>
        have hc : c = '{' := Option.some.inj hhead
        rw [hc] at hlower
        exact absurd hlower (by simp [urnMark])
  have htake : (mark ++ cs).take 9 = mark := by rw [← hlength, List.take_left]
  have hdrop : (mark ++ cs).drop 9 = cs := by rw [← hlength, List.drop_left]
  rw [part, if_neg (by decide), hbraces, htake, hdrop]
  exact (if_neg (not_not_intro hmark)).trans (if_pos rfl)

theorem utf8ByteSize_of_mark {mark : List Char} (hmark : mark.map Char.toLower = urnMark) :
    (String.ofList mark).utf8ByteSize = 9 := by
  have hlength : mark.length = 9 := by simpa [urnMark] using congrArg List.length hmark
  rw [← hlength]
  refine utf8ByteSize_of_forall fun c hc => ?_
  have hall : urnMark.all (fun d => d.utf8Size == 1) = true := rfl
  rw [← (hexValue?_toLower c).2]
  exact beq_iff_eq.mp (List.all_eq_true.mp hall _ (hmark ▸ List.mem_map_of_mem hc))

end Parts

/-- A text is read as an identifier exactly when it is one of the spellings of that identifier, in
which a URN may be marked in letters of either case. -/
theorem parse_eq_ok_iff {s : String} {u : Uuid} :
    parse s = .ok u ↔ ∃ mark : List Char, mark.map Char.toLower = urnMark ∧
      Spells mark u s.toList := by
  have hsize : s.utf8ByteSize = (String.ofList s.toList).utf8ByteSize := by
    rw [String.ofList_toList]
  rw [parse_eq_ok_iff_part rfl]
  constructor
  · exact fun h => Spells.of_part h.2
  · rintro ⟨mark, hmark, hspells⟩
    generalize s.toList = cs at hsize hspells ⊢
    rw [hsize]
    cases hspells with
    | bare hreads =>
      rw [utf8ByteSize_of_reads hreads, part_of_reads hreads]
      exact ⟨by decide, .inl ⟨rfl, hreads⟩⟩
    | grouped hgroups =>
      rw [utf8ByteSize_of_hyphenated hgroups]
      exact ⟨by decide, .inr hgroups⟩
    | @braced cs hgroups =>
      have hoctets : (String.ofList ('{' :: cs ++ ['}'])).utf8ByteSize = 38 := by
        rw [String.ofList_append, String.ofList_cons, String.utf8ByteSize_append,
          String.utf8ByteSize_append, utf8ByteSize_of_hyphenated hgroups]
        rfl
      rw [hoctets, part_braced]
      exact ⟨by decide, .inr hgroups⟩
    | @urn cs hgroups =>
      have hoctets : (String.ofList (mark ++ cs)).utf8ByteSize = 45 := by
        rw [String.ofList_append, String.utf8ByteSize_append, utf8ByteSize_of_mark hmark,
          utf8ByteSize_of_hyphenated hgroups]
      rw [hoctets, part_urn hmark]
      exact ⟨by decide, .inr hgroups⟩

/-! ## The written form -/

/-- The groups of digits, without the hyphens between them. -/
def groups : List Nat → List (Fin 16) → List (List Char)
  | [], _ => []
  | n :: sizes, ds => (ds.take n).map hexDigit :: groups sizes (ds.drop n)

theorem grouped_eq_intercalate (sizes : List Nat) (ds : List (Fin 16)) :
    grouped sizes ds = ['-'].intercalate (groups sizes ds) := by
  induction sizes generalizing ds with
  | nil => rfl
  | cons n sizes ih =>
    cases sizes with
    | nil => simp [grouped, groups]
    | cons k sizes =>
      calc grouped (n :: k :: sizes) ds
          = (ds.take n).map hexDigit ++ '-' :: grouped (k :: sizes) (ds.drop n) := rfl
        _ = (ds.take n).map hexDigit ++ ['-']
              ++ ['-'].intercalate (groups (k :: sizes) (ds.drop n)) := by
            rw [ih, List.append_assoc, List.singleton_append]
        _ = ['-'].intercalate (groups (n :: k :: sizes) ds) := List.intercalate_cons_cons.symm

theorem map_length_groups {sizes : List Nat} {ds : List (Fin 16)} (h : sizes.sum = ds.length) :
    (groups sizes ds).map List.length = sizes := by
  induction sizes generalizing ds with
  | nil => rfl
  | cons n sizes ih =>
    rw [List.sum_cons] at h
    have hrest : sizes.sum = (ds.drop n).length := by
      rw [List.length_drop]
      omega
    rw [groups, List.map_cons, ih hrest, List.length_map, List.length_take, Nat.min_eq_left]
    omega

theorem flatten_groups {sizes : List Nat} {ds : List (Fin 16)} (h : sizes.sum = ds.length) :
    (groups sizes ds).flatten = ds.map hexDigit := by
  induction sizes generalizing ds with
  | nil =>
    rw [List.length_eq_zero_iff.mp h.symm]
    rfl
  | cons n sizes ih =>
    rw [List.sum_cons] at h
    have hrest : sizes.sum = (ds.drop n).length := by
      rw [List.length_drop]
      omega
    rw [groups, List.flatten_cons, ih hrest, ← List.map_append, List.take_append_drop]

/-- The written form is the five groups. -/
theorem hyphenated_text (u : Uuid) : Hyphenated u.text.toList u.digits := by
  have hsum : groupSizes.sum = u.digits.length := u.size.symm
  refine ⟨groups groupSizes u.digits, ?_, map_length_groups hsum, ?_⟩
  · rw [text, String.toList_ofList, grouped_eq_intercalate]
  · rw [flatten_groups hsum]
    exact reads_map_hexDigit u.digits

theorem mem_text {u : Uuid} {c : Char} (h : c ∈ u.text.toList) : c = '-' ∨ ∃ d, c = hexDigit d := by
  have hsum : groupSizes.sum = u.digits.length := u.size.symm
  rw [text, String.toList_ofList, grouped_eq_intercalate] at h
  refine (mem_intercalate h).imp_right fun hc => ?_
  rw [flatten_groups hsum] at hc
  obtain ⟨d, -, rfl⟩ := List.mem_map.mp hc
  exact ⟨d, rfl⟩

theorem utf8ByteSize_text (u : Uuid) : u.text.utf8ByteSize = 36 := by
  rw [← utf8ByteSize_of_hyphenated (hyphenated_text u), String.ofList_toList]

/-- An identifier is read back from its written form. -/
theorem parse_text (u : Uuid) : parse u.text = .ok u :=
  parse_eq_ok_iff.mpr ⟨urnMark, rfl, .grouped (hyphenated_text u)⟩

end Intake.Uuid
