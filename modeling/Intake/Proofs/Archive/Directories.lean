import Mathlib.Data.List.Nodup
import Intake.Proofs.Archive.Files

/-!
# In a directory that is there

What operations do in a directory that a path leads to when nothing stands in their way: they make a
directory (`Disk.makeDirectory_join`) or write a file in it (`Disk.overwrite_join`), and list the
names in it (`Disk.list_run`), which are those under which something stands, each once
(`Disk.mem_namesIn`, `Disk.nodup_namesIn`). Making the directory itself once more changes nothing
(`Disk.makeDirectories_of_leadsTo`).
-/

namespace Intake

namespace Disk

variable {d : Disk} {path base name : String} {at_ : Place}

/-! ## Names -/

theorem placeKey_concat (at_ : Place) (name : String) :
    placeKey (at_ ++ [name]) = placeKey at_ ++ "/" ++ name := by
  simp [placeKey, ← String.toList_inj, String.toList_join, String.toList_append]

theorem node?_concat (d : Disk) (at_ : Place) (name : String) :
    d.node? (at_ ++ [name]) = d.nodes.get? (placeKey at_ ++ "/" ++ name) := by
  rw [← placeKey_concat]
  cases at_ <;> rfl

/-- The name of a key that stands right behind the start of the keys in a directory. -/
def nameAfter? (start key : String) : Option String :=
  if start.isPrefixOf key then
    let name := String.ofList (key.toList.drop start.length)
    if name.contains '/' then none else some name
  else none

theorem namesIn_eq (d : Disk) (at_ : Place) :
    d.namesIn at_ = d.nodes.keys.filterMap (nameAfter? (placeKey at_ ++ "/")) := rfl

theorem nameAfter?_eq_some {start key : String} :
    nameAfter? start key = some name ↔ key = start ++ name ∧ '/' ∉ name.toList := by
  have hslash : ∀ rest : String, rest.contains '/' = true ↔ '/' ∈ rest.toList := by
    simp
  have hstart : start.isPrefixOf key = true ↔ start.toList <+: key.toList := by
    simp [String.isPrefixOf]
  simp only [nameAfter?, hslash, hstart]
  constructor
  · intro h
    split at h
    · rename_i hprefix
      split at h
      · cases h
      · rename_i hno
        cases h
        obtain ⟨rest, hrest⟩ := hprefix
        refine ⟨?_, hno⟩
        rw [← String.toList_inj, String.toList_append, String.toList_ofList, ← hrest,
          ← String.length_toList, List.drop_left]
    · cases h
  · rintro ⟨rfl, hno⟩
    have hdrop : String.ofList ((start ++ name).toList.drop start.length) = name := by
      rw [String.toList_append, ← String.length_toList, List.drop_left, String.ofList_toList]
    rw [if_pos (by rw [String.toList_append]; exact List.prefix_append _ _), hdrop, if_neg hno]

/-- The names in a directory are those under which something stands. -/
theorem mem_namesIn :
    name ∈ d.namesIn at_ ↔ '/' ∉ name.toList ∧ (d.node? (at_ ++ [name])).isSome = true := by
  rw [namesIn_eq, List.mem_filterMap, node?_concat]
  constructor
  · rintro ⟨key, hkey, hname⟩
    obtain ⟨rfl, hslash⟩ := nameAfter?_eq_some.mp hname
    exact ⟨hslash, Keyed.mem_keys.mp hkey⟩
  · rintro ⟨hslash, hsome⟩
    exact ⟨_, Keyed.mem_keys.mpr hsome, nameAfter?_eq_some.mpr ⟨rfl, hslash⟩⟩

/-- Each name in a directory is listed once. -/
theorem nodup_namesIn (d : Disk) (at_ : Place) : (d.namesIn at_).Nodup := by
  rw [namesIn_eq]
  refine d.nodes.nodup_keys.filterMap fun key other name hkey hother => ?_
  rw [(nameAfter?_eq_some.mp hkey).1, (nameAfter?_eq_some.mp hother).1]

theorem list_run (h : d.stat path = .ok (at_, .directory)) :
    (Disk.list path).run d = (.ok (d.namesIn at_), d) := by
  simp only [Disk.list, Work.run_bind, Work.run_get, Work.run_liftM, h, Work.run_pure]

/-! ## New directories and files -/

theorem namesOf_join (hname : IsFileName name) (hpath : IsPath (join base name)) :
    namesOf (join base name) = .ok (segments base ++ [name]) := by
  rw [namesOf_eq_ok, segments_join base hname.startsAtRoot, hname.segments]
  exact ⟨hpath, rfl⟩

theorem parentOf_join (hname : IsFileName name) (hleads : d.LeadsTo base at_) :
    d.parentOf (segments base ++ [name]) = .ok (some (at_, name)) :=
  parentOf_eq_ok.mpr ⟨_, rfl, hleads.1, hleads.2, hname.dot, hname.dots, hname.short⟩

/-- Making a directory in one that is there. -/
theorem makeDirectory_join (hname : IsFileName name) (hpath : IsPath (join base name))
    (hleads : d.LeadsTo base at_) : (makeDirectory (join base name)).run d =
      if (d.node? (at_ ++ [name])).isSome then (.error .fileExists, d)
      else (.ok (), d.put (at_ ++ [name]) .directory) := by
  simp only [makeDirectory, isEmpty_join hname, Bool.false_eq_true, if_false, Work.run_bind,
    Work.run_liftM, namesOf_join hname hpath, makeDirectoryAt_run, parentOf_join hname hleads]

/-- Writing a file in a directory that is there. -/
theorem overwrite_join (hname : IsFileName name) (hpath : IsPath (join base name))
    (hleads : d.LeadsTo base at_) (hfree : d.node? (at_ ++ [name]) ≠ some .directory)
    (content : ByteArray) : (overwrite (join base name) content).run d
      = (.ok (), d.put (at_ ++ [name]) (.file content)) := by
  simp only [overwrite, isEmpty_join hname, Bool.false_eq_true, if_false, Work.run_bind,
    Work.run_get, Work.run_liftM, namesOf_join hname hpath, parentOf_join hname hleads, hfree,
    Work.run_set]

/-- If a path below another one is taken, so is that one. -/
theorem isPath_of_join (hname : IsFileName name) (h : IsPath (join base name)) : IsPath base := by
  have hfront : ∃ rest, join base name = base ++ rest := by
    rw [join, hname.startsAtRoot, Bool.false_or]
    by_cases hempty : base.isEmpty = true
    · rw [if_pos hempty]
      exact ⟨name, by rw [String.isEmpty_iff.mp hempty, String.empty_append]⟩
    · rw [if_neg hempty]
      split
      · exact ⟨name, rfl⟩
      · exact ⟨"/" ++ name, String.append_assoc ..⟩
  obtain ⟨rest, hrest⟩ := hfront
  rw [hrest, IsPath, String.toList_append, String.utf8ByteSize_append] at h
  obtain ⟨hnul, hshort⟩ := h
  rw [List.contains_append, Bool.or_eq_false_iff] at hnul
  exact ⟨hnul.1, by omega⟩

theorem mem_join {c : Char} (h : c ∈ (join base name).toList) :
    c ∈ base.toList ∨ c = '/' ∨ c ∈ name.toList := by
  unfold join at h
  split at h
  · exact .inr (.inr h)
  split at h
  · rw [String.toList_append, List.mem_append] at h
    exact h.imp_right .inr
  · rw [String.toList_append, String.toList_append, List.append_assoc, List.mem_append] at h
    exact h.imp_right List.mem_cons.mp

theorem utf8ByteSize_join_le (base name : String) :
    (join base name).utf8ByteSize ≤ base.utf8ByteSize + 1 + name.utf8ByteSize := by
  unfold join
  split
  · omega
  split
  · rw [String.utf8ByteSize_append]
    omega
  · have hslash : "/".utf8ByteSize = 1 := rfl
    exact Nat.le_of_eq (by rw [String.utf8ByteSize_append, String.utf8ByteSize_append, hslash])

/-! ## Directories that are there already -/

theorem isDirectoryAt_of_walk {names : List String} (h : d.walk [] names = .ok at_)
    (hdir : d.node? at_ = some .directory) : d.isDirectoryAt names = true := by
  rw [isDirectoryAt, h]
  exact decide_eq_true hdir

theorem makeDirectoryAt_of_walk {names : List String} (h : d.walk [] names = .ok at_)
    (hdir : d.node? at_ = some .directory) :
    (makeDirectoryAt names).run d = (.error .fileExists, d) := by
  rw [makeDirectoryAt_run]
  rcases List.eq_nil_or_concat' names with rfl | ⟨front, last, rfl⟩
  · rfl
  rw [walk_append] at h
  cases hfront : d.walk [] front with
  | error fault =>
    rw [hfront] at h
    cases h
  | ok outer =>
    rw [hfront] at h
    obtain ⟨houter, hlast⟩ := walk_single_eq_ok.mp h
    rw [parentOf, List.dropLast_concat, List.getLast?_concat, hfront]
    simp only [houter, if_true]
    rcases hlast with ⟨hdot, -⟩ | ⟨-, hdots, -⟩ | ⟨hdot, hdots, hshort, rfl, hsome⟩
    · rw [if_pos (.inl hdot)]
    · rw [if_pos (.inr hdots)]
    · rw [if_neg (not_or.mpr ⟨hdot, hdots⟩), if_neg (Nat.not_lt.mpr hshort)]
      exact if_pos hsome

/-- Making the directories of a path that leads to a directory changes nothing. -/
theorem makeDirectories_of_leadsTo (hpath : IsPath path) (h : d.LeadsTo path at_) :
    (makeDirectories path).run d = (.ok (), d) := by
  simp only [makeDirectories]
  by_cases hempty : path.isEmpty = true
  · rw [if_pos hempty]
    rfl
  simp only [hempty, Bool.false_eq_true, if_false, Work.run_bind, Work.run_liftM,
    namesOf_eq_ok.mpr ⟨hpath, rfl⟩, makeWithin, Work.run_tryCatch, makeDirectoryAt_of_walk h.1 h.2,
    Work.run_get, isDirectoryAt_of_walk h.1 h.2, if_true, Work.run_pure]

end Disk

end Intake
