import Intake.Proofs.Archive.Places
import Intake.Work

/-!
# What work on a disk does

Each operation on a disk fails and leaves the disk as it was, or puts one thing at one place. The
lemmas here say which: a directory is made where nothing stood (`Disk.makeDirectory_cases`), a file
is written below a directory that is there (`Disk.overwrite_cases`), and octets are added to a file
that is there (`Disk.extend_cases`). Making the directories of a path makes no more than
directories under the names of the path (`Disk.newDirectories_makeDirectories`), and if it does not
fail the path leads to one (`Disk.leadsTo_of_makeDirectories`).
-/

namespace Intake

namespace Disk

variable {d d' : Disk}

/-! ## Paths that lead somewhere -/

/-- A path that the system takes at all. -/
def IsPath (path : String) : Prop :=
  path.toList.contains (Char.ofNat 0) = false ∧ path.utf8ByteSize < 4096

theorem namesOf_eq_ok {path : String} {names : List String} :
    namesOf path = .ok names ↔ IsPath path ∧ names = segments path := by
  rw [namesOf, IsPath]
  split
  · rename_i h
    constructor
    · intro hnames
      cases hnames
    · rintro ⟨⟨hnul, -⟩, -⟩
      rw [hnul] at h
      cases h
  split
  · rename_i h hlong
    simp only [reduceCtorEq, false_iff, not_and]
    omega
  · rename_i h hlong
    simp only [Except.ok.injEq, Bool.eq_false_iff.mpr h, Nat.not_le.mp hlong, true_and]
    exact eq_comm

/-- The names of a path lead to a directory. -/
def LeadsTo (d : Disk) (path : String) (at_ : Place) : Prop :=
  d.walk [] (segments path) = .ok at_ ∧ d.node? at_ = some .directory

theorem LeadsTo.isPlace {path : String} {at_ : Place} (h : d.LeadsTo path at_) : IsPlace at_ :=
  isPlace_walk .nil (fun _ => notMem_of_mem_segments) h.1

theorem LeadsTo.unique {path : String} {p q : Place} (hp : d.LeadsTo path p)
    (hq : d.LeadsTo path q) : p = q := by
  have := hp.1.symm.trans hq.1
  cases this
  rfl

theorem Extends.leadsTo (h : d.Extends d') {path : String} {at_ : Place}
    (hleads : d.LeadsTo path at_) : d'.LeadsTo path at_ :=
  ⟨h.walk .nil (fun _ => notMem_of_mem_segments) hleads.1, (h at_ hleads.isPlace).1 hleads.2⟩

/-- A walk to a file goes to the directory with the file, and then to the file. -/
theorem walk_concat_eq_ok {names : List String} {name : String} (hname : IsFileName name)
    {at_ there : Place} : d.walk at_ (names ++ [name]) = .ok there ↔
      ∃ outer, d.walk at_ names = .ok outer ∧ d.node? outer = some .directory
        ∧ there = outer ++ [name] ∧ (d.node? there).isSome = true := by
  rw [walk_append]
  cases d.walk at_ names with
  | error e =>
    constructor
    · intro h
      cases h
    · rintro ⟨outer, h, -⟩
      cases h
  | ok outer =>
    show d.walk outer [name] = .ok there ↔ _
    rw [walk_single_eq_ok]
    constructor
    · rintro ⟨hdir, ⟨hdot, -⟩ | ⟨-, hdots, -⟩ | ⟨-, -, -, hplace, hsome⟩⟩
      · exact absurd hdot hname.dot
      · exact absurd hdots hname.dots
      · exact ⟨outer, rfl, hdir, hplace, hsome⟩
    · rintro ⟨outer', houter, hdir, hplace, hsome⟩
      cases houter
      exact ⟨hdir, .inr (.inr ⟨hname.dot, hname.dots, hname.short, hplace, hsome⟩)⟩

/-- A path leads on to what stands in the directory that it leads to. -/
theorem leadsTo_join {base name : String} (hname : IsFileName name) {at_ : Place} :
    d.LeadsTo (join base name) at_ ↔ ∃ outer, d.LeadsTo base outer ∧ at_ = outer ++ [name]
      ∧ d.node? at_ = some .directory := by
  rw [LeadsTo, segments_join base hname.startsAtRoot, hname.segments, walk_concat_eq_ok hname]
  constructor
  · rintro ⟨⟨outer, hwalk, hdir, hplace, -⟩, hnode⟩
    exact ⟨outer, ⟨hwalk, hdir⟩, hplace, hnode⟩
  · rintro ⟨outer, hleads, hplace, hnode⟩
    exact ⟨⟨outer, hleads.1, hleads.2, hplace, by rw [hnode]; rfl⟩, hnode⟩

theorem isEmpty_join {base name : String} (hname : IsFileName name) :
    (join base name).isEmpty = false := by
  rw [Bool.eq_false_iff]
  intro h
  have hsegments := segments_join base hname.startsAtRoot
  rw [String.isEmpty_iff.mp h, hname.segments] at hsegments
  exact absurd hsegments (by simp [show segments "" = [] from rfl])

/-- What a path leads to; with a slash at its end it goes on to the directory itself. -/
theorem stat_iff {path : String} {at_ : Place} {n : Node} : d.stat path = .ok (at_, n)
    ↔ path.isEmpty = false ∧ IsPath path
      ∧ d.walk [] (if endsInSlash path then segments path ++ ["."] else segments path) = .ok at_
      ∧ d.node? at_ = some n := by
  unfold stat
  cases hempty : path.isEmpty with
  | true => exact ⟨by rintro ⟨⟩, by rintro ⟨⟨⟩, -⟩⟩
  | false =>
    cases hnames : namesOf path with
    | error fault =>
      refine ⟨by rintro ⟨⟩, fun h => ?_⟩
      rw [namesOf_eq_ok.mpr ⟨h.2.1, rfl⟩] at hnames
      cases hnames
    | ok names =>
      obtain ⟨hpath, rfl⟩ := namesOf_eq_ok.mp hnames
      simp only [Bool.false_eq_true, if_false, bind, Except.bind, hpath, true_and]
      cases d.walk [] (if endsInSlash path then segments path ++ ["."] else segments path) with
      | error fault => exact ⟨by rintro ⟨⟩, by rintro ⟨⟨⟩, -⟩⟩
      | ok there =>
        dsimp only
        cases hnode : d.node? there with
        | none =>
          refine ⟨by rintro ⟨⟩, ?_⟩
          rintro ⟨⟨⟩, h⟩
          rw [hnode] at h
          cases h
        | some found =>
          constructor
          · rintro ⟨⟩
            exact ⟨rfl, hnode⟩
          · rintro ⟨⟨⟩, h⟩
            rw [hnode] at h
            cases h
            rfl

/-- What a path without a slash at its end leads to. -/
theorem stat_eq_ok {path : String} (hempty : path.isEmpty = false)
    (hslash : endsInSlash path = false) {at_ : Place} {n : Node} :
    d.stat path = .ok (at_, n)
      ↔ IsPath path ∧ d.walk [] (segments path) = .ok at_ ∧ d.node? at_ = some n := by
  simp only [stat_iff, hempty, hslash, true_and, Bool.false_eq_true, if_false]

/-- A path leads to a directory if its names do, with a slash at its end or without. -/
theorem stat_eq_directory {path : String} {at_ : Place} : d.stat path = .ok (at_, .directory)
    ↔ path.isEmpty = false ∧ IsPath path ∧ d.LeadsTo path at_ := by
  have hself : ∀ there, d.walk there ["."] = .ok at_
      ↔ there = at_ ∧ d.node? at_ = some .directory := by
    intro there
    rw [walk_single_eq_ok]
    constructor
    · rintro ⟨hdir, ⟨-, rfl⟩ | ⟨hne, -⟩ | ⟨hne, -⟩⟩
      · exact ⟨rfl, hdir⟩
      · exact absurd rfl hne
      · exact absurd rfl hne
    · rintro ⟨rfl, hdir⟩
      exact ⟨hdir, .inl ⟨rfl, rfl⟩⟩
  rw [stat_iff, LeadsTo]
  split
  · rw [walk_append]
    cases d.walk [] (segments path) with
    | error fault => exact ⟨by rintro ⟨-, -, ⟨⟩, -⟩, by rintro ⟨-, -, ⟨⟩, -⟩⟩
    | ok there =>
      show _ ∧ _ ∧ d.walk there ["."] = .ok at_ ∧ _ ↔ _
      rw [hself, Except.ok.injEq, and_assoc, and_self]
  · exact Iff.rfl

/-- A file below a path is found if the path leads to a directory with that file. -/
theorem stat_join {base name : String} (hname : IsFileName name) {at_ : Place} {n : Node} :
    d.stat (join base name) = .ok (at_, n) ↔ IsPath (join base name)
      ∧ ∃ outer, d.LeadsTo base outer ∧ at_ = outer ++ [name] ∧ d.node? at_ = some n := by
  rw [stat_eq_ok (isEmpty_join hname) (hname.endsInSlash_join base),
    segments_join base hname.startsAtRoot, hname.segments]
  constructor
  · rintro ⟨hpath, hwalk, hnode⟩
    obtain ⟨outer, houter, hdir, hat, -⟩ := (walk_concat_eq_ok hname).mp hwalk
    exact ⟨hpath, outer, ⟨houter, hdir⟩, hat, hnode⟩
  · rintro ⟨hpath, outer, ⟨houter, hdir⟩, hat, hnode⟩
    have hwalk : d.walk [] (segments base ++ [name]) = .ok at_ :=
      (walk_concat_eq_ok hname).mpr ⟨outer, houter, hdir, hat, by rw [hnode]; rfl⟩
    exact ⟨hpath, hwalk, hnode⟩

/-- There is a file below a path if the path leads to a directory with that file. -/
theorem isFile_join {base name : String} (hname : IsFileName name) :
    d.isFile (join base name) = true ↔ IsPath (join base name)
      ∧ ∃ outer content, d.LeadsTo base outer
        ∧ d.node? (outer ++ [name]) = some (.file content) := by
  constructor
  · intro h
    unfold isFile at h
    split at h
    · rename_i there content hstat
      obtain ⟨hpath, outer, hleads, rfl, hnode⟩ := (stat_join hname).mp hstat
      exact ⟨hpath, outer, content, hleads, hnode⟩
    · cases h
  · rintro ⟨hpath, outer, content, hleads, hnode⟩
    unfold isFile
    rw [(stat_join hname).mpr ⟨hpath, outer, hleads, rfl, hnode⟩]

/-! ## Putting one thing at one place -/

/-- Putting a directory where nothing stands, or a file where no directory stands, is growing. -/
theorem extends_put {at_ : Place} (hat : IsPlace at_) (hroot : at_ ≠ []) {n : Node}
    (h : d.node? at_ = none ∨ d.node? at_ ≠ some .directory ∧ ∃ content, n = .file content) :
    d.Extends (d.put at_ n) := by
  intro other hother
  rw [node?_put d hat hother hroot]
  by_cases heq : other = at_
  · rw [if_pos heq, heq]
    rcases h with hnone | ⟨hne, content, rfl⟩
    · rw [hnone]
      exact ⟨by rintro ⟨⟩, by rintro content ⟨⟩⟩
    · exact ⟨fun hdir => absurd hdir hne, fun old _ => ⟨content, rfl⟩⟩
  · rw [if_neg heq]
    exact ⟨id, fun content hfile => ⟨content, hfile⟩⟩

/-- Where the last of some names stands: in the directory that the names before it lead to. -/
theorem parentOf_eq_ok {names : List String} {at_ : Place} {name : String} :
    d.parentOf names = .ok (some (at_, name)) ↔ ∃ outer, names = outer ++ [name]
      ∧ d.walk [] outer = .ok at_ ∧ d.node? at_ = some .directory
      ∧ name ≠ "." ∧ name ≠ ".." ∧ name.utf8ByteSize ≤ 255 := by
  constructor
  · intro h
    unfold parentOf at h
    split at h
    · cases h
    rename_i outer hwalk
    split at h
    · rename_i hdir
      split at h
      · cases h
      rename_i last hlast
      split at h
      · cases h
      rename_i hdots
      split at h
      · cases h
      rename_i hshort
      cases h
      obtain ⟨front, hfront⟩ := List.getLast?_eq_some_iff.mp hlast
      rw [hfront, List.dropLast_concat] at hwalk
      rw [not_or] at hdots
      exact ⟨front, hfront, hwalk, hdir, hdots.1, hdots.2, Nat.not_lt.mp hshort⟩
    · cases h
  · rintro ⟨outer, rfl, hwalk, hdir, hdot, hdots, hshort⟩
    rw [parentOf, List.dropLast_concat, List.getLast?_concat, hwalk]
    simp only [hdir, if_true, hdot, hdots, or_self, if_false, Nat.not_lt.mpr hshort]

theorem makeDirectoryAt_run (names : List String) (d : Disk) :
    (makeDirectoryAt names).run d = match d.parentOf names with
      | .error fault => (.error fault, d)
      | .ok none => (.error .fileExists, d)
      | .ok (some (outer, name)) =>
        if (d.node? (outer ++ [name])).isSome then (.error .fileExists, d)
        else (.ok (), d.put (outer ++ [name]) .directory) := by
  simp only [makeDirectoryAt, Work.run_bind, Work.run_get, Work.run_liftM]
  rcases d.parentOf names with fault | _ | ⟨outer, name⟩
  · rfl
  · rfl
  · dsimp only
    split <;> rfl

/-- Making a directory fails, or makes it where nothing stood. -/
theorem makeDirectoryAt_cases (names : List String) (d : Disk) :
    (∃ fault, (makeDirectoryAt names).run d = (.error fault, d))
      ∨ ∃ at_ name, d.parentOf names = .ok (some (at_, name)) ∧ d.node? (at_ ++ [name]) = none
        ∧ (makeDirectoryAt names).run d = (.ok (), d.put (at_ ++ [name]) .directory) := by
  rw [makeDirectoryAt_run]
  cases hparent : d.parentOf names with
  | error fault => exact .inl ⟨fault, rfl⟩
  | ok place =>
    cases place with
    | none => exact .inl ⟨.fileExists, rfl⟩
    | some place =>
      obtain ⟨outer, name⟩ := place
      by_cases hsome : (d.node? (outer ++ [name])).isSome = true
      · exact .inl ⟨.fileExists, if_pos hsome⟩
      · right
        refine ⟨outer, name, rfl, ?_, if_neg hsome⟩
        simpa using hsome

theorem isPlace_of_parentOf {names : List String} (hnames : ∀ name ∈ names, '/' ∉ name.toList)
    {at_ : Place} {name : String} (h : d.parentOf names = .ok (some (at_, name))) :
    IsPlace at_ ∧ IsPlace (at_ ++ [name]) := by
  obtain ⟨outer, rfl, hwalk, -⟩ := parentOf_eq_ok.mp h
  have hat : IsPlace at_ :=
    isPlace_walk .nil (fun other hmem => hnames other (List.mem_append_left _ hmem)) hwalk
  exact ⟨hat, hat.concat (hnames name (by simp))⟩

/-- Nothing stands at the end of a path, and what is around it is a directory: a directory can be
made there. -/
structure IsNew (d : Disk) (path : String) (outer : Place) (name : String) : Prop where
  place : IsPlace outer
  directory : d.node? outer = some .directory
  fileName : IsFileName name
  last : (segments path).getLast? = some name
  free : d.node? (outer ++ [name]) = none
  leads : (d.put (outer ++ [name]) .directory).LeadsTo path (outer ++ [name])

theorem ne_empty_of_mem_segments {path name : String} (h : name ∈ segments path) : name ≠ "" := by
  rw [segments, List.mem_filter] at h
  simpa using h.2

/-- The names that are walked along lead to a directory that was made at their end. -/
theorem walk_put_of_parentOf {names : List String} (hnames : ∀ name ∈ names, '/' ∉ name.toList)
    {outer : Place} {name : String} (h : d.parentOf names = .ok (some (outer, name)))
    (hnone : d.node? (outer ++ [name]) = none) :
    (d.put (outer ++ [name]) .directory).walk [] names = .ok (outer ++ [name])
      ∧ (d.put (outer ++ [name]) .directory).node? (outer ++ [name]) = some .directory := by
  obtain ⟨houter, hplace⟩ := isPlace_of_parentOf hnames h
  obtain ⟨front, rfl, hwalk, hdir, hdot, hdots, hshort⟩ := parentOf_eq_ok.mp h
  have hgrown : d.Extends (d.put (outer ++ [name]) .directory) :=
    extends_put hplace (by simp) (.inl hnone)
  have hput : (d.put (outer ++ [name]) .directory).node? (outer ++ [name]) = some .directory := by
    rw [node?_put d hplace hplace (by simp), if_pos rfl]
  have hfront : ∀ other ∈ front, '/' ∉ other.toList :=
    fun other hmem => hnames other (List.mem_append_left _ hmem)
  refine ⟨?_, hput⟩
  rw [walk_append, hgrown.walk .nil hfront hwalk]
  refine walk_single_eq_ok.mpr ⟨(hgrown outer houter).1 hdir, .inr (.inr ?_)⟩
  exact ⟨hdot, hdots, hshort, rfl, by rw [hput]; rfl⟩

/-- The last of some names of a path is a file name if a directory can be made under it. -/
theorem isFileName_of_parentOf {path : String} {names : List String}
    (hnames : ∀ name ∈ names, name ∈ segments path) {outer : Place} {name : String}
    (h : d.parentOf names = .ok (some (outer, name))) : IsFileName name := by
  obtain ⟨front, rfl, -, -, hdot, hdots, hshort⟩ := parentOf_eq_ok.mp h
  have hmem := hnames name (by simp)
  exact ⟨notMem_of_mem_segments hmem, ne_empty_of_mem_segments hmem, hdot, hdots, hshort⟩

/-- Making the directory at a path fails, or makes it where nothing stood; the path leads to it from
then on. -/
theorem makeDirectory_cases (path : String) (d : Disk) :
    (∃ fault, (makeDirectory path).run d = (.error fault, d))
      ∨ ∃ outer name, d.IsNew path outer name
        ∧ (makeDirectory path).run d = (.ok (), d.put (outer ++ [name]) .directory) := by
  simp only [makeDirectory]
  by_cases hempty : path.isEmpty = true
  · left
    refine ⟨.noSuchFile, ?_⟩
    rw [if_pos hempty]
    rfl
  rw [if_neg hempty]
  simp only [Work.run_bind, Work.run_liftM]
  cases hnames : namesOf path with
  | error fault => exact .inl ⟨fault, rfl⟩
  | ok names =>
    obtain ⟨-, rfl⟩ := namesOf_eq_ok.mp hnames
    dsimp only
    rcases makeDirectoryAt_cases (segments path) d with hfault | ⟨outer, name, hparent, hnone, hrun⟩
    · exact .inl hfault
    · right
      obtain ⟨front, hsegments, -, hdir, -⟩ := parentOf_eq_ok.mp hparent
      refine ⟨outer, name, ?_, hrun⟩
      exact {
        place := (isPlace_of_parentOf (fun _ => notMem_of_mem_segments) hparent).1
        directory := hdir
        fileName := isFileName_of_parentOf (fun _ hmem => hmem) hparent
        last := by rw [hsegments, List.getLast?_concat]
        free := hnone
        leads := walk_put_of_parentOf (fun _ => notMem_of_mem_segments) hparent hnone }

/-- Writing a file below a path fails, or puts the file in the directory that the path leads to. -/
theorem overwrite_cases (base : String) {name : String} (hname : IsFileName name)
    (content : ByteArray) (d : Disk) :
    (∃ fault, (overwrite (join base name) content).run d = (.error fault, d))
      ∨ ∃ at_, IsPath (join base name) ∧ d.LeadsTo base at_
        ∧ d.node? (at_ ++ [name]) ≠ some .directory
        ∧ (overwrite (join base name) content).run d
          = (.ok (), d.put (at_ ++ [name]) (.file content)) := by
  have hsegments : segments (join base name) = segments base ++ [name] := by
    rw [segments_join base hname.startsAtRoot, hname.segments]
  simp only [overwrite, isEmpty_join hname, Bool.false_eq_true, if_false, Work.run_bind,
    Work.run_get, Work.run_liftM]
  cases hnames : namesOf (join base name) with
  | error fault => exact .inl ⟨fault, rfl⟩
  | ok names =>
    obtain ⟨hpath, rfl⟩ := namesOf_eq_ok.mp hnames
    dsimp only
    rw [hsegments]
    rcases hparent : d.parentOf (segments base ++ [name]) with fault | _ | ⟨outer, last⟩
    · exact .inl ⟨fault, rfl⟩
    · exact .inl ⟨.isADirectory, rfl⟩
    · obtain ⟨front, hfront, hwalk, hdir, -⟩ := parentOf_eq_ok.mp hparent
      obtain ⟨rfl, hlast⟩ := List.append_inj' hfront rfl
      cases hlast
      dsimp only
      by_cases hthere : d.node? (outer ++ [name]) = some .directory
      · left
        rw [if_pos hthere]
        exact ⟨.isADirectory, rfl⟩
      · right
        rw [if_neg hthere]
        exact ⟨outer, hpath, ⟨hwalk, hdir⟩, hthere, rfl⟩

/-- Adding to the file in the directory that a path leads to. -/
theorem extend_join {base name : String} (hname : IsFileName name) (hpath : IsPath (join base name))
    {at_ : Place} (hleads : d.LeadsTo base at_) {old : ByteArray}
    (hfile : d.node? (at_ ++ [name]) = some (.file old)) (content : ByteArray) :
    (extend (join base name) content).run d
      = (.ok (), d.put (at_ ++ [name]) (.file (old ++ content))) := by
  simp only [extend, Work.run_bind, Work.run_get, Work.run_liftM,
    (stat_join hname).mpr ⟨hpath, at_, hleads, rfl, hfile⟩, Work.run_set]

/-- Adding to a file below a path fails, or adds to the file in the directory that the path leads
to. -/
theorem extend_cases (base : String) {name : String} (hname : IsFileName name) (content : ByteArray)
    (d : Disk) :
    (∃ fault, (extend (join base name) content).run d = (.error fault, d))
      ∨ ∃ at_ old, IsPath (join base name) ∧ d.LeadsTo base at_
        ∧ d.node? (at_ ++ [name]) = some (.file old)
        ∧ (extend (join base name) content).run d
          = (.ok (), d.put (at_ ++ [name]) (.file (old ++ content))) := by
  simp only [extend, Work.run_bind, Work.run_get, Work.run_liftM]
  rcases hstat : d.stat (join base name) with fault | ⟨there, n⟩
  · exact .inl ⟨fault, rfl⟩
  · obtain ⟨hpath, outer, hleads, rfl, hnode⟩ := (stat_join hname).mp hstat
    cases n with
    | directory => exact .inl ⟨.isADirectory, rfl⟩
    | file old => exact .inr ⟨outer, old, hpath, hleads, hnode, rfl⟩

/-- Reading the file in the directory that a path leads to. -/
theorem content_join {base name : String} (hname : IsFileName name)
    (hpath : IsPath (join base name)) {at_ : Place} (hleads : d.LeadsTo base at_)
    {content : ByteArray} (hfile : d.node? (at_ ++ [name]) = some (.file content)) :
    (Disk.content (join base name)).run d = (.ok content, d) := by
  simp only [Disk.content, Work.run_bind, Work.run_get, Work.run_liftM,
    (stat_join hname).mpr ⟨hpath, at_, hleads, rfl, hfile⟩, Work.run_pure]

/-- Reading a file below a path fails, or gives the file in the directory that the path leads to. -/
theorem content_cases (base : String) {name : String} (hname : IsFileName name) (d : Disk) :
    (∃ fault, (Disk.content (join base name)).run d = (.error fault, d))
      ∨ ∃ at_ content, IsPath (join base name) ∧ d.LeadsTo base at_
        ∧ d.node? (at_ ++ [name]) = some (.file content)
        ∧ (Disk.content (join base name)).run d = (.ok content, d) := by
  simp only [Disk.content, Work.run_bind, Work.run_get, Work.run_liftM]
  rcases hstat : d.stat (join base name) with fault | ⟨there, n⟩
  · exact .inl ⟨fault, rfl⟩
  · obtain ⟨hpath, outer, hleads, rfl, hnode⟩ := (stat_join hname).mp hstat
    cases n with
    | directory => exact .inl ⟨.isADirectory, rfl⟩
    | file content => exact .inr ⟨outer, content, hpath, hleads, hnode, rfl⟩

/-! ## Making directories -/

/-- The files of two disks are the same, and every directory of the first one is on the second. -/
structure SameFiles (d d' : Disk) : Prop where
  file : ∀ {at_}, IsPlace at_ → ∀ content,
    d'.node? at_ = some (.file content) ↔ d.node? at_ = some (.file content)
  directory : ∀ {at_}, IsPlace at_ → d.node? at_ = some .directory → d'.node? at_ = some .directory

theorem SameFiles.refl (d : Disk) : d.SameFiles d := ⟨fun _ _ => Iff.rfl, fun _ h => h⟩

theorem SameFiles.trans {d'' : Disk} (h : d.SameFiles d') (h' : d'.SameFiles d'') :
    d.SameFiles d'' where
  file hat content := (h'.file hat content).trans (h.file hat content)
  directory hat hdir := h'.directory hat (h.directory hat hdir)

theorem SameFiles.extends (h : d.SameFiles d') : d.Extends d' :=
  fun _ hat => ⟨h.directory hat, fun content hfile => ⟨content, (h.file hat content).mpr hfile⟩⟩

theorem sameFiles_put {at_ : Place} (hat : IsPlace at_) (hroot : at_ ≠ [])
    (hnone : d.node? at_ = none) : d.SameFiles (d.put at_ .directory) := by
  refine ⟨fun hother content => ?_, fun hother hdir => ?_⟩
  · rw [node?_put d hat hother hroot]
    split
    · rename_i heq
      rw [heq, hnone]
      simp
    · exact Iff.rfl
  · rw [node?_put d hat hother hroot]
    split
    · rfl
    · exact hdir

/-- Directories are made one after the other, each under one of some names where nothing stands, in
a directory that is there. -/
inductive NewDirectories (names : List String) (d : Disk) : Disk → Prop where
  | refl : NewDirectories names d d
  | make {d' : Disk} {outer : Place} {name : String} (before : NewDirectories names d d')
      (hplace : IsPlace outer) (hdir : d'.node? outer = some .directory)
      (hname : IsFileName name) (hmem : name ∈ names) (hnone : d'.node? (outer ++ [name]) = none) :
      NewDirectories names d (d'.put (outer ++ [name]) .directory)

theorem NewDirectories.trans {names : List String} {d'' : Disk} (h : NewDirectories names d d')
    (h' : NewDirectories names d' d'') : NewDirectories names d d'' := by
  induction h' with
  | refl => exact h
  | make before hplace hdir hname hmem hnone ih => exact ih.make hplace hdir hname hmem hnone

theorem NewDirectories.sameFiles {names : List String} (h : NewDirectories names d d') :
    d.SameFiles d' := by
  induction h with
  | refl => exact .refl d
  | make before hplace hdir hname hmem hnone ih =>
    exact ih.trans (sameFiles_put (hplace.concat hname.slash) (by simp) hnone)

/-- Work that makes directories under the names of a path, and touches no file. -/
def MakesOnly (path : String) (work : DiskM Unit) : Prop :=
  ∀ d : Disk, NewDirectories (segments path) d (work.run d).2

section MakesOnly

variable {path : String} {work outer : DiskM Unit} {names : List String}

theorem makesOnly_makeDirectoryAt (hnames : ∀ name ∈ names, name ∈ segments path) :
    MakesOnly path (makeDirectoryAt names) := by
  intro d
  rcases makeDirectoryAt_cases names d with ⟨fault, hrun⟩ | ⟨outer, name, hparent, hnone, hrun⟩
  · rw [hrun]
    exact .refl
  · rw [hrun]
    obtain ⟨front, hfront, -, hdir, -⟩ := parentOf_eq_ok.mp hparent
    have hplace := isPlace_of_parentOf (fun _ hmem => notMem_of_mem_segments (hnames _ hmem))
      hparent
    exact .make .refl hplace.1 hdir (isFileName_of_parentOf hnames hparent)
      (hnames name (by simp [hfront])) hnone

theorem MakesOnly.tryCatch (h : MakesOnly path work) {handle : IoFault → DiskM Unit}
    (hhandle : ∀ fault, MakesOnly path (handle fault)) :
    MakesOnly path (tryCatch work handle) := by
  intro d
  have hwork := h d
  rw [Work.run_tryCatch]
  rcases hrun : work.run d with ⟨fault | ⟨⟩, d'⟩ <;> rw [hrun] at hwork
  · exact hwork.trans (hhandle fault d')
  · exact hwork

theorem MakesOnly.bind (h : MakesOnly path work) {next : Unit → DiskM Unit}
    (hnext : MakesOnly path (next ())) : MakesOnly path (work >>= next) := by
  intro d
  have hwork := h d
  rw [Work.run_bind]
  rcases hrun : work.run d with ⟨fault | ⟨⟩, d'⟩ <;> rw [hrun] at hwork
  · exact hwork
  · exact hwork.trans (hnext d')

theorem makesOnly_makeWithin (hnames : ∀ name ∈ names, name ∈ segments path)
    (houter : MakesOnly path outer) : MakesOnly path (makeWithin names outer) := by
  have hmake := makesOnly_makeDirectoryAt hnames
  have hunless : ∀ fault, MakesOnly path (do
      if (← get).isDirectoryAt names then pure () else throw fault : DiskM Unit) := by
    intro fault d
    rw [Work.run_bind, Work.run_get]
    dsimp only
    split
    · exact .refl
    · exact .refl
  refine hmake.tryCatch fun fault => ?_
  cases fault with
  | noSuchFile => exact houter.bind (hmake.tryCatch hunless)
  | _ => exact hunless _

theorem makesOnly_makeAllBackwards (hnames : ∀ name ∈ names, name ∈ segments path) :
    MakesOnly path (makeAllBackwards names) := by
  induction names with
  | nil => exact fun d => .refl
  | cons name outer ih =>
    refine makesOnly_makeWithin (fun other hmem => hnames other ?_)
      (ih fun other hmem => hnames other (.tail _ hmem))
    exact List.mem_reverse.mp hmem

end MakesOnly

/-- Making the directories of a path makes directories under the names of the path. -/
theorem newDirectories_makeDirectories (path : String) (d : Disk) :
    NewDirectories (segments path) d ((makeDirectories path).run d).2 := by
  simp only [makeDirectories]
  by_cases hempty : path.isEmpty = true
  · rw [if_pos hempty]
    exact .refl
  rw [if_neg hempty]
  simp only [Work.run_bind, Work.run_liftM]
  cases hnames : namesOf path with
  | error fault => exact .refl
  | ok names =>
    obtain ⟨-, rfl⟩ := namesOf_eq_ok.mp hnames
    refine makesOnly_makeWithin (fun _ hmem => hmem) ?_ d
    apply makesOnly_makeAllBackwards
    intro name hmem
    have hfilter := List.mem_reverse.mp (List.mem_of_mem_tail hmem)
    exact (List.mem_filter.mp hfilter).1

/-- Making the directories of a path touches no file. -/
theorem sameFiles_makeDirectories (path : String) (d : Disk) :
    d.SameFiles ((makeDirectories path).run d).2 :=
  (newDirectories_makeDirectories path d).sameFiles

/-- A directory that was made is there. -/
theorem leads_of_makeDirectoryAt {names : List String}
    (hnames : ∀ name ∈ names, '/' ∉ name.toList)
    (h : (makeDirectoryAt names).run d = (.ok (), d')) :
    ∃ at_, d'.walk [] names = .ok at_ ∧ d'.node? at_ = some .directory := by
  rcases makeDirectoryAt_cases names d with ⟨fault, hfault⟩ | ⟨outer, name, hp, hnone, hmake⟩
  · rw [hfault] at h
    cases h
  · rw [hmake] at h
    cases h
    exact ⟨_, walk_put_of_parentOf hnames hp hnone⟩

/-- So is one that is no fault although it could not be made. -/
theorem leads_of_isDirectoryAt {names : List String} {fault : IoFault}
    (h : (do if (← get).isDirectoryAt names then pure () else throw fault : DiskM Unit).run d
      = (.ok (), d')) : ∃ at_, d'.walk [] names = .ok at_ ∧ d'.node? at_ = some .directory := by
  simp only [Work.run_bind, Work.run_get] at h
  split at h
  · rename_i hdir
    cases h
    unfold isDirectoryAt at hdir
    split at hdir
    · rename_i at_ hwalk
      exact ⟨at_, hwalk, of_decide_eq_true hdir⟩
    · cases hdir
  · cases h

theorem leads_of_makeWithin {names : List String} (hnames : ∀ name ∈ names, '/' ∉ name.toList)
    {outer : DiskM Unit} (h : (makeWithin names outer).run d = (.ok (), d')) :
    ∃ at_, d'.walk [] names = .ok at_ ∧ d'.node? at_ = some .directory := by
  simp only [makeWithin, Work.run_tryCatch] at h
  rcases hfirst : (makeDirectoryAt names).run d with ⟨fault | ⟨⟩, d₁⟩
  · rw [hfirst] at h
    cases fault with
    | noSuchFile =>
      simp only [Work.run_bind] at h
      rcases houter : outer.run d₁ with ⟨fault | ⟨⟩, d₂⟩
      · rw [houter] at h
        cases h
      · rw [houter] at h
        simp only [Work.run_tryCatch] at h
        rcases hsecond : (makeDirectoryAt names).run d₂ with ⟨fault | ⟨⟩, d₃⟩
        · rw [hsecond] at h
          exact leads_of_isDirectoryAt h
        · rw [hsecond] at h
          cases h
          exact leads_of_makeDirectoryAt hnames hsecond
    | _ => exact leads_of_isDirectoryAt h
  · rw [hfirst] at h
    cases h
    exact leads_of_makeDirectoryAt hnames hfirst

/-- When the directories of a path were made, the path leads to a directory. -/
theorem leadsTo_of_makeDirectories {path : String}
    (h : (makeDirectories path).run d = (.ok (), d')) :
    IsPath path ∧ ∃ at_, d'.LeadsTo path at_ := by
  simp only [makeDirectories] at h
  by_cases hempty : path.isEmpty = true
  · rw [if_pos hempty] at h
    cases h
    rw [String.isEmpty_iff.mp hempty]
    exact ⟨by unfold IsPath; decide, [], rfl, rfl⟩
  rw [if_neg hempty] at h
  simp only [Work.run_bind, Work.run_liftM] at h
  cases hnames : namesOf path with
  | error fault =>
    rw [hnames] at h
    cases h
  | ok names =>
    obtain ⟨hpath, rfl⟩ := namesOf_eq_ok.mp hnames
    rw [hnames] at h
    exact ⟨hpath, leads_of_makeWithin (fun _ => notMem_of_mem_segments) h⟩

end Disk

end Intake
