import Intake.Archive.Disk

/-!
# Paths and places

A path is read as the names between its slashes, and the names of a path below another one are those
of both (`Disk.segments_join`). No name holds a slash, so different places have different keys among
the nodes of a disk, and what is put at one place is found there and nowhere else
(`Disk.node?_put`).

A path leads to one place. It leads there as long as directories stay directories and files stay
files (`Disk.Extends.walk`), which is what all work on archives leaves as it is.
-/

namespace Intake

namespace Disk

/-! ## Names -/

theorem notMem_of_mem_splitOn {α : Type} [BEq α] [LawfulBEq α] {a : α} {xs part : List α}
    (h : part ∈ xs.splitOn a) : a ∉ part := by
  induction xs generalizing part with
  | nil =>
    rw [List.splitOn_nil, List.mem_singleton] at h
    rw [h]
    exact List.not_mem_nil
  | cons x xs ih =>
    rw [List.splitOn_cons_eq_if_modifyHead] at h
    by_cases hx : x = a
    · rw [if_pos (by simp [hx])] at h
      rcases List.mem_cons.mp h with rfl | h
      · exact List.not_mem_nil
      · exact ih h
    · rw [if_neg (by simp [hx])] at h
      cases hparts : xs.splitOn a with
      | nil => exact absurd hparts (List.splitOn_ne_nil a xs)
      | cons first rest =>
        rw [hparts, List.modifyHead_cons] at h
        rcases List.mem_cons.mp h with rfl | h
        · have hfirst : a ∉ first := ih (by rw [hparts]; exact .head _)
          simp [Ne.symm hx, hfirst]
        · exact ih (by rw [hparts]; exact .tail _ h)

/-- No name of a path holds a slash. -/
theorem notMem_of_mem_segments {path name : String} (h : name ∈ segments path) :
    '/' ∉ name.toList := by
  rw [segments, List.mem_filter, List.mem_map] at h
  obtain ⟨⟨part, hpart, rfl⟩, -⟩ := h
  rw [String.toList_ofList]
  exact notMem_of_mem_splitOn hpart

theorem segments_append_slash (front rest : String) :
    segments (front ++ "/" ++ rest) = segments front ++ segments rest := by
  have hlist : (front ++ "/" ++ rest).toList = front.toList ++ '/' :: rest.toList := by
    simp [String.toList_append]
  rw [segments, hlist, List.splitOn_append_cons_self, List.map_append, List.filter_append]
  rfl

/-- The names of a path below another one are the names of both. -/
theorem segments_join (base : String) {path : String} (h : startsAtRoot path = false) :
    segments (join base path) = segments base ++ segments path := by
  rw [join, h, Bool.false_or]
  by_cases hempty : base.isEmpty = true
  · rw [if_pos hempty, String.isEmpty_iff.mp hempty]
    rfl
  · rw [if_neg hempty]
    by_cases hslash : endsInSlash base = true
    · rw [if_pos hslash]
      obtain ⟨front, hfront⟩ := List.getLast?_eq_some_iff.mp (beq_iff_eq.mp hslash)
      have hbase : base = String.ofList front ++ "/" := by
        rw [← String.toList_inj]
        simp [String.toList_append, hfront]
      have hfrontSegments : segments (String.ofList front ++ "/")
          = segments (String.ofList front) := by
        have := segments_append_slash (String.ofList front) ""
        rwa [String.append_empty, show segments "" = [] from rfl, List.append_nil] at this
      rw [hbase, segments_append_slash, hfrontSegments]
    · rw [if_neg hslash, segments_append_slash]

/-- A name that a file can have and that stands for nothing else. -/
structure IsFileName (name : String) : Prop where
  slash : '/' ∉ name.toList
  nonempty : name ≠ ""
  dot : name ≠ "."
  dots : name ≠ ".."
  short : name.utf8ByteSize ≤ 255

namespace IsFileName

theorem segments {name : String} (h : IsFileName name) : segments name = [name] := by
  rw [Disk.segments, List.splitOn_eq_singleton h.slash]
  simp [h.nonempty]

theorem startsAtRoot {name : String} (h : IsFileName name) : startsAtRoot name = false := by
  rw [Disk.startsAtRoot, beq_eq_false_iff_ne]
  intro hhead
  exact h.slash (List.mem_of_head? hhead)

/-- A path below another one that is a file name does not end in a slash. -/
theorem endsInSlash_join {name : String} (h : IsFileName name) (base : String) :
    endsInSlash (join base name) = false := by
  have hlast : ∀ front : List Char, (front ++ name.toList).getLast? ≠ some '/' := by
    intro front hend
    have hname : name.toList ≠ [] := fun hnil => h.nonempty (String.toList_eq_nil_iff.mp hnil)
    rw [List.getLast?_append, List.getLast?_eq_some_getLast hname, Option.some_or] at hend
    exact h.slash (Option.some.inj hend ▸ List.getLast_mem hname)
  rw [endsInSlash, beq_eq_false_iff_ne, join, h.startsAtRoot, Bool.false_or]
  split
  · exact hlast []
  · split
    · rw [String.toList_append]
      exact hlast _
    · rw [String.toList_append]
      exact hlast _

end IsFileName

/-! ## Places -/

/-- The names of a place hold no slash. -/
def IsPlace (at_ : Place) : Prop := ∀ name ∈ at_, '/' ∉ name.toList

theorem IsPlace.nil : IsPlace [] := by
  intro name h
  cases h

theorem IsPlace.concat {at_ : Place} (h : IsPlace at_) {name : String} (hname : '/' ∉ name.toList) :
    IsPlace (at_ ++ [name]) := by
  intro other hmem
  rcases List.mem_append.mp hmem with hmem | hmem
  · exact h other hmem
  · rw [List.mem_singleton.mp hmem]
    exact hname

theorem IsPlace.dropLast {at_ : Place} (h : IsPlace at_) : IsPlace at_.dropLast := by
  intro name hmem
  exact h name (List.dropLast_subset at_ hmem)

theorem splitOn_append_of_notMem {α : Type} [BEq α] [LawfulBEq α] {a : α} {front : List α}
    (h : a ∉ front) (rest : List α) :
    (front ++ rest).splitOn a = (rest.splitOn a).modifyHead (front ++ ·) := by
  induction front with
  | nil => cases h : rest.splitOn a <;> exact h
  | cons x front ih =>
    rw [List.mem_cons, not_or] at h
    rw [List.cons_append, List.splitOn_cons_eq_if_modifyHead, if_neg (by simp [Ne.symm h.1]),
      ih h.2]
    cases rest.splitOn a <;> rfl

theorem splitOn_placeKey {at_ : Place} (h : IsPlace at_) :
    (placeKey at_).toList.splitOn '/' = [] :: at_.map String.toList := by
  rw [placeKey, String.toList_join]
  induction at_ with
  | nil => rfl
  | cons name rest ih =>
    have hname : '/' ∉ name.toList := h name (.head _)
    have hrest := ih fun other hmem => h other (.tail _ hmem)
    rw [List.map_cons, List.flatMap_cons, String.toList_append]
    show ('/' :: (name.toList ++ _)).splitOn '/' = _
    rw [List.splitOn_cons_eq_if_modifyHead, if_pos (by rfl), splitOn_append_of_notMem hname, hrest]
    simp

/-- Different places have different keys. -/
theorem placeKey_inj {p q : Place} (hp : IsPlace p) (hq : IsPlace q) (h : placeKey p = placeKey q) :
    p = q := by
  have hsplit := splitOn_placeKey hp
  rw [h, splitOn_placeKey hq, List.cons.injEq] at hsplit
  exact ((List.map_inj_right fun _ _ => String.toList_inj.mp).mp hsplit.2).symm

/-- What is put at a place is found there, and nothing else changes. -/
theorem node?_put (d : Disk) {p q : Place} (hp : IsPlace p) (hq : IsPlace q) (hroot : p ≠ [])
    (n : Node) : (d.put p n).node? q = if q = p then some n else d.node? q := by
  cases q with
  | nil => rw [if_neg (Ne.symm hroot)]; rfl
  | cons name rest =>
    show (d.nodes.insert (placeKey p) n).get? (placeKey (name :: rest)) = _
    rw [Keyed.get?_insert]
    by_cases heq : name :: rest = p
    · rw [if_pos heq, if_pos (by rw [heq])]
    · rw [if_neg heq, if_neg (fun hkey => heq (placeKey_inj hq hp hkey))]
      rfl

/-! ## Walking -/

variable {d d' : Disk}

theorem walk_cons (d : Disk) (at_ : Place) (name : String) (names : List String) :
    d.walk at_ (name :: names) = (d.walk at_ [name] >>= fun there => d.walk there names) := by
  simp only [walk]
  cases d.node? at_ with
  | none => rfl
  | some n =>
    cases n with
    | file content => rfl
    | directory =>
      dsimp only
      split
      · rfl
      split
      · rfl
      split
      · rfl
      split <;> rfl

theorem walk_append (d : Disk) (at_ : Place) (front rest : List String) :
    d.walk at_ (front ++ rest) = (d.walk at_ front >>= fun there => d.walk there rest) := by
  induction front generalizing at_ with
  | nil => rfl
  | cons name front ih =>
    rw [List.cons_append, walk_cons, walk_cons d at_ name front]
    cases d.walk at_ [name] with
    | error e => rfl
    | ok there => exact ih there

/-- One step of a walk, when it succeeds. -/
theorem walk_single_eq_ok {at_ there : Place} {name : String} :
    d.walk at_ [name] = .ok there ↔ d.node? at_ = some .directory
      ∧ (name = "." ∧ there = at_ ∨ name ≠ "." ∧ name = ".." ∧ there = at_.dropLast
        ∨ name ≠ "." ∧ name ≠ ".." ∧ name.utf8ByteSize ≤ 255 ∧ there = at_ ++ [name]
          ∧ (d.node? there).isSome = true) := by
  simp only [walk]
  cases d.node? at_ with
  | none => simp
  | some n =>
    cases n with
    | file content => simp
    | directory =>
      dsimp only
      split
      · rename_i hdot
        constructor
        · intro h
          cases h
          exact ⟨rfl, .inl ⟨hdot, rfl⟩⟩
        · rintro ⟨-, ⟨-, rfl⟩ | ⟨hne, -⟩ | ⟨hne, -⟩⟩
          · rfl
          · exact absurd hdot hne
          · exact absurd hdot hne
      split
      · rename_i hdot hdots
        constructor
        · intro h
          cases h
          exact ⟨rfl, .inr (.inl ⟨hdot, hdots, rfl⟩)⟩
        · rintro ⟨-, ⟨heq, -⟩ | ⟨-, -, rfl⟩ | ⟨-, hne, -⟩⟩
          · exact absurd heq hdot
          · rfl
          · exact absurd hdots hne
      split
      · rename_i hdot hdots hlong
        constructor
        · intro h
          cases h
        · rintro ⟨-, ⟨heq, -⟩ | ⟨-, heq, -⟩ | ⟨-, -, hshort, -⟩⟩
          · exact absurd heq hdot
          · exact absurd heq hdots
          · omega
      split
      · rename_i hdot hdots hlong hnone
        constructor
        · intro h
          cases h
        · rintro ⟨-, ⟨heq, -⟩ | ⟨-, heq, -⟩ | ⟨-, -, -, rfl, hsome⟩⟩
          · exact absurd heq hdot
          · exact absurd heq hdots
          · rw [Option.isNone_iff_eq_none] at hnone
            rw [hnone] at hsome
            cases hsome
      · rename_i hdot hdots hlong hsome
        constructor
        · intro h
          cases h
          refine ⟨rfl, .inr (.inr ⟨hdot, hdots, Nat.not_lt.mp hlong, rfl, ?_⟩)⟩
          rwa [Bool.not_eq_true, Option.isNone_eq_false_iff] at hsome
        · rintro ⟨-, ⟨heq, -⟩ | ⟨-, heq, -⟩ | ⟨-, -, -, rfl, -⟩⟩
          · exact absurd heq hdot
          · exact absurd heq hdots
          · rfl

theorem isPlace_walk {at_ there : Place} {names : List String} (hat : IsPlace at_)
    (hnames : ∀ name ∈ names, '/' ∉ name.toList) (h : d.walk at_ names = .ok there) :
    IsPlace there := by
  induction names generalizing at_ with
  | nil =>
    cases h
    exact hat
  | cons name names ih =>
    rw [walk_cons] at h
    cases hstep : d.walk at_ [name] with
    | error e =>
      rw [hstep] at h
      cases h
    | ok next =>
      rw [hstep] at h
      refine ih ?_ (fun other hmem => hnames other (.tail _ hmem)) h
      rcases (walk_single_eq_ok.mp hstep).2 with ⟨-, rfl⟩ | ⟨-, -, rfl⟩ | ⟨-, -, -, rfl, -⟩
      · exact hat
      · exact hat.dropLast
      · exact hat.concat (hnames name (.head _))

/-! ## Growing -/

/-- Directories are still directories, and files are still files. -/
def Extends (d d' : Disk) : Prop :=
  ∀ at_, IsPlace at_ → (d.node? at_ = some .directory → d'.node? at_ = some .directory)
    ∧ ∀ content, d.node? at_ = some (.file content) → ∃ new, d'.node? at_ = some (.file new)

theorem Extends.refl (d : Disk) : d.Extends d := fun _ _ => ⟨id, fun content h => ⟨content, h⟩⟩

theorem Extends.trans {d'' : Disk} (h : d.Extends d') (h' : d'.Extends d'') : d.Extends d'' := by
  intro at_ hat
  refine ⟨fun hdir => (h' at_ hat).1 ((h at_ hat).1 hdir), fun content hfile => ?_⟩
  obtain ⟨new, hnew⟩ := (h at_ hat).2 content hfile
  exact (h' at_ hat).2 new hnew

theorem Extends.isSome (h : d.Extends d') {at_ : Place} (hat : IsPlace at_)
    (hsome : (d.node? at_).isSome = true) : (d'.node? at_).isSome = true := by
  cases hnode : d.node? at_ with
  | none =>
    rw [hnode] at hsome
    cases hsome
  | some n =>
    cases n with
    | directory => rw [(h at_ hat).1 hnode]; rfl
    | file content =>
      obtain ⟨new, hnew⟩ := (h at_ hat).2 content hnode
      rw [hnew]
      rfl

/-- A walk that succeeds leads to the same place when the disk has grown. -/
theorem Extends.walk (h : d.Extends d') {at_ there : Place} {names : List String}
    (hat : IsPlace at_) (hnames : ∀ name ∈ names, '/' ∉ name.toList)
    (hwalk : d.walk at_ names = .ok there) : d'.walk at_ names = .ok there := by
  induction names generalizing at_ with
  | nil => exact hwalk
  | cons name names ih =>
    have hname : '/' ∉ name.toList := hnames name (.head _)
    rw [walk_cons] at hwalk ⊢
    cases hstep : d.walk at_ [name] with
    | error e =>
      rw [hstep] at hwalk
      cases hwalk
    | ok next =>
      rw [hstep] at hwalk
      have hnext : IsPlace next :=
        isPlace_walk hat (fun other hmem => by rwa [List.mem_singleton.mp hmem]) hstep
      obtain ⟨hdir, hkind⟩ := walk_single_eq_ok.mp hstep
      have hstep' : d'.walk at_ [name] = .ok next := by
        refine walk_single_eq_ok.mpr ⟨(h at_ hat).1 hdir, ?_⟩
        rcases hkind with hdot | hdots | ⟨hdot, hdots, hshort, hplace, hsome⟩
        · exact .inl hdot
        · exact .inr (.inl hdots)
        · exact .inr (.inr ⟨hdot, hdots, hshort, hplace, h.isSome hnext hsome⟩)
      rw [hstep']
      exact ih hnext (fun other hmem => hnames other (.tail _ hmem)) hwalk

end Disk

end Intake
