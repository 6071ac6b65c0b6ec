import Intake.Proofs.Archive.Mirror

/-!
# Disks as trees

On a disk that only stores have worked on everything stands in a directory, under a name that a file
can have (`Disk.IsTree`). So nothing stands below a place where nothing stands
(`Disk.IsTree.isFree`), and a new archive finds its directory empty.

A description that was once written stays what it is (`Disk.KeepsDescriptions`), and stands in a
directory with the last name of the archive's identifier (`Disk.NamesArchives`). So two directories
beside each other never hold archives with one identifier.
-/

namespace Intake

namespace Disk

variable {d d' : Disk} {at_ : Place} {name : String} {content : ByteArray}

/-! ## Trees -/

/-- Whatever stands on the disk has a file name and stands in a directory. -/
def IsTree (d : Disk) : Prop :=
  ∀ at_ name, IsPlace (at_ ++ [name]) →
    (d.node? (at_ ++ [name])).isSome = true → IsFileName name ∧ d.node? at_ = some .directory

theorem node?_empty (hne : at_ ≠ []) : node? {} at_ = none := by
  cases at_ with
  | nil => exact absurd rfl hne
  | cons name rest => rfl

theorem isTree_empty : IsTree {} := by
  intro at_ name _ hsome
  rw [node?_empty (by simp)] at hsome
  cases hsome

/-- A tree stays one when something is put into one of its directories. -/
theorem IsTree.put (h : d.IsTree) (hat : IsPlace at_) (hdir : d.node? at_ = some .directory)
    (hname : IsFileName name) {n : Node} (hgrown : d.Extends (d.put (at_ ++ [name]) n)) :
    (d.put (at_ ++ [name]) n).IsTree := by
  intro outer other hplace hsome
  by_cases heq : outer ++ [other] = at_ ++ [name]
  · obtain ⟨rfl, hlast⟩ := List.append_inj' heq rfl
    obtain rfl := (List.cons.inj hlast).1
    exact ⟨hname, (hgrown outer hat).1 hdir⟩
  · rw [node?_put d (hat.concat hname.slash) hplace (by simp), if_neg heq] at hsome
    obtain ⟨hother, houter⟩ := h outer other hplace hsome
    have hfront : IsPlace outer := fun _ hmem => hplace _ (List.mem_append_left _ hmem)
    exact ⟨hother, (hgrown outer hfront).1 houter⟩

/-- Nothing stands below a place of a tree where nothing stands. -/
theorem IsTree.isFree (h : d.IsTree) (hnone : d.node? at_ = none) : d.IsFree at_ := by
  intro rest
  induction rest using List.reverseRecOn with
  | nil =>
    intro _
    rwa [List.append_nil]
  | append_singleton front name ih =>
    intro hplace
    rw [← List.append_assoc] at hplace ⊢
    have hfront : IsPlace (at_ ++ front) := fun _ hmem => hplace _ (List.mem_append_left _ hmem)
    by_contra hnode
    have hdir := (h _ _ hplace (Option.isSome_iff_ne_none.mpr hnode)).2
    rw [ih hfront] at hdir
    cases hdir

theorem NewDirectories.isTree {names : List String} (hnew : NewDirectories names d d')
    (h : d.IsTree) : d'.IsTree := by
  induction hnew with
  | refl => exact h
  | make before hplace hdir hname hmem hnone ih =>
    exact ih.put hplace hdir hname
      (extends_put (hplace.concat hname.slash) (by simp) (.inl hnone))

/-! ## Descriptions -/

/-- The disk has grown, and the descriptions on it are what they were. -/
structure KeepsDescriptions (d d' : Disk) : Prop where
  grown : d.Extends d'
  kept : ∀ {at_}, IsPlace at_ → ∀ {content},
    d.node? (at_ ++ [metadataFile]) = some (.file content) →
    d'.node? (at_ ++ [metadataFile]) = some (.file content)

theorem KeepsDescriptions.refl (d : Disk) : d.KeepsDescriptions d := ⟨.refl d, fun _ _ h => h⟩

theorem KeepsDescriptions.trans {d'' : Disk} (h : d.KeepsDescriptions d')
    (h' : d'.KeepsDescriptions d'') : d.KeepsDescriptions d'' :=
  ⟨h.grown.trans h'.grown, fun hat _ hfile => h'.kept hat (h.kept hat hfile)⟩

theorem SameFiles.keepsDescriptions (h : d.SameFiles d') : d.KeepsDescriptions d' :=
  ⟨h.extends, fun hat _ hfile => (h.file (hat.concat isFileName_metadataFile.slash) _).mpr hfile⟩

/-- A description that can be read stands in a directory with the last name of the identifier of the
archive. -/
def NamesArchives (d : Disk) : Prop :=
  ∀ at_, IsPlace at_ → ∀ content m,
    d.node? (at_ ++ [metadataFile]) = some (.file content) →
    ArchiveMetadata.wire.ofBytes content = .ok m → at_.getLast? = (segments m.archiveId).getLast?

/-- Names of archives stay right if every description is an old one or rightly named. -/
theorem NamesArchives.of_new (h : d.NamesArchives)
    (hnew : ∀ {at_}, IsPlace at_ → ∀ {content},
      d'.node? (at_ ++ [metadataFile]) = some (.file content) →
      d.node? (at_ ++ [metadataFile]) = some (.file content)
        ∨ ∀ m, ArchiveMetadata.wire.ofBytes content = .ok m →
          at_.getLast? = (segments m.archiveId).getLast?) : d'.NamesArchives := by
  intro at_ hat content m hfile hread
  rcases hnew hat hfile with hold | hnamed
  · exact h at_ hat content m hold hread
  · exact hnamed m hread

/-- A tree on which archives are rightly named, and whose logs are logs of responses. -/
structure IsOrderly (d : Disk) : Prop where
  tree : d.IsTree
  named : d.NamesArchives
  logged : ∀ at_, IsPlace at_ → ∀ log, d.logAt at_ = some log → ∃ rs, log = ResponseLog.ofList rs

theorem NewDirectories.isOrderly {names : List String} (hnew : NewDirectories names d d')
    (h : d.IsOrderly) : d'.IsOrderly where
  tree := hnew.isTree h.tree
  named := h.named.of_new fun hat _ hfile =>
    .inl ((hnew.sameFiles.file (hat.concat isFileName_metadataFile.slash) _).mp hfile)
  logged at_ hat log hlog := by
    rcases hnew.sameFiles.keepsLogs.fresh hat log hlog with hold | rfl
    · exact h.logged at_ hat log hold
    · exact ⟨[], rfl⟩

/-- What is put under another name is no description. -/
theorem node?_put_description (hat : IsPlace at_) (hname : IsFileName name)
    (hother : name ≠ metadataFile) (n : Node) {outer : Place} (houter : IsPlace outer) :
    (d.put (at_ ++ [name]) n).node? (outer ++ [metadataFile])
      = d.node? (outer ++ [metadataFile]) := by
  rw [node?_put d (hat.concat hname.slash) (houter.concat isFileName_metadataFile.slash) (by simp),
    if_neg]
  intro heq
  exact hother (List.cons.inj (List.append_inj' heq rfl).2).1.symm

theorem responsesFile_ne_metadataFile : responsesFile ≠ metadataFile := by
  decide

/-- A log of responses that is put into a directory keeps the disk orderly, and all descriptions. -/
theorem IsOrderly.put_log (h : d.IsOrderly) (hat : IsPlace at_)
    (hdir : d.node? at_ = some .directory) (rs : List LoggedResponse)
    (hgrown : d.Extends (d.put (at_ ++ [responsesFile]) (.file (ResponseLog.ofList rs)))) :
    (d.put (at_ ++ [responsesFile]) (.file (ResponseLog.ofList rs))).IsOrderly
      ∧ d.KeepsDescriptions (d.put (at_ ++ [responsesFile]) (.file (ResponseLog.ofList rs))) := by
  have hsame := fun {outer : Place} (houter : IsPlace outer) =>
    node?_put_description (d := d) hat isFileName_responsesFile responsesFile_ne_metadataFile
      (.file (ResponseLog.ofList rs)) houter
  refine ⟨⟨h.tree.put hat hdir isFileName_responsesFile hgrown, ?_, ?_⟩, hgrown, ?_⟩
  · exact h.named.of_new fun houter content hfile => .inl (by rwa [hsame houter] at hfile)
  · intro outer houter log hlog
    rw [logAt_put_log hat houter] at hlog
    split at hlog
    · cases hlog
      exact ⟨rs, rfl⟩
    · exact h.logged outer houter log hlog
  · intro outer houter content hfile
    rwa [hsame houter]

/-- A description that is put into a directory with the last name of the identifier keeps the disk
orderly, and all other descriptions. -/
theorem IsOrderly.put_description (h : d.IsOrderly) (hat : IsPlace at_)
    (hdir : d.node? at_ = some .directory) (hnone : d.node? (at_ ++ [metadataFile]) = none)
    {m : ArchiveMetadata} (hlast : at_.getLast? = (segments m.archiveId).getLast?) :
    (d.put (at_ ++ [metadataFile]) (.file (ArchiveMetadata.wire.write m).pretty.toUTF8)).IsOrderly
      ∧ d.KeepsDescriptions
        (d.put (at_ ++ [metadataFile]) (.file (ArchiveMetadata.wire.write m).pretty.toUTF8)) := by
  have hplace := hat.concat isFileName_metadataFile.slash
  have hgrown := extends_put hplace (by simp)
    (n := .file (ArchiveMetadata.wire.write m).pretty.toUTF8) (.inl hnone)
  refine ⟨⟨h.tree.put hat hdir isFileName_metadataFile hgrown, ?_, ?_⟩, hgrown, ?_⟩
  · refine h.named.of_new fun {outer} houter content hfile => ?_
    rw [node?_put d hplace (houter.concat isFileName_metadataFile.slash) (by simp)] at hfile
    split at hfile
    · rename_i heq
      obtain ⟨rfl, -⟩ := List.append_inj' heq rfl
      cases hfile
      right
      intro other hread
      rw [(ArchiveMetadata.ofBytes_pretty_eq_ok.mp hread).1]
      exact hlast
    · exact .inl hfile
  · intro outer houter log hlog
    rw [logAt_put_other hat isFileName_metadataFile.slash (by decide) houter] at hlog
    exact h.logged outer houter log hlog
  · intro outer houter content hfile
    rw [node?_put d hplace (houter.concat isFileName_metadataFile.slash) (by simp), if_neg]
    · exact hfile
    · intro heq
      rw [heq, hnone] at hfile
      cases hfile

end Disk

namespace DirectoryStore

open Disk

variable {s : DirectoryStore} {d d' : Disk} {m : ArchiveMetadata} {outer : Place} {name : String}

/-! ## New archives -/

/-- The directory of a new archive has the last name of the identifier. -/
theorem last_of_isNew (hnew : d.IsNew (s.directoryOf m.archiveId) outer name) {at_ : Place}
    (hleads : d.LeadsTo s.root at_) : (segments m.archiveId).getLast? = some name := by
  have hlast := hnew.last
  have hthere := hnew.leads
  rw [directoryOf] at hlast hthere
  by_cases hstart : startsAtRoot m.archiveId = true
  · rwa [join, hstart, Bool.true_or, if_pos rfl] at hlast
  rw [Bool.not_eq_true] at hstart
  rw [segments_join s.root hstart] at hlast
  rcases List.eq_nil_or_concat' (segments m.archiveId) with hnil | ⟨front, last, hconcat⟩
  · -- the path would lead to the root, where a directory stands already
    rw [LeadsTo, segments_join s.root hstart, hnil, List.append_nil] at hthere
    obtain rfl := (hnew.extends.leadsTo hleads).unique hthere
    have hnone := hnew.free
    rw [hleads.2] at hnone
    cases hnone
  · rw [hconcat, List.getLast?_concat]
    rwa [hconcat, ← List.append_assoc, List.getLast?_concat] at hlast

/-- Creating an archive keeps the disk orderly, and all descriptions. -/
theorem Created.isOrderly {r : Except ArchiveError Unit} (hcreated : s.Created d m r d')
    (h : d.IsOrderly) {at_ : Place} (hleads : d.LeadsTo s.root at_) :
    d'.IsOrderly ∧ d.KeepsDescriptions d' := by
  have hdirectory : ∀ {outer name}, d.IsNew (s.directoryOf m.archiveId) outer name →
      NewDirectories [name] d (d.put (outer ++ [name]) .directory) := fun hnew =>
    .make .refl hnew.place hnew.directory hnew.fileName (List.mem_singleton_self _) hnew.free
  have hdescription : ∀ {outer name}, d.IsNew (s.directoryOf m.archiveId) outer name →
      (d.withDescription (outer ++ [name]) m).IsOrderly
        ∧ d.KeepsDescriptions (d.withDescription (outer ++ [name]) m)
        ∧ (d.withDescription (outer ++ [name]) m).node? (outer ++ [name]) = some .directory := by
    intro outer name hnew
    have hplace := hnew.place.concat hnew.fileName.slash
    have hfile := hplace.concat isFileName_metadataFile.slash
    have hnone : (d.put (outer ++ [name]) .directory).node? (outer ++ [name] ++ [metadataFile])
        = none := by
      rw [node?_put d hplace hfile (by simp), if_neg (by simp)]
      exact h.tree.isFree hnew.free _ hfile
    obtain ⟨horderly, hkeeps⟩ := ((hdirectory hnew).isOrderly h).put_description hplace
      hnew.leads.2 hnone (by rw [List.getLast?_concat, last_of_isNew hnew hleads])
    exact ⟨horderly, (hdirectory hnew).sameFiles.keepsDescriptions.trans hkeeps,
      (hkeeps.grown _ hplace).1 hnew.leads.2⟩
  cases hcreated with
  | refused e => exact ⟨h, .refl d⟩
  | directory hnew e =>
    exact ⟨(hdirectory hnew).isOrderly h, (hdirectory hnew).sameFiles.keepsDescriptions⟩
  | description hnew hfile e => exact ⟨(hdescription hnew).1, (hdescription hnew).2.1⟩
  | complete hnew hfile hlog hpath hlogPath =>
    obtain ⟨horderly, hkeeps, hdir⟩ := hdescription hnew
    have hplace := hnew.place.concat hnew.fileName.slash
    obtain ⟨horderly', hkeeps'⟩ := horderly.put_log hplace hdir []
      (extends_put_file (hplace.concat isFileName_responsesFile.slash) hlog ByteArray.empty)
    exact ⟨horderly', hkeeps.trans hkeeps'⟩

end DirectoryStore

end Intake
