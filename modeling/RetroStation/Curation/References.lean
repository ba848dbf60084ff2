import Mathlib.Data.Set.Basic
import RetroStation.Curation.Folds

/-! # References to files and works

Matches, song masters and format overrides name files and works. Each table's
condition reads the library through two things only: the work of a file row, and
which works there are. A statement may leave some references off their work for a
later one to settle, so the conditions leave out a set of files, and one of works.
-/

namespace RetroStation

open Library Matching

/-- The song and file of a song's match. -/
def Matching.Match.songFile (row : Match) : Option (Uuid × Uuid) :=
  match row.subject, row.libraryFileId with
  | .identity identityId, some fileId => some (identityId, fileId)
  | _, _ => none

namespace Curation

/-- The work of each file row: `none` is no such row. -/
abbrev WorkOf := Uuid → Option (Option String)

/-- Not two rows of one song on one file. -/
def OtherPair (first second : Match) : Prop :=
  ∀ pair, first.songFile = some pair → second.songFile ≠ some pair

structure MatchesOk (off : Set Uuid) (workOf : WorkOf) (works : Set String) (rows : List Match) :
    Prop where
  pairs : rows.Pairwise OtherPair
  file : ∀ row ∈ rows, ∀ fileId, row.libraryFileId = some fileId → (workOf fileId).isSome
  onWork : ∀ row ∈ rows, ∀ fileId, row.libraryFileId = some fileId → fileId ∉ off →
    workOf fileId = some row.workId
  work : ∀ row ∈ rows, ∀ workId, row.workId = some workId → workId ∈ works
  target : ∀ row ∈ rows, row.targetType = some .work →
    ∀ workId, row.targetId = some workId → workId ∈ works

structure MastersOk (off : Set String) (workOf : WorkOf) (works : Set String)
    (masters : List SongMaster) : Prop where
  unique : Table.UniqueBy SongMaster.workId masters
  file : ∀ master ∈ masters, (workOf master.preferredFileId).isSome
  onWork : ∀ master ∈ masters, master.workId ∉ off →
    workOf master.preferredFileId = some (some master.workId)
  work : ∀ master ∈ masters, master.workId ∈ works

def FormatOverride.key (override : FormatOverride) : String × String :=
  (override.workId, override.formatName)

structure OverridesOk (workOf : WorkOf) (works : Set String) (overrides : List FormatOverride) :
    Prop where
  ids : Table.UniqueBy FormatOverride.id overrides
  unique : Table.UniqueBy FormatOverride.key overrides
  file : ∀ override ∈ overrides, (workOf override.preferredFileId).isSome
  work : ∀ override ∈ overrides, override.workId ∈ works

/-! ## Match rows -/

namespace MatchesOk

variable {off : Set Uuid} {workOf : WorkOf} {works : Set String} {rows : List Match}

theorem otherPair_symm (first second : Match) (hother : OtherPair first second) :
    OtherPair second first := fun pair hsecond hfirst => hother pair hfirst hsecond

/-- Fewer rows, more of them off their file's work, in a library that has kept the
files and works that they name. -/
theorem mono {off' : Set Uuid} {workOf' : WorkOf} {works' : Set String} {rows' : List Match}
    (hok : MatchesOk off workOf works rows) (hrows : rows'.Sublist rows)
    (hfile : ∀ row ∈ rows', ∀ fileId, row.libraryFileId = some fileId →
      (workOf' fileId).isSome ∧ (fileId ∉ off' → fileId ∉ off ∧ workOf' fileId = workOf fileId))
    (hwork : ∀ row ∈ rows', ∀ workId, row.workId = some workId ∨
      row.targetType = some .work ∧ row.targetId = some workId → workId ∈ works → workId ∈ works') :
    MatchesOk off' workOf' works' rows' where
  pairs := hok.pairs.sublist hrows
  file row hrow fileId hnames := (hfile row hrow fileId hnames).1
  onWork row hrow fileId hnames hoff := by
    obtain ⟨hold, hsame⟩ := (hfile row hrow fileId hnames).2 hoff
    rw [hsame]
    exact hok.onWork row (hrows.subset hrow) fileId hnames hold
  work row hrow workId hnames :=
    hwork row hrow workId (.inl hnames) (hok.work row (hrows.subset hrow) workId hnames)
  target row hrow htype workId hnames :=
    hwork row hrow workId (.inr ⟨htype, hnames⟩)
      (hok.target row (hrows.subset hrow) htype workId hnames)

/-- The file's matches take its work. -/
theorem moveToWork {fileId : Uuid} {workId : Option String} (hok : MatchesOk off workOf works rows)
    (hfile : workOf fileId = some workId) (hwork : ∀ work, workId = some work → work ∈ works) :
    MatchesOk (off \ {fileId}) workOf works
      (Table.update rows (fun row => row.libraryFileId = some fileId) fun row =>
        { row with workId := workId }) where
  pairs := Table.pairwise_update otherPair_symm hok.pairs (fun _ _ _ _ _ _ hother => hother)
    fun _ _ _ _ _ _ hother => hother
  file := Table.forall_mem_update hok.file fun row hrow _ => hok.file row hrow
  onWork := by
    intro row hrow other hnames hoff
    rcases Table.mem_update.mp hrow with ⟨old, hold, hmoved, rfl⟩ | ⟨hold, hkept⟩
    · obtain rfl : fileId = other := by
        simpa using (of_decide_eq_true hmoved).symm.trans hnames
      exact hfile
    · refine hok.onWork row hold other hnames fun hmem => hoff ⟨hmem, ?_⟩
      rintro rfl
      simp [hnames] at hkept
  work := Table.forall_mem_update hok.work fun _ _ _ => hwork
  target := Table.forall_mem_update hok.target fun row hrow _ => hok.target row hrow

end MatchesOk

/-! ## Song masters -/

namespace MastersOk

variable {off : Set String} {workOf : WorkOf} {works : Set String} {masters : List SongMaster}

theorem mono {off' : Set String} {workOf' : WorkOf} {works' : Set String}
    {masters' : List SongMaster} (hok : MastersOk off workOf works masters)
    (hmasters : masters'.Sublist masters)
    (hfile : ∀ master ∈ masters', (workOf' master.preferredFileId).isSome ∧
      (master.workId ∉ off' → master.workId ∉ off ∧
        workOf' master.preferredFileId = workOf master.preferredFileId))
    (hwork : ∀ master ∈ masters', master.workId ∈ works') :
    MastersOk off' workOf' works' masters' where
  unique := hok.unique.sublist (hmasters.map _)
  file master hmaster := (hfile master hmaster).1
  onWork master hmaster hoff := by
    obtain ⟨hold, hsame⟩ := (hfile master hmaster).2 hoff
    rw [hsame]
    exact hok.onWork master (hmasters.subset hmaster) hold
  work := hwork

end MastersOk

/-! ## Format overrides -/

namespace OverridesOk

variable {workOf : WorkOf} {works : Set String} {overrides : List FormatOverride}

theorem mono {workOf' : WorkOf} {works' : Set String} {overrides' : List FormatOverride}
    (hok : OverridesOk workOf works overrides) (hoverrides : overrides'.Sublist overrides)
    (hfile : ∀ override ∈ overrides', (workOf' override.preferredFileId).isSome)
    (hwork : ∀ override ∈ overrides', override.workId ∈ works') :
    OverridesOk workOf' works' overrides' where
  ids := hok.ids.sublist (hoverrides.map _)
  unique := hok.unique.sublist (hoverrides.map _)
  file := hfile
  work := hwork

/-- Overrides re-keyed onto a work that has none for their format. -/
theorem rekey {which : FormatOverride → Bool} {target : String}
    (hok : OverridesOk workOf works overrides) (htarget : target ∈ works)
    (hfree : ∀ override ∈ overrides, which override = true → ∀ other ∈ overrides,
      which other = false → other.workId = target → other.formatName ≠ override.formatName)
    (hone : ∀ override ∈ overrides, which override = true → ∀ other ∈ overrides,
      which other = true → override.formatName = other.formatName →
      override.workId = other.workId) :
    OverridesOk workOf works (Table.update overrides which fun override =>
      { override with workId := target }) where
  ids := hok.ids.update fun _ => rfl
  unique := by
    rw [Table.UniqueBy.iff_pairwise]
    refine Table.pairwise_update (fun _ _ hne => hne.symm)
      (Table.UniqueBy.iff_pairwise.mp hok.unique) ?_ ?_
    · intro first hfirst second hsecond hwhich hwhich' hne hsame
      have hformat : first.formatName = second.formatName := (Prod.mk.inj hsame).2
      exact hne (Prod.ext (hone first hfirst hwhich second hsecond hwhich' hformat) hformat)
    · intro first hfirst second hsecond hwhich hwhich' _ hsame
      obtain ⟨hwork, hformat⟩ := Prod.mk.inj hsame
      exact hfree first hfirst hwhich second hsecond hwhich' hwork.symm hformat.symm
  file := Table.forall_mem_update hok.file fun override hmem _ => hok.file override hmem
  work := Table.forall_mem_update hok.work fun _ _ _ => htarget

end OverridesOk

end Curation

/-! ## The library as the references read it -/

namespace Database

variable {db : Database} {fileId : Uuid} {workId : String}

def workOf (db : Database) (fileId : Uuid) : Option (Option String) :=
  (getById db.files fileId).map LibraryFile.workId

def workIds (db : Database) : Set String := {workId | db.hasWork workId}

theorem workOf_eq (hfiles : Table.UniqueBy LibraryFile.id db.files) {file : LibraryFile}
    (hfile : file ∈ db.files) : db.workOf file.id = some file.workId := by
  rw [workOf, getById_of_mem hfiles hfile, Option.map_some]

theorem exists_of_workOf {work : Option String} (hwork : db.workOf fileId = some work) :
    ∃ file ∈ db.files, file.id = fileId ∧ file.workId = work := by
  obtain ⟨file, hfile, hwork⟩ := Option.map_eq_some_iff.mp hwork
  exact ⟨file, (getById_eq_some hfile).1, (getById_eq_some hfile).2, hwork⟩

theorem workOf_isSome_of_mem {file : LibraryFile} (hfile : file ∈ db.files) :
    (db.workOf file.id).isSome := by
  rw [workOf, Option.isSome_map]
  exact List.find?_isSome.mpr ⟨file, hfile, by simp⟩

theorem workOf_foldInto (source target : Uuid) :
    (db.foldInto source target).workOf fileId =
      if fileId = source then none else db.workOf fileId := by
  unfold workOf getById foldInto
  dsimp only
  split
  next hsource =>
    subst hsource
    rw [Table.find?_delete_eq_none fun row _ hid => by simpa using hid]
    rfl
  next hother =>
    rw [Table.find?_delete fun row _ hid => by simpa [hid] using hother]

theorem workOf_updateWorkId (moved : Uuid) (work : Option String) :
    (db.updateWorkId moved work).workOf fileId =
      if fileId = moved then (db.workOf fileId).map fun _ => work else db.workOf fileId := by
  unfold workOf getById updateWorkId
  dsimp only
  have hkey : ∀ file : LibraryFile, LibraryFile.id { file with workId := work } = file.id :=
    fun _ => rfl
  rw [Table.find?_update hkey, Option.map_map]
  split
  next hmoved =>
    subst hmoved
    rw [Option.map_map]
    cases hfind : db.files.find? fun file => file.id = fileId with
    | none => rfl
    | some file =>
        have hid := (getById_eq_some hfind).2
        simp [hid]
  next hother =>
    cases hfind : db.files.find? fun file => file.id = fileId with
    | none => rfl
    | some file =>
        have hid := (getById_eq_some hfind).2
        simp [hid, hother]

theorem workOf_deleteMissing (hfiles : Table.UniqueBy LibraryFile.id db.files) {gone : Uuid}
    (hmissing : db.lockMissing gone) :
    (db.deleteMissing gone).workOf fileId = if fileId = gone then none else db.workOf fileId := by
  unfold workOf getById deleteMissing
  dsimp only
  split
  next hgone =>
    subst hgone
    obtain ⟨row, hrow, hstatus⟩ := List.any_eq_true.mp hmissing
    simp only [decide_eq_true_eq] at hstatus
    rw [Table.find?_delete_eq_none, Option.map_none]
    intro other hother hid
    obtain rfl := hfiles.eq hother hrow (hid.trans hstatus.1.symm)
    simpa using hstatus
  next hother =>
    rw [Table.find?_delete fun row _ hid => by simp [hid, hother]]

end Database

namespace Curation

/-- The references of the four tables, but for the matches of `offMatches` and the
masters of `offMasters`, which may be off their file's work. -/
structure RefsOk (offMatches : Set Uuid) (offMasters : Set String) (db : Database) : Prop where
  files : Table.UniqueBy LibraryFile.id db.files
  fileWork : ∀ fileId workId, db.workOf fileId = some (some workId) → workId ∈ db.workIds
  matchRows : MatchesOk offMatches db.workOf db.workIds db.matchRows
  songMasters : MastersOk offMasters db.workOf db.workIds db.songMasters
  formatOverrides : OverridesOk db.workOf db.workIds db.formatOverrides

/-- Every reference whole. -/
abbrev RefsWhole (db : Database) : Prop := RefsOk ∅ ∅ db

namespace RefsOk

variable {offMatches : Set Uuid} {offMasters : Set String} {db : Database} {fileId : Uuid}
  {workId : String}

theorem moveMatchesToWork {work : Option String} (hok : RefsOk offMatches offMasters db)
    (hwork : db.workOf fileId = some work) :
    RefsOk (offMatches \ {fileId}) offMasters (db.moveMatchesToWork fileId work) where
  files := hok.files
  fileWork := hok.fileWork
  matchRows := hok.matchRows.moveToWork hwork fun other hother => by
    subst hother
    exact hok.fileWork _ _ hwork
  songMasters := hok.songMasters
  formatOverrides := hok.formatOverrides

theorem moveOverridesToWork {fromWork toWork : String} (hok : RefsOk offMatches offMasters db)
    (hwork : toWork ∈ db.workIds) :
    RefsOk offMatches offMasters (db.moveOverridesToWork fileId fromWork toWork) where
  files := hok.files
  fileWork := hok.fileWork
  matchRows := hok.matchRows
  songMasters := hok.songMasters
  formatOverrides := by
    refine (hok.formatOverrides.mono List.filter_sublist (fun override hmem => ?_)
      fun override hmem => ?_).rekey hwork ?_ ?_
    · exact hok.formatOverrides.file override (Table.mem_delete.mp hmem).1
    · exact hok.formatOverrides.work override (Table.mem_delete.mp hmem).1
    · intro override hmem hwhich other hother _ hwork hformat
      obtain ⟨hmem, hkept⟩ := Table.mem_delete.mp hmem
      simp only [decide_eq_true_eq] at hwhich
      simp only [hwhich, true_and, decide_eq_false_iff_not, List.any_eq_true, not_exists, not_and,
        decide_eq_true_eq] at hkept
      exact hkept other (Table.mem_delete.mp hother).1 hwork hformat
    · intro override _ hwhich other _ hother _
      simp only [decide_eq_true_eq] at hwhich hother
      rw [hwhich.1, hother.1]

/-- Nothing names a row that is not there. -/
theorem not_namesFile (hok : RefsOk offMatches offMasters db) (hnone : db.workOf fileId = none) :
    db.namesFile fileId = false := by
  unfold Database.namesFile
  simp only [Bool.or_eq_false_iff, List.any_eq_false, decide_eq_true_eq]
  refine ⟨⟨fun row hrow hnames => ?_, fun master hmaster hnames => ?_⟩,
    fun override hoverride hnames => ?_⟩
  · simpa [hnone] using hok.matchRows.file row hrow fileId hnames
  · simpa [hnames, hnone] using hok.songMasters.file master hmaster
  · simpa [hnames, hnone] using hok.formatOverrides.file override hoverride

/-- The references allowed off their file's work may be more. -/
theorem weaken {offMatches' : Set Uuid} {offMasters' : Set String}
    (hok : RefsOk offMatches offMasters db) (hmatches : offMatches ⊆ offMatches')
    (hmasters : offMasters ⊆ offMasters') : RefsOk offMatches' offMasters' db where
  files := hok.files
  fileWork := hok.fileWork
  matchRows := hok.matchRows.mono (List.Sublist.refl _) (fun row hrow fileId hnames =>
    ⟨hok.matchRows.file row hrow fileId hnames, fun hoff =>
      ⟨fun hmem => hoff (hmatches hmem), rfl⟩⟩)
    fun _ _ _ _ hwork => hwork
  songMasters := hok.songMasters.mono (List.Sublist.refl _) (fun master hmaster =>
    ⟨hok.songMasters.file master hmaster, fun hoff => ⟨fun hmem => hoff (hmasters hmem), rfl⟩⟩)
    hok.songMasters.work
  formatOverrides := hok.formatOverrides

/-- The works of the rows after a fold. -/
theorem workOf_folded {source target other : Uuid} (hother : other ≠ source) :
    (db.foldInto source target).workOf other = db.workOf other := by
  rw [Database.workOf_foldInto, if_neg hother]

/-- A row, a master or an override that names the file. -/
theorem namesFile_of_mem {row : Match} (hrow : row ∈ db.matchRows)
    (hnames : row.libraryFileId = some fileId) : db.namesFile fileId = true := by
  unfold Database.namesFile
  simp only [Bool.or_eq_true, List.any_eq_true, decide_eq_true_eq]
  exact .inl (.inl ⟨row, hrow, hnames⟩)

theorem namesFile_of_mem_masters {master : SongMaster} (hmaster : master ∈ db.songMasters)
    (hnames : master.preferredFileId = fileId) : db.namesFile fileId = true := by
  unfold Database.namesFile
  simp only [Bool.or_eq_true, List.any_eq_true, decide_eq_true_eq]
  exact .inl (.inr ⟨master, hmaster, hnames⟩)

theorem namesFile_of_mem_overrides {override : FormatOverride}
    (hoverride : override ∈ db.formatOverrides) (hnames : override.preferredFileId = fileId) :
    db.namesFile fileId = true := by
  unfold Database.namesFile
  simp only [Bool.or_eq_true, List.any_eq_true, decide_eq_true_eq]
  exact .inr ⟨override, hoverride, hnames⟩

/-- A song's row on the folded file stays only if it has none on the survivor. -/
theorem foldInto_pairs {source target : Uuid} (hpairs : db.matchRows.Pairwise OtherPair) :
    (db.foldInto source target).matchRows.Pairwise OtherPair := by
  refine Table.pairwise_update MatchesOk.otherPair_symm
    (hpairs.sublist List.filter_sublist) ?_ ?_
  · intro first hfirst second hsecond hp hp' hother pair hpair hpair'
    obtain ⟨subject, _, _, _, _, _, _⟩ := first
    obtain ⟨subject', _, _, _, _, _, _⟩ := second
    simp only [decide_eq_true_eq] at hp hp'
    subst hp hp'
    cases subject with
    | artist => cases hpair
    | identity identityId =>
        cases subject' with
        | artist => cases hpair'
        | identity identityId' =>
            refine hother (identityId, source) rfl ?_
            cases hpair
            cases hpair'
            rfl
  · intro first hfirst second hsecond hp hp' hother pair hpair hpair'
    obtain ⟨hfirst, hkept⟩ := Table.mem_delete.mp hfirst
    have hsecond := (Table.mem_delete.mp hsecond).1
    obtain ⟨subject, _, _, fileId, _, _, _⟩ := first
    obtain ⟨subject', _, _, fileId', _, _, _⟩ := second
    simp only [decide_eq_true_eq] at hp
    subst hp
    cases subject with
    | artist => cases hpair
    | identity identityId =>
        cases subject' with
        | artist => cases hpair'
        | identity identityId' =>
            cases hpair
            cases fileId' with
            | none => cases hpair'
            | some fileId' =>
                cases hpair'
                simp only [MatchSubject.isSong, decide_true, Bool.and_self, Bool.true_and,
                  List.any_eq_false, decide_eq_true_eq, not_and] at hkept
                exact hkept _ hsecond rfl rfl

/-- After a fold a row is one that named another file, or one moved to the survivor. -/
theorem mem_foldInto_matchRows {source target : Uuid} {row : Match}
    (hrow : row ∈ (db.foldInto source target).matchRows) :
    (∃ old ∈ db.matchRows, old.libraryFileId = some source ∧
        { old with libraryFileId := some target } = row) ∨
      row ∈ db.matchRows ∧ row.libraryFileId ≠ some source := by
  rcases Table.mem_update.mp hrow with ⟨old, hold, hmoved, rfl⟩ | ⟨hold, hkept⟩
  · exact .inl ⟨old, (Table.mem_delete.mp hold).1, by simpa using hmoved, rfl⟩
  · exact .inr ⟨(Table.mem_delete.mp hold).1, by simpa using hkept⟩

/-- A fold leaves the survivor's matches, and the master of the work that the folded
row was on, to settle if the two rows are on different works. -/
theorem foldInto {source target : Uuid} (hok : RefsWhole db) (hne : source ≠ target)
    (htarget : db.namesFile source → (db.workOf target).isSome) :
    RefsOk {fileId | db.namesFile source ∧ fileId = target ∧ db.workOf source ≠ db.workOf target}
      {workId | db.namesFile source ∧ db.workOf source = some (some workId) ∧
        db.workOf source ≠ db.workOf target}
      (db.foldInto source target) := by
  refine ⟨hok.files.delete, fun fileId workId hwork => ?_, ?_, ?_, ?_⟩
  · rw [Database.workOf_foldInto] at hwork
    split at hwork
    · cases hwork
    · exact hok.fileWork _ _ hwork
  -- Match rows follow the file: off its work only if the two rows are on different works.
  · refine ⟨foldInto_pairs hok.matchRows.pairs, ?_, ?_, ?_, ?_⟩
    · intro row hrow fileId hfile
      rcases mem_foldInto_matchRows hrow with ⟨old, hold, hsource, rfl⟩ | ⟨hold, hother⟩
      · obtain rfl : target = fileId := Option.some.inj hfile
        rw [workOf_folded hne.symm]
        exact htarget (namesFile_of_mem hold hsource)
      · rw [workOf_folded fun hsame => hother (hfile.trans (congrArg some hsame))]
        exact hok.matchRows.file row hold fileId hfile
    · intro row hrow fileId hfile hoff
      rcases mem_foldInto_matchRows hrow with ⟨old, hold, hsource, rfl⟩ | ⟨hold, hother⟩
      · obtain rfl : target = fileId := Option.some.inj hfile
        have hon := hok.matchRows.onWork old hold source hsource (Set.notMem_empty _)
        rw [workOf_folded hne.symm, ← hon]
        by_contra hdiffers
        exact hoff ⟨namesFile_of_mem hold hsource, rfl, Ne.symm hdiffers⟩
      · rw [workOf_folded fun hsame => hother (hfile.trans (congrArg some hsame))]
        exact hok.matchRows.onWork row hold fileId hfile (Set.notMem_empty _)
    · exact Table.forall_mem_update
        (fun row hmem => hok.matchRows.work row (Table.mem_delete.mp hmem).1)
        fun row hmem _ => hok.matchRows.work row (Table.mem_delete.mp hmem).1
    · exact Table.forall_mem_update
        (fun row hmem => hok.matchRows.target row (Table.mem_delete.mp hmem).1)
        fun row hmem _ => hok.matchRows.target row (Table.mem_delete.mp hmem).1
  -- Masters follow it too, and keep the work they are of.
  · refine ⟨hok.songMasters.unique.update fun _ => rfl, ?_, ?_, ?_⟩
    · intro master hmem
      rcases Table.mem_update.mp hmem with ⟨old, hold, hmoved, rfl⟩ | ⟨hold, hkept⟩
      · rw [workOf_folded hne.symm]
        exact htarget (namesFile_of_mem_masters hold (by simpa using hmoved))
      · rw [workOf_folded (by simpa using hkept)]
        exact hok.songMasters.file master hold
    · intro master hmem hoff
      rcases Table.mem_update.mp hmem with ⟨old, hold, hmoved, rfl⟩ | ⟨hold, hkept⟩
      · have hsource : old.preferredFileId = source := by simpa using hmoved
        have hon := hok.songMasters.onWork old hold (Set.notMem_empty _)
        rw [hsource] at hon
        rw [workOf_folded hne.symm, ← hon]
        by_contra hdiffers
        exact hoff ⟨namesFile_of_mem_masters hold hsource, hon, Ne.symm hdiffers⟩
      · rw [workOf_folded (by simpa using hkept)]
        exact hok.songMasters.onWork master hold (Set.notMem_empty _)
    · exact Table.forall_mem_update hok.songMasters.work fun old hold _ =>
        hok.songMasters.work old hold
  · refine ⟨hok.formatOverrides.ids.update fun _ => rfl,
      hok.formatOverrides.unique.update fun _ => rfl, ?_, ?_⟩
    · intro override hmem
      rcases Table.mem_update.mp hmem with ⟨old, hold, hmoved, rfl⟩ | ⟨hold, hkept⟩
      · rw [workOf_folded hne.symm]
        exact htarget (namesFile_of_mem_overrides hold (by simpa using hmoved))
      · rw [workOf_folded (by simpa using hkept)]
        exact hok.formatOverrides.file override hold
    · exact Table.forall_mem_update hok.formatOverrides.work fun old hold _ =>
        hok.formatOverrides.work old hold

theorem reselect {manualFileId : Option Uuid} (hok : RefsOk offMatches offMasters db) :
    RefsOk offMatches (offMasters \ {workId}) (reselectMasterFromFiles db workId manualFileId) := by
  have hmem := fun stored => @mem_reselect db workId manualFileId hok.songMasters.unique stored
  have hunique := @reselect_unique db workId manualFileId hok.songMasters.unique
  obtain ⟨masters, hmasters⟩ := @reselect_eq db workId manualFileId
  rw [hmasters] at hmem hunique ⊢
  refine ⟨hok.files, hok.fileWork, hok.matchRows, ⟨hunique, ?_, ?_, ?_⟩, hok.formatOverrides⟩
  · intro stored hstored
    rcases hmem stored hstored with ⟨hold, -⟩ | ⟨-, file, hfile, hid, -⟩
    · exact hok.songMasters.file stored hold
    · exact hid ▸ Database.workOf_isSome_of_mem hfile
  · intro stored hstored hoff
    rcases hmem stored hstored with ⟨hold, hwork⟩ | ⟨hwork, file, hfile, hid, hon, -⟩
    · exact hok.songMasters.onWork stored hold fun hmem => hoff ⟨hmem, hwork⟩
    · have hworkOf := Database.workOf_eq hok.files hfile
      rwa [hid, hon, ← hwork] at hworkOf
  · intro stored hstored
    rcases hmem stored hstored with ⟨hold, -⟩ | ⟨hwork, file, hfile, -, hon, -⟩
    · exact hok.songMasters.work stored hold
    · have hworkOf := Database.workOf_eq hok.files hfile
      rw [hon, ← hwork] at hworkOf
      exact hok.fileWork _ _ hworkOf

/-- A work that goes takes its master with it, and nothing else named it. -/
theorem deleteIfEmpty (hok : RefsOk offMatches offMasters db) :
    RefsOk offMatches offMasters (db.deleteIfEmpty workId).2 ∧
      ((db.deleteIfEmpty workId).1 = true →
        RefsOk offMatches (offMasters \ {workId}) (db.deleteIfEmpty workId).2) := by
  unfold Database.deleteIfEmpty
  cases hreferenced : db.isReferenced workId with
  | true => exact ⟨hok, fun hgone => by cases hgone⟩
  | false =>
      unfold Database.isReferenced at hreferenced
      simp only [Bool.or_eq_false_iff, List.any_eq_false, decide_eq_true_eq, not_and] at hreferenced
      obtain ⟨⟨⟨⟨hfiles, -⟩, hmatches⟩, htargets⟩, hoverrides⟩ := hreferenced
      have hkeep : ∀ work ∈ db.workIds, work ≠ workId →
          work ∈ ({ db.deleteMasterByWork workId with
            works := Table.delete db.works fun work => work.id = workId } : Database).workIds := by
        intro work hwork hother
        obtain ⟨row, hrow, hid⟩ := List.any_eq_true.mp hwork
        refine List.any_eq_true.mpr ⟨row, Table.mem_delete.mpr ⟨hrow, ?_⟩, hid⟩
        simp only [decide_eq_true_eq] at hid
        simpa [hid] using hother
      have hgone : RefsOk offMatches (offMasters \ {workId}) { db.deleteMasterByWork workId with
            works := Table.delete db.works fun work => work.id = workId } := by
        -- Files, match rows, masters and overrides: none of them names the work that goes.
        refine ⟨hok.files, fun fileId work hwork => ?_, ?_, ?_, ?_⟩
        · refine hkeep work (hok.fileWork fileId work hwork) ?_
          rintro rfl
          obtain ⟨file, hfile, -, hon⟩ := Database.exists_of_workOf hwork
          exact hfiles file hfile hon
        · refine hok.matchRows.mono (List.Sublist.refl _)
            (fun row hrow fileId hnames => ⟨hok.matchRows.file row hrow fileId hnames, fun h =>
              ⟨h, rfl⟩⟩) fun row hrow work hnames hwork => hkeep work hwork ?_
          rintro rfl
          rcases hnames with hnames | ⟨htype, hnames⟩
          · exact hmatches row hrow hnames
          · exact htargets row hrow htype hnames
        · refine hok.songMasters.mono List.filter_sublist (fun master hmaster => ?_)
            fun master hmaster => ?_
          · obtain ⟨hold, hwork⟩ := Table.mem_delete.mp hmaster
            refine ⟨hok.songMasters.file master hold, fun hmem =>
              ⟨fun hoff => hmem ⟨hoff, ?_⟩, rfl⟩⟩
            simpa using hwork
          · obtain ⟨hold, hwork⟩ := Table.mem_delete.mp hmaster
            exact hkeep _ (hok.songMasters.work master hold) (by simpa using hwork)
        · exact hok.formatOverrides.mono (List.Sublist.refl _)
            (fun override hmem => hok.formatOverrides.file override hmem) fun override hmem =>
              hkeep _ (hok.formatOverrides.work override hmem) (hoverrides override hmem)
      refine ⟨⟨hgone.files, hgone.fileWork, hgone.matchRows, ?_, hgone.formatOverrides⟩,
        fun _ => hgone⟩
      refine hgone.songMasters.mono (List.Sublist.refl _) (fun master hmaster => ?_)
        hgone.songMasters.work
      exact ⟨hgone.songMasters.file master hmaster, fun hmem => ⟨fun hoff => hmem hoff.1, rfl⟩⟩

/-- The works of a file row moved onto a work: its matches, and the master of the work
it left, are to settle. -/
theorem updateWorkId {old : Option String} (hok : RefsWhole db) (hold : db.workOf fileId = some old)
    (hwork : workId ∈ db.workIds) :
    RefsOk {fileId} {left | old = some left} (db.updateWorkId fileId (some workId)) := by
  have hnames : ∀ {other}, other ≠ fileId →
      (db.updateWorkId fileId (some workId)).workOf other = db.workOf other := fun hother => by
    rw [Database.workOf_updateWorkId, if_neg hother]
  have hmoved : (db.updateWorkId fileId (some workId)).workOf fileId = some (some workId) := by
    rw [Database.workOf_updateWorkId, if_pos rfl, hold, Option.map_some]
  have hsome : ∀ {other}, (db.workOf other).isSome →
      ((db.updateWorkId fileId (some workId)).workOf other).isSome := by
    intro other hother
    by_cases hsame : other = fileId
    · rw [hsame, hmoved, Option.isSome_some]
    · rwa [hnames hsame]
  refine ⟨hok.files.update fun _ => rfl, fun other work hother => ?_, ?_, ?_, ?_⟩
  · by_cases hsame : other = fileId
    · rw [hsame, hmoved] at hother
      obtain rfl := Option.some.inj (Option.some.inj hother)
      exact hwork
    · rw [hnames hsame] at hother
      exact hok.fileWork other work hother
  · exact hok.matchRows.mono (List.Sublist.refl _)
      (fun row hrow other hother => ⟨hsome (hok.matchRows.file row hrow other hother),
        fun hoff => ⟨Set.notMem_empty _, hnames hoff⟩⟩) fun _ _ _ _ h => h
  · refine hok.songMasters.mono (List.Sublist.refl _) (fun master hmaster =>
      ⟨hsome (hok.songMasters.file master hmaster), fun hoff => ⟨Set.notMem_empty _, hnames ?_⟩⟩)
      hok.songMasters.work
    intro hsame
    have hon := hok.songMasters.onWork master hmaster (Set.notMem_empty _)
    rw [hsame, hold] at hon
    exact hoff (Option.some.inj hon)
  · exact hok.formatOverrides.mono (List.Sublist.refl _)
      (fun override hmem => hsome (hok.formatOverrides.file override hmem))
      hok.formatOverrides.work

theorem whole {offMatches : Set Uuid} {offMasters : Set String}
    (hok : RefsOk offMatches offMasters db) (hmatches : offMatches = ∅)
    (hmasters : offMasters = ∅) :
    RefsWhole db := by
  subst hmatches hmasters
  exact hok

end RefsOk

/-! ## The works that a fold and a move settle -/

section

variable {db : Database} {fileId : Uuid} {workId : String}

theorem settleWork_refsWhole (hok : RefsOk ∅ {workId} db) : RefsWhole (settleWork db workId) := by
  obtain ⟨hkept, hgone⟩ := @RefsOk.deleteIfEmpty _ _ db workId hok
  unfold settleWork
  split
  next db' hdeleted =>
    rw [hdeleted] at hgone
    exact (hgone rfl).whole rfl (by simp)
  next db' hdeleted =>
    rw [hdeleted] at hkept
    exact hkept.reselect.whole rfl (by simp)

/-- Whatever a fold across works leaves off, settling puts right. -/
theorem settleFoldAcrossWorks_refsWhole {left survivor : Option String}
    (hsurvivor : db.workOf fileId = some survivor)
    (hok : RefsOk {other | other = fileId ∧ left ≠ survivor}
      {work | left = some work ∧ left ≠ survivor} db) :
    RefsWhole (settleFoldAcrossWorks db fileId left survivor) := by
  unfold settleFoldAcrossWorks
  split
  next hsame => exact hok.whole (by simp [hsame]) (by simp [hsame])
  next hdiffer =>
    have hmoved := hok.moveMatchesToWork hsurvivor
    have hnone : ({other | other = fileId ∧ left ≠ survivor} : Set Uuid) \ {fileId} = ∅ := by
      ext other
      simp +contextual
    rw [hnone] at hmoved
    cases left with
    | none => exact hmoved.whole rfl (by simp)
    | some work =>
        dsimp only
        have hsettled : ∀ moved, RefsOk ∅ {other | some work = some other ∧ some work ≠ survivor}
            moved → RefsWhole ((reselectMasterFromFiles moved work).deleteIfEmpty work).2 := by
          intro moved hmoved
          refine hmoved.reselect.deleteIfEmpty.1.whole rfl ?_
          ext other
          simp +contextual
        cases survivor with
        | none => exact hsettled _ hmoved
        | some other =>
            exact hsettled _ (hmoved.moveOverridesToWork (hmoved.fileWork _ _ hsurvivor))

/-- A fold, settled: nothing is off its work. -/
theorem fold_refsWhole {source target : Uuid} {left survivor : Option String} (hok : RefsWhole db)
    (hne : source ≠ target) (hsource : db.workOf source = some left)
    (htarget : db.workOf target = some survivor) :
    RefsWhole (settleFoldAcrossWorks (db.foldInto source target) target left survivor) := by
  refine settleFoldAcrossWorks_refsWhole ?_ ((hok.foldInto hne fun _ => by simp [htarget]).weaken
    ?_ ?_)
  · rw [RefsOk.workOf_folded hne.symm, htarget]
  · rintro other ⟨-, rfl, hdiffers⟩
    rw [hsource, htarget] at hdiffers
    exact ⟨rfl, fun hsame => hdiffers (congrArg some hsame)⟩
  · rintro work ⟨-, hwork, hdiffers⟩
    rw [hsource, htarget] at hdiffers
    rw [hsource] at hwork
    exact ⟨Option.some.inj hwork, fun hsame => hdiffers (congrArg some hsame)⟩

end

end Curation

end RetroStation
