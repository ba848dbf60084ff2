import RetroStation.Curation.Merging

/-! # What matches and manual masters follow

A fold sends the matches of a row to its survivor and a deletion drops them; nothing
else changes which file a match names. A manual master stands as long as its file is
on disk and on its work.
-/

namespace RetroStation

open Library Matching

namespace Curation

/-- A match of the song or artist names the file. -/
def Shows (db : Database) (subject : MatchSubject) (fileId : Uuid) : Prop :=
  ∃ row ∈ db.matchRows, row.subject = subject ∧ row.libraryFileId = some fileId

/-- The master's file is on disk and on the master's work. -/
def HeldIn (db : Database) (master : SongMaster) : Prop :=
  ∃ file ∈ db.files, file.id = master.preferredFileId ∧ file.workId = some master.workId ∧
    file.fileStatus = .present

/-- Where the files of one library are in another: each match goes where its file goes,
and each manual master that is still held stands. -/
structure Follows (goes : Uuid → Option Uuid) (db db' : Database) : Prop where
  shows_iff : ∀ subject fileId,
    Shows db' subject fileId ↔ ∃ old, Shows db subject old ∧ goes old = some fileId
  manual : ∀ master ∈ db.songMasters, master.selectionMethod = .manual → HeldIn db' master →
    master ∈ db'.songMasters

variable {db db' db'' : Database} {goes goes' : Uuid → Option Uuid} {fileId : Uuid}
  {workId : String}

namespace Follows

theorem refl (db : Database) : Follows some db db :=
  ⟨fun _ _ => by simp, fun _ hmaster _ _ => hmaster⟩

/-- A second change that brings no file back composes with a first. -/
theorem trans (hfirst : Follows goes db db') (hsecond : Follows goes' db' db'')
    (hfiles : db''.files ⊆ db'.files) : Follows (fun old => (goes old).bind goes') db db'' where
  shows_iff subject fileId := by
    rw [hsecond.shows_iff]
    constructor
    · rintro ⟨middle, hmiddle, hgoes'⟩
      obtain ⟨old, hold, hgoes⟩ := (hfirst.shows_iff subject middle).mp hmiddle
      exact ⟨old, hold, by rw [hgoes, Option.bind_some, hgoes']⟩
    · rintro ⟨old, hold, hgoes⟩
      obtain ⟨middle, hmiddle, hgoes'⟩ := Option.bind_eq_some_iff.mp hgoes
      exact ⟨middle, (hfirst.shows_iff subject middle).mpr ⟨old, hold, hmiddle⟩, hgoes'⟩
  manual master hmaster hmethod hheld := by
    refine hsecond.manual master (hfirst.manual master hmaster hmethod ?_) hmethod hheld
    obtain ⟨file, hfile, hheld⟩ := hheld
    exact ⟨file, hfiles hfile, hheld⟩

theorem congr (hfollows : Follows goes db db') (hsame : ∀ fileId, goes fileId = goes' fileId) :
    Follows goes' db db' := funext hsame ▸ hfollows

/-- A change after which no match names another file. -/
theorem then_same (hfirst : Follows goes db db') (hsecond : Follows some db' db'')
    (hfiles : db''.files ⊆ db'.files) : Follows goes db db'' :=
  (hfirst.trans hsecond hfiles).congr fun fileId => by cases goes fileId <;> rfl

/-- Matches of the same subjects on the same files. -/
theorem of_matchRows {change : Match → Match} (hrows : db'.matchRows = db.matchRows.map change)
    (hsubject : ∀ row, (change row).subject = row.subject)
    (hfile : ∀ row, (change row).libraryFileId = row.libraryFileId)
    (hmanual : ∀ master ∈ db.songMasters, master.selectionMethod = .manual → HeldIn db' master →
      master ∈ db'.songMasters) : Follows some db db' where
  shows_iff subject fileId := by
    simp [Shows, hrows, hsubject, hfile]
  manual := hmanual

/-- A change of masters alone. -/
theorem of_masters (hrows : db'.matchRows = db.matchRows)
    (hmanual : ∀ master ∈ db.songMasters, master.selectionMethod = .manual → HeldIn db' master →
      master ∈ db'.songMasters) : Follows some db db' where
  shows_iff subject fileId := by simp [Shows, hrows]
  manual := hmanual

theorem moveMatchesToWork {work : Option String} :
    Follows some db (db.moveMatchesToWork fileId work) :=
  of_matchRows rfl (fun row => by split <;> rfl) (fun row => by split <;> rfl)
    fun _ hmaster _ _ => hmaster

theorem moveOverridesToWork {fromWork toWork : String} :
    Follows some db (db.moveOverridesToWork fileId fromWork toWork) :=
  of_masters rfl fun _ hmaster _ _ => hmaster

theorem reselect {manualFileId : Option Uuid}
    (hunique : Table.UniqueBy SongMaster.workId db.songMasters) :
    Follows some db (reselectMasterFromFiles db workId manualFileId) := by
  refine of_masters reselect_matchRows fun master hmaster hmethod hheld => ?_
  obtain ⟨file, hfile, hid, hon, hpresent⟩ := hheld
  rw [reselect_files] at hfile
  exact reselect_kept hunique hmaster (.inr ⟨hmethod, file, hfile, hid, hon, hpresent⟩)

theorem reselects {works : List String}
    (hunique : Table.UniqueBy SongMaster.workId db.songMasters) :
    Follows some db (works.foldl (fun db work => reselectMasterFromFiles db work) db) ∧
      (works.foldl (fun db work => reselectMasterFromFiles db work) db).files = db.files := by
  induction works generalizing db with
  | nil => exact ⟨refl db, rfl⟩
  | cons work rest ih =>
      obtain ⟨hrest, hfiles⟩ := ih (@reselect_unique db work none hunique)
      rw [reselect_files] at hfiles
      exact ⟨(reselect hunique).then_same hrest
        (Table.subset_of_eq (hfiles.trans reselect_files.symm)), hfiles⟩

theorem deleteIfEmpty : Follows some db (db.deleteIfEmpty workId).2 := by
  unfold Database.deleteIfEmpty
  cases hreferenced : db.isReferenced workId with
  | true => exact refl db
  | false =>
      refine of_masters rfl fun master hmaster _ hheld => ?_
      obtain ⟨file, hfile, -, hon, -⟩ := hheld
      refine Table.mem_delete.mpr ⟨hmaster, ?_⟩
      unfold Database.isReferenced at hreferenced
      simp only [Bool.or_eq_false_iff, List.any_eq_false, decide_eq_true_eq] at hreferenced
      rw [decide_eq_false_iff_not]
      rintro rfl
      exact hreferenced.1.1.1.1 file hfile hon

end Follows

theorem deleteIfEmpty_files : (db.deleteIfEmpty workId).2.files = db.files := by
  unfold Database.deleteIfEmpty
  split <;> rfl

/-- The survivor of a fold has the folded row's matches. -/
theorem foldInto_follows {source target : Uuid} (hne : source ≠ target) :
    Follows (fun old => some (if old = source then target else old)) db
      (db.foldInto source target) where
  shows_iff subject fileId := by
    simp only [Option.some.injEq]
    constructor
    · rintro ⟨row, hrow, rfl, hfile⟩
      rcases RefsOk.mem_foldInto_matchRows hrow with ⟨old, hold, hsource, rfl⟩ | ⟨hold, hother⟩
      · obtain rfl : target = fileId := Option.some.inj hfile
        exact ⟨source, ⟨old, hold, rfl, hsource⟩, if_pos rfl⟩
      · refine ⟨fileId, ⟨row, hold, rfl, hfile⟩, if_neg ?_⟩
        rintro rfl
        exact hother hfile
    · rintro ⟨old, ⟨row, hrow, rfl, hfile⟩, rfl⟩
      have hstays : ∀ row ∈ db.matchRows, row.libraryFileId ≠ some source →
          row ∈ (db.foldInto source target).matchRows := fun row hrow hother =>
        Table.mem_update.mpr (.inr ⟨Table.mem_delete.mpr ⟨hrow, by simp [hother]⟩, by
          simp [hother]⟩)
      split
      next hsource =>
        subst hsource
        by_cases htwin : row.subject.isSong ∧ ∃ twin ∈ db.matchRows,
            twin.libraryFileId = some target ∧ twin.subject = row.subject
        · obtain ⟨-, twin, htwin, hnames, hsubject⟩ := htwin
          refine ⟨twin, hstays twin htwin ?_, hsubject, hnames⟩
          rw [hnames, ne_eq, Option.some.injEq]
          exact hne.symm
        · refine ⟨{ row with libraryFileId := some target }, Table.mem_update.mpr (.inl ⟨row,
            Table.mem_delete.mpr ⟨hrow, ?_⟩, by simp [hfile], rfl⟩), rfl, rfl⟩
          simpa [hfile] using htwin
      next hother =>
        refine ⟨row, hstays row hrow ?_, rfl, hfile⟩
        rw [hfile, ne_eq, Option.some.injEq]
        exact hother
  manual master hmaster _ hheld := by
    obtain ⟨file, hfile, hid, -⟩ := hheld
    refine Table.mem_update.mpr (.inr ⟨hmaster, ?_⟩)
    have hother := (Table.mem_delete.mp hfile).2
    rwa [hid] at hother

/-! ## Folds -/

theorem settleFoldAcrossWorks_follows {left survivor : Option String}
    (hunique : Table.UniqueBy SongMaster.workId db.songMasters) :
    Follows some db (settleFoldAcrossWorks db fileId left survivor) := by
  have hsettled : ∀ {moved : Database} {work}, Follows some db moved →
      moved.songMasters = db.songMasters →
      Follows some db ((reselectMasterFromFiles moved work).deleteIfEmpty work).2 := by
    intro moved work hmoved hmasters
    exact (hmoved.then_same (.reselect (hmasters ▸ hunique))
      (Table.subset_of_eq reselect_files)).then_same
      .deleteIfEmpty (Table.subset_of_eq deleteIfEmpty_files)
  unfold settleFoldAcrossWorks
  split
  · exact .refl db
  · have hmoved := @Follows.moveMatchesToWork db fileId survivor
    dsimp only
    split
    · exact hmoved
    · split
      · exact hsettled (hmoved.then_same .moveOverridesToWork (List.Subset.refl _)) rfl
      · exact hsettled hmoved rfl

theorem fold_follows {source target survivorId : Uuid} {left survivor : Option String}
    (hok : RefsWhole db) (hne : source ≠ target) :
    Follows (fun old => some (if old = source then target else old)) db
      (settleFoldAcrossWorks (db.foldInto source target) survivorId left survivor) :=
  (foldInto_follows hne).then_same
    (settleFoldAcrossWorks_follows (hok.songMasters.unique.update fun _ => rfl))
    (Table.subset_of_eq settleFoldAcrossWorks_files)

/-- Where one fold after the other sends a file. -/
def followFolds (folds : List Fold) (fileId : Uuid) : Uuid :=
  folds.foldl (fun fileId fold => if fileId = fold.source then fold.target else fileId) fileId

theorem applyMissingFileMove_follows {move : MissingFileMove} {folded : Database}
    (hok : RefsWhole db) (happly : applyMissingFileMove db move = some folded) :
    Follows (fun old => some (if old = move.missingId then move.successorId else old)) db
      folded := by
  obtain ⟨-, -, hne⟩ := applyMissingFileMove_rows hok happly
  unfold applyMissingFileMove at happly
  split at happly
  · obtain ⟨merged, hmerged, rfl⟩ := Option.map_eq_some_iff.mp happly
    obtain rfl := mergeInto_eq hmerged
    exact fold_follows hok hne
  · cases happly

/-- A plan's moves, applied to the library that they were planned on. -/
theorem applyMissingFileMoves_follows {planned : Database} {moves : List MissingFileMove}
    (hplanned : Table.UniqueBy LibraryFile.id planned.files)
    (hmoves : ∀ move ∈ moves, ∃ missing ∈ planned.files, ∃ successor ∈ planned.files,
      move = moveOf missing successor)
    (hsubset : db.files ⊆ planned.files) (hok : RefsWhole db) :
    Follows (fun old => some (followFolds (applyMissingFileMoves db moves).1 old)) db
      (applyMissingFileMoves db moves).2 ∧ (applyMissingFileMoves db moves).2.files ⊆ db.files := by
  induction moves generalizing db with
  | nil => exact ⟨.refl db, List.Subset.refl _⟩
  | cons move rest ih =>
      have hrest := fun move hmove => hmoves move (List.mem_cons_of_mem _ hmove)
      obtain ⟨missing, hmissing, successor, hsuccessor, rfl⟩ := hmoves move List.mem_cons_self
      unfold applyMissingFileMoves
      split
      next folded hfolded =>
        have hfiles : folded.files ⊆ db.files := by
          rw [applyMissingFileMove_files hfolded]
          exact Table.delete_subset
        obtain ⟨hfollows, hlast⟩ := ih hrest (fun row hrow => hsubset (hfiles hrow))
          (applyMissingFileMove_refsWhole hok (workOf_of_subset hplanned hsubset hmissing)
            (workOf_of_subset hplanned hsubset hsuccessor) hfolded)
        exact ⟨(applyMissingFileMove_follows hok hfolded).trans hfollows hlast,
          fun row hrow => hfiles (hlast hrow)⟩
      next => exact ih hrest hsubset hok

theorem reconcileMissing_follows (config : PairingConfig) (hok : RefsWhole db) :
    Follows (fun old => some (followFolds (reconcileMissing config db).1 old)) db
      (reconcileMissing config db).2 := by
  have hplan := fun move (hmove : move ∈ (planForLibrary config db).moves) => plan_moves hmove
  obtain ⟨hmoves, hfiles⟩ := applyMissingFileMoves_follows hok.files hplan (List.Subset.refl _) hok
  have hwhole := applyMissingFileMoves_refsWhole hok.files hplan (List.Subset.refl _) hok
  obtain ⟨hpicks, hsame⟩ := @Follows.reselects _
    (applyMissingFileMoves db (planForLibrary config db).moves).2.listWorkIdsWithMissingMaster
    hwhole.songMasters.unique
  exact hmoves.then_same hpicks (Table.subset_of_eq hsame)

theorem remapMissingFile_follows {missingId targetId : Uuid} {done : List Fold × Database}
    (hok : RefsWhole db) (hremap : remapMissingFile db missingId targetId = some done) :
    Follows (fun old => some (followFolds done.1 old)) db done.2 := by
  unfold remapMissingFile at hremap
  split at hremap
  next missing target hmissing htarget =>
    split at hremap
    · obtain ⟨folded, hfolded, rfl⟩ := Option.map_eq_some_iff.mp hremap
      have hfollows := applyMissingFileMove_follows hok hfolded
      rwa [moveOf, (getById_eq_some hmissing).2, (getById_eq_some htarget).2] at hfollows
    · cases hremap
  · cases hremap

theorem foldStale_follows {keeper : Option LibraryFile} {keeperId staleId : Uuid}
    {folded : Database} (hok : RefsWhole db) (hne : staleId ≠ keeperId)
    (hfold : foldStale keeper keeperId db staleId = some folded) :
    Follows (fun old => some (if old = staleId then keeperId else old)) db folded ∧
      folded.files ⊆ db.files := by
  obtain ⟨merged, hmerged, rfl⟩ := Option.map_eq_some_iff.mp hfold
  obtain rfl := mergeInto_eq hmerged
  split
  · refine ⟨fold_follows hok hne, ?_⟩
    rw [settleFoldAcrossWorks_files]
    exact Table.delete_subset
  · exact ⟨foldInto_follows hne, Table.delete_subset⟩

theorem foldStales_follows {keeper : Option LibraryFile} {keeperId : Uuid}
    {staleIds : List Uuid} {folded : Database} (hok : RefsWhole db) (hne : keeperId ∉ staleIds)
    (hkeeper : db.workOf keeperId = keeper.map LibraryFile.workId)
    (hid : ∀ file, keeper = some file → file.id = keeperId)
    (hfold : foldStales keeper keeperId db staleIds = some folded) :
    Follows (fun old => some (followFolds (staleIds.map fun staleId => ⟨staleId, keeperId⟩) old))
      db folded ∧ folded.files ⊆ db.files := by
  induction staleIds generalizing db with
  | nil =>
      obtain rfl := Option.some.inj hfold
      exact ⟨.refl db, List.Subset.refl _⟩
  | cons staleId rest ih =>
      rw [List.mem_cons, not_or] at hne
      obtain ⟨next, hnext, hrest⟩ := Option.bind_eq_some_iff.mp hfold
      obtain ⟨hwhole, hsame⟩ := foldStale_refsWhole hok (Ne.symm hne.1) hkeeper hid hnext
      obtain ⟨hfirst, hfiles⟩ := foldStale_follows hok (Ne.symm hne.1) hnext
      obtain ⟨hfollows, hlast⟩ := ih hwhole hne.2 (hsame.trans hkeeper) hrest
      exact ⟨hfirst.trans hfollows hlast, fun row hrow => hfiles (hlast hrow)⟩

theorem applyCaseDuplicateRepair_follows {repair : CaseDuplicateRepair}
    {done : List Fold × Database} (hok : RefsWhole db)
    (happly : applyCaseDuplicateRepair db repair = some done) :
    Follows (fun old => some (followFolds done.1 old)) db done.2 := by
  obtain ⟨folded, hfolded, rfl⟩ := Option.map_eq_some_iff.mp happly
  exact (foldStales_follows hok repair.keeper_stays rfl (fun _ hfile => (getById_eq_some hfile).2)
    hfolded).1

/-! ## Deletions -/

theorem stripped_follows (hok : RefsWhole db) (hmissing : db.lockMissing fileId) :
    Follows (fun old => if old = fileId then none else some old) db (stripped db fileId) where
  shows_iff subject other := by
    constructor
    · rintro ⟨row, hrow, hsubject, hfile⟩
      obtain ⟨hold, hother⟩ := Table.mem_delete.mp hrow
      refine ⟨other, ⟨row, hold, hsubject, hfile⟩, if_neg ?_⟩
      rintro rfl
      simp [hfile] at hother
    · rintro ⟨old, ⟨row, hrow, hsubject, hfile⟩, hgoes⟩
      split at hgoes
      · cases hgoes
      next hother =>
        obtain rfl := Option.some.inj hgoes
        exact ⟨row, Table.mem_delete.mpr ⟨hrow, by simpa [hfile] using hother⟩, hsubject, hfile⟩
  manual master hmaster _ hheld := by
    refine Table.mem_delete.mpr ⟨hmaster, ?_⟩
    rw [decide_eq_false_iff_not]
    rintro rfl
    obtain ⟨file, hfile, hid, -, hpresent⟩ := hheld
    obtain ⟨row, hrow, hstatus⟩ := List.any_eq_true.mp hmissing
    simp only [decide_eq_true_eq] at hstatus
    obtain rfl := hok.files.eq hfile hrow (hid.trans hstatus.1.symm)
    rw [hpresent] at hstatus
    cases hstatus.2

theorem deleteMissingRow_follows {deleted : Database} (hok : RefsWhole db)
    (hdelete : deleteMissingRow db fileId = some deleted) :
    Follows (fun old => if old = fileId then none else some old) db deleted ∧
      deleted.files ⊆ db.files := by
  unfold deleteMissingRow at hdelete
  split at hdelete
  next hmissing =>
    obtain ⟨row, -, rfl⟩ := Option.map_eq_some_iff.mp hdelete
    obtain ⟨works, hdetach⟩ := @detachCuration_eq db fileId
    obtain ⟨hpicks, hfiles⟩ := @Follows.reselects (stripped db fileId) works
      (stripped_refsWhole hok).songMasters.unique
    rw [hdetach]
    have hdetached := (stripped_follows hok hmissing).then_same hpicks
      (Table.subset_of_eq hfiles)
    generalize works.foldl (fun db work => reselectMasterFromFiles db work) (stripped db fileId) =
      detached at hdetached hfiles
    have hgone : Follows some detached (detached.deleteMissing fileId) :=
      .of_masters rfl fun _ hmaster _ _ => hmaster
    have hdeleted := hdetached.then_same hgone (Table.delete_subset)
    have hsubset : (detached.deleteMissing fileId).files ⊆ db.files := by
      have hdb : (stripped db fileId).files = db.files := rfl
      rw [← hdb, ← hfiles]
      exact Table.delete_subset
    cases row.workId with
    | none => exact ⟨hdeleted, hsubset⟩
    | some work =>
        refine ⟨hdeleted.then_same .deleteIfEmpty (Table.subset_of_eq deleteIfEmpty_files), ?_⟩
        rw [deleteIfEmpty_files]
        exact hsubset
  · cases hdelete

theorem deleteRows_follows {ids : List Uuid} (hok : RefsWhole db) :
    Follows (fun old => if old ∈ (deleteRows db ids).1 then none else some old) db
      (deleteRows db ids).2 ∧ (deleteRows db ids).2.files ⊆ db.files := by
  induction ids generalizing db with
  | nil => exact ⟨(Follows.refl db).congr fun _ => by simp [deleteRows], List.Subset.refl _⟩
  | cons fileId rest ih =>
      unfold deleteRows
      split
      next deleted hdeleted =>
        obtain ⟨hfirst, hfiles⟩ := deleteMissingRow_follows hok hdeleted
        obtain ⟨hrest, hlast⟩ := ih (deleteMissingRow_refsWhole hok hdeleted)
        refine ⟨(hfirst.trans hrest hlast).congr fun old => ?_, fun row hrow => hfiles (hlast hrow)⟩
        by_cases hold : old = fileId
        · simp [hold]
        · simp [hold]
      next => exact ih hok

/-! ## Moves and merges -/

theorem settleWork_follows (hunique : Table.UniqueBy SongMaster.workId db.songMasters) :
    Follows some db (settleWork db workId) := by
  have hdeleted := @Follows.deleteIfEmpty db workId
  unfold settleWork
  split
  next db' hgone => rwa [hgone] at hdeleted
  next db' hkept =>
    have hsame : db' = db := by
      unfold Database.deleteIfEmpty at hkept
      split at hkept
      · exact ((Prod.mk.inj hkept).2).symm
      · cases (Prod.mk.inj hkept).1
    subst hsame
    exact .reselect hunique

theorem settleWork_files : (settleWork db workId).files = db.files := by
  have hdeleted := @deleteIfEmpty_files db workId
  unfold settleWork
  split
  next db' hgone => rwa [hgone] at hdeleted
  next db' hkept =>
    rw [hkept] at hdeleted
    exact reselect_files.trans hdeleted

/-- A file's new work and its matches': no match names another file. -/
theorem updateWorkId_follows {work : Option String} :
    Follows some db ((db.updateWorkId fileId work).moveMatchesToWork fileId work) :=
  .of_matchRows rfl (fun row => by split <;> rfl) (fun row => by split <;> rfl)
    fun _ hmaster _ _ => hmaster

theorem placeUngroupedFile_follows {placed : Database}
    (hplace : placeUngroupedFile db fileId workId = some placed) : Follows some db placed := by
  unfold placeUngroupedFile at hplace
  split at hplace
  · split at hplace
    · obtain rfl := Option.some.inj hplace
      exact updateWorkId_follows
    · cases hplace
  · cases hplace

theorem placeInNewWork_follows {work : Work} {placed : Database} (hok : RefsWhole db)
    (hplace : placeInNewWork db fileId work = some placed) : Follows some db placed := by
  obtain ⟨created, hcreated, hplaced⟩ := Option.bind_eq_some_iff.mp hplace
  unfold createLocalWork at hcreated
  split at hcreated
  · cases hcreated
  next hnew =>
    obtain rfl := Option.some.inj hcreated
    have hfollows := placeUngroupedFile_follows hplaced
    refine ⟨hfollows.shows_iff, fun master hmaster hmethod hheld => hfollows.manual master ?_
      hmethod hheld⟩
    refine storeMaster_kept hmaster (.inl fun hwork => hnew ?_)
    have hthere := hok.songMasters.work master hmaster
    rwa [hwork] at hthere

theorem moveFileToWork_follows {libraryFile : LibraryFile} {moved : Database}
    (hok : RefsWhole db) (hmove : moveFileToWork db libraryFile workId = some moved) :
    Follows some db moved := by
  unfold moveFileToWork at hmove
  split at hmove
  · obtain rfl := Option.some.inj hmove
    exact .refl db
  · split at hmove
    · have hpicked := (@updateWorkId_follows db libraryFile.id (some workId)).then_same
        (@Follows.reselect _ workId none hok.songMasters.unique) (Table.subset_of_eq reselect_files)
      dsimp only at hmove
      split at hmove
      · obtain rfl := Option.some.inj hmove
        exact hpicked.then_same (settleWork_follows (reselect_unique hok.songMasters.unique))
          (Table.subset_of_eq settleWork_files)
      · obtain rfl := Option.some.inj hmove
        exact hpicked
    · cases hmove

theorem mergeWorksInto_follows {target : String} {sourceIds : List String} :
    Follows some db (db.mergeWorksInto target sourceIds) := by
  rcases mergeWorksInto_eq db target sourceIds with hsame | ⟨sources, hne, -, hmerged⟩
  · rw [hsame]
    exact .refl db
  · have hsame := SameRefs.mergeRecordings target sources db
    rw [hmerged]
    have hrows : (merged (db.mergeRecordings target sources) target sources).matchRows =
        db.matchRows.map (rowIntoTarget target sources) := by
      rw [← hsame.matchRows]
      rfl
    refine .of_matchRows hrows (fun _ => rfl) (fun _ => rfl) fun master hmaster _ hheld => ?_
    refine Table.mem_delete.mpr ⟨hsame.songMasters ▸ hmaster, ?_⟩
    rw [decide_eq_false_iff_not]
    intro hsource
    -- No file is left on a source.
    obtain ⟨file, hfile, -, hon, -⟩ := hheld
    rcases Table.mem_update.mp hfile with ⟨old, -, -, rfl⟩ | ⟨-, hother⟩
    · exact hne (Option.some.inj hon ▸ hsource)
    · simp [hon, Database.onWorks, hsource] at hother

theorem mergeWorkGroup_follows {plan : WorkMergePlan} {done : Database} (hok : RefsWhole db)
    (hmerge : mergeWorkGroup db plan = some done) : Follows some db done := by
  unfold mergeWorkGroup at hmerge
  split at hmerge
  next htarget =>
    obtain rfl := Option.some.inj hmerge
    exact mergeWorksInto_follows.then_same
      (.reselect (mergeWorksInto_refsWhole hok htarget).songMasters.unique)
      (Table.subset_of_eq reselect_files)
  · cases hmerge

end Curation

end RetroStation
