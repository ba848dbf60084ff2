import RetroStation.Curation.References

/-! # The operations keep the references

Each fold, deletion, move and merge takes a library whose references are whole to
one whose references are.
-/

namespace RetroStation

open Library Matching

namespace Curation

variable {db : Database} {fileId : Uuid} {workId : String}

/-! ## Folds -/

theorem mergeInto_eq {source target : Uuid} {merged : Database}
    (hmerged : db.mergeInto source target = some merged) : db.foldInto source target = merged := by
  unfold Database.mergeInto at hmerged
  split at hmerged
  · cases hmerged
  · exact Option.some.inj hmerged

theorem lockFoldPair_rows {missingId successorId : Uuid}
    (hlock : db.lockFoldPair missingId successorId) :
    (∃ missing ∈ db.files, missing.id = missingId ∧ missing.fileStatus = .missing) ∧
      ∃ successor ∈ db.files, successor.id = successorId ∧ successor.fileStatus = .present := by
  simpa [Database.lockFoldPair, Database.lockMissing] using hlock

theorem applyMissingFileMove_lock {move : MissingFileMove} {folded : Database}
    (happly : applyMissingFileMove db move = some folded) :
    db.lockFoldPair move.missingId move.successorId := by
  unfold applyMissingFileMove at happly
  split at happly
  next hlock => exact hlock
  · cases happly

/-- A row is not folded into itself: one is missing and the other on disk. -/
theorem applyMissingFileMove_ne {move : MissingFileMove} {folded : Database}
    (hfiles : Table.UniqueBy LibraryFile.id db.files)
    (happly : applyMissingFileMove db move = some folded) : move.missingId ≠ move.successorId := by
  obtain ⟨⟨missing, hmem, hid, hstatus⟩, successor, hmem', hid', hstatus'⟩ :=
    lockFoldPair_rows (applyMissingFileMove_lock happly)
  intro hsame
  obtain rfl := hfiles.eq hmem hmem' (hid.trans (hsame.trans hid'.symm))
  rw [hstatus] at hstatus'
  cases hstatus'

/-- The rows of a move that is applied are there, and two. -/
theorem applyMissingFileMove_rows {move : MissingFileMove} {folded : Database}
    (hok : RefsWhole db) (happly : applyMissingFileMove db move = some folded) :
    (db.workOf move.missingId).isSome ∧ (db.workOf move.successorId).isSome ∧
      move.missingId ≠ move.successorId := by
  obtain ⟨⟨missing, hmem, hid, -⟩, successor, hmem', hid', -⟩ :=
    lockFoldPair_rows (applyMissingFileMove_lock happly)
  exact ⟨hid ▸ Database.workOf_isSome_of_mem hmem, hid' ▸ Database.workOf_isSome_of_mem hmem',
    applyMissingFileMove_ne hok.files happly⟩

/-- A move read from rows that are still there settles by their works. -/
theorem applyMissingFileMove_refsWhole {move : MissingFileMove} {folded : Database}
    (hok : RefsWhole db) (hmissing : db.workOf move.missingId = some move.missingWorkId ∨
      db.workOf move.missingId = none)
    (hsuccessor : db.workOf move.successorId = some move.successorWorkId ∨
      db.workOf move.successorId = none)
    (happly : applyMissingFileMove db move = some folded) : RefsWhole folded := by
  obtain ⟨hthere, hthere', hne⟩ := applyMissingFileMove_rows hok happly
  unfold applyMissingFileMove at happly
  split at happly
  · obtain ⟨merged, hmerged, rfl⟩ := Option.map_eq_some_iff.mp happly
    obtain rfl := mergeInto_eq hmerged
    exact fold_refsWhole hok hne
      (hmissing.resolve_right (Option.isSome_iff_ne_none.mp hthere))
      (hsuccessor.resolve_right (Option.isSome_iff_ne_none.mp hthere'))
  · cases happly

/-- Settling writes no file. -/
theorem settleFoldAcrossWorks_files {survivorId : Uuid} {left survivor : Option String} :
    (settleFoldAcrossWorks db survivorId left survivor).files = db.files := by
  unfold settleFoldAcrossWorks
  split
  · rfl
  · dsimp only
    split
    · rfl
    · unfold Database.deleteIfEmpty
      split <;> split <;> simp [Database.moveOverridesToWork, Database.moveMatchesToWork,
        Database.deleteMasterByWork]

/-- A fold deletes the row that it folds, and changes no other. -/
theorem applyMissingFileMove_files {move : MissingFileMove} {folded : Database}
    (happly : applyMissingFileMove db move = some folded) :
    folded.files = Table.delete db.files fun file => file.id = move.missingId := by
  unfold applyMissingFileMove at happly
  split at happly
  · obtain ⟨merged, hmerged, rfl⟩ := Option.map_eq_some_iff.mp happly
    obtain rfl := mergeInto_eq hmerged
    exact settleFoldAcrossWorks_files
  · cases happly

/-- A row as it was planned with is in the library with its work, or not at all. -/
theorem workOf_of_subset {planned : Database}
    (hplanned : Table.UniqueBy LibraryFile.id planned.files)
    (hsubset : db.files ⊆ planned.files) {file : LibraryFile} (hfile : file ∈ planned.files) :
    db.workOf file.id = some file.workId ∨ db.workOf file.id = none := by
  cases hwork : db.workOf file.id with
  | none => exact .inr rfl
  | some work =>
      obtain ⟨row, hrow, hid, rfl⟩ := Database.exists_of_workOf hwork
      rw [hplanned.eq (hsubset hrow) hfile hid]
      exact .inl rfl

/-- A plan's moves, applied one after the other to the library that they were planned on. -/
theorem applyMissingFileMoves_refsWhole {planned : Database} {moves : List MissingFileMove}
    (hplanned : Table.UniqueBy LibraryFile.id planned.files)
    (hmoves : ∀ move ∈ moves, ∃ missing ∈ planned.files, ∃ successor ∈ planned.files,
      move = moveOf missing successor)
    (hsubset : db.files ⊆ planned.files) (hok : RefsWhole db) :
    RefsWhole (applyMissingFileMoves db moves).2 := by
  induction moves generalizing db with
  | nil => exact hok
  | cons move rest ih =>
      have hrest := fun move hmove => hmoves move (List.mem_cons_of_mem _ hmove)
      obtain ⟨missing, hmissing, successor, hsuccessor, rfl⟩ := hmoves move List.mem_cons_self
      unfold applyMissingFileMoves
      split
      next folded hfolded =>
        refine ih hrest ?_ (applyMissingFileMove_refsWhole hok
          (workOf_of_subset hplanned hsubset hmissing)
          (workOf_of_subset hplanned hsubset hsuccessor)
          hfolded)
        rw [applyMissingFileMove_files hfolded]
        exact fun row hrow => hsubset (Table.mem_delete.mp hrow).1
      next => exact ih hrest hsubset hok

theorem reselects_refsWhole {works : List String} (hok : RefsWhole db) :
    RefsWhole (works.foldl (fun db work => reselectMasterFromFiles db work) db) := by
  induction works generalizing db with
  | nil => exact hok
  | cons work rest ih => exact ih (hok.reselect.whole rfl (by simp))

theorem plan_moves {config : PairingConfig} {move : MissingFileMove}
    (hmove : move ∈ (planForLibrary config db).moves) :
    ∃ missing ∈ db.files, ∃ successor ∈ db.files, move = moveOf missing successor := by
  obtain ⟨missing, hmissing, successor, hsuccessor, hmove, -⟩ := mem_planMissingFileMoves hmove
  unfold Database.getMissing at hmissing
  rw [List.mem_insertionSort] at hmissing
  exact ⟨missing, (List.mem_filter.mp hmissing).1, successor, mem_successorCandidates hsuccessor,
    hmove⟩

theorem reconcileMissing_refsWhole (config : PairingConfig) (hok : RefsWhole db) :
    RefsWhole (reconcileMissing config db).2 :=
  reselects_refsWhole (applyMissingFileMoves_refsWhole hok.files (fun _ hmove => plan_moves hmove)
    (List.Subset.refl _) hok)

theorem remapMissingFile_refsWhole {missingId targetId : Uuid} {done : List Fold × Database}
    (hok : RefsWhole db) (hremap : remapMissingFile db missingId targetId = some done) :
    RefsWhole done.2 := by
  unfold remapMissingFile at hremap
  split at hremap
  next missing target hmissing htarget =>
    split at hremap
    · obtain ⟨folded, hfolded, rfl⟩ := Option.map_eq_some_iff.mp hremap
      have hread : ∀ {fileId : Uuid} {file}, getById db.files fileId = some file →
          db.workOf file.id = some file.workId := fun hget =>
        Database.workOf_eq hok.files (getById_eq_some hget).1
      exact applyMissingFileMove_refsWhole hok (.inl (hread hmissing))
        (.inl (hread htarget)) hfolded
    · cases hremap
  · cases hremap

/-- One stale row folded into the keeper, whose row was read before the first fold. -/
theorem foldStale_refsWhole {keeper : Option LibraryFile} {keeperId staleId : Uuid}
    {folded : Database} (hok : RefsWhole db) (hne : staleId ≠ keeperId)
    (hkeeper : db.workOf keeperId = keeper.map LibraryFile.workId)
    (hid : ∀ file, keeper = some file → file.id = keeperId)
    (hfold : foldStale keeper keeperId db staleId = some folded) :
    RefsWhole folded ∧ folded.workOf keeperId = db.workOf keeperId := by
  unfold foldStale at hfold
  obtain ⟨merged, hmerged, rfl⟩ := Option.map_eq_some_iff.mp hfold
  unfold Database.mergeInto at hmerged
  split at hmerged
  · cases hmerged
  next hnamed =>
    obtain rfl := Option.some.inj hmerged
    have hsame : (db.foldInto staleId keeperId).workOf keeperId = db.workOf keeperId := by
      rw [Database.workOf_foldInto, if_neg hne.symm]
    have hfolded := hok.foldInto hne (fun hnames => by
      rw [Database.workOf, Option.isSome_map]
      simpa [hnames, Option.isSome_iff_ne_none] using hnamed)
    split
    next stale keeper hstale =>
      have hfiles : (settleFoldAcrossWorks (db.foldInto staleId keeperId) keeper.id stale.workId
          keeper.workId).workOf keeperId = db.workOf keeperId := by
        rw [← hsame]
        unfold Database.workOf
        rw [settleFoldAcrossWorks_files]
      refine ⟨?_, hfiles⟩
      rw [hid keeper rfl]
      refine fold_refsWhole hok hne ?_ hkeeper
      rw [Database.workOf, hstale, Option.map_some]
    next keeper _ _ _ hnone =>
      have hunnamed : db.namesFile staleId = false := by
        cases hstale : getById db.files staleId with
        | none => exact hok.not_namesFile (by rw [Database.workOf, hstale, Option.map_none])
        | some stale =>
            cases keeper with
            | some keeper => exact (hnone _ _ hstale rfl).elim
            | none =>
                have habsent : getById db.files keeperId = none := by
                  simpa [Database.workOf] using hkeeper
                simpa [habsent] using hnamed
      exact ⟨hfolded.whole (by simp [hunnamed]) (by simp [hunnamed]), hsame⟩

theorem foldStales_refsWhole {keeper : Option LibraryFile} {keeperId : Uuid}
    {staleIds : List Uuid} {folded : Database} (hok : RefsWhole db) (hne : keeperId ∉ staleIds)
    (hkeeper : db.workOf keeperId = keeper.map LibraryFile.workId)
    (hid : ∀ file, keeper = some file → file.id = keeperId)
    (hfold : foldStales keeper keeperId db staleIds = some folded) : RefsWhole folded := by
  induction staleIds generalizing db with
  | nil => exact Option.some.inj hfold ▸ hok
  | cons staleId rest ih =>
      rw [List.mem_cons, not_or] at hne
      obtain ⟨next, hnext, hrest⟩ := Option.bind_eq_some_iff.mp hfold
      obtain ⟨hwhole, hsame⟩ := foldStale_refsWhole hok (Ne.symm hne.1) hkeeper hid hnext
      exact ih hwhole hne.2 (hsame.trans hkeeper) hrest

theorem applyCaseDuplicateRepair_refsWhole {repair : CaseDuplicateRepair}
    {done : List Fold × Database} (hok : RefsWhole db)
    (happly : applyCaseDuplicateRepair db repair = some done) : RefsWhole done.2 := by
  obtain ⟨folded, hfolded, rfl⟩ := Option.map_eq_some_iff.mp happly
  exact foldStales_refsWhole hok repair.keeper_stays rfl
    (fun _ hfile => (getById_eq_some hfile).2) hfolded

/-! ## Deletions -/

/-- The library without what names the file, but for its row. -/
def stripped (db : Database) (fileId : Uuid) : Database :=
  ((releaseMatches db fileId).deleteOverridesForFile fileId).deleteMastersForFile fileId

theorem detachCuration_eq : ∃ works : List String,
    detachCuration (releaseMatches db fileId) fileId =
      works.foldl (fun db work => reselectMasterFromFiles db work) (stripped db fileId) :=
  ⟨_, rfl⟩

theorem stripped_refsWhole (hok : RefsWhole db) : RefsWhole (stripped db fileId) := by
  refine ⟨hok.files, hok.fileWork, ?_, ?_, ?_⟩
  · exact hok.matchRows.mono List.filter_sublist (fun row hrow other hnames =>
      ⟨hok.matchRows.file row (Table.mem_delete.mp hrow).1 other hnames, fun h => ⟨h, rfl⟩⟩)
      fun _ _ _ _ hwork => hwork
  · exact hok.songMasters.mono List.filter_sublist (fun master hmaster =>
      ⟨hok.songMasters.file master (Table.mem_delete.mp hmaster).1, fun h => ⟨h, rfl⟩⟩)
      fun master hmaster => hok.songMasters.work master (Table.mem_delete.mp hmaster).1
  · exact hok.formatOverrides.mono List.filter_sublist (fun override hmem =>
      hok.formatOverrides.file override (Table.mem_delete.mp hmem).1)
      fun override hmem => hok.formatOverrides.work override (Table.mem_delete.mp hmem).1

/-- Selections write the masters alone, and pick no missing file. -/
theorem reselects_eq {works : List String} (hok : RefsWhole db)
    (hmissing : db.lockMissing fileId)
    (hnone : ∀ master ∈ db.songMasters, master.preferredFileId ≠ fileId) :
    ∃ masters, works.foldl (fun db work => reselectMasterFromFiles db work) db =
        { db with songMasters := masters } ∧
      ∀ master ∈ masters, master.preferredFileId ≠ fileId := by
  induction works generalizing db with
  | nil => exact ⟨_, rfl, hnone⟩
  | cons work rest ih =>
      have hmem := fun stored => @mem_reselect db work none hok.songMasters.unique stored
      have hwhole : RefsWhole (reselectMasterFromFiles db work) := hok.reselect.whole rfl (by simp)
      obtain ⟨masters, hmasters⟩ := @reselect_eq db work none
      rw [List.foldl_cons]
      rw [hmasters] at hmem hwhole ⊢
      refine ih hwhole hmissing fun stored hstored hnames => ?_
      rcases hmem stored hstored with ⟨hold, -⟩ | ⟨-, file, hfile, hid, -, hold | hpresent⟩
      · exact hnone stored hold hnames
      · exact hnone stored hold hnames
      · obtain ⟨row, hrow, hstatus⟩ := List.any_eq_true.mp hmissing
        simp only [decide_eq_true_eq] at hstatus
        obtain rfl := hok.files.eq hfile hrow (hid.trans (hnames.trans hstatus.1.symm))
        rw [hpresent] at hstatus
        cases hstatus.2

/-- What precedes a deletion leaves nothing that names the missing row. -/
theorem detach_not_namesFile (hok : RefsWhole db) (hmissing : db.lockMissing fileId) :
    (detachCuration (releaseMatches db fileId) fileId).namesFile fileId = false ∧
      (detachCuration (releaseMatches db fileId) fileId).files = db.files := by
  obtain ⟨works, hdetach⟩ := @detachCuration_eq db fileId
  have hnone : ∀ master ∈ (stripped db fileId).songMasters, master.preferredFileId ≠ fileId := by
    intro master hmaster
    simpa using (Table.mem_delete.mp hmaster).2
  obtain ⟨masters, hmasters, hothers⟩ :=
    @reselects_eq (stripped db fileId) fileId works (stripped_refsWhole hok) hmissing hnone
  rw [hdetach, hmasters]
  refine ⟨?_, rfl⟩
  unfold Database.namesFile
  simp only [Bool.or_eq_false_iff, List.any_eq_false, decide_eq_true_eq]
  refine ⟨⟨fun row hrow hnames => ?_, hothers⟩, fun override hoverride hnames => ?_⟩
  · have hother := (Table.mem_delete.mp hrow).2
    simp [hnames] at hother
  · have hother := (Table.mem_delete.mp hoverride).2
    simp [hnames] at hother

/-- A missing row that nothing names goes, and its references are none. -/
theorem deleteMissing_refsWhole (hok : RefsWhole db) (hmissing : db.lockMissing fileId)
    (hunnamed : db.namesFile fileId = false) : RefsWhole (db.deleteMissing fileId) := by
  have hworkOf := fun other => @Database.workOf_deleteMissing db other hok.files fileId hmissing
  unfold Database.namesFile at hunnamed
  simp only [Bool.or_eq_false_iff, List.any_eq_false, decide_eq_true_eq] at hunnamed
  obtain ⟨⟨hrows, hmasters⟩, hoverrides⟩ := hunnamed
  have hsame : ∀ {other}, other ≠ fileId →
      (db.deleteMissing fileId).workOf other = db.workOf other := fun hother => by
    rw [hworkOf, if_neg hother]
  refine ⟨hok.files.delete, fun other work hother => ?_, ?_, ?_, ?_⟩
  · rw [hworkOf] at hother
    split at hother
    · cases hother
    · exact hok.fileWork other work hother
  · refine hok.matchRows.mono (List.Sublist.refl _) (fun row hrow other hnames => ?_)
      fun _ _ _ _ hwork => hwork
    have hother : other ≠ fileId := fun hgone => hrows row hrow (hgone ▸ hnames)
    rw [hsame hother]
    exact ⟨hok.matchRows.file row hrow other hnames, fun h => ⟨h, rfl⟩⟩
  · refine hok.songMasters.mono (List.Sublist.refl _) (fun master hmaster => ?_)
      hok.songMasters.work
    rw [hsame (hmasters master hmaster)]
    exact ⟨hok.songMasters.file master hmaster, fun h => ⟨h, rfl⟩⟩
  · refine hok.formatOverrides.mono (List.Sublist.refl _) (fun override hmem => ?_)
      hok.formatOverrides.work
    rw [hsame (hoverrides override hmem)]
    exact hok.formatOverrides.file override hmem

theorem deleteMissingRow_refsWhole {deleted : Database} (hok : RefsWhole db)
    (hdelete : deleteMissingRow db fileId = some deleted) : RefsWhole deleted := by
  unfold deleteMissingRow at hdelete
  split at hdelete
  next hmissing =>
    obtain ⟨row, -, rfl⟩ := Option.map_eq_some_iff.mp hdelete
    obtain ⟨hunnamed, hfiles⟩ := detach_not_namesFile hok hmissing
    obtain ⟨works, hdetach⟩ := @detachCuration_eq db fileId
    have hdetached : RefsWhole (detachCuration (releaseMatches db fileId) fileId) :=
      hdetach ▸ reselects_refsWhole (stripped_refsWhole hok)
    have hgone := deleteMissing_refsWhole hdetached (by rwa [Database.lockMissing, hfiles]) hunnamed
    cases row.workId with
    | none => exact hgone
    | some work => exact hgone.deleteIfEmpty.1
  · cases hdelete

theorem deleteRows_refsWhole {ids : List Uuid} (hok : RefsWhole db) :
    RefsWhole (deleteRows db ids).2 := by
  induction ids generalizing db with
  | nil => exact hok
  | cons fileId rest ih =>
      unfold deleteRows
      split
      next deleted hdeleted => exact ih (deleteMissingRow_refsWhole hok hdeleted)
      next => exact ih hok

end Curation

end RetroStation
