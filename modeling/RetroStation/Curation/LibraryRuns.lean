import RetroStation.Curation.Runs

/-! # Curation, one row at a time

An action of curation folds and deletes several rows. Its songs and match rows change
with each: a fold moves the rows and the rejections of one file to another, a deletion
releases the songs of one, and nothing else touches either.
-/

namespace RetroStation

open Library Matching

namespace Curation

variable {db middle next : Database} {fileId : Uuid} {workId : String}

/-- What a match row shows of a file. -/
def shownFile (row : Match) : MatchSubject × Option Uuid := (row.subject, row.libraryFileId)

/-- The same songs, shown with the same files. -/
structure KeepsSongs (db next : Database) : Prop where
  identities : next.identities = db.identities
  artists : next.artists = db.artists
  rows : next.matchRows.map shownFile = db.matchRows.map shownFile
  fileIds : next.files.map LibraryFile.id = db.files.map LibraryFile.id

namespace KeepsSongs

theorem refl (db : Database) : KeepsSongs db db := ⟨rfl, rfl, rfl, rfl⟩

theorem trans (hfirst : KeepsSongs db middle) (hsecond : KeepsSongs middle next) :
    KeepsSongs db next :=
  ⟨hsecond.identities.trans hfirst.identities, hsecond.artists.trans hfirst.artists,
    hsecond.rows.trans hfirst.rows, hsecond.fileIds.trans hfirst.fileIds⟩

theorem foldl {Item : Type} {step : Database → Item → Database}
    (hstep : ∀ db item, KeepsSongs db (step db item)) (items : List Item) (db : Database) :
    KeepsSongs db (items.foldl step db) := by
  induction items generalizing db with
  | nil => exact refl db
  | cons item rest ih => exact (hstep db item).trans (ih _)

theorem moveMatchesToWork {work : Option String} :
    KeepsSongs db (db.moveMatchesToWork fileId work) :=
  ⟨rfl, rfl, Table.map_update_key fun _ => rfl, rfl⟩

theorem reselect {manualFileId : Option Uuid} :
    KeepsSongs db (reselectMasterFromFiles db workId manualFileId) := by
  obtain ⟨masters, hmasters⟩ := @reselect_eq db workId manualFileId
  rw [hmasters]
  exact ⟨rfl, rfl, rfl, rfl⟩

theorem deleteIfEmpty : KeepsSongs db (db.deleteIfEmpty workId).2 := by
  unfold Database.deleteIfEmpty
  split <;> exact ⟨rfl, rfl, rfl, rfl⟩

theorem settleFoldAcrossWorks {survivorId : Uuid} {left survivor : Option String} :
    KeepsSongs db (settleFoldAcrossWorks db survivorId left survivor) := by
  unfold Curation.settleFoldAcrossWorks
  split
  · exact refl db
  · have hmoved := @moveMatchesToWork db survivorId survivor
    dsimp only
    split
    · exact hmoved
    next work _ =>
      have hsettled : ∀ moved, KeepsSongs db moved →
          KeepsSongs db ((reselectMasterFromFiles moved work).deleteIfEmpty work).2 :=
        fun moved hkeeps => hkeeps.trans (reselect.trans deleteIfEmpty)
      split
      next survivorWork _ =>
        have hoverrides : KeepsSongs (db.moveMatchesToWork survivorId (some survivorWork))
            ((db.moveMatchesToWork survivorId (some survivorWork)).moveOverridesToWork survivorId
              work survivorWork) := ⟨rfl, rfl, rfl, rfl⟩
        exact hsettled _ (hmoved.trans hoverrides)
      · exact hsettled _ hmoved

theorem settleWork : KeepsSongs db (settleWork db workId) := by
  have hdeleted := @deleteIfEmpty db workId
  unfold Curation.settleWork
  split
  next settled hgone => rwa [hgone] at hdeleted
  next settled hkept =>
    rw [hkept] at hdeleted
    exact hdeleted.trans reselect

theorem updateWorkId {work : Option String} :
    KeepsSongs db ((db.updateWorkId fileId work).moveMatchesToWork fileId work) :=
  have hmoved : KeepsSongs db (db.updateWorkId fileId work) :=
    ⟨rfl, rfl, rfl, Table.map_update_key fun _ => rfl⟩
  hmoved.trans moveMatchesToWork

theorem placeUngroupedFile {placed : Database}
    (hplace : placeUngroupedFile db fileId workId = some placed) : KeepsSongs db placed := by
  unfold Curation.placeUngroupedFile at hplace
  split at hplace
  · split at hplace
    · exact Option.some.inj hplace ▸ updateWorkId
    · cases hplace
  · cases hplace

theorem placeInNewWork {work : Work} {placed : Database}
    (hplace : placeInNewWork db fileId work = some placed) : KeepsSongs db placed := by
  obtain ⟨created, hcreated, hplaced⟩ := Option.bind_eq_some_iff.mp hplace
  unfold createLocalWork at hcreated
  split at hcreated
  · cases hcreated
  · obtain rfl := Option.some.inj hcreated
    have hkeeps := placeUngroupedFile hplaced
    exact ⟨hkeeps.identities, hkeeps.artists, hkeeps.rows, hkeeps.fileIds⟩

theorem moveFileToWork {libraryFile : LibraryFile} {moved : Database}
    (hmove : moveFileToWork db libraryFile workId = some moved) : KeepsSongs db moved := by
  unfold Curation.moveFileToWork at hmove
  split at hmove
  · exact Option.some.inj hmove ▸ refl db
  · split at hmove
    · have hpicked := (@updateWorkId db libraryFile.id (some workId)).trans
        (@reselect _ workId none)
      dsimp only at hmove
      split at hmove
      · exact Option.some.inj hmove ▸ hpicked.trans settleWork
      · exact Option.some.inj hmove ▸ hpicked
    · cases hmove

theorem handOverRecording (source target : String) (db : Database) :
    KeepsSongs db (db.handOverRecording source target) :=
  ⟨rfl, rfl, rfl, Table.map_update_key fun _ => rfl⟩

theorem keepRecording (target : String) (sources : List String) (keeper : Recording)
    (db : Database) : KeepsSongs db (db.keepRecording target sources keeper) :=
  (foldl (fun db (dupe : Recording) => handOverRecording dupe.id keeper.id db) _ db).trans
    ⟨rfl, rfl, rfl, rfl⟩

theorem mergeRecordings (target : String) (sources : List String) (db : Database) :
    KeepsSongs db (db.mergeRecordings target sources) :=
  (foldl (fun db (clash : String × String) => handOverRecording clash.1 clash.2 db) _ db).trans
    (foldl (fun db keeper => keepRecording target sources keeper db) _ _)

theorem mergeWorkGroup {plan : WorkMergePlan} {done : Database}
    (hmerge : mergeWorkGroup db plan = some done) : KeepsSongs db done := by
  unfold Curation.mergeWorkGroup at hmerge
  split at hmerge
  · obtain rfl := Option.some.inj hmerge
    refine KeepsSongs.trans ?_ reselect
    rcases mergeWorksInto_eq db plan.targetId plan.sourceIds with hsame | ⟨sources, -, -, hmerged⟩
    · rw [hsame]
      exact refl db
    · rw [hmerged]
      refine (mergeRecordings plan.targetId sources db).trans ⟨rfl, rfl, ?_, ?_⟩
      · exact (List.map_map ..).trans (List.map_congr_left fun _ _ => rfl)
      · exact Table.map_update_key fun _ => rfl
  · cases hmerge

end KeepsSongs

/-! ## The machine -/

inductive LibraryAction
  | applyMissingFileMove (move : MissingFileMove)
  | foldStale (keeperId staleId : Uuid)
  | reselectMaster (workId : String)
  | moveFileToWork (fileId : Uuid) (workId : String)
  | mergeWorkGroup (plan : WorkMergePlan)
  | placeUngroupedFile (fileId : Uuid) (workId : String)
  | placeInNewWork (fileId : Uuid) (work : Work)
  | deleteMissingRow (fileId : Uuid)

/-- One row folded, deleted or moved, and the fold. -/
def libraryMachine : Transition.Machine Database LibraryAction (Option Fold) where
  step db
    | .applyMissingFileMove move =>
      (applyMissingFileMove db move).map (·, some ⟨move.missingId, move.successorId⟩)
    | .foldStale keeperId staleId =>
      if staleId = keeperId then none
      else (foldStale (getById db.files keeperId) keeperId db staleId).map
        (·, some ⟨staleId, keeperId⟩)
    | .reselectMaster workId => some (reselectMasterFromFiles db workId, none)
    | .moveFileToWork fileId workId =>
      (getById db.files fileId).bind fun file => (moveFileToWork db file workId).map (·, none)
    | .mergeWorkGroup plan => (mergeWorkGroup db plan).map (·, none)
    | .placeUngroupedFile fileId workId => (placeUngroupedFile db fileId workId).map (·, none)
    | .placeInNewWork fileId work => (placeInNewWork db fileId work).map (·, none)
    | .deleteMissingRow fileId => (deleteMissingRow db fileId).map (·, none)

def foldsOf (trace : List (LibraryAction × Option Fold)) : List Fold :=
  trace.filterMap Prod.snd

/-- The songs, once those of the file are released and its row is gone. -/
def released (db : Database) (fileId : Uuid) : Database :=
  (releaseMatches db fileId).deleteMissing fileId

/-- What a step of the library makes of the songs. -/
inductive SongEffect (db next : Database) : LibraryAction → Option Fold → Prop
  | kept {action : LibraryAction} (hstays : ∀ fileId, action ≠ .deleteMissingRow fileId)
      (hkeeps : KeepsSongs db next) : SongEffect db next action none
  | folded {action : LibraryAction} {source target : Uuid}
      (hstays : ∀ fileId, action ≠ .deleteMissingRow fileId) (hne : source ≠ target)
      (hthere : (∃ row ∈ db.matchRows, row.libraryFileId = some source) → db.HasFile target)
      (hkeeps : KeepsSongs (db.foldInto source target) next) :
      SongEffect db next action (some ⟨source, target⟩)
  | gone {fileId : Uuid} (hkeeps : KeepsSongs (released db fileId) next) :
      SongEffect db next (.deleteMissingRow fileId) none

theorem mergeInto_there {source target : Uuid} {merged : Database}
    (hmerged : db.mergeInto source target = some merged)
    (hnamed : ∃ row ∈ db.matchRows, row.libraryFileId = some source) : db.HasFile target := by
  unfold Database.mergeInto at hmerged
  split at hmerged
  · cases hmerged
  next hrefused =>
    obtain ⟨row, hrow, hfile⟩ := hnamed
    cases hget : getById db.files target with
    | none => simp [hget, RefsOk.namesFile_of_mem hrow hfile] at hrefused
    | some file => exact ⟨file, getById_eq_some hget⟩

/-- A fold deletes the row that it folds, and changes no other. -/
theorem foldStale_files {keeper : Option LibraryFile} {keeperId staleId : Uuid} {folded : Database}
    (hfold : foldStale keeper keeperId db staleId = some folded) :
    folded.files = Table.delete db.files fun file => file.id = staleId := by
  obtain ⟨merged, hmerged, rfl⟩ := Option.map_eq_some_iff.mp hfold
  obtain rfl := mergeInto_eq hmerged
  split
  · exact settleFoldAcrossWorks_files
  · rfl

theorem reselects_files {works : List String} :
    (works.foldl (fun db work => reselectMasterFromFiles db work) db).files = db.files := by
  induction works generalizing db with
  | nil => rfl
  | cons work rest ih => exact ih.trans reselect_files

theorem deleteMissingRow_keeps {deleted : Database}
    (hdelete : deleteMissingRow db fileId = some deleted) :
    KeepsSongs (released db fileId) deleted := by
  unfold deleteMissingRow at hdelete
  split at hdelete
  · obtain ⟨row, -, rfl⟩ := Option.map_eq_some_iff.mp hdelete
    obtain ⟨works, hdetach⟩ := @detachCuration_eq db fileId
    have hstripped : KeepsSongs (releaseMatches db fileId) (stripped db fileId) :=
      ⟨rfl, rfl, rfl, rfl⟩
    have hpicked : KeepsSongs (releaseMatches db fileId)
        (detachCuration (releaseMatches db fileId) fileId) := by
      rw [hdetach]
      exact hstripped.trans (.foldl (fun _ _ => .reselect) works _)
    have hfiles : (detachCuration (releaseMatches db fileId) fileId).files = db.files := by
      rw [hdetach, reselects_files]
      rfl
    have hgone : KeepsSongs (released db fileId)
        ((detachCuration (releaseMatches db fileId) fileId).deleteMissing fileId) := by
      refine ⟨hpicked.identities, hpicked.artists, hpicked.rows, ?_⟩
      unfold released Database.deleteMissing
      rw [hfiles]
      rfl
    cases row.workId with
    | none => exact hgone
    | some work => exact hgone.trans .deleteIfEmpty
  · cases hdelete

/-- Every step of the library keeps, folds or releases. -/
theorem library_effect {action : LibraryAction} {fold : Option Fold}
    (hfiles : Table.UniqueBy LibraryFile.id db.files)
    (hstep : libraryMachine.step db action = some (next, fold)) :
    SongEffect db next action fold := by
  cases action with
  | applyMissingFileMove move =>
      obtain ⟨folded, hfolded, heq⟩ := Option.map_eq_some_iff.mp hstep
      obtain ⟨rfl, rfl⟩ := Prod.mk.inj heq
      have hne := applyMissingFileMove_ne hfiles hfolded
      unfold applyMissingFileMove at hfolded
      split at hfolded
      · obtain ⟨merged, hmerged, rfl⟩ := Option.map_eq_some_iff.mp hfolded
        have hthere := mergeInto_there hmerged
        obtain rfl := mergeInto_eq hmerged
        exact .folded (by simp) hne hthere .settleFoldAcrossWorks
      · cases hfolded
  | foldStale keeperId staleId =>
      simp only [libraryMachine] at hstep
      split at hstep
      · cases hstep
      next hne =>
        obtain ⟨folded, hfolded, heq⟩ := Option.map_eq_some_iff.mp hstep
        obtain ⟨rfl, rfl⟩ := Prod.mk.inj heq
        obtain ⟨merged, hmerged, rfl⟩ := Option.map_eq_some_iff.mp hfolded
        have hthere := mergeInto_there hmerged
        obtain rfl := mergeInto_eq hmerged
        refine .folded (by simp) hne hthere ?_
        split
        · exact .settleFoldAcrossWorks
        · exact .refl _
  | reselectMaster workId =>
      obtain ⟨rfl, rfl⟩ := Prod.mk.inj (Option.some.inj hstep)
      exact .kept (by simp) .reselect
  | moveFileToWork fileId workId =>
      obtain ⟨file, -, hmove⟩ := Option.bind_eq_some_iff.mp hstep
      obtain ⟨moved, hmoved, heq⟩ := Option.map_eq_some_iff.mp hmove
      obtain ⟨rfl, rfl⟩ := Prod.mk.inj heq
      exact .kept (by simp) (.moveFileToWork hmoved)
  | mergeWorkGroup plan =>
      obtain ⟨done, hdone, heq⟩ := Option.map_eq_some_iff.mp hstep
      obtain ⟨rfl, rfl⟩ := Prod.mk.inj heq
      exact .kept (by simp) (.mergeWorkGroup hdone)
  | placeUngroupedFile fileId workId =>
      obtain ⟨placed, hplaced, heq⟩ := Option.map_eq_some_iff.mp hstep
      obtain ⟨rfl, rfl⟩ := Prod.mk.inj heq
      exact .kept (by simp) (.placeUngroupedFile hplaced)
  | placeInNewWork fileId work =>
      obtain ⟨placed, hplaced, heq⟩ := Option.map_eq_some_iff.mp hstep
      obtain ⟨rfl, rfl⟩ := Prod.mk.inj heq
      exact .kept (by simp) (.placeInNewWork hplaced)
  | deleteMissingRow fileId =>
      obtain ⟨deleted, hdeleted, heq⟩ := Option.map_eq_some_iff.mp hstep
      obtain ⟨rfl, rfl⟩ := Prod.mk.inj heq
      exact .gone (deleteMissingRow_keeps hdeleted)

/-! ## Actions are runs of steps -/

/-- A run that makes exactly the folds. -/
def Folding (db : Database) (folds : List Fold) (next : Database) : Prop :=
  ∃ trace, libraryMachine.Run db trace next ∧ foldsOf trace = folds

namespace Folding

variable {folds others : List Fold}

theorem refl (db : Database) : Folding db [] db := ⟨[], .nil, rfl⟩

theorem trans (hfirst : Folding db folds middle) (hsecond : Folding middle others next) :
    Folding db (folds ++ others) next := by
  obtain ⟨trace, hrun, rfl⟩ := hfirst
  obtain ⟨more, hmore, rfl⟩ := hsecond
  exact ⟨trace ++ more, hrun.trans hmore, List.filterMap_append⟩

theorem single {action : LibraryAction} {fold : Option Fold}
    (hstep : libraryMachine.step db action = some (next, fold)) : Folding db fold.toList next :=
  ⟨_, .single hstep, by cases fold <;> rfl⟩

theorem reselects {works : List String} :
    Folding db [] (works.foldl (fun db work => reselectMasterFromFiles db work) db) := by
  induction works generalizing db with
  | nil => exact refl db
  | cons work rest ih => exact (@single db _ (.reselectMaster work) none rfl).trans ih

theorem moves {moves : List MissingFileMove} :
    Folding db (applyMissingFileMoves db moves).1 (applyMissingFileMoves db moves).2 := by
  induction moves generalizing db with
  | nil => exact refl db
  | cons move rest ih =>
      unfold applyMissingFileMoves
      split
      next folded hfolded =>
        refine (@single db folded (.applyMissingFileMove move)
          (some ⟨move.missingId, move.successorId⟩) ?_).trans ih
        exact Option.map_eq_some_iff.mpr ⟨folded, hfolded, rfl⟩
      next => exact ih

theorem deletions {ids : List Uuid} : Folding db [] (deleteRows db ids).2 := by
  induction ids generalizing db with
  | nil => exact refl db
  | cons fileId rest ih =>
      unfold deleteRows
      split
      next deleted hdeleted =>
        refine (@single db deleted (.deleteMissingRow fileId) none ?_).trans ih
        exact Option.map_eq_some_iff.mpr ⟨deleted, hdeleted, rfl⟩
      next => exact ih

/-- The keeper's row is as it was read, whatever was folded into it. -/
theorem stales {keeper : Option LibraryFile} {keeperId : Uuid} {staleIds : List Uuid}
    (hne : keeperId ∉ staleIds) (hkeeper : getById db.files keeperId = keeper)
    (hfold : foldStales keeper keeperId db staleIds = some next) :
    Folding db (staleIds.map fun staleId => ⟨staleId, keeperId⟩) next := by
  induction staleIds generalizing db with
  | nil => exact Option.some.inj hfold ▸ refl db
  | cons staleId rest ih =>
      rw [List.mem_cons, not_or] at hne
      obtain ⟨folded, hfolded, hrest⟩ := Option.bind_eq_some_iff.mp hfold
      have hfirst : Folding db [⟨staleId, keeperId⟩] folded := by
        refine @single db folded (.foldStale keeperId staleId) (some ⟨staleId, keeperId⟩) ?_
        simp only [libraryMachine]
        rw [if_neg (Ne.symm hne.1), hkeeper]
        exact Option.map_eq_some_iff.mpr ⟨folded, hfolded, rfl⟩
      refine hfirst.trans (ih hne.2 ?_ hrest)
      rw [← hkeeper, getById, foldStale_files hfolded]
      refine Table.find?_delete fun row _ hid => ?_
      rw [decide_eq_false_iff_not, hid]
      exact hne.1

end Folding

/-- Every action of curation is a run of single steps with its folds. -/
theorem curation_folding {action : CurationAction} {outcome : CurationOutcome}
    (hstep : curationMachine.step db action = some (next, outcome)) :
    Folding db outcome.folds next := by
  cases action with
  | reconcileMissing config =>
      obtain ⟨rfl, rfl⟩ := Prod.mk.inj (Option.some.inj hstep)
      have hrun := (@Folding.moves db (planForLibrary config db).moves).trans
        (@Folding.reselects _ (applyMissingFileMoves db
          (planForLibrary config db).moves).2.listWorkIdsWithMissingMaster)
      rwa [List.append_nil] at hrun
  | remapMissingFile missingId targetId =>
      obtain ⟨done, hdone, heq⟩ := Option.map_eq_some_iff.mp hstep
      obtain ⟨rfl, rfl⟩ := Prod.mk.inj heq
      unfold remapMissingFile at hdone
      split at hdone
      next missing target hmissing htarget =>
        split at hdone
        · obtain ⟨folded, hfolded, rfl⟩ := Option.map_eq_some_iff.mp hdone
          refine Folding.single (?_ : libraryMachine.step db
            (.applyMissingFileMove (moveOf missing target)) =
              some (folded, some ⟨missingId, targetId⟩))
          refine Option.map_eq_some_iff.mpr ⟨folded, hfolded, ?_⟩
          rw [moveOf, (getById_eq_some hmissing).2, (getById_eq_some htarget).2]
        · cases hdone
      · cases hdone
  | applyCaseDuplicateRepair repair =>
      obtain ⟨done, hdone, heq⟩ := Option.map_eq_some_iff.mp hstep
      obtain ⟨rfl, rfl⟩ := Prod.mk.inj heq
      obtain ⟨folded, hfolded, rfl⟩ := Option.map_eq_some_iff.mp hdone
      exact .stales repair.keeper_stays rfl hfolded
  | moveFileToWork fileId workId =>
      obtain ⟨file, hfile, hmove⟩ := Option.bind_eq_some_iff.mp hstep
      obtain ⟨moved, hmoved, heq⟩ := Option.map_eq_some_iff.mp hmove
      obtain ⟨rfl, rfl⟩ := Prod.mk.inj heq
      refine @Folding.single db moved (.moveFileToWork fileId workId) none ?_
      exact Option.bind_eq_some_iff.mpr ⟨file, hfile,
        Option.map_eq_some_iff.mpr ⟨moved, hmoved, rfl⟩⟩
  | mergeWorkGroup plan =>
      obtain ⟨done, hdone, heq⟩ := Option.map_eq_some_iff.mp hstep
      obtain ⟨rfl, rfl⟩ := Prod.mk.inj heq
      exact @Folding.single db done (.mergeWorkGroup plan) none
        (Option.map_eq_some_iff.mpr ⟨done, hdone, rfl⟩)
  | placeUngroupedFile fileId workId =>
      obtain ⟨placed, hplaced, heq⟩ := Option.map_eq_some_iff.mp hstep
      obtain ⟨rfl, rfl⟩ := Prod.mk.inj heq
      exact @Folding.single db placed (.placeUngroupedFile fileId workId) none
        (Option.map_eq_some_iff.mpr ⟨placed, hplaced, rfl⟩)
  | placeInNewWork fileId work =>
      obtain ⟨placed, hplaced, heq⟩ := Option.map_eq_some_iff.mp hstep
      obtain ⟨rfl, rfl⟩ := Prod.mk.inj heq
      exact @Folding.single db placed (.placeInNewWork fileId work) none
        (Option.map_eq_some_iff.mpr ⟨placed, hplaced, rfl⟩)
  | deleteMissingFiles selection =>
      obtain ⟨rfl, rfl⟩ := Prod.mk.inj (Option.some.inj hstep)
      exact .deletions
  | purgeUnmatchedMissing config disk underRoot =>
      obtain ⟨rfl, rfl⟩ := Prod.mk.inj (Option.some.inj hstep)
      exact .deletions

end Curation

end RetroStation
