import RetroStation.Curation.Runs

/-! # Format overrides

A format override names the file that stations of one format play for a work; a play's
resolution takes it, else the song master, without looking at the file's own work again:

* `overrides_on_own_work` — in a run that never moves a file from under its overrides, the
  file of every override is on the override's work, and so is the file of every play.
-/

namespace RetroStation

open Library Matching

namespace Curation

/-- Set an override: the file is on the work and on disk, and the format is not set yet. -/
def createFormatOverride (db : Database) (override : FormatOverride) : Option Database :=
  if db.hasWork override.workId &&
      (db.files.any fun file => file.id = override.preferredFileId ∧
        file.workId = some override.workId ∧ file.fileStatus = .present) &&
      !(db.formatOverrides.any fun other => other.id = override.id ∨
        other.workId = override.workId ∧ other.formatName = override.formatName) then
    some { db with formatOverrides := db.formatOverrides ++ [override] }
  else none

/-- Clear one of a work's overrides. -/
def deleteFormatOverride (db : Database) (workId : String) (overrideId : Uuid) :
    Option Database :=
  if db.formatOverrides.any fun override => override.id = overrideId ∧ override.workId = workId then
    some { db with
      formatOverrides := Table.delete db.formatOverrides fun override => override.id = overrideId }
  else none

/-! ## What a play resolves to -/

inductive ResolutionSource
  | override
  | master
  deriving DecidableEq, Repr

/-- A row of `play_file_resolution`: the matched file is only the route to the work. -/
structure PlayFileResolution where
  matchedFileId : Option Uuid
  workId : Option String
  file : Option LibraryFile
  source : Option ResolutionSource
  deriving DecidableEq, Repr

/-- The song's best match with a file, once the song is matched; the oldest of equal ones. -/
def bestMatch (db : Database) (identityId : Uuid) : Option Match :=
  if (db.getIdentity identityId).any fun song =>
      song.matchStatus = .autoMatched ∨ song.matchStatus = .manualMatched then
    (((db.rowsOf identityId).filter fun row => row.libraryFileId.isSome).insertionSort
      fun first second => second.confidenceScore ≤ first.confidenceScore).head?
  else none

/-- The work of a file: its own, else its recording's. -/
def playedWork (db : Database) (file : LibraryFile) : Option String :=
  file.workId.or (file.recordingId.bind fun recordingId =>
    (db.recordings.find? fun recording => recording.id = recordingId).bind Recording.workId)

/-- A work's override for a station's format. -/
def overrideFor (db : Database) (workId : String) (formatName : Option String) :
    Option FormatOverride :=
  db.formatOverrides.find? fun override =>
    override.workId = workId ∧ some override.formatName = formatName

/-- What plays for a work: its override for the format, else its master. -/
def playedFile (db : Database) (formatName : Option String) (workId : String) :
    Option (Uuid × ResolutionSource) :=
  ((overrideFor db workId formatName).map fun override => (override.preferredFileId, .override)).or
    ((db.getMasterByWork workId).map fun master => (master.preferredFileId, .master))

/-- The file a play of the song gets on a station of the format. -/
def playFileResolution (db : Database) (formatName : Option String) (identityId : Uuid) :
    PlayFileResolution :=
  let matchedFileId := (bestMatch db identityId).bind Match.libraryFileId
  let workId := (matchedFileId.bind (getById db.files ·)).bind (playedWork db)
  let played := workId.bind (playedFile db formatName)
  { matchedFileId
    workId
    file := played.bind fun played => getById db.files played.1
    source := played.map Prod.snd }

/-! ## The machine -/

inductive OverrideAction
  | createFormatOverride (override : FormatOverride)
  | deleteFormatOverride (workId : String) (overrideId : Uuid)
  | curation (action : CurationAction)

/-- Curation, with users who set and clear overrides in between. -/
def overrideMachine : Transition.Machine Database OverrideAction CurationOutcome where
  step db
    | .createFormatOverride override => (createFormatOverride db override).map (·, {})
    | .deleteFormatOverride workId overrideId =>
      (deleteFormatOverride db workId overrideId).map (·, {})
    | .curation action => curationMachine.step db action

/-- The file of every override is on the override's work. -/
def OverridesOn (db : Database) : Prop :=
  ∀ override ∈ db.formatOverrides, db.workOf override.preferredFileId = some (some override.workId)

/-- The action takes no file from under its overrides: a file that moves has none on the work
it leaves, and a row that is folded into one with no work has none. -/
def LeavesOverrides (db : Database) : OverrideAction → Prop
  | .curation (.moveFileToWork fileId workId) =>
    ∀ override ∈ db.formatOverrides, override.preferredFileId = fileId → override.workId = workId
  | .curation (.applyCaseDuplicateRepair repair) =>
    (∃ work, db.workOf repair.keeperId = some (some work)) ∨
      ∀ override ∈ db.formatOverrides, override.preferredFileId ∉ repair.staleIds
  | _ => True

section

variable {db next : Database} {fileId : Uuid} {workId : String}

/-! ## Statements that leave overrides and files alone -/

namespace OverridesOn

theorem of_eq (hon : OverridesOn db) (hoverrides : next.formatOverrides = db.formatOverrides)
    (hfiles : next.files = db.files) : OverridesOn next := by
  intro override hmem
  rw [hoverrides] at hmem
  have hwork := hon override hmem
  rwa [Database.workOf, getById, hfiles]

theorem reselect {manualFileId : Option Uuid} (hon : OverridesOn db) :
    OverridesOn (reselectMasterFromFiles db workId manualFileId) :=
  hon.of_eq reselect_formatOverrides reselect_files

theorem reselects {works : List String} (hon : OverridesOn db) :
    OverridesOn (works.foldl (fun db work => reselectMasterFromFiles db work) db) := by
  induction works generalizing db with
  | nil => exact hon
  | cons work rest ih => exact ih hon.reselect

theorem deleteIfEmpty (hon : OverridesOn db) : OverridesOn (db.deleteIfEmpty workId).2 := by
  unfold Database.deleteIfEmpty
  split
  · exact hon
  · exact hon.of_eq rfl rfl

end OverridesOn

/-! ## Folds -/

/-- The overrides of the survivor that a fold left on the folded row's work take its own. -/
theorem settleFoldAcrossWorks_overridesOn {left survivor : Option String}
    (hsurvivor : db.workOf fileId = some survivor)
    (hon : ∀ override ∈ db.formatOverrides,
      db.workOf override.preferredFileId = some (some override.workId) ∨
        override.preferredFileId = fileId ∧ left = some override.workId ∧ survivor.isSome) :
    OverridesOn (settleFoldAcrossWorks db fileId left survivor) := by
  unfold settleFoldAcrossWorks
  split
  next hsame =>
    intro override hmem
    rcases hon override hmem with hown | ⟨rfl, hleft, -⟩
    · exact hown
    · rw [hsurvivor, ← hsame, hleft]
  next hdiffer =>
    cases left with
    | none =>
        intro override hmem
        rcases hon override hmem with hown | ⟨-, hleft, -⟩
        · exact hown
        · cases hleft
    | some work =>
        dsimp only
        cases survivor with
        | none =>
            apply OverridesOn.deleteIfEmpty
            apply OverridesOn.reselect
            intro override hmem
            rcases hon override hmem with hown | ⟨-, -, hnone⟩
            · exact hown
            · cases hnone
        | some other =>
            apply OverridesOn.deleteIfEmpty
            apply OverridesOn.reselect
            intro override hmem
            rcases Table.mem_update.mp hmem with ⟨old, -, hmoved, rfl⟩ | ⟨hold, hkept⟩
            · obtain ⟨-, rfl⟩ := of_decide_eq_true hmoved
              exact hsurvivor
            · rcases hon override (Table.mem_delete.mp hold).1 with hown | ⟨hfile, hleft, -⟩
              · exact hown
              · cases hleft
                simp [hfile] at hkept

/-- The overrides of a row are the survivor's once it is folded, and then take its work. -/
theorem fold_overridesOn {source target : Uuid} {left survivor : Option String}
    (hon : OverridesOn db) (hne : source ≠ target) (hleft : db.workOf source = some left)
    (hsurvivor : db.workOf target = some survivor)
    (hkept : survivor.isSome ∨
      ∀ override ∈ db.formatOverrides, override.preferredFileId ≠ source) :
    OverridesOn (settleFoldAcrossWorks (db.foldInto source target) target left survivor) := by
  apply settleFoldAcrossWorks_overridesOn
  · rw [RefsOk.workOf_folded hne.symm, hsurvivor]
  · intro override hmem
    rcases Table.mem_update.mp hmem with ⟨old, hold, hfolded, rfl⟩ | ⟨hold, hother⟩
    · have hsource := of_decide_eq_true hfolded
      have hwork := hon old hold
      rw [hsource, hleft] at hwork
      exact .inr ⟨rfl, Option.some.inj hwork,
        hkept.resolve_right fun hnone => hnone old hold hsource⟩
    · refine .inl ?_
      rw [RefsOk.workOf_folded (by simpa using hother)]
      exact hon override hold

/-- A planned move pairs a row with one on disk that has a work. -/
theorem applyMissingFileMove_overridesOn {move : MissingFileMove} {folded : Database}
    (hok : RefsWhole db) (hon : OverridesOn db)
    (hmissing : db.workOf move.missingId = some move.missingWorkId ∨
      db.workOf move.missingId = none)
    (hsuccessor : db.workOf move.successorId = some move.successorWorkId ∨
      db.workOf move.successorId = none)
    (hgrouped : move.successorWorkId.isSome)
    (happly : applyMissingFileMove db move = some folded) : OverridesOn folded := by
  obtain ⟨hthere, hthere', hne⟩ := applyMissingFileMove_rows hok happly
  unfold applyMissingFileMove at happly
  split at happly
  · obtain ⟨merged, hmerged, rfl⟩ := Option.map_eq_some_iff.mp happly
    obtain rfl := mergeInto_eq hmerged
    exact fold_overridesOn hon hne (hmissing.resolve_right (Option.isSome_iff_ne_none.mp hthere))
      (hsuccessor.resolve_right (Option.isSome_iff_ne_none.mp hthere')) (.inl hgrouped)
  · cases happly

theorem applyMissingFileMoves_overridesOn {planned : Database} {moves : List MissingFileMove}
    (hplanned : Table.UniqueBy LibraryFile.id planned.files)
    (hmoves : ∀ move ∈ moves, ∃ missing ∈ planned.files, ∃ successor ∈ planned.files,
      move = moveOf missing successor ∧ successor.workId.isSome)
    (hsubset : db.files ⊆ planned.files) (hok : RefsWhole db) (hon : OverridesOn db) :
    OverridesOn (applyMissingFileMoves db moves).2 := by
  induction moves generalizing db with
  | nil => exact hon
  | cons move rest ih =>
      have hrest := fun move hmove => hmoves move (List.mem_cons_of_mem _ hmove)
      obtain ⟨missing, hmissing, successor, hsuccessor, rfl, hgrouped⟩ :=
        hmoves move List.mem_cons_self
      have hread := workOf_of_subset hplanned hsubset hmissing
      have hread' := workOf_of_subset hplanned hsubset hsuccessor
      unfold applyMissingFileMoves
      split
      next folded hfolded =>
        refine ih hrest ?_ (applyMissingFileMove_refsWhole hok hread hread' hfolded)
          (applyMissingFileMove_overridesOn hok hon hread hread' hgrouped hfolded)
        rw [applyMissingFileMove_files hfolded]
        exact fun row hrow => hsubset (Table.mem_delete.mp hrow).1
      next => exact ih hrest hsubset hok hon

theorem reconcileMissing_overridesOn (config : PairingConfig) (hok : RefsWhole db)
    (hon : OverridesOn db) : OverridesOn (reconcileMissing config db).2 := by
  refine (applyMissingFileMoves_overridesOn hok.files (fun move hmove => ?_)
    (List.Subset.refl _) hok hon).reselects
  obtain ⟨missing, hmissing, successor, hsuccessor, hmove, -, -, hgrouped⟩ :=
    mem_planMissingFileMoves hmove
  rw [Database.getMissing, List.mem_insertionSort] at hmissing
  exact ⟨missing, (List.mem_filter.mp hmissing).1, successor, mem_successorCandidates hsuccessor,
    hmove, hgrouped⟩

theorem remapMissingFile_overridesOn {missingId targetId : Uuid} {done : List Fold × Database}
    (hok : RefsWhole db) (hon : OverridesOn db)
    (hremap : remapMissingFile db missingId targetId = some done) : OverridesOn done.2 := by
  unfold remapMissingFile at hremap
  split at hremap
  next missing target hmissing htarget =>
    split at hremap
    next hchecked =>
      obtain ⟨folded, hfolded, rfl⟩ := Option.map_eq_some_iff.mp hremap
      have hread : ∀ {fileId : Uuid} {file}, getById db.files fileId = some file →
          db.workOf file.id = some file.workId := fun hget =>
        Database.workOf_eq hok.files (getById_eq_some hget).1
      exact applyMissingFileMove_overridesOn hok hon (.inl (hread hmissing)) (.inl (hread htarget))
        hchecked.2.2 hfolded
    · cases hremap
  · cases hremap

/-! ## Case-only renames -/

/-- Settling re-keys overrides, or drops them; their files stay. -/
theorem mem_settleFoldAcrossWorks {left survivor : Option String} {override : FormatOverride}
    (hmem : override ∈ (settleFoldAcrossWorks db fileId left survivor).formatOverrides) :
    ∃ old ∈ db.formatOverrides, old.preferredFileId = override.preferredFileId := by
  have hdeleted : ∀ (db : Database) work,
      (db.deleteIfEmpty work).2.formatOverrides = db.formatOverrides := by
    intro db work
    unfold Database.deleteIfEmpty
    split <;> rfl
  unfold settleFoldAcrossWorks at hmem
  split at hmem
  · exact ⟨override, hmem, rfl⟩
  · cases left with
    | none => exact ⟨override, hmem, rfl⟩
    | some work =>
        dsimp only at hmem
        rw [hdeleted, reselect_formatOverrides] at hmem
        cases survivor with
        | none => exact ⟨override, hmem, rfl⟩
        | some other =>
            rcases Table.mem_update.mp hmem with ⟨old, hold, -, rfl⟩ | ⟨hold, -⟩
            · exact ⟨old, (Table.mem_delete.mp hold).1, rfl⟩
            · exact ⟨override, (Table.mem_delete.mp hold).1, rfl⟩

/-- A fold gives overrides to the keeper only. -/
theorem mem_foldStale {keeper : Option LibraryFile} {keeperId staleId : Uuid} {folded : Database}
    {override : FormatOverride} (hid : ∀ file, keeper = some file → file.id = keeperId)
    (hfold : foldStale keeper keeperId db staleId = some folded)
    (hmem : override ∈ folded.formatOverrides) (hother : override.preferredFileId ≠ keeperId) :
    ∃ old ∈ db.formatOverrides, old.preferredFileId = override.preferredFileId := by
  obtain ⟨merged, hmerged, rfl⟩ := Option.map_eq_some_iff.mp hfold
  obtain rfl := mergeInto_eq hmerged
  have hfolded : ∃ old ∈ (db.foldInto staleId keeperId).formatOverrides,
      old.preferredFileId = override.preferredFileId := by
    split at hmem
    · exact mem_settleFoldAcrossWorks hmem
    · exact ⟨override, hmem, rfl⟩
  obtain ⟨old, hold, hsame⟩ := hfolded
  rcases Table.mem_update.mp hold with ⟨first, -, -, rfl⟩ | ⟨hfirst, -⟩
  · exact (hother hsame.symm).elim
  · exact ⟨old, hfirst, hsame⟩

theorem foldStale_overridesOn {keeper : Option LibraryFile} {keeperId staleId : Uuid}
    {folded : Database} (hon : OverridesOn db) (hne : staleId ≠ keeperId)
    (hkeeper : db.workOf keeperId = keeper.map LibraryFile.workId)
    (hid : ∀ file, keeper = some file → file.id = keeperId)
    (hkept : (∃ work, db.workOf keeperId = some (some work)) ∨
      ∀ override ∈ db.formatOverrides, override.preferredFileId ≠ staleId)
    (hfold : foldStale keeper keeperId db staleId = some folded) : OverridesOn folded := by
  obtain ⟨merged, hmerged, rfl⟩ := Option.map_eq_some_iff.mp hfold
  obtain rfl := mergeInto_eq hmerged
  split
  next stale keeper hstale =>
    rw [hid keeper rfl]
    refine fold_overridesOn hon hne ?_ hkeeper (hkept.imp_left ?_)
    · rw [Database.workOf, hstale, Option.map_some]
    · rintro ⟨work, hwork⟩
      rw [hwork, Option.map_some] at hkeeper
      rw [← Option.some.inj hkeeper]
      rfl
  next keeper _ _ _ hnone =>
    -- No override names a row that is not there, nor is folded into one.
    have hunnamed : ∀ override ∈ db.formatOverrides, override.preferredFileId ≠ staleId := by
      intro override hmem hnames
      have hwork := hon override hmem
      rw [hnames] at hwork
      obtain ⟨stale, hstale, -⟩ := Option.map_eq_some_iff.mp hwork
      cases hkeep : keeper with
      | some keeper => exact hnone stale keeper hstale hkeep
      | none =>
          rcases hkept with ⟨work, hthere⟩ | hothers
          · rw [hkeep] at hkeeper
            rw [hkeeper] at hthere
            cases hthere
          · exact hothers override hmem hnames
    intro override hmem
    rcases Table.mem_update.mp hmem with ⟨old, hold, hfolded, -⟩ | ⟨hold, hother⟩
    · exact (hunnamed old hold (of_decide_eq_true hfolded)).elim
    · rw [RefsOk.workOf_folded (by simpa using hother)]
      exact hon override hold

theorem foldStales_overridesOn {keeper : Option LibraryFile} {keeperId : Uuid}
    {staleIds : List Uuid} {folded : Database} (hok : RefsWhole db) (hon : OverridesOn db)
    (hne : keeperId ∉ staleIds)
    (hkeeper : db.workOf keeperId = keeper.map LibraryFile.workId)
    (hid : ∀ file, keeper = some file → file.id = keeperId)
    (hkept : (∃ work, db.workOf keeperId = some (some work)) ∨
      ∀ override ∈ db.formatOverrides, override.preferredFileId ∉ staleIds)
    (hfold : foldStales keeper keeperId db staleIds = some folded) : OverridesOn folded := by
  induction staleIds generalizing db with
  | nil => exact Option.some.inj hfold ▸ hon
  | cons staleId rest ih =>
      rw [List.mem_cons, not_or] at hne
      obtain ⟨next, hnext, hrest⟩ := Option.bind_eq_some_iff.mp hfold
      obtain ⟨hwhole, hsame⟩ := foldStale_refsWhole hok (Ne.symm hne.1) hkeeper hid hnext
      have hfirst := foldStale_overridesOn hon (Ne.symm hne.1) hkeeper hid
        (hkept.imp_right fun hothers override hmem hnames =>
          hothers override hmem (hnames ▸ List.mem_cons_self)) hnext
      refine ih hwhole hfirst hne.2 (hsame.trans hkeeper) ?_ hrest
      rw [hsame]
      refine hkept.imp_right fun hothers override hmem hrest => ?_
      obtain ⟨old, hold, hfile⟩ := mem_foldStale hid hnext hmem fun hkeep =>
        hne.2 (hkeep ▸ hrest)
      exact hothers old hold (hfile ▸ List.mem_cons_of_mem _ hrest)

/-! ## Moves, placements and merges -/

theorem settleWork_same : (settleWork db workId).formatOverrides = db.formatOverrides ∧
    (settleWork db workId).files = db.files := by
  have hdeleted : (db.deleteIfEmpty workId).2.formatOverrides = db.formatOverrides ∧
      (db.deleteIfEmpty workId).2.files = db.files := by
    unfold Database.deleteIfEmpty
    split <;> exact ⟨rfl, rfl⟩
  unfold settleWork
  split
  next settled hgone => rwa [hgone] at hdeleted
  next settled hkept =>
    rw [hkept] at hdeleted
    rwa [reselect_formatOverrides, reselect_files]

/-- A move changes the work of one file, and no override. -/
theorem moveFileToWork_same {libraryFile : LibraryFile} {moved : Database}
    (hread : db.workOf libraryFile.id = some libraryFile.workId)
    (hmove : moveFileToWork db libraryFile workId = some moved) :
    moved.formatOverrides = db.formatOverrides ∧ ∀ other, moved.workOf other =
      if other = libraryFile.id then some (some workId) else db.workOf other := by
  unfold moveFileToWork at hmove
  split at hmove
  next hsame =>
    obtain rfl := Option.some.inj hmove
    refine ⟨rfl, fun other => ?_⟩
    split
    next hfile => rw [hfile, hread, hsame]
    · rfl
  next =>
    split at hmove
    next =>
      have hfollowed : ∀ other, (db.updateWorkId libraryFile.id (some workId)).workOf other =
          if other = libraryFile.id then some (some workId) else db.workOf other := by
        intro other
        rw [Database.workOf_updateWorkId]
        split
        next hfile => rw [hfile, hread, Option.map_some]
        · rfl
      have hworks : ∀ {next : Database},
          next.files = (db.updateWorkId libraryFile.id (some workId)).files → ∀ other,
            next.workOf other =
              if other = libraryFile.id then some (some workId) else db.workOf other := by
        intro next hfiles other
        rw [← hfollowed other, Database.workOf, getById, hfiles]
        rfl
      dsimp only at hmove
      split at hmove
      · obtain rfl := Option.some.inj hmove
        obtain ⟨hoverrides, hfiles⟩ := @settleWork_same (reselectMasterFromFiles
          ((db.updateWorkId libraryFile.id (some workId)).moveMatchesToWork libraryFile.id
            (some workId)) workId) ‹String›
        exact ⟨hoverrides.trans reselect_formatOverrides, hworks (hfiles.trans reselect_files)⟩
      · obtain rfl := Option.some.inj hmove
        exact ⟨reselect_formatOverrides, hworks reselect_files⟩
    · cases hmove

/-- A move keeps the overrides on their works exactly when it takes no file from under one. -/
theorem moveFileToWork_overridesOn_iff {libraryFile : LibraryFile} {moved : Database}
    (hon : OverridesOn db) (hread : db.workOf libraryFile.id = some libraryFile.workId)
    (hmove : moveFileToWork db libraryFile workId = some moved) :
    OverridesOn moved ↔ ∀ override ∈ db.formatOverrides,
      override.preferredFileId = libraryFile.id → override.workId = workId := by
  obtain ⟨hoverrides, hworks⟩ := moveFileToWork_same hread hmove
  unfold OverridesOn
  rw [hoverrides]
  constructor
  · intro hmoved override hmem hfile
    have hwork := hmoved override hmem
    rw [hworks, if_pos hfile] at hwork
    exact (Option.some.inj (Option.some.inj hwork)).symm
  · intro hkept override hmem
    rw [hworks]
    split
    next hfile => rw [hkept override hmem hfile]
    · exact hon override hmem

/-- No override names a file that has no work. -/
theorem placeUngroupedFile_overridesOn {placed : Database} (hon : OverridesOn db)
    (hplace : placeUngroupedFile db fileId workId = some placed) : OverridesOn placed := by
  unfold placeUngroupedFile at hplace
  split at hplace
  next file hfile =>
    split at hplace
    next hguard =>
      obtain rfl := Option.some.inj hplace
      rw [Bool.and_eq_true, Option.isNone_iff_eq_none] at hguard
      intro override hmem
      have hwork := hon override hmem
      have hother : override.preferredFileId ≠ fileId := by
        intro hsame
        rw [hsame, Database.workOf, hfile, Option.map_some, hguard.1] at hwork
        cases hwork
      change (db.updateWorkId fileId (some workId)).workOf override.preferredFileId = _
      rw [Database.workOf_updateWorkId, if_neg hother, hwork]
    · cases hplace
  · cases hplace

theorem placeInNewWork_overridesOn {work : Work} {placed : Database} (hon : OverridesOn db)
    (hplace : placeInNewWork db fileId work = some placed) : OverridesOn placed := by
  obtain ⟨created, hcreated, hplaced⟩ := Option.bind_eq_some_iff.mp hplace
  unfold createLocalWork at hcreated
  split at hcreated
  · cases hcreated
  · obtain rfl := Option.some.inj hcreated
    refine placeUngroupedFile_overridesOn ?_ hplaced
    exact hon.of_eq rfl rfl

/-- A merge takes overrides and files to the target alike. -/
theorem merged_overridesOn {target : String} {sources : List String} (hon : OverridesOn db) :
    OverridesOn (merged db target sources) := by
  intro override hmem
  rw [workOf_merged]
  rcases Table.mem_update.mp hmem with ⟨old, hold, hsource, rfl⟩ | ⟨hold, hother⟩
  · rw [hon old (Table.mem_delete.mp hold).1, Option.map_some, intoTarget,
      if_pos (by simpa [Database.onWorks] using hsource)]
  · rw [hon override (Table.mem_delete.mp hold).1, Option.map_some, intoTarget,
      if_neg (by simpa [Database.onWorks] using hother)]

theorem mergeWorkGroup_overridesOn {plan : WorkMergePlan} {done : Database}
    (hon : OverridesOn db) (hmerge : mergeWorkGroup db plan = some done) : OverridesOn done := by
  unfold mergeWorkGroup at hmerge
  split at hmerge
  · obtain rfl := Option.some.inj hmerge
    apply OverridesOn.reselect
    rcases mergeWorksInto_eq db plan.targetId plan.sourceIds with hsame | ⟨sources, -, -, hmerged⟩
    · rwa [hsame]
    · have hsame := SameRefs.mergeRecordings plan.targetId sources db
      rw [hmerged]
      apply merged_overridesOn
      unfold OverridesOn
      rwa [hsame.formatOverrides, hsame.workOf]
  · cases hmerge

/-! ## Deletions -/

theorem foldl_reselect_eq {works : List String} : ∃ masters,
    works.foldl (fun db work => reselectMasterFromFiles db work) db =
      { db with songMasters := masters } := by
  induction works generalizing db with
  | nil => exact ⟨db.songMasters, rfl⟩
  | cons work rest ih =>
      obtain ⟨masters, hmasters⟩ := @reselect_eq db work none
      rw [List.foldl_cons, hmasters]
      exact ih

/-- A row that goes takes its overrides with it. -/
theorem deleteMissingRow_overridesOn {deleted : Database} (hok : RefsWhole db)
    (hon : OverridesOn db) (hdelete : deleteMissingRow db fileId = some deleted) :
    OverridesOn deleted := by
  unfold deleteMissingRow at hdelete
  split at hdelete
  next hmissing =>
    obtain ⟨row, -, rfl⟩ := Option.map_eq_some_iff.mp hdelete
    obtain ⟨works, hdetach⟩ := @detachCuration_eq db fileId
    have hgone : OverridesOn
        ((detachCuration (releaseMatches db fileId) fileId).deleteMissing fileId) := by
      obtain ⟨masters, hmasters⟩ := @foldl_reselect_eq (stripped db fileId) works
      rw [hdetach, hmasters]
      intro override hmem
      obtain ⟨hmem, hother⟩ := Table.mem_delete.mp hmem
      change (db.deleteMissing fileId).workOf override.preferredFileId = _
      rw [Database.workOf_deleteMissing hok.files hmissing, if_neg (by simpa using hother)]
      exact hon override hmem
    cases row.workId with
    | none => exact hgone
    | some work => exact hgone.deleteIfEmpty
  · cases hdelete

theorem deleteRows_overridesOn {ids : List Uuid} (hok : RefsWhole db) (hon : OverridesOn db) :
    OverridesOn (deleteRows db ids).2 := by
  induction ids generalizing db with
  | nil => exact hon
  | cons fileId rest ih =>
      unfold deleteRows
      split
      next deleted hdeleted =>
        exact ih (deleteMissingRow_refsWhole hok hdeleted)
          (deleteMissingRow_overridesOn hok hon hdeleted)
      next => exact ih hok hon

/-! ## Every action -/

theorem curation_overridesOn {action : CurationAction} {outcome : CurationOutcome}
    (hok : RefsWhole db) (hon : OverridesOn db) (hleaves : LeavesOverrides db (.curation action))
    (hstep : curationMachine.step db action = some (next, outcome)) : OverridesOn next := by
  cases action with
  | reconcileMissing config =>
      obtain ⟨rfl, rfl⟩ := Prod.mk.inj (Option.some.inj hstep)
      exact reconcileMissing_overridesOn config hok hon
  | remapMissingFile missingId targetId =>
      obtain ⟨done, hdone, heq⟩ := Option.map_eq_some_iff.mp hstep
      obtain ⟨rfl, rfl⟩ := Prod.mk.inj heq
      exact remapMissingFile_overridesOn hok hon hdone
  | applyCaseDuplicateRepair repair =>
      obtain ⟨done, hdone, heq⟩ := Option.map_eq_some_iff.mp hstep
      obtain ⟨rfl, rfl⟩ := Prod.mk.inj heq
      obtain ⟨folded, hfolded, rfl⟩ := Option.map_eq_some_iff.mp hdone
      exact foldStales_overridesOn hok hon repair.keeper_stays rfl
        (fun _ hfile => (getById_eq_some hfile).2) hleaves hfolded
  | moveFileToWork fileId workId =>
      obtain ⟨file, hfile, hmove⟩ := Option.bind_eq_some_iff.mp hstep
      obtain ⟨moved, hmoved, heq⟩ := Option.map_eq_some_iff.mp hmove
      obtain ⟨rfl, rfl⟩ := Prod.mk.inj heq
      obtain ⟨hmem, rfl⟩ := getById_eq_some hfile
      have hread := Database.workOf_eq hok.files hmem
      exact (moveFileToWork_overridesOn_iff hon hread hmoved).mpr hleaves
  | mergeWorkGroup plan =>
      obtain ⟨done, hdone, heq⟩ := Option.map_eq_some_iff.mp hstep
      obtain ⟨rfl, rfl⟩ := Prod.mk.inj heq
      exact mergeWorkGroup_overridesOn hon hdone
  | placeUngroupedFile fileId workId =>
      obtain ⟨placed, hplaced, heq⟩ := Option.map_eq_some_iff.mp hstep
      obtain ⟨rfl, rfl⟩ := Prod.mk.inj heq
      exact placeUngroupedFile_overridesOn hon hplaced
  | placeInNewWork fileId work =>
      obtain ⟨placed, hplaced, heq⟩ := Option.map_eq_some_iff.mp hstep
      obtain ⟨rfl, rfl⟩ := Prod.mk.inj heq
      exact placeInNewWork_overridesOn hon hplaced
  | deleteMissingFiles selection =>
      obtain ⟨rfl, rfl⟩ := Prod.mk.inj (Option.some.inj hstep)
      exact deleteRows_overridesOn hok hon
  | purgeUnmatchedMissing config disk underRoot =>
      obtain ⟨rfl, rfl⟩ := Prod.mk.inj (Option.some.inj hstep)
      exact deleteRows_overridesOn hok hon

/-- An override is set only on a file of its work. -/
theorem createFormatOverride_kept {override : FormatOverride} (hok : RefsWhole db)
    (hon : OverridesOn db) (hcreate : createFormatOverride db override = some next) :
    RefsWhole next ∧ OverridesOn next := by
  unfold createFormatOverride at hcreate
  split at hcreate
  next hchecked =>
    obtain rfl := Option.some.inj hcreate
    simp only [Bool.and_eq_true, Bool.not_eq_true', List.any_eq_true, List.any_eq_false,
      decide_eq_true_eq, not_or, not_and] at hchecked
    obtain ⟨⟨hwork, file, hfile, hid, honWork, -⟩, hfree⟩ := hchecked
    have hown : db.workOf override.preferredFileId = some (some override.workId) := by
      rw [← hid, Database.workOf_eq hok.files hfile, honWork]
    refine ⟨⟨hok.files, hok.fileWork, hok.matchRows, hok.songMasters, ?_⟩, ?_⟩
    · refine ⟨hok.formatOverrides.ids.append fun old hold => (hfree old hold).1,
        hok.formatOverrides.unique.append fun old hold hsame => ?_, ?_, ?_⟩
      · obtain ⟨hwork, hformat⟩ := Prod.mk.inj hsame
        exact (hfree old hold).2 hwork hformat
      · intro other hother
        rcases List.mem_append.mp hother with hold | hnew
        · exact hok.formatOverrides.file other hold
        · obtain rfl := List.mem_singleton.mp hnew
          change (db.workOf other.preferredFileId).isSome = true
          rw [hown]
          rfl
      · intro other hother
        rcases List.mem_append.mp hother with hold | hnew
        · exact hok.formatOverrides.work other hold
        · obtain rfl := List.mem_singleton.mp hnew
          exact hwork
    · intro other hother
      rcases List.mem_append.mp hother with hold | hnew
      · exact hon other hold
      · obtain rfl := List.mem_singleton.mp hnew
        exact hown
  · cases hcreate

theorem deleteFormatOverride_kept {overrideId : Uuid} (hok : RefsWhole db) (hon : OverridesOn db)
    (hdelete : deleteFormatOverride db workId overrideId = some next) :
    RefsWhole next ∧ OverridesOn next := by
  unfold deleteFormatOverride at hdelete
  split at hdelete
  · obtain rfl := Option.some.inj hdelete
    refine ⟨⟨hok.files, hok.fileWork, hok.matchRows, hok.songMasters, ?_⟩, ?_⟩
    · exact hok.formatOverrides.mono List.filter_sublist
        (fun override hmem => hok.formatOverrides.file override (Table.mem_delete.mp hmem).1)
        fun override hmem => hok.formatOverrides.work override (Table.mem_delete.mp hmem).1
    · exact fun override hmem => hon override (Table.mem_delete.mp hmem).1
  · cases hdelete

theorem override_step {action : OverrideAction} {outcome : CurationOutcome}
    (hkept : RefsWhole db ∧ OverridesOn db) (hleaves : LeavesOverrides db action)
    (hstep : overrideMachine.step db action = some (next, outcome)) :
    RefsWhole next ∧ OverridesOn next := by
  cases action with
  | createFormatOverride override =>
      obtain ⟨created, hcreated, heq⟩ := Option.map_eq_some_iff.mp hstep
      obtain ⟨rfl, rfl⟩ := Prod.mk.inj heq
      exact createFormatOverride_kept hkept.1 hkept.2 hcreated
  | deleteFormatOverride workId overrideId =>
      obtain ⟨deleted, hdeleted, heq⟩ := Option.map_eq_some_iff.mp hstep
      obtain ⟨rfl, rfl⟩ := Prod.mk.inj heq
      exact deleteFormatOverride_kept hkept.1 hkept.2 hdeleted
  | curation action =>
      exact ⟨(curation_step hkept.1 hstep).1,
        curation_overridesOn hkept.1 hkept.2 hleaves hstep⟩

/-! ## Plays -/

/-- While masters and overrides are on their works, what plays for a work is on it. -/
theorem playedFile_onWork (hok : RefsWhole db) (hon : OverridesOn db) {formatName : Option String}
    {source : ResolutionSource}
    (hplayed : playedFile db formatName workId = some (fileId, source)) :
    db.workOf fileId = some (some workId) := by
  rcases Option.or_eq_some_iff.mp hplayed with hoverride | ⟨-, hmaster⟩
  · obtain ⟨override, hfind, heq⟩ := Option.map_eq_some_iff.mp hoverride
    obtain ⟨rfl, rfl⟩ := Prod.mk.inj heq
    unfold overrideFor at hfind
    have hkey := List.find?_some hfind
    simp only [decide_eq_true_eq] at hkey
    rw [← hkey.1]
    exact hon override (List.mem_of_find?_eq_some hfind)
  · obtain ⟨master, hfind, heq⟩ := Option.map_eq_some_iff.mp hmaster
    obtain ⟨rfl, rfl⟩ := Prod.mk.inj heq
    obtain ⟨hmem, rfl⟩ := Table.find?_key hfind
    exact hok.songMasters.onWork master hmem (Set.notMem_empty _)

/-- The file that a play gets is on the song's work. -/
theorem resolved_onWork (hok : RefsWhole db) (hon : OverridesOn db) {formatName : Option String}
    {identityId : Uuid} {file : LibraryFile}
    (hfile : (playFileResolution db formatName identityId).file = some file) :
    file.workId = (playFileResolution db formatName identityId).workId := by
  obtain ⟨⟨fileId, source⟩, hplayed, hget⟩ := Option.bind_eq_some_iff.mp hfile
  obtain ⟨workId, hwork, hplayed⟩ := Option.bind_eq_some_iff.mp hplayed
  have honWork := playedFile_onWork hok hon hplayed
  rw [Database.workOf, hget, Option.map_some] at honWork
  exact (Option.some.inj honWork).trans hwork.symm

end

/-- In a run that takes no file from under its overrides, every override is on the work of its
file, and every play gets a file of its song's work. -/
theorem overrides_on_own_work {start state : Database}
    {trace : List (OverrideAction × CurationOutcome)} (hstart : RefsWhole start)
    (hon : OverridesOn start) (hrun : overrideMachine.Run start trace state)
    (hleaves : overrideMachine.Meets LeavesOverrides start trace) :
    OverridesOn state ∧ ∀ formatName identityId file,
      (playFileResolution state formatName identityId).file = some file →
        file.workId = (playFileResolution state formatName identityId).workId := by
  obtain ⟨hok, hon⟩ := Transition.Machine.Meets.invariant
    (fun _ _ _ _ hkept hmet hstep => override_step hkept hmet hstep) ⟨hstart, hon⟩ hrun hleaves
  exact ⟨hon, fun _ _ _ hfile => resolved_onWork hok hon hfile⟩

/-- A song matched to the one file of a work; its other file will turn out to be another song. -/
def misfiled : Database where
  files := [
    { id := 1, filePath := "/music/one.flac", workId := some "a" },
    { id := 2, filePath := "/music/two.flac", workId := some "a" }]
  works := [{ id := "a" }, { id := "b" }]
  identities := [{
    id := 7
    broadcastArtistId := 1
    originalTitle := "One"
    normalizedSignature := "one"
    matchStatus := .manualMatched }]
  matchRows := [{
    subject := .identity 7
    confidenceScore := 1
    matchTier := .manual
    libraryFileId := some 1
    workId := some "a" }]

theorem misfiled_works {workId : String} (hwork : misfiled.hasWork workId = true) :
    workId ∈ misfiled.workIds := hwork

theorem misfiled_refsWhole : RefsWhole misfiled where
  files := by decide
  fileWork fileId workId hwork := by
    obtain ⟨file, hfile, -, hon⟩ := Database.exists_of_workOf hwork
    simp only [misfiled, List.mem_cons, List.not_mem_nil, or_false] at hfile
    rcases hfile with rfl | rfl <;> cases hon <;> exact misfiled_works (by decide)
  matchRows := by
    refine ⟨List.pairwise_singleton _ _, ?_, ?_, ?_, ?_⟩ <;> intro row hrow <;>
      obtain rfl := List.mem_singleton.mp hrow
    · rintro _ ⟨⟩
      decide
    · rintro _ ⟨⟩ -
      decide
    · rintro _ ⟨⟩
      exact misfiled_works (by decide)
    · rintro ⟨⟩
  songMasters := by
    refine ⟨by decide, ?_, ?_, ?_⟩ <;> intro master hmem <;> cases hmem
  formatOverrides := by
    refine ⟨by decide, by decide, ?_, ?_⟩ <;> intro override hmem <;> cases hmem

theorem misfiled_overridesOn : OverridesOn misfiled := fun _ hmem => nomatch hmem

/-- The override on the second file, and the file moved to its own song. -/
def overriddenThenMoved : List OverrideAction :=
  [.createFormatOverride { id := 5, workId := "a", formatName := "80s", preferredFileId := 2 },
    .curation (.moveFileToWork 2 "b")]

theorem overrides_on_own_work_set : ∃ trace state, overrideMachine.Run misfiled trace state ∧
    OverridesOn state ∧ ((playFileResolution state (some "80s") 7).file.map LibraryFile.id,
      (playFileResolution state (some "80s") 7).workId) = (some 2, some "a") := by
  obtain ⟨next, hstep, hplayed⟩ : ∃ next, overrideMachine.step misfiled (.createFormatOverride
      { id := 5, workId := "a", formatName := "80s", preferredFileId := 2 }) = some (next, {}) ∧
        ((playFileResolution next (some "80s") 7).file.map LibraryFile.id,
          (playFileResolution next (some "80s") 7).workId) = (some 2, some "a") :=
    ⟨_, rfl, by decide⟩
  have hrun := Transition.Machine.Run.single hstep
  have hleaves : overrideMachine.Meets LeavesOverrides misfiled
      [(.createFormatOverride { id := 5, workId := "a", formatName := "80s", preferredFileId := 2 },
        {})] :=
    .cons trivial hstep .nil
  exact ⟨_, next, hrun, (overrides_on_own_work misfiled_refsWhole misfiled_overridesOn hrun
    hleaves).1, hplayed⟩

/-- The override stays on the work that its file has left, and the song's plays get it. -/
theorem moved_from_under_override : ∃ trace state, RefsWhole misfiled ∧ OverridesOn misfiled ∧
    overrideMachine.Run misfiled trace state ∧ ¬ OverridesOn state ∧
      (playFileResolution state (some "80s") 7).workId = some "a" ∧
      (playFileResolution state (some "80s") 7).file.map LibraryFile.workId = some (some "b") := by
  obtain ⟨trace, state, hexec, hoff, hplayed⟩ : ∃ trace state,
      overrideMachine.exec misfiled overriddenThenMoved = some (trace, state) ∧
        (state.formatOverrides.all fun override =>
          state.workOf override.preferredFileId = some (some override.workId)) = false ∧
        ((playFileResolution state (some "80s") 7).workId = some "a" ∧
          (playFileResolution state (some "80s") 7).file.map LibraryFile.workId =
            some (some "b")) :=
    ⟨_, _, rfl, by decide, by decide⟩
  refine ⟨trace, state, misfiled_refsWhole, misfiled_overridesOn,
    Transition.Machine.run_of_exec hexec, fun hon => ?_, hplayed⟩
  have hall : (state.formatOverrides.all fun override =>
      state.workOf override.preferredFileId = some (some override.workId)) = true :=
    List.all_eq_true.mpr fun override hmem => decide_eq_true (hon override hmem)
  rw [hall] at hoff
  cases hoff

end Curation

end RetroStation
