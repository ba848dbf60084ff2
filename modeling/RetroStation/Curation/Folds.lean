import RetroStation.Curation.Masters
import RetroStation.Curation.Pairing

/-! # Folding and deleting library rows

A missing row is folded into its successor, a row spelled wrong into the one the
disk knows, and a missing row nothing replaces is deleted. Each settles the works
it leaves.
-/

namespace RetroStation.Curation

open Library Matching

/-- One row folded into another. -/
structure Fold where
  source : Uuid
  target : Uuid
  deriving DecidableEq, Repr

/-- Settle both works after a row is folded into a survivor on another work. -/
def settleFoldAcrossWorks (db : Database) (survivorId : Uuid)
    (leftWorkId survivorWorkId : Option String) : Database :=
  if leftWorkId = survivorWorkId then db
  else
    let db := db.moveMatchesToWork survivorId survivorWorkId
    match leftWorkId with
    | none => db
    | some left =>
      let db := match survivorWorkId with
        | some work => db.moveOverridesToWork survivorId left work
        | none => db
      ((reselectMasterFromFiles db left).deleteIfEmpty left).2

/-! ## Missing rows and their successors -/

/-- Move every reference to a missing row onto its successor. `none` is a move that the
library has overtaken. -/
def applyMissingFileMove (db : Database) (move : MissingFileMove) : Option Database :=
  if db.lockFoldPair move.missingId move.successorId then
    (db.mergeInto move.missingId move.successorId).map fun db =>
      settleFoldAcrossWorks db move.successorId move.missingWorkId move.successorWorkId
  else none

/-- Apply a plan's moves; one that is overtaken is skipped. -/
def applyMissingFileMoves (db : Database) : List MissingFileMove → List Fold × Database
  | [] => ([], db)
  | move :: rest =>
    match applyMissingFileMove db move with
    | some folded =>
      let (folds, last) := applyMissingFileMoves folded rest
      (⟨move.missingId, move.successorId⟩ :: folds, last)
    | none => applyMissingFileMoves db rest

/-- Re-pick every automatic master left on a missing file whose work has one on disk. -/
def repickStrandedMasters (db : Database) : Database :=
  db.listWorkIdsWithMissingMaster.foldl (fun db work => reselectMasterFromFiles db work) db

/-- What follows a scan: plan, apply, re-pick. -/
def reconcileMissing (config : PairingConfig) (db : Database) : List Fold × Database :=
  let (folds, db) := applyMissingFileMoves db (planForLibrary config db).moves
  (folds, repickStrandedMasters db)

/-- Fold a missing row into the file on disk that the user chose. -/
def remapMissingFile (db : Database) (missingId targetId : Uuid) : Option (List Fold × Database) :=
  match getById db.files missingId, getById db.files targetId with
  | some missing, some target =>
    if missing.fileStatus = .missing ∧ target.fileStatus = .present ∧ target.workId.isSome then
      (applyMissingFileMove db (moveOf missing target)).map fun db =>
        ([⟨missingId, targetId⟩], db)
    else none
  | _, _ => none

/-! ## Case-only renames -/

/-- A keeper and the rows to fold into it. -/
structure CaseDuplicateRepair where
  keeperId : Uuid
  staleIds : List Uuid
  keeper_stays : keeperId ∉ staleIds

/-- The repair of each group with one row spelled as the disk spells it. -/
def planCaseDuplicateRepairs (spelling : String → Option String)
    (groups : List (List LibraryFile)) : List CaseDuplicateRepair :=
  groups.filterMap fun group =>
    match group.filter fun file => some file.filePath = group.head?.bind (spelling ·.filePath) with
    | [keeper] => some {
        keeperId := keeper.id
        staleIds := (group.filter (·.id ≠ keeper.id)).map LibraryFile.id
        keeper_stays := by simp }
    | _ => none

/-- Fold one stale row into the keeper, as its row was read at the start. -/
def foldStale (keeper : Option LibraryFile) (keeperId : Uuid) (db : Database) (staleId : Uuid) :
    Option Database :=
  (db.mergeInto staleId keeperId).map fun folded =>
    match getById db.files staleId, keeper with
    | some stale, some keeper => settleFoldAcrossWorks folded keeper.id stale.workId keeper.workId
    | _, _ => folded

def foldStales (keeper : Option LibraryFile) (keeperId : Uuid) (db : Database) :
    List Uuid → Option Database
  | [] => some db
  | staleId :: rest =>
    (foldStale keeper keeperId db staleId).bind fun db => foldStales keeper keeperId db rest

/-- Fold each stale row into the keeper; `none` is a fold the database refuses. -/
def applyCaseDuplicateRepair (db : Database) (repair : CaseDuplicateRepair) :
    Option (List Fold × Database) :=
  (foldStales (getById db.files repair.keeperId) repair.keeperId db repair.staleIds).map fun db =>
    (repair.staleIds.map fun staleId => ⟨staleId, repair.keeperId⟩, db)

/-! ## Deleting missing rows -/

/-- Delete the file's matches; each song left with none goes back to review. -/
def releaseMatches (db : Database) (fileId : Uuid) : Database :=
  let songs := db.songsOfFile fileId
  let db := db.deleteMatchesForFile fileId
  db.updateSongs (fun song => song.id ∈ songs ∧ db.rowsOf song.id = []) {
    status := .needsReview
    tier := none
    reasonCode := some .libraryFileRemoved }

/-- Remove the file's overrides and masters; each work whose master it was re-picks one. -/
def detachCuration (db : Database) (fileId : Uuid) : Database :=
  let db := db.deleteOverridesForFile fileId
  let works := db.worksOfMasterFile fileId
  works.foldl (fun db work => reselectMasterFromFiles db work) (db.deleteMastersForFile fileId)

/-- Delete one missing row; `none` when it is not missing. -/
def deleteMissingRow (db : Database) (fileId : Uuid) : Option Database :=
  if db.lockMissing fileId then
    (getById db.files fileId).map fun row =>
      let db := (detachCuration (releaseMatches db fileId) fileId).deleteMissing fileId
      match row.workId with
      | some work => (db.deleteIfEmpty work).2
      | none => db
  else none

/-- Delete each missing row of `ids`; which went. -/
def deleteRows (db : Database) : List Uuid → List Uuid × Database
  | [] => ([], db)
  | fileId :: rest =>
    match deleteMissingRow db fileId with
    | some deleted =>
      let (ids, last) := deleteRows deleted rest
      (fileId :: ids, last)
    | none => deleteRows db rest

inductive MissingFileSelection
  | rows (ids : List Uuid)
  | everyRow
  deriving DecidableEq, Repr

def selectedIds (db : Database) : MissingFileSelection → List Uuid
  | .rows ids => ids
  | .everyRow => db.getMissing.map LibraryFile.id

def deleteMissingFiles (db : Database) (selection : MissingFileSelection) :
    List Uuid × Database := deleteRows db (selectedIds db selection)

/-- What the disk says about a missing row's path right now. -/
structure DiskCheck where
  stillOnDisk : String → Bool
  inUnreadableFolder : String → Bool

/-- Whether the hash backfill may still fold the row by its audio. -/
def awaitsFingerprint (missing : LibraryFile) (fingerprintsPending : Bool) : Bool :=
  fingerprintsPending && missing.audioHash.isSome

/-- Hold back rows the backfill may fold, and rows the walk may have missed. -/
def selectPurge (unreplaced : List LibraryFile) (fingerprintsPending : Bool) (disk : DiskCheck) :
    List Uuid :=
  (unreplaced.filter fun missing =>
    !awaitsFingerprint missing fingerprintsPending && !disk.stillOnDisk missing.filePath &&
      !disk.inUnreadableFolder missing.filePath).map LibraryFile.id

/-- Whether a file on disk has no fingerprint yet. -/
def anyAudioUnhashed (db : Database) : Bool :=
  db.files.any fun file => file.audioHash.isNone ∧ file.fileStatus = .present ∧
    file.format ∈ AUDIO_HASHABLE_FORMATS

/-- Delete the missing rows under a root that no file on disk replaces. -/
def purgeUnmatchedMissing (config : PairingConfig) (disk : DiskCheck) (underRoot : String → Bool)
    (db : Database) : List Uuid × Database :=
  let missing := db.getMissing.filter fun file => underRoot file.filePath
  deleteRows db (selectPurge (unreplacedRows config db missing) (anyAudioUnhashed db) disk)

end RetroStation.Curation
