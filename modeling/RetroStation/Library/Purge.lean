import Mathlib.Data.List.Dedup
import RetroStation.Library.MissingPlan

/-! # Purging the missing rows that nothing replaces

After a scan, a missing row is deleted if no present row holds its track, the backfill
cannot still fold it, and the disk says that its file is gone.
-/

namespace RetroStation.Library

/-- The prefix of every path beneath a folder, and the separator the folder is spelled with. -/
def dirPrefix (folderPath : String) : List Char × Char :=
  let path := folderPath.toList
  let sep := if '\\' ∈ path then '\\' else '/'
  let stripped := ((path.reverse.dropWhile (· = '/')).dropWhile (· = '\\')).reverse
  (stripped ++ [sep], sep)

def isUnder (root filePath : String) : Bool := (dirPrefix root).1.isPrefixOf filePath.toList

/-- The disk: what it answers for a file and for listing a folder, and a path's folder. -/
structure Disk where
  stat : String → DiskAnswer
  scandir : String → DiskAnswer
  parent : String → String

namespace Disk

variable (disk : Disk)

/-- The file is there, or the disk will not say that it is gone. -/
def fileOnDisk (filePath : String) : Bool := !(disk.stat filePath).gone

/-- The folder is there but cannot be listed. -/
def folderUnreadable (folder : String) : Bool := disk.scandir folder = .refused

end Disk

/-- What the disk says of missing rows' paths. -/
structure DiskCheck where
  stillOnDisk : List String
  inUnreadableFolders : List String

def checkDisk (disk : Disk) (rows : List LibraryFile) : DiskCheck where
  stillOnDisk := (rows.map LibraryFile.filePath).filter disk.fileOnDisk
  inUnreadableFolders := (rows.map LibraryFile.filePath).filter fun filePath =>
    disk.folderUnreadable (disk.parent filePath)

/-- The unreplaced rows that a purge deletes, and how many it holds back and why. -/
structure PurgeSelection where
  ids : List Uuid
  awaitingFingerprint : Nat
  stillOnDisk : Nat
  unreadableFolder : Nat
  deriving DecidableEq, Repr

/-- Whether the backfill may still fold the row by its audio. -/
def awaitsFingerprint (missing : LibraryFile) (fingerprintsPending : Bool) : Bool :=
  fingerprintsPending && missing.audioHash.isSome

/-- Each row that is held back counts under the first reason that holds it. -/
def selectPurge (unreplaced : List LibraryFile) (fingerprintsPending : Bool) (check : DiskCheck) :
    PurgeSelection :=
  let waiting := ((unreplaced.filter fun row => awaitsFingerprint row fingerprintsPending).map
    LibraryFile.id).dedup
  let rest := unreplaced.filter fun row => row.id ∉ waiting
  let onDisk := rest.filter fun row => row.filePath ∈ check.stillOnDisk
  let rest := rest.filter fun row => row.filePath ∉ check.stillOnDisk
  let unreadable := rest.filter fun row => row.filePath ∈ check.inUnreadableFolders
  { ids := (rest.filter fun row => row.filePath ∉ check.inUnreadableFolders).map LibraryFile.id
    awaitingFingerprint := waiting.length
    stillOnDisk := onDisk.length
    unreadableFolder := unreadable.length }

section

variable (spelling : Spelling)

/-- Whether a file on disk holds the row's track, grouped or not. -/
def hasPresentCopy (missing : LibraryFile) (candidates : List LibraryFile) : Bool :=
  candidates.any fun row =>
    row.id ≠ missing.id ∧ row.fileStatus = .present ∧ isSameTrack spelling missing row

def unreplacedRows (missingRows : List LibraryFile)
    (candidatesFor : LibraryFile → List LibraryFile) : List LibraryFile :=
  missingRows.filter fun row => !hasPresentCopy spelling row (candidatesFor row)

variable (files : List LibraryFile)

/-- The status of every row beneath the root, by its path. -/
def getPathStatusesUnder (root : String) : Dict String FileStatus :=
  Dict.ofList ((files.filter fun row => isUnder root row.filePath).map fun row =>
    (row.filePath, row.fileStatus))

def missingUnder (root : String) : List LibraryFile :=
  let underRoot := ((getPathStatusesUnder files root).entries.filter fun entry =>
    entry.2 = .missing).map Prod.fst
  (getMissing files).filter fun row => row.filePath ∈ underRoot

/-- How many rows the backfill still has to fingerprint. -/
def countAudioUnhashed : Nat :=
  files.countP fun row => row.audioHash = none ∧ row.fileStatus = .present ∧
    row.format ∈ audioHashableFormats

/-- Delete a row that is missing, and say how many matches that released. -/
def deleteMissingRow (matchesOf : Uuid → Nat) (fileId : Uuid) : List LibraryFile × Option Nat :=
  if files.any fun row => row.id = fileId ∧ row.fileStatus = .missing then
    (Table.delete files fun row => row.id = fileId ∧ row.fileStatus = .missing,
      some (matchesOf fileId))
  else (files, none)

/-- Delete the missing rows among the ids, with what each of them released. -/
def deleteRows (matchesOf : Uuid → Nat) (ids : List Uuid) :
    List LibraryFile × Dict Uuid Nat :=
  ids.foldl (fun state fileId =>
    let outcome := deleteMissingRow state.1 matchesOf fileId
    (outcome.1, match outcome.2 with
      | some count => state.2.set fileId count
      | none => state.2)) (files, .empty)

/-- What a purge deleted, and what it held back. -/
structure MissingFilePurge where
  deleted : Nat
  matchesReleased : Nat
  skipped : Nat
  awaitingFingerprint : Nat
  stillOnDisk : Nat
  unreadableFolder : Nat
  deletedPaths : List String
  deriving DecidableEq, Repr

def purgeUnmatchedMissing (root : String) (matchesOf : Uuid → Nat) (disk : Disk) :
    List LibraryFile × MissingFilePurge :=
  let unreplaced := unreplacedRows spelling (missingUnder files root)
    (successorCandidates spelling files)
  let selection := selectPurge unreplaced (0 < countAudioUnhashed files) (checkDisk disk unreplaced)
  let (rest, released) := deleteRows files matchesOf selection.ids
  (rest,
    { deleted := released.size
      matchesReleased := released.values.sum
      skipped := selection.ids.length - released.size
      awaitingFingerprint := selection.awaitingFingerprint
      stillOnDisk := selection.stillOnDisk
      unreadableFolder := selection.unreadableFolder
      deletedPaths := (released.keys.filterMap fun fileId =>
        (unreplaced.find? fun row => row.id = fileId).map LibraryFile.filePath).insertionSort
          fun first second => first ≤ second })

end

/-! ## What the selection holds back -/

/-- What becomes of an unreplaced row. -/
inductive PurgeFate
  | awaitingFingerprint
  | stillOnDisk
  | unreadableFolder
  | purged
  deriving DecidableEq, Repr

def purgeFate (fingerprintsPending : Bool) (check : DiskCheck) (row : LibraryFile) : PurgeFate :=
  if awaitsFingerprint row fingerprintsPending then .awaitingFingerprint
  else if row.filePath ∈ check.stillOnDisk then .stillOnDisk
  else if row.filePath ∈ check.inUnreadableFolders then .unreadableFolder
  else .purged

theorem purgeFate_eq_purged {fingerprintsPending : Bool} {check : DiskCheck} {row : LibraryFile} :
    purgeFate fingerprintsPending check row = .purged ↔
      awaitsFingerprint row fingerprintsPending = false ∧ row.filePath ∉ check.stillOnDisk ∧
        row.filePath ∉ check.inUnreadableFolders := by
  unfold purgeFate
  split <;> [skip; split <;> [skip; split]] <;> simp_all

/-- The selection, by what becomes of each row. -/
theorem selectPurge_fates {unreplaced : List LibraryFile}
    (hids : Table.UniqueBy LibraryFile.id unreplaced) (fingerprintsPending : Bool)
    (check : DiskCheck) :
    let fate := purgeFate fingerprintsPending check
    selectPurge unreplaced fingerprintsPending check =
      { ids := (unreplaced.filter fun row => fate row = .purged).map LibraryFile.id
        awaitingFingerprint := (unreplaced.filter fun row => fate row = .awaitingFingerprint).length
        stillOnDisk := (unreplaced.filter fun row => fate row = .stillOnDisk).length
        unreadableFolder := (unreplaced.filter fun row =>
          fate row = .unreadableFolder).length } := by
  intro fate
  set waits := fun row => awaitsFingerprint row fingerprintsPending with hwaits
  have hnodup : ((unreplaced.filter waits).map LibraryFile.id).Nodup :=
    hids.sublist (List.filter_sublist.map _)
  have hrest : (unreplaced.filter fun row =>
    row.id ∉ (unreplaced.filter waits).map LibraryFile.id) =
      unreplaced.filter fun row => !waits row := by
    refine List.filter_congr fun row hrow => ?_
    have hmem : row.id ∈ (unreplaced.filter waits).map LibraryFile.id ↔ waits row = true := by
      constructor
      · intro hid
        obtain ⟨other, hother, hsame⟩ := List.mem_map.mp hid
        obtain ⟨hin, hotherWaits⟩ := List.mem_filter.mp hother
        rwa [hids.eq hin hrow hsame] at hotherWaits
      · exact fun hrowWaits => List.mem_map_of_mem (List.mem_filter.mpr ⟨hrow, hrowWaits⟩)
    cases hrowWaits : waits row <;> simp [hmem, hrowWaits]
  have hfates : ∀ row,
      decide (fate row = .awaitingFingerprint) = waits row ∧
      decide (fate row = .stillOnDisk) =
        (decide (row.filePath ∈ check.stillOnDisk) && !waits row) ∧
      decide (fate row = .unreadableFolder) = (decide (row.filePath ∈ check.inUnreadableFolders) &&
        (decide (row.filePath ∉ check.stillOnDisk) && !waits row)) ∧
      decide (fate row = .purged) = (decide (row.filePath ∉ check.inUnreadableFolders) &&
        (decide (row.filePath ∉ check.stillOnDisk) && !waits row)) := by
    intro row
    cases hrowWaits : waits row <;> by_cases hdisk : row.filePath ∈ check.stillOnDisk <;>
      by_cases hfolder : row.filePath ∈ check.inUnreadableFolders <;>
      simp_all [fate, purgeFate]
  have hwaiting : ((unreplaced.filter fun row => awaitsFingerprint row fingerprintsPending).map
      LibraryFile.id).dedup = (unreplaced.filter waits).map LibraryFile.id :=
    List.dedup_eq_self.mpr hnodup
  unfold selectPurge
  simp only [hwaiting, hrest]
  simp only [List.filter_filter, List.length_map]
  simp only [(hfates _).1, (hfates _).2.1, (hfates _).2.2.1, (hfates _).2.2.2]

/-- Each unreplaced row is counted once. -/
theorem selectPurge_counts {unreplaced : List LibraryFile}
    (hids : Table.UniqueBy LibraryFile.id unreplaced) (fingerprintsPending : Bool)
    (check : DiskCheck) :
    let selection := selectPurge unreplaced fingerprintsPending check
    selection.ids.length + selection.awaitingFingerprint + selection.stillOnDisk +
      selection.unreadableFolder = unreplaced.length := by
  intro selection
  have hselection : selection = _ := selectPurge_fates hids fingerprintsPending check
  rw [hselection]
  clear hids hselection
  simp only [List.length_map]
  induction unreplaced with
  | nil => rfl
  | cons row rest ih =>
      simp only [List.filter_cons, List.length_cons]
      cases hfate : purgeFate fingerprintsPending check row <;> simp <;> omega

/-! ## What a purge deletes -/

section

variable {spelling : Spelling} {files : List LibraryFile} {root : String}
  {matchesOf : Uuid → Nat} {row : LibraryFile}

theorem deleteMissingRow_subset {fileId : Uuid} :
    (deleteMissingRow files matchesOf fileId).1 ⊆ files := by
  unfold deleteMissingRow
  split
  · exact Table.delete_subset
  · exact List.Subset.refl files

theorem deleteRows_subset {ids : List Uuid} : (deleteRows files matchesOf ids).1 ⊆ files := by
  unfold deleteRows
  generalize (Dict.empty : Dict Uuid Nat) = released
  induction ids generalizing files released with
  | nil => exact List.Subset.refl files
  | cons fileId rest ih =>
      rw [List.foldl_cons]
      exact List.Subset.trans (ih _) deleteMissingRow_subset

/-- Only rows of the ids are deleted. -/
theorem of_deleteRows {ids : List Uuid} (hrow : row ∈ files)
    (hgone : row ∉ (deleteRows files matchesOf ids).1) : row.id ∈ ids := by
  unfold deleteRows at hgone
  generalize (Dict.empty : Dict Uuid Nat) = released at hgone
  induction ids generalizing files released with
  | nil => exact absurd hrow hgone
  | cons fileId rest ih =>
      by_cases hid : row.id = fileId
      · exact hid ▸ List.mem_cons_self
      have hkept : row ∈ (deleteMissingRow files matchesOf fileId).1 := by
        unfold deleteMissingRow
        split
        · exact Table.mem_delete.mpr ⟨hrow, by simp [hid]⟩
        · exact hrow
      rw [List.foldl_cons] at hgone
      exact List.mem_cons_of_mem _ (ih hkept _ hgone)

theorem unique_missingUnder (hids : Table.UniqueBy LibraryFile.id files) :
    Table.UniqueBy LibraryFile.id (missingUnder files root) := by
  have hmissing : Table.UniqueBy LibraryFile.id (getMissing files) :=
    ((List.perm_insertionSort _ _).map _).nodup_iff.mpr
      (hids.sublist (List.filter_sublist.map _))
  exact hmissing.sublist (List.filter_sublist.map _)

theorem of_mem_missingUnder (hrow : row ∈ missingUnder files root) :
    row ∈ files ∧ row.fileStatus = .missing ∧ isUnder root row.filePath = true := by
  obtain ⟨hmissing, hunder⟩ := List.mem_filter.mp hrow
  obtain ⟨hin, hstatus⟩ := mem_getMissing.mp hmissing
  obtain ⟨entry, hentry, hpath⟩ := List.mem_map.mp (of_decide_eq_true hunder)
  obtain ⟨found, hfound, rfl⟩ :=
    List.mem_map.mp (Dict.mem_entries_ofList (List.mem_of_mem_filter hentry))
  exact ⟨hin, hstatus, hpath ▸ (List.mem_filter.mp hfound).2⟩

/-- A row that no lookup finds a copy of has none in the library. -/
theorem no_copy_of_unreplaced {missing : LibraryFile} (hids : Table.UniqueBy LibraryFile.id files)
    (hreplaced : hasPresentCopy spelling missing (successorCandidates spelling files missing) =
      false) (hrow : row ∈ files) (hne : row.id ≠ missing.id)
    (hpresent : row.fileStatus = .present) :
    isSameTrack spelling missing row = false := by
  by_contra hsame
  have hsame : isSameTrack spelling missing row = true := by simpa using hsame
  have hcandidate := (mem_successorCandidates hids).mpr
    (mem_twins_of_sameTrack hrow hpresent hsame)
  have hcopy : hasPresentCopy spelling missing (successorCandidates spelling files missing) =
    true :=
    List.any_eq_true.mpr ⟨row, hcandidate, by simp [hne, hpresent, hsame]⟩
  rw [hreplaced] at hcopy
  cases hcopy

/-- A row without a copy is left unmatched by the plan. -/
theorem no_successor_of_unreplaced {missing : LibraryFile}
    (hreplaced : hasPresentCopy spelling missing (successorCandidates spelling files missing) =
      false) :
    readySuccessors spelling missing (successorCandidates spelling files missing) = [] := by
  rw [readySuccessors, List.filter_eq_nil_iff]
  intro row hrow hready
  simp only [decide_eq_true_eq] at hready
  have hcopy : hasPresentCopy spelling missing (successorCandidates spelling files missing) =
    true :=
    List.any_eq_true.mpr ⟨row, hrow, by simp [hready.1, hready.2.1, hready.2.2.2]⟩
  rw [hreplaced] at hcopy
  cases hcopy

/-- What a purge deletes is truly gone: a missing row beneath the root, whose track no present
row holds, that no fingerprint can still fold, and whose path and folder the disk says are gone
or readable; so the plan neither moves it nor calls it ambiguous. And the selection accounts
for every unreplaced row once. -/
theorem purge_deletes_gone (spelling : Spelling) (root : String) (matchesOf : Uuid → Nat)
    (disk : Disk) (hids : Table.UniqueBy LibraryFile.id files)
    (hpaths : Table.UniqueBy LibraryFile.filePath files) :
    let purged := (purgeUnmatchedMissing spelling files root matchesOf disk).1
    let plan := planForLibrary spelling files
    purged ⊆ files ∧
    (∀ row ∈ files, row ∉ purged →
      row.fileStatus = .missing ∧ isUnder root row.filePath ∧
      (∀ other ∈ files, other.id ≠ row.id → other.fileStatus = .present →
        isSameTrack spelling row other = false) ∧
      (row.audioHash = none ∨ ∀ other ∈ files, other.fileStatus = .present →
        awaitingFingerprint other = false) ∧
      (disk.stat row.filePath).gone ∧ disk.scandir (disk.parent row.filePath) ≠ .refused ∧
      row.id ∉ plan.moves.map MissingFileMove.missingId ∧ row.filePath ∉ plan.ambiguous) ∧
    ∀ (unreplaced : List LibraryFile) (fingerprintsPending : Bool) (check : DiskCheck),
      Table.UniqueBy LibraryFile.id unreplaced →
      let selection := selectPurge unreplaced fingerprintsPending check
      let fate := purgeFate fingerprintsPending check
      selection = {
          ids := (unreplaced.filter fun row => fate row = .purged).map LibraryFile.id
          awaitingFingerprint :=
            (unreplaced.filter fun row => fate row = .awaitingFingerprint).length
          stillOnDisk := (unreplaced.filter fun row => fate row = .stillOnDisk).length
          unreadableFolder :=
            (unreplaced.filter fun row => fate row = .unreadableFolder).length } ∧
      selection.ids.length + selection.awaitingFingerprint + selection.stillOnDisk +
        selection.unreadableFolder = unreplaced.length := by
  intro purged plan
  refine ⟨deleteRows_subset, fun row hrow hgone => ?_, fun unreplaced pending check hunique =>
    ⟨selectPurge_fates hunique pending check, selectPurge_counts hunique pending check⟩⟩
  have hunreplaced : Table.UniqueBy LibraryFile.id (unreplacedRows spelling
      (missingUnder files root) (successorCandidates spelling files)) :=
    (unique_missingUnder hids).sublist (List.filter_sublist.map _)
  have hid := of_deleteRows hrow hgone
  rw [selectPurge_fates hunreplaced] at hid
  obtain ⟨selected, hselected, hsame⟩ := List.mem_map.mp hid
  obtain ⟨hin, hfate⟩ := List.mem_filter.mp hselected
  obtain ⟨hmissing, hreplaced⟩ := List.mem_filter.mp hin
  obtain ⟨hfiles, hstatus, hunder⟩ := of_mem_missingUnder hmissing
  -- The deleted row is one that the selection chose, and what it was chosen for is what holds.
  obtain rfl := hids.eq hfiles hrow hsame
  have hcopy : hasPresentCopy spelling selected (successorCandidates spelling files selected) =
      false := by simpa using hreplaced
  obtain ⟨hawaits, hdisk, hfolder⟩ := purgeFate_eq_purged.mp (of_decide_eq_true hfate)
  have hready := @no_successor_of_unreplaced spelling files selected hcopy
  obtain ⟨planning, hplan, hok⟩ :=
    planMissingFileMoves_ok spelling (successorCandidates spelling files) (getMissing files)
  have hplanning : plan = planning.plan := hplan
  have hrow : ∀ missing ∈ orderByPath (getMissing files), missing ∈ files := fun missing hmem =>
    (mem_getMissing.mp (mem_orderByPath.mp hmem)).1
  refine ⟨hstatus, hunder, fun other hother hne hpresent =>
    no_copy_of_unreplaced hids hcopy hother hne hpresent, ?_, ?_, ?_, ?_, ?_⟩
  · cases hhash : selected.audioHash with
    | none => exact .inl rfl
    | some audioHash =>
        refine .inr fun other hother hpresent => ?_
        have hnone : countAudioUnhashed files = 0 := by
          simpa [awaitsFingerprint, hhash] using hawaits
        have hhashed := List.countP_eq_zero.mp hnone other hother
        simpa [awaitingFingerprint, hpresent] using hhashed
  · have hpath : selected.filePath ∉ (checkDisk disk _).stillOnDisk := hdisk
    simpa [checkDisk, Disk.fileOnDisk, List.mem_filter, List.mem_map_of_mem hin] using hpath
  · have hpath : selected.filePath ∉ (checkDisk disk _).inUnreadableFolders := hfolder
    simpa [checkDisk, Disk.folderUnreadable, List.mem_filter, List.mem_map_of_mem hin] using hpath
  · rw [hplanning]
    intro hmoved
    obtain ⟨move, hmove, hid⟩ := List.mem_map.mp hmoved
    obtain ⟨missing, hmissing, successor, rfl, hchosen⟩ := hok.moves move hmove
    obtain rfl := hids.eq (hrow missing hmissing) hfiles hid
    have hmem := chooseSuccessor_mem hchosen
    rw [hready] at hmem
    cases hmem
  · rw [hplanning]
    intro hambiguous
    obtain ⟨missing, hmissing, hpath, hsome⟩ := hok.ambiguous _ hambiguous
    obtain rfl := hpaths.eq (hrow missing hmissing) hfiles hpath
    exact hsome hready

end

/-- A missing row that nothing replaces, beside a present row with its fingerprint. -/
def goneFile : List LibraryFile :=
  [{ id := 1, filePath := "/music/gone.flac", fileStatus := .missing,
      audioHash := some "flac-md5:1" },
    { id := 2, filePath := "/music/kept.flac", workId := some "w",
      audioHash := some "flac-md5:2" }]

/-- A disk that has no file, and whose folders can be read. -/
def emptyDisk : Disk := ⟨fun _ => .notFound, fun _ => .found, fun _ => "/music"⟩

theorem purge_deletes_gone_one :
    (purgeUnmatchedMissing plainSpelling goneFile "/music" (fun _ => 0) emptyDisk).1.map
        LibraryFile.id = [2] ∧
      1 ∉ (planForLibrary plainSpelling goneFile).moves.map MissingFileMove.missingId := by
  refine ⟨by decide, ?_⟩
  have hpurge := @purge_deletes_gone goneFile plainSpelling "/music" (fun _ => 0) emptyDisk
    (by decide) (by decide)
  obtain ⟨-, -, -, -, -, -, hmoves, -⟩ :=
    hpurge.2.1 goneFile[0] (by simp [goneFile]) (by decide)
  exact hmoves

end RetroStation.Library
