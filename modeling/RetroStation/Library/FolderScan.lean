import Mathlib.Data.Finset.Insert
import RetroStation.Library.Adoption
import RetroStation.Library.Purge

/-! # A visit of one folder

The files in a folder are compared with the rows there are of it, and each is sent to its
scenario. Reading a file and writing its row can each fail; the visit goes on. The disk
stays as it is meanwhile.
-/

namespace RetroStation.Library

structure FolderEntry where
  filePath : String
  isFile : Bool
  isSupported : Bool
  deriving DecidableEq, Repr

/-- What is read of a file: its tags, and its fingerprint if it stores one. -/
structure TagsRead where
  format : String
  audio : AudioMetadata
  audioHash : Option String
  deriving DecidableEq, Repr

/-- What the disk answers while a folder is visited. -/
structure FolderDisk where
  isDir : Bool
  spelledAsOnDisk : Bool
  /-- What the folder holds, unless it cannot be listed. -/
  iterdir : Option (List FolderEntry)
  stat : String → Except String DiskStat
  tags : String → Except String TagsRead
  answer : String → DiskAnswer
  names : Names
  parent : String → String

structure LibraryQuarantine where
  filePath : String
  errorMessage : String
  deriving DecidableEq, Repr

structure FolderScanResult where
  filesWritten : Nat := 0
  filesSkipped : Nat := 0
  filesMissing : Nat := 0
  filesReappeared : Nat := 0
  quarantined : Nat := 0
  filesRelocated : Nat := 0
  folderUnreadable : Bool := false
  quarantineCleared : Nat := 0
  failingPaths : Finset String := ∅
  deriving DecidableEq

def FolderScanResult.recordFailure (result : FolderScanResult) (filePath : String) :
    FolderScanResult :=
  { result with
    quarantined := result.quarantined + 1
    failingPaths := insert filePath result.failingPaths }

/-- What one folder visit writes through, and the counts it keeps. Every id that was ever
given is below the next one. -/
structure FolderScanContext where
  files : List LibraryFile
  quarantine : List LibraryQuarantine := []
  nextId : Uuid
  result : FolderScanResult := {}
  deriving DecidableEq

def quarantineOnce (quarantine : List LibraryQuarantine) (filePath error : String) :
    List LibraryQuarantine :=
  if quarantine.any fun entry => entry.filePath = filePath then quarantine
  else quarantine ++ [⟨filePath, error⟩]

/-- The file is quarantined, and counts as failing. -/
def FolderScanContext.fail (ctx : FolderScanContext) (filePath error : String) :
    FolderScanContext :=
  { ctx with
    quarantine := quarantineOnce ctx.quarantine filePath error
    result := ctx.result.recordFailure filePath }

/-- A file as its tags are read, with the size and modification time it had before. -/
def FolderDisk.readTags (disk : FolderDisk) (newId : Uuid) (filePath : String) :
    Except String LibraryFile := do
  let stat ← disk.stat filePath
  let read ← disk.tags filePath
  pure
    { id := newId
      filePath := filePath
      format := read.format
      enrichmentStatus := .pending
      fileSize := some stat.size
      fileMtimeNs := some stat.mtimeNs
      audioHash := read.audioHash
      audio := read.audio }

section

variable (disk : FolderDisk) (refuses : String → Option String)

def readTagsSafe (ctx : FolderScanContext) (filePath : String) :
    FolderScanContext × Option LibraryFile :=
  match disk.readTags ctx.nextId filePath with
  | .ok file => ({ ctx with nextId := ctx.nextId + 1 }, some file)
  | .error error => (ctx.fail filePath error, none)

/-- Write the file's row; when the database refuses it, quarantine the file. -/
def upsertSafe (ctx : FolderScanContext) (file : LibraryFile) : FolderScanContext × Bool :=
  match refuses file.filePath with
  | some error => (ctx.fail file.filePath error, false)
  | none => ({ ctx with files := upsert ctx.files file }, true)

/-- Write a file that was read, and count it. -/
def writeRead (ctx : FolderScanContext) (file : LibraryFile) : FolderScanContext :=
  match upsertSafe refuses ctx file with
  | (ctx, true) => { ctx with
      result := { ctx.result with filesWritten := ctx.result.filesWritten + 1 } }
  | (ctx, false) => ctx

def rereadAndUpsert (ctx : FolderScanContext) (filePath : String) : FolderScanContext :=
  match readTagsSafe disk ctx filePath with
  | (ctx, none) => ctx
  | (ctx, some file) => writeRead refuses ctx file

/-- A path the database has no row for. A refused row leaves the relocation standing. -/
def indexNewFile (ctx : FolderScanContext) (filePath : String) :
    FolderScanContext × Option String :=
  match readTagsSafe disk ctx filePath with
  | (ctx, none) => (ctx, none)
  | (ctx, some file) =>
    let adopted := adoptRow ctx.files disk.names disk.answer file
    let relocated := if adopted.2.isSome then 1 else 0
    (writeRead refuses { ctx with
      files := adopted.1
      result := { ctx.result with
        filesRelocated := ctx.result.filesRelocated + relocated } } file, adopted.2)

/-- Whether the file's size and modification time are still the row's, if the file can be
looked at. -/
def unchangedOnDisk (ctx : FolderScanContext) (existing : LibraryFile) (filePath : String) :
    FolderScanContext × Option Bool :=
  match disk.stat filePath with
  | .error _ => ({ ctx with result := ctx.result.recordFailure filePath }, none)
  | .ok stat => (ctx, some (existing.statMatches stat))

def restoreReappearedFile (ctx : FolderScanContext) (existing : LibraryFile) (filePath : String) :
    FolderScanContext :=
  match unchangedOnDisk disk ctx existing filePath with
  | (ctx, none) => ctx
  | (ctx, some unchanged) =>
    let ctx :=
      if unchanged then (upsertSafe refuses ctx { existing with fileStatus := .present }).1
      else rereadAndUpsert disk refuses ctx filePath
    { ctx with
      result := { ctx.result with filesReappeared := ctx.result.filesReappeared + 1 } }

def reconcilePresentFile (ctx : FolderScanContext) (existing : LibraryFile) (filePath : String) :
    FolderScanContext :=
  match unchangedOnDisk disk ctx existing filePath with
  | (ctx, none) => ctx
  | (ctx, some unchanged) =>
    if unchanged then
      { ctx with result := { ctx.result with filesSkipped := ctx.result.filesSkipped + 1 } }
    else rereadAndUpsert disk refuses ctx filePath

/-- A file on disk is sent to its scenario by the row there is of it; the path it was moved
from, if it is new and was moved. -/
def visitDiskFile (ctx : FolderScanContext) (filePath : String) (existing : Option LibraryFile) :
    FolderScanContext × Option String :=
  match existing with
  | none => indexNewFile disk refuses ctx filePath
  | some existing =>
    if existing.fileStatus = .missing then
      (restoreReappearedFile disk refuses ctx existing filePath, none)
    else (reconcilePresentFile disk refuses ctx existing filePath, none)

/-- The audio files in the folder: none if it is gone, nothing if it cannot be listed. -/
def listAudioFiles : Option (List String) :=
  if !disk.isDir || !disk.spelledAsOnDisk then some []
  else disk.iterdir.map fun entries =>
    (Dict.ofList ((entries.filter fun entry => entry.isFile && entry.isSupported).map
      fun entry => (entry.filePath, entry))).keys

/-- The next file is visited with its row, which is then no longer one to mark; nor is the
row of the path it was moved from. -/
def visitNext (visit : FolderScanContext × Dict String LibraryFile) (filePath : String) :
    FolderScanContext × Dict String LibraryFile :=
  let (ctx, movedFrom) := visitDiskFile disk refuses visit.1 filePath (visit.2.get? filePath)
  let existing := visit.2.erase filePath
  (ctx, match movedFrom with
    | none => existing
    | some oldPath => existing.erase oldPath)

end

/-- Whether the path is in the folder itself, not in one beneath it. -/
def inFolder (folderPath filePath : String) : Bool :=
  isUnder folderPath filePath &&
    !((filePath.toList.drop (dirPrefix folderPath).1.length).contains (dirPrefix folderPath).2)

def getByFolderPath (files : List LibraryFile) (folderPath : String) : List LibraryFile :=
  files.filter fun row => inFolder folderPath row.filePath

def existingByPath (files : List LibraryFile) (folderPath : String) : Dict String LibraryFile :=
  Dict.ofList ((getByFolderPath files folderPath).map fun row => (row.filePath, row))

def markMissingFile (now : Int) (ctx : FolderScanContext) (existing : LibraryFile) :
    FolderScanContext :=
  if existing.fileStatus = .present then
    { ctx with
      files := markMissing ctx.files now existing.filePath
      result := { ctx.result with filesMissing := ctx.result.filesMissing + 1 } }
  else ctx

/-- Mark the rows that are left as missing. -/
def markMissingFiles (now : Int) (existing : Dict String LibraryFile) (ctx : FolderScanContext) :
    FolderScanContext := existing.values.foldl (markMissingFile now) ctx

/-- Drop the folder's quarantine entries whose file did not fail. -/
def clearQuarantine (disk : FolderDisk) (folderPath : String) (ctx : FolderScanContext) :
    FolderScanContext :=
  let paths := ((ctx.quarantine.map LibraryQuarantine.filePath).filter
    (isUnder folderPath)).dedup
  let resolved := paths.filter fun filePath =>
    disk.parent filePath = folderPath ∧ filePath ∉ ctx.result.failingPaths
  { ctx with
    quarantine := ctx.quarantine.filter fun entry => entry.filePath ∉ resolved
    result := { ctx.result with quarantineCleared := resolved.length } }

def scanFolderIncrementally (disk : FolderDisk) (refuses : String → Option String) (now : Int)
    (folderPath : String) (ctx : FolderScanContext) : FolderScanContext :=
  let ctx := { ctx with result := {} }
  match listAudioFiles disk with
  | none => { ctx with result := { ctx.result with folderUnreadable := true } }
  | some diskFiles =>
    let (ctx, existing) := diskFiles.foldl (visitNext disk refuses)
      (ctx, existingByPath ctx.files folderPath)
    clearQuarantine disk folderPath (markMissingFiles now existing ctx)

end RetroStation.Library
