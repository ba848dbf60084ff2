import Mathlib.Data.List.Dedup
import RetroStation.Database.Tables

/-! # Statements on the library's tables

What the repositories of files, works, recordings, song masters and format
overrides execute, and what the match repository does to rows of a file.
-/

namespace RetroStation

open Library Matching

/-- Whether a row is a song's. -/
def Matching.MatchSubject.isSong : MatchSubject → Bool
  | .identity _ => true
  | .artist _ => false

namespace Database

variable (db : Database)

/-! ## Files -/

def updateWorkId (fileId : Uuid) (workId : Option String) : Database :=
  { db with
    files := Table.update db.files (fun file => file.id = fileId) fun file =>
      { file with workId := workId } }

/-- The files on a work, by id. -/
def getByWork (workId : String) : List LibraryFile :=
  orderById (db.files.filter fun file => file.workId = some workId)

/-- The missing rows, by path. -/
def getMissing : List LibraryFile :=
  (db.files.filter fun file => file.fileStatus = .missing).insertionSort
    fun first second => first.filePath ≤ second.filePath

/-- Whether the row is there and missing. -/
def lockMissing (fileId : Uuid) : Bool :=
  db.files.any fun file => file.id = fileId ∧ file.fileStatus = .missing

/-- Whether the one row is missing and the other on disk. -/
def lockFoldPair (missingId successorId : Uuid) : Bool :=
  db.lockMissing missingId &&
    db.files.any fun file => file.id = successorId ∧ file.fileStatus = .present

def deleteMissing (fileId : Uuid) : Database :=
  { db with
    files := Table.delete db.files fun file => file.id = fileId ∧ file.fileStatus = .missing }

/-- Every reference to a row moves to another, and the row goes. A match that its song
already has on the other row is dropped, and a song that rejected the row has rejected
the one that survives. -/
def foldInto (source target : Uuid) : Database :=
  let hasTarget := fun subject : MatchSubject => db.matchRows.any fun row =>
    row.libraryFileId = some target ∧ row.subject = subject
  { db with
    matchRows := Table.update
      (Table.delete db.matchRows fun row =>
        decide (row.libraryFileId = some source) && row.subject.isSong && hasTarget row.subject)
      (fun row => row.libraryFileId = some source)
      fun row => { row with libraryFileId := some target }
    songMasters := Table.update db.songMasters (fun master => master.preferredFileId = source)
      fun master => { master with preferredFileId := target }
    formatOverrides := Table.update db.formatOverrides
      (fun override => override.preferredFileId = source)
      fun override => { override with preferredFileId := target }
    identities := Table.update db.identities (fun song => source ∈ song.rejectedFileIds)
      fun song => { song with
        rejectedFileIds :=
          (song.rejectedFileIds.map fun id => if id = source then target else id).dedup }
    files := Table.delete db.files fun file => file.id = source }

/-- Whether a match, a master or an override names the row. -/
def namesFile (fileId : Uuid) : Bool :=
  (db.matchRows.any fun row => row.libraryFileId = some fileId) ||
    (db.songMasters.any fun master => master.preferredFileId = fileId) ||
    db.formatOverrides.any fun override => override.preferredFileId = fileId

/-- The foreign keys refuse a reference to a row that is not there. -/
def mergeInto (source target : Uuid) : Option Database :=
  if (getById db.files target).isNone && db.namesFile source then none
  else some (db.foldInto source target)

/-! ## Match rows of a file -/

/-- The file's matches take the work. -/
def moveMatchesToWork (fileId : Uuid) (workId : Option String) : Database :=
  { db with
    matchRows := Table.update db.matchRows (fun row => row.libraryFileId = some fileId)
      fun row => { row with workId := workId } }

/-- The songs that lose a match with the file's rows. -/
def songsOfFile (fileId : Uuid) : List Uuid :=
  db.matchRows.filterMap fun row =>
    if row.libraryFileId = some fileId then
      match row.subject with
      | .identity identityId => some identityId
      | .artist _ => none
    else none

def deleteMatchesForFile (fileId : Uuid) : Database :=
  { db with matchRows := Table.delete db.matchRows fun row => row.libraryFileId = some fileId }

/-! ## Song masters -/

def getMasterByWork (workId : String) : Option SongMaster :=
  db.songMasters.find? fun master => master.workId = workId

/-- Store the work's master over whatever it has, if that `yields`. -/
def storeMaster (yields : SongMaster → Bool) (master : SongMaster) : Database :=
  { db with
    songMasters := if db.songMasters.any (·.workId = master.workId) then
        Table.update db.songMasters (fun old => old.workId = master.workId && yields old)
          fun _ => master
      else db.songMasters ++ [master] }

/-- A manual master stays. -/
def upsertMaster (master : SongMaster) : Database :=
  db.storeMaster (fun old => old.selectionMethod = .auto) master

def replaceMaster (master : SongMaster) : Database := db.storeMaster (fun _ => true) master

def deleteMasterByWork (workId : String) : Database :=
  { db with songMasters := Table.delete db.songMasters fun master => master.workId = workId }

/-- The works whose master is the file. -/
def worksOfMasterFile (fileId : Uuid) : List String :=
  (db.songMasters.filter fun master => master.preferredFileId = fileId).map SongMaster.workId

def deleteMastersForFile (fileId : Uuid) : Database :=
  { db with
    songMasters := Table.delete db.songMasters fun master => master.preferredFileId = fileId }

/-- The works whose automatic master is a missing file though a file of theirs is on disk. -/
def listWorkIdsWithMissingMaster : List String :=
  (db.songMasters.filter fun master =>
    master.selectionMethod = .auto ∧
      (db.files.any fun file => file.id = master.preferredFileId ∧ file.fileStatus = .missing) ∧
      db.files.any fun file =>
        file.workId = some master.workId ∧ file.fileStatus = .present).map SongMaster.workId

/-! ## Format overrides -/

def deleteOverridesForFile (fileId : Uuid) : Database :=
  { db with
    formatOverrides := Table.delete db.formatOverrides
      fun override => override.preferredFileId = fileId }

/-- The file's overrides on one work move to another; one that the other work already
has for the format wins. -/
def moveOverridesToWork (fileId : Uuid) (fromWork toWork : String) : Database :=
  let taken := fun format => db.formatOverrides.any fun override =>
    override.workId = toWork ∧ override.formatName = format
  { db with
    formatOverrides := Table.update
      (Table.delete db.formatOverrides fun override =>
        override.workId = fromWork ∧ override.preferredFileId = fileId ∧ taken override.formatName)
      (fun override => override.workId = fromWork ∧ override.preferredFileId = fileId)
      fun override => { override with workId := toWork } }

/-! ## Works -/

def hasWork (workId : String) : Bool := db.works.any fun work => work.id = workId

/-- Whether a file, a recording, a match or an override names the work. -/
def isReferenced (workId : String) : Bool :=
  (db.files.any fun file => file.workId = some workId) ||
    (db.recordings.any fun recording => recording.workId = some workId) ||
    (db.matchRows.any fun row => row.workId = some workId) ||
    (db.matchRows.any fun row => row.targetType = some .work ∧ row.targetId = some workId) ||
    db.formatOverrides.any fun override => override.workId = workId

/-- Delete a work that nothing but its master names, with that master; whether it went. -/
def deleteIfEmpty (workId : String) : Bool × Database :=
  if db.isReferenced workId then (false, db)
  else (true, { db.deleteMasterByWork workId with
    works := Table.delete db.works fun work => work.id = workId })

/-- A recording gives its files to another and goes. -/
def handOverRecording (source target : String) : Database :=
  { db with
    files := Table.update db.files (fun file => file.recordingId = some source)
      fun file => { file with recordingId := some target }
    recordings := Table.delete db.recordings fun recording => recording.id = source }

def onWorks (sources : List String) (workId : Option String) : Bool :=
  workId.any fun work => work ∈ sources

/-- The recordings of the sources whose version the target has, with the target's. -/
def recordingClashes (target : String) (sources : List String) : List (String × String) :=
  (db.recordings.filter fun recording => onWorks sources recording.workId).flatMap fun source =>
    (db.recordings.filter fun recording => recording.workId = some target ∧
      recording.versionType = source.versionType).map fun kept => (source.id, kept.id)

/-- Of the sources' recordings, the first by id of each version. -/
def recordingKeepers (sources : List String) : List Recording :=
  let recordings := db.recordings.filter fun recording => onWorks sources recording.workId
  recordings.filter fun keeper => recordings.all fun other =>
    other.versionType ≠ keeper.versionType ∨ keeper.id ≤ other.id

/-- A keeper takes its version's other recordings' files and moves to the target. -/
def keepRecording (target : String) (sources : List String) (keeper : Recording) : Database :=
  let dupes := db.recordings.filter fun recording => onWorks sources recording.workId ∧
    recording.versionType = keeper.versionType ∧ recording.id ≠ keeper.id
  let db := dupes.foldl (fun db dupe => db.handOverRecording dupe.id keeper.id) db
  { db with
    recordings := Table.update db.recordings (fun recording => recording.id = keeper.id)
      fun recording => { recording with workId := some target } }

def mergeRecordings (target : String) (sources : List String) : Database :=
  let db := (db.recordingClashes target sources).foldl
    (fun db clash => db.handOverRecording clash.1 clash.2) db
  (db.recordingKeepers sources).foldl (fun db keeper => db.keepRecording target sources keeper) db

/-- Whether another source's override for the format is older. -/
def olderOverride (sources : List String) (override : FormatOverride) : Bool :=
  db.formatOverrides.any fun other => other.workId ∈ sources ∧
    other.formatName = override.formatName ∧
    (other.createdAt < override.createdAt ∨
      other.createdAt = override.createdAt ∧ other.id < override.id)

/-- The target's override wins a format; between sources the oldest does. -/
def mergeFormatOverrides (target : String) (sources : List String) : Database :=
  { db with
    formatOverrides := Table.update
      (Table.delete db.formatOverrides fun override => override.workId ∈ sources ∧
        ((db.formatOverrides.any fun kept =>
          kept.workId = target ∧ kept.formatName = override.formatName) ∨
          db.olderOverride sources override))
      (fun override => override.workId ∈ sources)
      fun override => { override with workId := target } }

/-- Fold works into one: every reference moves to the target, and the sources go with
their masters. -/
def mergeWorksInto (target : String) (sourceIds : List String) : Database :=
  let sources := (db.works.map Work.id).filter fun id => id ∈ sourceIds ∧ id ≠ target
  if sources = [] then db
  else
    let db := db.mergeRecordings target sources
    let db := { db with
      files := Table.update db.files (fun file => onWorks sources file.workId)
        fun file => { file with workId := some target }
      matchRows := Table.update
        (Table.update db.matchRows (fun row => onWorks sources row.workId)
          fun row => { row with workId := some target })
        (fun row => decide (row.targetType = some TargetType.work) && onWorks sources row.targetId)
        fun row => { row with targetId := some target } }
    let db := db.mergeFormatOverrides target sources
    { db with
      songMasters := Table.delete db.songMasters fun master => master.workId ∈ sources
      works := Table.delete db.works fun work => work.id ∈ sources }

end Database

end RetroStation

/-! ## Statements on recordings

What the repositories of recordings, works and artists execute for enrichment. A work has
one recording of each version: the unique index refuses a second, whatever the statement.
-/

namespace RetroStation.Database

open Library Matching

variable (db : Database)

def getRecording (recordingId : String) : Option Recording :=
  db.recordings.find? fun recording => recording.id = recordingId

/-- Whether another recording has the version on the work. A recording on no work clashes
with none. -/
def slotTaken (recordingId : String) (workId : Option String) (version : VersionType) : Bool :=
  workId.isSome && db.recordings.any fun other =>
    other.workId = workId ∧ other.versionType = version ∧ other.id ≠ recordingId

/-- What a conflict on the id changes of the stored row: its title and version, and its work
if there is a new one. -/
def onConflict (recording stored : Recording) : Recording :=
  { stored with
    title := recording.title
    workId := recording.workId.or stored.workId
    versionType := recording.versionType }

/-- The row that an upsert leaves. -/
def upsertedRow (recording : Recording) : Recording :=
  match db.getRecording recording.id with
  | some stored => onConflict recording stored
  | none => recording

/-- Insert a recording, or change the one with its id. `none` is a row that the unique index
on the work and version refuses. -/
def upsertRecording (recording : Recording) : Option Database :=
  let row := db.upsertedRow recording
  if db.slotTaken recording.id row.workId row.versionType then none
  else some { db with
    recordings :=
      if (db.getRecording recording.id).isSome then
        Table.update db.recordings (fun stored => stored.id = recording.id) (onConflict recording)
      else db.recordings ++ [recording] }

def updateDuration (recordingId : String) (durationMs : Int) : Database :=
  { db with
    recordings := Table.update db.recordings (fun recording => recording.id = recordingId)
      fun recording => { recording with durationMs := some durationMs } }

/-- Change the version where its slot is free; whether it was. -/
def updateVersionType (recordingId : String) (version : VersionType) : Bool × Database :=
  let free := fun recording : Recording => decide (recording.id = recordingId) &&
    !db.slotTaken recordingId recording.workId version
  (db.recordings.any free, { db with
    recordings := Table.update db.recordings free
      fun recording => { recording with versionType := version } })

/-- Put the recording on the work where its version's slot is free; whether it was. -/
def linkWork (recordingId workId : String) : Bool × Database :=
  let free := fun recording : Recording => decide (recording.id = recordingId) &&
    !db.slotTaken recordingId (some workId) recording.versionType
  (db.recordings.any free, { db with
    recordings := Table.update db.recordings free
      fun recording => { recording with workId := some workId } })

def updateRecordingLink (fileId : Uuid) (recordingId : Option String)
    (status : EnrichmentStatus) : Database :=
  { db with
    files := Table.update db.files (fun file => file.id = fileId) fun file =>
      { file with recordingId := recordingId, enrichmentStatus := status } }

def getByRecording (recordingId : String) : List LibraryFile :=
  db.files.filter fun file => file.recordingId = some recordingId

/-- The work with the MBID, stored under `newId` if there is none. -/
def upsertWorkFromMb (mbid title artistId newId : String) : String × Database :=
  match db.works.find? fun work => work.mbid = some mbid with
  | some work => (work.id, db)
  | none => (newId, { db with
      works := db.works ++ [{ id := newId, title, artistId, mbid := some mbid }] })

/-- The artist with the MBID, or else of the name; one that has another MBID keeps it. -/
def upsertMusicbrainzArtist (mbid normalizedName newId : String) : String × Database :=
  match db.catalog.find? fun artist => artist.mbid = some mbid with
  | some artist => (artist.id, db)
  | none =>
    match db.catalog.find? fun artist => artist.normalizedName = some normalizedName with
    | some artist =>
      if artist.mbid.isSome then (artist.id, db)
      else (artist.id, { db with
        catalog := Table.update db.catalog (fun other => other.id = artist.id) fun other =>
          { other with mbid := some mbid } })
    | none => (newId, { db with
        catalog := db.catalog ++ [{ id := newId, mbid := some mbid, normalizedName }] })

end RetroStation.Database
