import RetroStation.Curation.Masters

/-! # MusicBrainz payloads and the passes over them

What a search or a lookup answers with. Any key of a payload may be absent.
-/

namespace RetroStation.Enrichment

open Library

structure MbArtistRef where
  id : Option String := none
  name : Option String := none
  sortName : Option String := none
  deriving DecidableEq, Repr

structure MbArtistCredit where
  artist : Option MbArtistRef := none
  deriving DecidableEq, Repr

structure MbWorkRef where
  id : Option String := none
  title : Option String := none
  deriving DecidableEq, Repr

structure MbRelation where
  type : Option String := none
  attributes : List String := []
  work : Option MbWorkRef := none
  deriving DecidableEq, Repr

structure MbReleaseRef where
  id : Option String := none
  deriving DecidableEq, Repr

structure MbRecording where
  id : Option String := none
  title : Option String := none
  length : Option Int := none
  disambiguation : Option String := none
  relations : List MbRelation := []
  artistCredit : List MbArtistCredit := []
  releases : List MbReleaseRef := []
  deriving DecidableEq, Repr

structure MbTrack where
  recording : Option MbRecording := none
  deriving DecidableEq, Repr

structure MbMedia where
  tracks : List MbTrack := []
  deriving DecidableEq, Repr

structure MbRelease where
  artistCredit : List MbArtistCredit := []
  media : List MbMedia := []
  deriving DecidableEq, Repr

/-- What MusicBrainz answers; a lookup that finds nothing answers none. -/
structure MbClient where
  lookupRelease : String → Option MbRelease
  lookupRecording : String → Option MbRecording
  searchRecordingsByMbids : List String → String → Option MbRecording

/-- How the host reads texts: the word "live", the version that a title names, an artist's
normalized name, and what is a MusicBrainz identifier. -/
structure TextReader where
  saysLive : String → Bool
  versionOfTitle : String → VersionType
  normalizeArtist : String → String
  isMbid : String → Bool

/-- (MBID, name, sort name) of the first usable entry of an artist credit. -/
def extractArtistFromCredits (credits : List MbArtistCredit) : Option (String × String × String) :=
  credits.findSome? fun credit => do
    let artist ← credit.artist
    let mbid ← truthy artist.id
    let name ← truthy artist.name
    return (mbid, name, (truthy artist.sortName).getD name)

/-- (MBID, title) of the work of the first usable performance relation. -/
def extractWorkFromRelations (relations : List MbRelation) : Option (String × String) :=
  relations.findSome? fun relation =>
    if relation.type = some "performance" then do
      let work ← relation.work
      let mbid ← truthy work.id
      let title ← truthy work.title
      return (mbid, title)
    else none

def performedWorkOf (data : MbRecording) : Option (String × String) :=
  extractWorkFromRelations data.relations

section

variable (reader : TextReader)

/-- A "live" attribute on a performance relation, which only lookups carry, or "live" in the
disambiguation, which searches carry too. -/
def musicbrainzMarksLive (data : MbRecording) : Bool :=
  (data.relations.any fun relation =>
    relation.type = some "performance" ∧ "live" ∈ relation.attributes) ||
    reader.saysLive (data.disambiguation.getD "")

def recordingVersionType (data : MbRecording) : VersionType :=
  if musicbrainzMarksLive reader data then .live
  else reader.versionOfTitle (data.title.getD "")

/-- The recordings on a release, by identifier; a later track's wins. -/
def buildRecordingMap (release : MbRelease) : Dict String MbRecording :=
  ((release.media.flatMap MbMedia.tracks).filterMap MbTrack.recording).foldl
    (fun map data =>
      match truthy data.id with
      | some mbid => map.set mbid data
      | none => map)
    Dict.empty

/-- The identifier under which a tagged recording is on the release: its own, or that of the
recording MusicBrainz has merged it into. -/
def resolveTrackRecording (client : MbClient) (recMbid : String)
    (recordingMap : Dict String MbRecording) : Option String :=
  if recMbid ∈ recordingMap.keys then some recMbid
  else if reader.isMbid recMbid then do
    let survivor ← client.lookupRecording recMbid
    let survivorId ← truthy survivor.id
    if survivorId ≠ recMbid ∧ survivorId ∈ recordingMap.keys then some survivorId else none
  else none

end

end RetroStation.Enrichment

/-! ## Enrichment

Files are linked to the recordings that MusicBrainz knows, one search for a batch of files,
one lookup for a release, or one for a recording; a recording looked up again takes the length,
the live version and the work that the lookup adds. `none` is a call that the database refuses.
-/

namespace RetroStation.Enrichment

open Library Curation

/-- What enrichment reads texts with, and the identifiers it gives to new rows. -/
structure EnrichmentConfig extends TextReader where
  newId : Database → String

variable (config : EnrichmentConfig) (client : MbClient)

/-- The artist of the first usable entry of a credit. -/
def upsertArtistFromCredits (db : Database) (credits : List MbArtistCredit) :
    Option String × Database :=
  match extractArtistFromCredits credits with
  | some (mbid, name, _) =>
    let (artistId, db) := db.upsertMusicbrainzArtist mbid (config.normalizeArtist name)
      (config.newId db)
    (some artistId, db)
  | none => (none, db)

/-- The work of an (MBID, title), if it and the artist are known. -/
def upsertWork (db : Database) (work : Option (String × String)) (artistId : Option String) :
    Option String × Database :=
  match work, artistId with
  | some (mbid, title), some artistId =>
    let (workId, db) := db.upsertWorkFromMb mbid title artistId (config.newId db)
    (some workId, db)
  | _, _ => (none, db)

/-- The recording that a payload describes, on the work if there is one. -/
def recordingOf (recMbid : String) (data : MbRecording) (workId : Option String) : Recording where
  id := recMbid
  title := data.title.getD ""
  workId := workId
  durationMs := data.length
  versionType := recordingVersionType config.toTextReader data

/-- Store the work that the payload performs, then the recording on it. -/
def upsertRecordingWithWork (db : Database) (recMbid : String) (data : MbRecording)
    (artistId : Option String) : Option (Option String × Database) :=
  let (workId, db) := upsertWork config db (extractWorkFromRelations data.relations) artistId
  (db.upsertRecording (recordingOf config recMbid data workId)).map (workId, ·)

def markFilesFailed (db : Database) (pendingFiles : List LibraryFile) : Database :=
  pendingFiles.foldl (fun db file => db.updateRecordingLink file.id none .failed) db

def linkFileToRecording (db : Database) (file : LibraryFile) (recMbid : String) : Database :=
  db.updateRecordingLink file.id (some recMbid) .enriched

/-- Link a file to its recording, and move it onto the work that the recording performs. -/
def linkAndMove (db : Database) (file : LibraryFile) (recMbid : String)
    (workId : Option String) : Option Database :=
  let db := linkFileToRecording db file recMbid
  match workId with
  | some workId => moveFileToWork db file workId
  | none => some db

/-! ## The pass over releases -/

/-- What one release lookup resolved. -/
structure ReleaseLookup where
  recordingMap : Dict String MbRecording
  artistId : Option String

/-- The recording a file is tagged with, as the release lists it. -/
def resolvedRecording (release : ReleaseLookup) (file : LibraryFile) :
    Option (String × MbRecording) := do
  let recMbid ← truthy file.audio.recordingMbid
  let resolved ← resolveTrackRecording config.toTextReader client recMbid release.recordingMap
  let data ← release.recordingMap.get? resolved
  return (resolved, data)

/-- Enrich one pending file against a release; whether it was enriched. -/
def enrichOneFile (release : ReleaseLookup) (db : Database) (file : LibraryFile) :
    Option (Bool × Database) :=
  match resolvedRecording config client release file with
  | none => some (false, db.updateRecordingLink file.id none .failed)
  | some (recMbid, data) => do
    let (workId, db) ← upsertRecordingWithWork config db recMbid data release.artistId
    let db ← linkAndMove db file recMbid workId
    return (true, db)

def enrichFilesOnRelease (release : ReleaseLookup) (db : Database) :
    List LibraryFile → Option (Nat × Database)
  | [] => some (0, db)
  | file :: rest => do
    let (enriched, db) ← enrichOneFile config client release db file
    let (count, db) ← enrichFilesOnRelease release db rest
    return (count + enriched.toNat, db)

def getPendingByRelease (db : Database) (releaseMbid : String) : List LibraryFile :=
  db.files.filter fun file =>
    file.audio.releaseMbid = some releaseMbid ∧ file.enrichmentStatus = .pending

/-- Enrich the pending files of a release from one lookup. -/
def enrichByRelease (db : Database) (releaseMbid : String) : Option (Nat × Database) :=
  let pendingFiles := getPendingByRelease db releaseMbid
  if pendingFiles = [] then some (0, db)
  else if !config.isMbid releaseMbid then some (0, markFilesFailed db pendingFiles)
  else match client.lookupRelease releaseMbid with
  | none => some (0, markFilesFailed db pendingFiles)
  | some data =>
    let (artistId, db) := upsertArtistFromCredits config db data.artistCredit
    enrichFilesOnRelease config client { recordingMap := buildRecordingMap data, artistId } db
      pendingFiles

/-! ## The pass over recordings -/

def linkFilesToRecording (db : Database) (recMbid : String) (workId : Option String) :
    List LibraryFile → Option Database
  | [] => some db
  | file :: rest => (linkAndMove db file recMbid workId).bind fun db =>
    linkFilesToRecording db recMbid workId rest

/-- Link files to one recording from its lookup. -/
def enrichFilesByRecording (db : Database) (recMbid : String) (pendingFiles : List LibraryFile) :
    Option (Nat × Database) :=
  if !config.isMbid recMbid then some (0, markFilesFailed db pendingFiles)
  else match client.lookupRecording recMbid with
  | none => some (0, markFilesFailed db pendingFiles)
  | some data => do
    let (artistId, db) := upsertArtistFromCredits config db data.artistCredit
    let (workId, db) ← upsertRecordingWithWork config db recMbid data artistId
    let db ← linkFilesToRecording db recMbid workId pendingFiles
    return (pendingFiles.length, db)

/-! ## The batched pass -/

structure BatchEnrichment where
  enriched : Nat
  unresolved : List LibraryFile

/-- The recording of a file among the found ones, if it lists the file's release. -/
def foundRecording (found : String → Option MbRecording) (file : LibraryFile) :
    Option (String × MbRecording) := do
  let recMbid ← truthy file.audio.recordingMbid
  let data ← found recMbid
  if file.audio.releaseMbid.all fun releaseMbid =>
      data.releases.any fun release => release.id = some releaseMbid then
    some (recMbid, data)
  else none

def enrichFoundFiles (found : String → Option MbRecording) (db : Database) :
    List LibraryFile → Option (BatchEnrichment × Database)
  | [] => some (⟨0, []⟩, db)
  | file :: rest =>
    match foundRecording found file with
    | none => (enrichFoundFiles found db rest).map fun (batch, db) =>
        ({ batch with unresolved := file :: batch.unresolved }, db)
    | some (recMbid, data) => do
      let (_, db) := upsertArtistFromCredits config db data.artistCredit
      let db ← db.upsertRecording (recordingOf config recMbid data none)
      let (batch, db) ← enrichFoundFiles found (linkFileToRecording db file recMbid) rest
      return ({ batch with enriched := batch.enriched + 1 }, db)

/-- The recordings that the files are tagged with, each asked for once. -/
def searchedMbids (pendingFiles : List LibraryFile) : List String :=
  (pendingFiles.filterMap fun file => truthy file.audio.recordingMbid).eraseDups

/-- Link pending files from one recording search; the rest is left as it is. -/
def enrichByRecordingBatch (db : Database) (pendingFiles : List LibraryFile) :
    Option (BatchEnrichment × Database) :=
  let tagged := fun file : LibraryFile => (truthy file.audio.recordingMbid).isSome
  let found := client.searchRecordingsByMbids (searchedMbids pendingFiles)
  (enrichFoundFiles config found db (pendingFiles.filter tagged)).map fun (batch, db) =>
    ({ batch with
      unresolved := (pendingFiles.filter fun file => !tagged file) ++ batch.unresolved }, db)

/-! ## A recording looked up -/

/-- What one recording lookup changed about the stored recording. -/
structure RecordingLookupApplied where
  workId : Option String
  recordingLinked : Bool
  filesMoved : Nat
  markedLive : Bool
  durationSet : Bool
  deriving DecidableEq, Repr

/-- Move the files that are not on the work; how many there were. -/
def moveFilesToWork (db : Database) (workId : String) :
    List LibraryFile → Option (Nat × Database)
  | [] => some (0, db)
  | file :: rest =>
    if file.workId = some workId then moveFilesToWork db workId rest
    else do
      let db ← moveFileToWork db file workId
      let (count, db) ← moveFilesToWork db workId rest
      return (count + 1, db)

/-- The length of a lookup, where the recording has none. -/
def applyDuration (db : Database) (recording : Recording) (data : MbRecording) :
    Bool × Database :=
  match recording.durationMs, data.length with
  | none, some length => (true, db.updateDuration recording.id length)
  | _, _ => (false, db)

/-- The live version, where the lookup says so and its slot is free. -/
def applyLive (db : Database) (recording : Recording) (data : MbRecording) : Bool × Database :=
  if recording.versionType ≠ .live ∧ recordingVersionType config.toTextReader data = .live then
    db.updateVersionType recording.id .live
  else (false, db)

/-- The work that the lookup names, stored under its track artist. -/
def upsertPerformedWork (db : Database) (data : MbRecording) : Option String × Database :=
  match performedWorkOf data with
  | none => (none, db)
  | some work =>
    let (artistId, db) := upsertArtistFromCredits config db data.artistCredit
    upsertWork config db (some work) artistId

/-- Write what a lookup carries beyond the title: the length, the live version and the work,
with the files of the recording. -/
def applyRecordingLookup (db : Database) (recording : Recording) (data : MbRecording) :
    Option (RecordingLookupApplied × Database) := do
  let (durationSet, db) := applyDuration db recording data
  let (markedLive, db) := applyLive config db recording data
  match upsertPerformedWork config db data with
  | (none, db) => return (⟨none, false, 0, markedLive, durationSet⟩, db)
  | (some workId, db) =>
    let (recordingLinked, db) :=
      if recording.workId = some workId then (false, db) else db.linkWork recording.id workId
    let (filesMoved, db) ← moveFilesToWork db workId (db.getByRecording recording.id)
    return (⟨some workId, recordingLinked, filesMoved, markedLive, durationSet⟩, db)

end RetroStation.Enrichment
