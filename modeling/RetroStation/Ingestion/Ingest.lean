import RetroStation.Ingestion.HeaderCheck
import RetroStation.Table.Upsert

/-! # Ingesting a playlist

Each valid row of a CSV text becomes a play of a song of an artist on a day. What one row has
looked up, the next ones remember. The caller is told how far the rows are, each hundred and at
the end.
-/

namespace RetroStation.Ingestion

abbrev Uuid := Nat

/-- Seconds from an epoch at midnight. -/
abbrev Moment := Int

abbrev Day := Int

def Moment.date (at_ : Moment) : Day := at_ / 86400

structure BroadcastPlaylist where
  id : Uuid
  name : String
  contentHash : String
  stationId : Option Uuid
  deriving DecidableEq, Repr

structure BroadcastArtist where
  id : Uuid
  originalName : String
  normalizedName : String
  deriving DecidableEq, Repr

structure BroadcastTrackIdentity where
  id : Uuid
  broadcastArtistId : Uuid
  originalTitle : String
  normalizedTitle : String
  normalizedSignature : String
  deriving DecidableEq, Repr

structure BroadcastDay where
  id : Uuid
  stationId : Uuid
  broadcastDate : Day
  deriving DecidableEq, Repr

structure BroadcastPlayEvent where
  id : Uuid
  identityId : Uuid
  playlistId : Uuid
  playedAt : Moment
  broadcastDayId : Option Uuid
  deriving DecidableEq, Repr

def BroadcastDay.key (day : BroadcastDay) : Uuid × Day := (day.stationId, day.broadcastDate)

def BroadcastPlayEvent.key (event : BroadcastPlayEvent) : Uuid × Uuid × Moment :=
  (event.identityId, event.playlistId, event.playedAt)

/-- The tables that an ingest writes. -/
structure Store where
  playlists : List BroadcastPlaylist := []
  artists : List BroadcastArtist := []
  identities : List BroadcastTrackIdentity := []
  days : List BroadcastDay := []
  events : List BroadcastPlayEvent := []
  deriving DecidableEq, Repr

/-- How a row is read: its names, their signature and its time. -/
structure Reading where
  normalizeArtist : String → String
  normalizeTitle : String → String
  signature : String → String → String
  strptime : String → Option Moment

/-- What chardet takes the bytes of a file for. -/
structure Detection where
  encoding : Option String := none
  /-- Its confidence is 0.7 or more. -/
  confident : Bool := false

/-- A file: what its bytes say in each encoding, the hash of its bytes and its name. -/
structure Upload where
  decode : String → Option String
  detected : Detection := {}
  contentHash : String
  fileName : String

inductive IngestError
  | csvDecode
  | csvSchema (message : String)
  | duplicatePlaylist (playlistId : Uuid)
  | csv (error : CsvError)
  | badTime (text : String)
  deriving DecidableEq

/-! ## Decoding -/

def byteOrderMark : Char := '\ufeff'

/-- The text of a file: as UTF-8, or else in the encoding that was detected. -/
def decodeCsvBytes (upload : Upload) : Except IngestError String :=
  match upload.decode "utf-8-sig", upload.decode "utf-8" with
  | some text, _ => .ok text
  | none, some text => .ok text
  | none, none =>
    let detectedEncoding := (upload.detected.encoding.getD "").toLower
    if detectedEncoding ≠ "" ∧ detectedEncoding ≠ "ascii" ∧ upload.detected.confident then
      match upload.decode detectedEncoding with
      | some text => .ok (String.ofList (text.toList.dropWhile (· = byteOrderMark)))
      | none => .error .csvDecode
    else .error .csvDecode

/-! ## A reader that fails -/

/-- Why the reader stops before the end of some lines. -/
def readFailure (parser : Parser) : List (List Char) → Option CsvError
  | [] => none
  | line :: rest =>
    match parser.processLine line with
    | .error error => some error
    | .ok parser =>
      if parser.state = .startRecord then readFailure {} rest else readFailure parser rest

def csvFailure (text : String) : Option CsvError := readFailure {} (splitLines text.toList)

/-- The header of a text is read and checked. -/
def checkHeader (text : String) : Except IngestError Unit :=
  match fieldnames text, csvFailure text with
  | none, some error => .error (.csv error)
  | names, _ => (validateHeader names).mapError .csvSchema

/-- The rows of a text by the names of its header. -/
def rawRows (text : String) : List (Dict (Option String) CsvValue) :=
  (csvRows text).map (dictRow ((fieldnames text).getD []))

/-- The valid rows of a file, once its header is accepted. -/
def countCsvRows (upload : Upload) : Except IngestError Nat :=
  match decodeCsvBytes upload with
  | .error error => .error error
  | .ok text =>
    match checkHeader text, csvFailure text with
    | .error error, _ => .error error
    | .ok (), some error => .error (.csv error)
    | .ok (), none => .ok ((rawRows text).countP fun row => (extractIngestibleRow row).isOk)

/-! ## Results -/

structure IngestionResult where
  playlistId : Option Uuid := none
  rowsProcessed : Nat := 0
  rowsSkipped : Nat := 0
  artistsCreated : Nat := 0
  identitiesCreated : Nat := 0
  eventsCreated : Nat := 0
  broadcastDaysCreated : Nat := 0
  skipReasons : Dict SkipReason Nat := Dict.empty

/-- A statement of an ingest. -/
inductive Statement
  | upsertArtist (normalizedName : String)
  | upsertIdentity (normalizedSignature : String)
  | getOrCreateDay (date : Day)
  | createEvent (event : BroadcastPlayEvent)
  deriving DecidableEq, Repr

/-- An ingest under way: the tables, how many identifiers were drawn, what is remembered, the
counts, what the caller was told and the statements made. -/
structure Ingest where
  store : Store
  drawn : Nat
  seenArtists : Dict String BroadcastArtist := Dict.empty
  seenSignatures : Dict String BroadcastTrackIdentity := Dict.empty
  seenBroadcastDates : Dict Day BroadcastDay := Dict.empty
  result : IngestionResult
  reported : List Nat := []
  statements : List Statement := []

def PROGRESS_REPORT_INTERVAL : Nat := 100

section

variable (newId : Nat → Uuid) (reading : Reading)

/-- The artist of a row, inserted if its name is new. -/
def findArtist (rawArtist normArtist : String) (ingest : Ingest) : BroadcastArtist × Ingest :=
  match ingest.seenArtists.get? normArtist with
  | some artist => (artist, ingest)
  | none =>
    let inputId := newId ingest.drawn
    let (stored, artists) := Upsert.upsert BroadcastArtist.normalizedName ingest.store.artists
      ⟨inputId, rawArtist, normArtist⟩
    (stored, { ingest with
      store := { ingest.store with artists }
      drawn := ingest.drawn + 1
      seenArtists := ingest.seenArtists.set normArtist stored
      result := { ingest.result with
        artistsCreated := ingest.result.artistsCreated + if stored.id = inputId then 1 else 0 }
      statements := ingest.statements ++ [.upsertArtist normArtist] })

/-- The song of a row, inserted if its signature is new. -/
def findIdentity (artist : BroadcastArtist) (rawTitle normTitle signature : String)
    (ingest : Ingest) : BroadcastTrackIdentity × Ingest :=
  match ingest.seenSignatures.get? signature with
  | some identity => (identity, ingest)
  | none =>
    let identityInputId := newId ingest.drawn
    let (identity, identities) := Upsert.upsert BroadcastTrackIdentity.normalizedSignature
      ingest.store.identities ⟨identityInputId, artist.id, rawTitle, normTitle, signature⟩
    (identity, { ingest with
      store := { ingest.store with identities }
      drawn := ingest.drawn + 1
      seenSignatures := ingest.seenSignatures.set signature identity
      result := { ingest.result with
        identitiesCreated := ingest.result.identitiesCreated +
          if identity.id = identityInputId then 1 else 0 }
      statements := ingest.statements ++ [.upsertIdentity signature] })

/-- The station's day, inserted if it is new. -/
def findDay (stationId : Option Uuid) (date : Day) (ingest : Ingest) :
    Option BroadcastDay × Ingest :=
  match ingest.seenBroadcastDates.get? date, stationId with
  | some day, _ => (some day, ingest)
  | none, none => (none, ingest)
  | none, some stationId =>
    let (day, days) := Upsert.upsert BroadcastDay.key ingest.store.days
      ⟨newId ingest.drawn, stationId, date⟩
    (some day, { ingest with
      store := { ingest.store with days }
      drawn := ingest.drawn + 1
      seenBroadcastDates := ingest.seenBroadcastDates.set date day
      result := { ingest.result with
        broadcastDaysCreated := ingest.result.broadcastDaysCreated + 1 }
      statements := ingest.statements ++ [.getOrCreateDay date] })

/-- The play of a row; one that is there stays. -/
def createEvent (playlistId : Uuid) (identity : BroadcastTrackIdentity) (playedAt : Moment)
    (day : Option BroadcastDay) (ingest : Ingest) : Ingest :=
  let event : BroadcastPlayEvent :=
    ⟨newId ingest.drawn, identity.id, playlistId, playedAt, day.map BroadcastDay.id⟩
  { ingest with
    store := { ingest.store with
      events := (Upsert.upsert BroadcastPlayEvent.key ingest.store.events event).2 }
    drawn := ingest.drawn + 1
    result := { ingest.result with
      eventsCreated := ingest.result.eventsCreated + 1
      rowsProcessed := ingest.result.rowsProcessed + 1 }
    statements := ingest.statements ++ [.createEvent event] }

/-- Tell the caller how far the rows are. -/
def report (count : Nat) (ingest : Ingest) : Ingest :=
  { ingest with reported := ingest.reported ++ [count] }

/-- A row's column, which a valid row has. -/
def column (row : Dict String String) (name : String) : String := (row.get? name).getD ""

def ingestRow (stationId : Option Uuid) (playlistId : Uuid) (row : Dict String String)
    (ingest : Ingest) : Except IngestError Ingest :=
  match reading.strptime (column row "Played") with
  | none => .error (.badTime (column row "Played"))
  | some playedAt =>
    let normArtist := reading.normalizeArtist (column row "Artist")
    let normTitle := reading.normalizeTitle (column row "Title")
    let signature := reading.signature normArtist normTitle
    let (artist, ingest) := findArtist newId (column row "Artist") normArtist ingest
    let (identity, ingest) :=
      findIdentity newId artist (column row "Title") normTitle signature ingest
    let (day, ingest) := findDay newId stationId playedAt.date ingest
    let ingest := createEvent newId playlistId identity playedAt day ingest
    .ok (if ingest.result.rowsProcessed % PROGRESS_REPORT_INTERVAL = 0 then
      report ingest.result.rowsProcessed ingest else ingest)

def skipRow (reason : SkipReason) (ingest : Ingest) : Ingest :=
  { ingest with result := { ingest.result with
      rowsSkipped := ingest.result.rowsSkipped + 1
      skipReasons := ingest.result.skipReasons.set reason
        ((ingest.result.skipReasons.get? reason).getD 0 + 1) } }

def ingestRawRow (stationId : Option Uuid) (playlistId : Uuid) (ingest : Ingest)
    (rawRow : Dict (Option String) CsvValue) : Except IngestError Ingest :=
  match extractIngestibleRow rawRow with
  | .error reason => .ok (skipRow reason ingest)
  | .ok row => ingestRow newId reading stationId playlistId row ingest

/-- The end of a path. -/
def basename (path : String) : String :=
  String.ofList ((path.toList.splitOn '/').getLast?.getD [])

/-- The ingest of an accepted text, once its playlist is there. -/
def ingestRows (text : String) (stationId : Option Uuid) (playlistId : Uuid) (ingest : Ingest) :
    Except IngestError Ingest :=
  match (rawRows text).foldlM (ingestRawRow newId reading stationId playlistId)
      (report 0 ingest) with
  | .error error => .error error
  | .ok ingest =>
    match csvFailure text with
    | some error => .error (.csv error)
    | none =>
      .ok (if ingest.result.rowsProcessed % PROGRESS_REPORT_INTERVAL = 0 then ingest
        else report ingest.result.rowsProcessed ingest)

/-- One ingest; if it raises, its transaction is rolled back. -/
def ingestCsv (upload : Upload) (stationId : Option Uuid) (store : Store) :
    Except IngestError Ingest :=
  match decodeCsvBytes upload with
  | .error error => .error error
  | .ok text =>
    match checkHeader text with
    | .error error => .error error
    | .ok () =>
      match store.playlists.find? fun playlist => playlist.contentHash = upload.contentHash with
      | some existing => .error (.duplicatePlaylist existing.id)
      | none =>
        let playlist : BroadcastPlaylist :=
          ⟨newId 0, basename upload.fileName, upload.contentHash, stationId⟩
        ingestRows newId reading text stationId playlist.id {
          store := { store with playlists := store.playlists ++ [playlist] }
          drawn := 1
          result := { playlistId := some playlist.id } }

end
end RetroStation.Ingestion
