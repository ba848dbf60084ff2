import RetroStation.Database.Decisions
import RetroStation.Matching.Playlist

/-! # Artist matching runs and decisions

A run resolves the playlist's pending artists and writes each result where the artist
is still pending; the songs of rejected and deferred artists follow. What each result
is stands outside.
-/

namespace RetroStation.Matching

open Library

/-- What a strategy decides for an artist: a match, or a review. -/
structure ArtistMatchResult where
  status : MatchStatus
  tier : MatchTier
  confidenceScore : Rat
  targetId : String
  reasonCode : Option ReasonCode := none
  reasonDetail : Option String := none
  decided : status = .autoMatched ∨ status = .needsReview

def ArtistMatchResult.decision (result : ArtistMatchResult) : Database.ArtistDecision where
  status := result.status
  reasonCode := result.reasonCode
  reasonDetail := result.reasonDetail

/-- Write one result; whether it was written. An artist decided meanwhile keeps its
decision, and `none` is a row that the database refuses. -/
def persistArtistResult (db : Database) (artistId : Uuid) (result : ArtistMatchResult) :
    Option (Bool × Database) :=
  match db.updateArtistStatusIfPending artistId result.decision with
  | (false, db) => some (false, db)
  | (true, db) =>
    if result.status ≠ .autoMatched then some (true, db)
    else (db.createArtistRow artistId result.targetId result.confidenceScore result.tier).map
      (true, ·)

/-- Write the results one by one; the artists written. -/
def persistArtistResults (results : BroadcastArtist → ArtistMatchResult) (db : Database) :
    List BroadcastArtist → Option (List BroadcastArtist × Database)
  | [] => some ([], db)
  | artist :: rest =>
    (persistArtistResult db artist.id (results artist)).bind fun (written, db) =>
      (persistArtistResults results db rest).map fun (others, db) =>
        (if written then artist :: others else others, db)

/-- The songs of the playlist's rejected artists are rejected. -/
def cascadeAutoRejected (db : Database) (playlistId : Uuid) : Database :=
  ((db.getAllArtistsForPlaylist playlistId).filter fun artist =>
    artist.matchStatus = .autoRejected).foldl (fun db artist => db.bulkRejectByArtist artist.id) db

/-- The songs of artists that this run deferred are deferred. -/
def cascadeDeferred (results : BroadcastArtist → ArtistMatchResult) (db : Database)
    (written : List BroadcastArtist) : Database :=
  (written.filter fun artist => (results artist).reasonCode = some .deferredRetry).foldl
    (fun db artist => db.bulkDeferByArtist artist.id) db

def matchArtistsForPlaylist (results : BroadcastArtist → ArtistMatchResult) (db : Database)
    (playlistId : Uuid) : Option (List BroadcastArtist × Database) :=
  (persistArtistResults results db (db.getPendingArtistsForPlaylist playlistId)).map
    fun (written, db) => (written,
      cascadeDeferred results (cascadeAutoRejected db playlistId) written)

/-- Give the playlist's deferred artists another pass, then match. `none` is a run that
raised, whose transaction rolls back. -/
def artistMatchingTask (results : BroadcastArtist → ArtistMatchResult) (db : Database)
    (playlistId : Uuid) : Option (List BroadcastArtist × Database) :=
  let deferred := ((db.getAllArtistsForPlaylist playlistId).filter fun artist =>
    artist.matchStatus = .needsReview ∧ artist.reasonCode = some .deferredRetry).map
      BroadcastArtist.id
  matchArtistsForPlaylist results
    ((db.resetDeferredByIds deferred).resetDeferredByArtistIds deferred) playlistId

end RetroStation.Matching

/-! ## Decisions of users and re-checks

A user resolves, rejects and unmatches songs and artists; a re-check returns the
undecided ones to pending. Each is one transaction; `none` is a request refused.
-/

namespace RetroStation.Matching

open Library

/-- Songs an artist link sends back to pending. -/
def ARTIST_LINK_REWIND_STATUSES : List MatchStatus := .pending :: SONG_UNDECIDED_STATUSES

/-- Statuses that remain when an artist is rejected. -/
def PROTECTED_STATUSES : List MatchStatus := [.manualMatched, .manualRejected]

def UNMATCHABLE_STATUSES : List MatchStatus :=
  [.autoMatched, .manualMatched, .autoRejected, .manualRejected]

def MATCHED : List MatchStatus := [.autoMatched, .manualMatched]

def IN_REVIEW : List MatchStatus := [.pending, .needsReview]

/-! ## Artists -/

/-- Link an artist to a target; its songs are to be matched again. -/
def resolveArtistMatched (db : Database) (artistId : Uuid) (targetArtistId : String) :
    Option Database :=
  if targetArtistId = "" then none
  else (db.getArtist artistId).map fun _ =>
    let db := db.updateArtists (fun artist => artist.id = artistId) fun artist =>
      { artist with matchStatus := .manualMatched }
    let db := db.upsertArtistRow artistId targetArtistId
    let db := db.updateSongs (fun song => song.broadcastArtistId = artistId ∧
      song.matchStatus ∈ ARTIST_LINK_REWIND_STATUSES) Database.pendingAgain
    db.deleteForIdentities
      (db.songIds fun song => song.broadcastArtistId = artistId ∧ song.matchStatus = .pending)

/-- Reject an artist, and its songs that are not manually resolved. -/
def resolveArtistRejected (db : Database) (artistId : Uuid) : Option Database :=
  (db.getArtist artistId).map fun _ =>
    let db := db.updateArtists (fun artist => artist.id = artistId) fun artist =>
      { artist with matchStatus := .manualRejected }
    db.changeSongs (fun song => song.broadcastArtistId = artistId ∧
        song.matchStatus ∉ PROTECTED_STATUSES) fun song =>
      { song with matchStatus := .autoRejected }

/-- Revert a finalized artist and all its songs to review. -/
def unmatchArtist (db : Database) (artistId : Uuid) : Option Database :=
  let unmatchable := fun artist : BroadcastArtist =>
    decide (artist.id = artistId ∧ artist.matchStatus ∈ UNMATCHABLE_STATUSES)
  if db.artists.any unmatchable then
    let db := db.updateArtists unmatchable
      (Database.ArtistDecision.write { status := .needsReview, reasonCode := some .userUnmatched })
    let db := db.updateSongs (fun song => song.broadcastArtistId = artistId) {
      status := .needsReview
      tier := none
      reasonCode := some .userUnmatched }
    some ((db.deleteForIdentities
      (db.songIds fun song => song.broadcastArtistId = artistId)).deleteForArtist artistId)
  else none

/-! ## Songs -/

/-- Match a song to a file by hand. -/
def resolveIdentityMatched (db : Database) (identityId libraryFileId : Uuid) : Option Database :=
  (db.getIdentity identityId).bind fun _ =>
    let db := db.changeSongs (fun song => song.id = identityId) fun song =>
      { song with matchStatus := .manualMatched, matchTier := some .manual }
    let db := db.deleteForIdentity identityId
    (getById db.files libraryFileId).map fun file =>
      db.createMatch {
        subject := .identity identityId
        confidenceScore := 1
        matchTier := .manual
        libraryFileId := some libraryFileId
        targetType := some .libraryFile
        workId := truthy file.workId }

def matchedFileIds (db : Database) (identityId : Uuid) : List Uuid :=
  ((db.rowsOf identityId).filterMap Match.libraryFileId).dedup

/-- Record rejected files and park the song. -/
def recordSongRejection (db : Database) (identityId : Uuid) (libraryFileIds : List Uuid) :
    Database :=
  (db.changeSongs (fun song => song.id = identityId) fun song =>
    { song with
      rejectedFileIds := (song.rejectedFileIds ++ libraryFileIds).dedup
      matchStatus := .manualRejected
      matchTier := none
      reasonCode := some .userUnmatched
      reasonDetail := none }).deleteForIdentity identityId

/-- A song in review rejects the suggestion shown; a matched song its matched files. -/
def rejectSongSuggestion (db : Database) (identityId : Uuid) (shownFileId : Option Uuid) :
    Option Database :=
  (db.getIdentity identityId).bind fun song =>
    if song.matchStatus ∈ MATCHED then
      some (recordSongRejection db identityId (matchedFileIds db identityId))
    else if song.matchStatus ∈ IN_REVIEW then
      shownFileId.map fun shown => recordSongRejection db identityId [shown]
    else none

/-- A matched song is parked and its files recorded as rejected. -/
def unmatchSong (db : Database) (identityId : Uuid) : Option Database :=
  (db.getIdentity identityId).bind fun song =>
    if song.matchStatus ∈ MATCHED then
      some (recordSongRejection db identityId (matchedFileIds db identityId))
    else none

/-! ## Re-checks -/

/-- Return the wave's undecided artists and songs, and every song a MusicBrainz outage
deferred, to pending; `none` is a wave of everything. -/
def rewindWave (db : Database) (names : Option (List String)) : Database :=
  let artistIds := names.map db.idsByNormalizedNames
  ((db.rewindUndecidedArtists names).rewindUndecidedSongs artistIds).rewindMbUnavailable

end RetroStation.Matching

/-! ## Runs of decisions

Matching runs, re-checks and users decide songs and artists in any order, while
playlists are ingested, the library is scanned and rules and catalog are edited.
-/

namespace RetroStation.Matching

open Library

/-- What ingesting a playlist adds; a new song or artist is undecided. -/
structure Ingestion where
  artists : List BroadcastArtist := []
  songs : List BroadcastTrackIdentity := []
  plays : List PlayEvent := []
  artistsPending : ∀ artist ∈ artists, artist.matchStatus = .pending
  songsPending : ∀ song ∈ songs, song.matchStatus = .pending ∧ song.rejectedFileIds = []

/-- Ids are new, as the primary keys make them. -/
def ingest (db : Database) (ingestion : Ingestion) : Option Database :=
  if Table.UniqueBy BroadcastArtist.id (db.artists ++ ingestion.artists) ∧
      Table.UniqueBy BroadcastTrackIdentity.id (db.identities ++ ingestion.songs) then
    some { db with
      artists := db.artists ++ ingestion.artists
      identities := db.identities ++ ingestion.songs
      plays := db.plays ++ ingestion.plays }
  else none

/-- Whatever a scan makes of the library; no row goes. -/
def scanLibrary (db : Database) (files : List LibraryFile) : Option Database :=
  if Table.UniqueBy LibraryFile.id files ∧
      ∀ file ∈ db.files, ∃ row ∈ files, row.id = file.id then
    some { db with files }
  else none

inductive DecisionAction
  | matchIdentities (config : EngineConfig) (playlistId : Uuid)
  | matchArtists (results : BroadcastArtist → ArtistMatchResult) (playlistId : Uuid)
  | recheck (names : Option (List String))
  | resolveArtistMatched (artistId : Uuid) (targetArtistId : String)
  | resolveArtistRejected (artistId : Uuid)
  | unmatchArtist (artistId : Uuid)
  | resolveIdentityMatched (identityId libraryFileId : Uuid)
  | rejectSongSuggestion (identityId : Uuid) (shownFileId : Option Uuid)
  | unmatchSong (identityId : Uuid)
  | ingest (ingestion : Ingestion)
  | scan (files : List LibraryFile)
  | configure (rules : List MappingRule) (catalog : List CatalogArtist)

/-- The target that an artist was decided for, or that it was decided without one. -/
abbrev ArtistChoice := Uuid × Option String

def artistChoice (results : BroadcastArtist → ArtistMatchResult) (artist : BroadcastArtist) :
    ArtistChoice :=
  (artist.id,
    if (results artist).status = .autoMatched then some (results artist).targetId else none)

/-- One action, in a transaction of its own, and the artists that it decided. -/
def decisionMachine : Transition.Machine Database DecisionAction (List ArtistChoice) where
  step db
    | .matchIdentities config playlistId =>
      (matchIdentitiesForPlaylist config db playlistId).map fun (_, db) => (db, [])
    | .matchArtists results playlistId =>
      (artistMatchingTask results db playlistId).map fun (written, db) =>
        (db, written.map (artistChoice results))
    | .recheck names => some (rewindWave db names, [])
    | .resolveArtistMatched artistId targetArtistId =>
      (resolveArtistMatched db artistId targetArtistId).map
        (·, [(artistId, some targetArtistId)])
    | .resolveArtistRejected artistId =>
      (resolveArtistRejected db artistId).map (·, [(artistId, none)])
    | .unmatchArtist artistId => (unmatchArtist db artistId).map (·, [(artistId, none)])
    | .resolveIdentityMatched identityId libraryFileId =>
      (resolveIdentityMatched db identityId libraryFileId).map (·, [])
    | .rejectSongSuggestion identityId shownFileId =>
      (rejectSongSuggestion db identityId shownFileId).map (·, [])
    | .unmatchSong identityId => (unmatchSong db identityId).map (·, [])
    | .ingest ingestion => (ingest db ingestion).map (·, [])
    | .scan files => (scanLibrary db files).map (·, [])
    | .configure rules catalog => some ({ db with rules, catalog }, [])

end RetroStation.Matching
