import Mathlib.Data.List.Dedup
import RetroStation.Database.Tables

/-! # Statements of decisions

What the repositories of artists and songs execute when a run, a re-check or a user
decides them.
-/

namespace RetroStation

open Library Matching

namespace Matching

def ARTIST_UNDECIDED_STATUSES : List MatchStatus := [.needsReview, .autoRejected]

def SONG_UNDECIDED_STATUSES : List MatchStatus := [.needsReview, .autoRejected, .manualRejected]

/-- Whether the row is a song's of `ids`. -/
def Match.ofSongs (ids : List Uuid) (row : Match) : Bool :=
  match row.subject with
  | .identity identityId => identityId ∈ ids
  | .artist _ => false

end Matching

namespace Database

/-- A song as it was ingested: neither tier nor reason. -/
def pendingAgain : SongDecision where
  status := .pending
  tier := none

/-- What a decision writes on an artist. -/
structure ArtistDecision where
  status : MatchStatus
  reasonCode : Option ReasonCode := none
  reasonDetail : Option String := none

def ArtistDecision.write (decision : ArtistDecision) (artist : BroadcastArtist) :
    BroadcastArtist :=
  { artist with
    matchStatus := decision.status
    reasonCode := decision.reasonCode
    reasonDetail := decision.reasonDetail }

variable (db : Database)

/-! ## Songs -/

/-- One UPDATE of the songs that satisfy `which`. -/
def changeSongs (which : BroadcastTrackIdentity → Bool)
    (change : BroadcastTrackIdentity → BroadcastTrackIdentity) : Database :=
  { db with identities := Table.update db.identities which change }

def songIds (which : BroadcastTrackIdentity → Bool) : List Uuid :=
  (db.identities.filter which).map BroadcastTrackIdentity.id

def deleteForIdentities (identityIds : List Uuid) : Database :=
  { db with matchRows := Table.delete db.matchRows (Match.ofSongs identityIds) }

/-- Decide an artist's pending songs, which lose their match rows. -/
def decidePendingByArtist (broadcastArtistId : Uuid) (decision : SongDecision) : Database :=
  let flipped := fun song : BroadcastTrackIdentity =>
    decide (song.broadcastArtistId = broadcastArtistId ∧ song.matchStatus = .pending)
  (db.updateSongs flipped decision).deleteForIdentities (db.songIds flipped)

def bulkRejectByArtist (broadcastArtistId : Uuid) : Database :=
  db.decidePendingByArtist broadcastArtistId {
    status := .autoRejected
    tier := some .unclassified }

def bulkDeferByArtist (broadcastArtistId : Uuid) : Database :=
  db.decidePendingByArtist broadcastArtistId {
    status := .needsReview
    tier := some .unclassified
    reasonCode := some .deferredRetry
    reasonDetail := some formatDeferredRetry }

def resetDeferredByArtistIds (artistIds : List Uuid) : Database :=
  db.updateSongs (fun song => song.broadcastArtistId ∈ artistIds ∧
    song.matchStatus = .needsReview ∧ song.reasonCode = some .deferredRetry) pendingAgain

/-- Return the undecided songs of the artists, or of every artist, to pending. -/
def rewindUndecidedSongs (artistIds : Option (List Uuid)) : Database :=
  db.updateSongs (fun song => song.matchStatus ∈ SONG_UNDECIDED_STATUSES ∧
    artistIds.all fun wanted => song.broadcastArtistId ∈ wanted) pendingAgain

/-- Return every song that a MusicBrainz outage deferred to pending. -/
def rewindMbUnavailable : Database :=
  db.updateSongs (fun song => song.matchStatus = .needsReview ∧
    song.reasonCode = some .mbUnavailable) pendingAgain

/-! ## Artists -/

def updateArtists (which : BroadcastArtist → Bool) (change : BroadcastArtist → BroadcastArtist) :
    Database :=
  { db with artists := Table.update db.artists which change }

/-- One statement: the artist is decided if it is still pending; whether it was. -/
def updateArtistStatusIfPending (artistId : Uuid) (decision : ArtistDecision) : Bool × Database :=
  let pending := fun artist : BroadcastArtist =>
    decide (artist.id = artistId ∧ artist.matchStatus = .pending)
  (db.artists.any pending, db.updateArtists pending decision.write)

def resetDeferredByIds (artistIds : List Uuid) : Database :=
  db.updateArtists (fun artist => artist.id ∈ artistIds ∧ artist.matchStatus = .needsReview ∧
    artist.reasonCode = some .deferredRetry) (ArtistDecision.write { status := .pending })

def idsByNormalizedNames (names : List String) : List Uuid :=
  (db.artists.filter fun artist => artist.normalizedName ∈ names).map BroadcastArtist.id

def rewindUndecidedArtists (names : Option (List String)) : Database :=
  db.updateArtists (fun artist => artist.matchStatus ∈ ARTIST_UNDECIDED_STATUSES ∧
    names.all fun wanted => artist.normalizedName ∈ wanted)
    (ArtistDecision.write { status := .pending })

/-- The artists with a song on the playlist. -/
def getAllArtistsForPlaylist (playlistId : Uuid) : List BroadcastArtist :=
  db.artists.filter fun artist => db.identities.any fun song =>
    song.broadcastArtistId = artist.id ∧
      db.plays.any fun play => play.identityId = song.id ∧ play.playlistId = playlistId

def getPendingArtistsForPlaylist (playlistId : Uuid) : List BroadcastArtist :=
  (db.getAllArtistsForPlaylist playlistId).filter fun artist => artist.matchStatus = .pending

/-! ## Artist rows -/

def targets (artistId : Uuid) (targetId : String) (row : Match) : Bool :=
  row.subject = .artist artistId ∧ row.targetId = some targetId

/-- Rows are unique by artist and target; `none` is a row refused for that. -/
def createArtistRow (artistId : Uuid) (targetId : String) (confidenceScore : Rat)
    (matchTier : MatchTier) : Option Database :=
  if db.matchRows.any (targets artistId targetId) then none
  else some (db.createMatch {
    subject := .artist artistId
    confidenceScore := confidenceScore
    matchTier := matchTier
    targetId := some targetId
    targetType := some .artist })

/-- Store the artist's row for the target over the one it has. -/
def upsertArtistRow (artistId : Uuid) (targetId : String) : Database :=
  if db.matchRows.any (targets artistId targetId) then
    { db with
      matchRows := Table.update db.matchRows (targets artistId targetId) fun row =>
        { row with targetType := some .artist, confidenceScore := 1, matchTier := .manual } }
  else db.createMatch {
    subject := .artist artistId
    confidenceScore := 1
    matchTier := .manual
    targetId := some targetId
    targetType := some .artist }

def deleteForArtist (artistId : Uuid) : Database :=
  { db with matchRows := Table.delete db.matchRows fun row => row.subject = .artist artistId }

end Database

end RetroStation
