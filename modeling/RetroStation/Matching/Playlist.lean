import RetroStation.Database.Tables
import RetroStation.Matching.Plans
import RetroStation.Transition.Run

/-! # Matching a playlist

A matching run reads the pending songs of a playlist, decides them artist by
artist and writes each result where the song is still pending: its status, then
the one match row that shows it.
-/

namespace RetroStation.Matching

open Library Effect

/-- What a run writes for a song MusicBrainz could not be asked about. -/
def mbDeferral : IdentityMatchResult where
  status := .needsReview
  tier := .unclassified
  confidenceScore := 0
  libraryFileId := none
  reasonCode := some .mbUnavailable
  reasonDetail := some formatMbUnavailable

/-- What a run writes for a song whose artist row is gone. -/
def orphaned (identity : BroadcastTrackIdentity) : IdentityMatchResult where
  status := .needsReview
  tier := .unclassified
  confidenceScore := 0
  libraryFileId := none
  reasonCode := some .orphanedIdentity
  reasonDetail := some s!"No broadcast_artist row for id {identity.broadcastArtistId}"

/-- What a run writes when no strategy has a result. -/
def exhausted : IdentityMatchResult where
  status := .autoRejected
  tier := .unclassified
  confidenceScore := 0
  libraryFileId := none
  reasonCode := some .noCandidates
  reasonDetail := some "All matching strategies exhausted — no result produced"

/-- The songs with each artist's together, artists in order of first appearance. -/
def groupedByArtist (identities : List BroadcastTrackIdentity) : List BroadcastTrackIdentity :=
  let firstSeen := fun identity : BroadcastTrackIdentity =>
    (identities.map BroadcastTrackIdentity.broadcastArtistId).idxOf identity.broadcastArtistId
  identities.insertionSort fun first second => firstSeen first ≤ firstSeen second

/-- What a run did for one song: the row it wrote, and the work it matched. -/
structure SongOutcome where
  row : Option Match := none
  workId : Option String := none

/-- The match row of a result worth showing. -/
def suggestion (identity : BroadcastTrackIdentity) (result : IdentityMatchResult) : Option Match :=
  match result.libraryFileId with
  | some fileId =>
    if result.status = .autoRejected then none
    else some {
      subject := .identity identity.id
      confidenceScore := result.confidenceScore
      matchTier := result.tier
      libraryFileId := some fileId
      workId := truthy result.workId }
  | none => none

def IdentityMatchResult.decision (result : IdentityMatchResult) : Database.SongDecision where
  status := result.status
  tier := some result.tier
  reasonCode := result.reasonCode
  reasonDetail := result.reasonDetail

/-- Write a result; a song decided meanwhile keeps its decision and its rows. -/
def persist (db : Database) (identity : BroadcastTrackIdentity) (result : IdentityMatchResult) :
    SongOutcome × Database :=
  match db.updateMatchStatusIfPending identity.id result.decision with
  | (false, db) => ({}, db)
  | (true, db) =>
    let db := db.deleteForIdentity identity.id
    let outcome := {
      row := suggestion identity result
      workId := if result.status = .autoMatched then truthy result.workId else none }
    match suggestion identity result with
    | some row => (outcome, db.createMatch row)
    | none => (outcome, db)

structure PlaylistState where
  db : Database
  engines : EngineState

/-- A song's result; a transient MusicBrainz failure defers it, a permanent one
ends the run. -/
def songResult (engines : SongEngines) (artistsById : List BroadcastArtist)
    (identity : BroadcastTrackIdentity) (state : EngineState) :
    Except SongError IdentityMatchResult × EngineState :=
  match artistsById.find? fun artist => artist.id = identity.broadcastArtistId with
  | none => (.ok (orphaned identity), state)
  | some artist =>
    match outcome (engines.resolve identity artist) state with
    | (.ok (some result), later) => (.ok result, later)
    | (.ok none, later) => (.ok exhausted, later)
    | (.error .musicBrainzUnavailable, later) => (.ok mbDeferral, later)
    | (.error error, later) => (.error error, later)

/-- The songs of a run, one by one; an error is not a step. -/
def playlistMachine (engines : SongEngines) (artistsById : List BroadcastArtist) :
    Transition.Machine PlaylistState BroadcastTrackIdentity SongOutcome where
  step state identity :=
    match songResult engines artistsById identity state.engines with
    | (.ok result, later) =>
      let (outcome, db) := persist state.db identity result
      some (⟨db, later⟩, outcome)
    | (.error _, _) => none

/-- The chains of a run over the playlist's pending songs. -/
def playlistEngines (config : EngineConfig) (db : Database) (playlistId : Uuid) : SongEngines :=
  buildSongEngines config (db.getPendingForPlaylist playlistId) db.identityMatchingRepos

/-- The artists of the playlist's pending songs. -/
def playlistArtists (db : Database) (playlistId : Uuid) : List BroadcastArtist :=
  db.getArtistsByIds
    ((db.getPendingForPlaylist playlistId).map BroadcastTrackIdentity.broadcastArtistId)

/-- Match the pending songs of a playlist; the works of those matched. `none` is a
run that raised, whose transaction rolls back. -/
def matchIdentitiesForPlaylist (config : EngineConfig) (db : Database) (playlistId : Uuid) :
    Option (List String × Database) :=
  ((playlistMachine (playlistEngines config db playlistId) (playlistArtists db playlistId)).exec
      ⟨db, .start config⟩ (groupedByArtist (db.getPendingForPlaylist playlistId))).map
    fun (trace, state) => (trace.filterMap fun entry => entry.2.workId, state.db)

end RetroStation.Matching
