import RetroStation.Library.Values

/-! # Matching values

Broadcast artists and songs, the rules and match rows that link them to the
library, and the results of a song's matching.
-/

namespace RetroStation.Matching

open Library

inductive MatchStatus
  | pending
  | autoMatched
  | needsReview
  | manualMatched
  | autoRejected
  | manualRejected
  deriving DecidableEq, Repr

inductive MatchTier
  | musicbrainzIdExact
  | musicbrainzIdSearch
  | localFileFuzzy
  | normalization
  | vector
  | musicbrainzApi
  | manual
  | unclassified
  deriving DecidableEq, Repr

inductive TargetType
  | artist
  | work
  | recording
  | libraryFile
  deriving DecidableEq, Repr

/-- Why a song or an artist is where it is. -/
inductive ReasonCode
  | lowConfidence
  | ambiguousGap
  | deferredRetry
  | noCandidates
  | noLocalFiles
  | mbSearchInconclusive
  | missingMatchRecord
  | orphanedIdentity
  | userUnmatched
  | libraryFileRemoved
  | mbUnavailable
  | titleScoresDisagree
  deriving DecidableEq, Repr

structure BroadcastArtist where
  id : Uuid
  originalName : String
  normalizedName : String
  matchStatus : MatchStatus := .pending
  reasonCode : Option ReasonCode := none
  reasonDetail : Option String := none
  deriving DecidableEq, Repr

/-- A broadcast song. `rejectedFileIds` are the files the curator rejected for it. -/
structure BroadcastTrackIdentity where
  id : Uuid
  broadcastArtistId : Uuid
  originalTitle : String
  normalizedSignature : String
  matchStatus : MatchStatus := .pending
  matchTier : Option MatchTier := none
  reasonCode : Option ReasonCode := none
  reasonDetail : Option String := none
  rejectedFileIds : List Uuid := []
  deriving DecidableEq, Repr

/-- Whom a match row belongs to: exactly one song or artist. -/
inductive MatchSubject
  | identity (id : Uuid)
  | artist (id : Uuid)
  deriving DecidableEq, Repr

structure Match where
  subject : MatchSubject
  confidenceScore : Rat
  matchTier : MatchTier
  libraryFileId : Option Uuid := none
  targetId : Option String := none
  targetType : Option TargetType := none
  workId : Option String := none
  deriving DecidableEq, Repr

structure MappingRule where
  sourcePattern : String
  targetType : TargetType
  targetId : String
  priority : Int := 0
  deriving DecidableEq, Repr

/-- An artist of the catalog; a local one has no MBID. -/
structure CatalogArtist where
  id : String
  mbid : Option String
  normalizedName : Option String := none
  deriving DecidableEq, Repr

/-- The files a curator rejected for one song, and their current works. -/
structure CandidateExclusions where
  fileIds : List Uuid
  workIds : List String
  deriving DecidableEq, Repr

def NO_EXCLUSIONS : CandidateExclusions := ⟨[], []⟩

def CandidateExclusions.allows (exclusions : CandidateExclusions) (candidate : LibraryFile) :
    Bool :=
  if candidate.id ∈ exclusions.fileIds then false
  else match truthy candidate.workId with
    | none => true
    | some work => work ∉ exclusions.workIds

/-- What a strategy decides for a song. -/
structure IdentityMatchResult where
  status : MatchStatus
  tier : MatchTier
  confidenceScore : Rat
  libraryFileId : Option Uuid
  workId : Option String := none
  reasonCode : Option ReasonCode := none
  reasonDetail : Option String := none
  deriving DecidableEq, Repr

/-! ## Scoring constants -/

def MB_AUTO_LINK_SCORE : Rat := 95
def MB_SCORE_GAP : Rat := 10
def SONG_MIN_PRESENTATION_SCORE : Rat := 56
def V11_STRONG_MATCH_SCORE : Rat := 85
def SONG_NAME_LOOKUP_LIMIT : Nat := 1000
def SONG_MB_FAILURE_CUTOFF : Nat := 5

/-! ## Reasons -/

def roundHalfUp (value : Rat) : Int := ⌊value + 1 / 2⌋

def formatLowConfidence (score : Rat) : String :=
  s!"Score {roundHalfUp score}% — below confidence threshold"

def formatAmbiguousGap (gap threshold : Rat) : String :=
  s!"Top candidates within {roundHalfUp gap} points " ++
    s!"(gap < {roundHalfUp threshold} required)"

def formatDeferredRetry : String :=
  "Unresolved across all matching tiers — deferred for retry on next playlist"

def formatMbUnavailable : String :=
  "MusicBrainz unavailable — deferred for retry at the next re-check"

def formatTitleScoresDisagree (todayScore v11Score : Rat) : String :=
  s!"Title scorers disagree — today's {roundHalfUp todayScore}%, " ++
    s!"V11.1 {roundHalfUp v11Score}%"

end RetroStation.Matching
