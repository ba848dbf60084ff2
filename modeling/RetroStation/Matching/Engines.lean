import Mathlib.Logic.Function.Basic
import RetroStation.Dict.Basic
import RetroStation.Effect.Simulation
import RetroStation.Matching.Scoring
import RetroStation.Text.Unicode

/-! # The song engines

A song's result comes from a chain of strategies: the mapping rules, the lookups
by a resolved artist's MBID, the fallback by the artist's name. One run's chains
share their reads of each artist and MusicBrainz's answers. MusicBrainz, the
title scorers and the parsers of patterns and identifiers stand outside.
-/

namespace RetroStation.Matching

open Library Effect

/-- A recording MusicBrainz answers with; `id` is `none` when the answer has none. -/
structure MbRecording where
  id : Option String
  deriving DecidableEq, Repr

/-- How a MusicBrainz call fails: in a way it may not repeat, or for good. -/
inductive MbFailure
  | transient
  | permanent
  deriving DecidableEq, Repr

/-- The answer to each call, which may differ from one call to the next. -/
abbrev MusicBrainzClient := Nat → String → String → Except MbFailure (List MbRecording)

inductive SongError
  | musicBrainzUnavailable
  | musicBrainzFailed
  | noCandidates
  deriving DecidableEq, Repr

structure EngineConfig where
  strongMatchThreshold : Rat
  candidateScores : CandidateScores
  /-- V11.1's scorer in trial mode. -/
  trialTitleScore : Option TitleScore
  /-- The form of a broadcast title to search MusicBrainz with. -/
  searchTitle : String → String
  /-- A full regular-expression match; an invalid pattern matches nothing. -/
  fullmatch : String → String → Bool
  parseUuid : String → Option Uuid
  mbClient : MusicBrainzClient
  /-- Whether Step B's pre-check is wired in. -/
  recordingSearchReach : Bool

/-- What the engines read. -/
structure IdentityMatchingRepos where
  rules : List MappingRule
  files : List LibraryFile
  matchRows : List Match
  catalog : List CatalogArtist

namespace IdentityMatchingRepos

variable (repos : IdentityMatchingRepos)

def getByArtist (artistId : Uuid) : Option Match :=
  repos.matchRows.find? fun row => row.subject = .artist artistId

def getCatalogArtist (id : String) : Option CatalogArtist :=
  repos.catalog.find? fun artist => artist.id = id

end IdentityMatchingRepos

/-! ## The candidate gate -/

/-- Same artist; a file without a normalized artist name is nobody's. -/
def filterToArtist (candidates : List LibraryFile) (artistNormalizedName : String) :
    List LibraryFile :=
  candidates.filter fun file => file.audio.normalizedArtistName = some artistNormalizedName

/-- Same artist, and not a rejected file or work. -/
def eligible (candidates : List LibraryFile) (artistNormalizedName : String)
    (exclusions : CandidateExclusions) : List LibraryFile :=
  (filterToArtist candidates artistNormalizedName).filter exclusions.allows

abbrev ExclusionsByIdentity := Dict Uuid CandidateExclusions

def exclusionsFor (exclusionsByIdentity : ExclusionsByIdentity)
    (identity : BroadcastTrackIdentity) : CandidateExclusions :=
  (exclusionsByIdentity.get? identity.id).getD NO_EXCLUSIONS

/-- The rejected files of one song and the works they are on now. -/
def rejectionsOf (rejected : List LibraryFile) (identity : BroadcastTrackIdentity) :
    CandidateExclusions where
  fileIds := identity.rejectedFileIds
  workIds := identity.rejectedFileIds.filterMap fun fileId =>
    (getById rejected fileId).bind fun file => truthy file.workId

/-- One batch lookup for every song's rejections, by the files' current works. -/
def loadExclusions (identities : List BroadcastTrackIdentity) (files : List LibraryFile) :
    ExclusionsByIdentity :=
  let rejected := getByIds files (identities.flatMap (·.rejectedFileIds))
  identities.foldl (fun exclusions identity =>
    if identity.rejectedFileIds = [] then exclusions
    else exclusions.set identity.id (rejectionsOf rejected identity)) .empty

/-! ## Reads shared by an artist's songs -/

inductive MemoKey
  | artistMatch
  | catalog (id : String)
  | filesByMbid (mbid : String)
  | filesByName
  deriving DecidableEq, Repr

def MemoKey.Value : MemoKey → Type
  | .artistMatch => Option Match
  | .catalog _ => Option CatalogArtist
  | .filesByMbid _ => List LibraryFile
  | .filesByName => List LibraryFile

/-- What one artist's songs have read; another artist's song forgets it. -/
structure ArtistMemo where
  artistId : Option Uuid
  reads : (key : MemoKey) → Option key.Value

namespace ArtistMemo

def empty : ArtistMemo := ⟨none, fun _ => none⟩

def read (memo : ArtistMemo) (artist : BroadcastArtist) (key : MemoKey) (fetch : key.Value) :
    key.Value × ArtistMemo :=
  let memo := if memo.artistId = some artist.id then memo else ⟨some artist.id, fun _ => none⟩
  match memo.reads key with
  | some value => (value, memo)
  | none => (fetch, { memo with reads := Function.update memo.reads key (some fetch) })

end ArtistMemo

/-! ## MusicBrainz for one run -/

/-- The cut-off's count, and the remembered answers when a run keeps them. -/
structure RecordingSearch where
  failures : Nat
  answers : Option (Dict (String × String) (List MbRecording))
  calls : Nat

namespace RecordingSearch

/-- The run has stopped calling MusicBrainz. -/
def cutOff (search : RecordingSearch) : Bool := search.failures ≥ SONG_MB_FAILURE_CUTOFF

def search (client : MusicBrainzClient) (search : RecordingSearch) (artistMbid title : String) :
    Except SongError (List MbRecording) × RecordingSearch :=
  if search.cutOff then (.error .musicBrainzUnavailable, search)
  else match search.answers.bind (·.get? (artistMbid, title)) with
  | some recordings => (.ok recordings, { search with failures := 0 })
  | none =>
    let called := { search with calls := search.calls + 1 }
    match client search.calls artistMbid title with
    | .error .permanent => (.error .musicBrainzFailed, called)
    | .error .transient =>
      (.error .musicBrainzUnavailable, { called with failures := search.failures + 1 })
    | .ok recordings =>
      (.ok recordings, { called with
        failures := 0
        answers := search.answers.map (·.set (artistMbid, title) recordings) })

end RecordingSearch

/-- The two strategies that read an artist's files keep a memo each. -/
inductive Reader
  | resolvedArtistMbid
  | broadcastToLocal
  deriving DecidableEq, Repr

structure EngineState where
  memo : Reader → ArtistMemo
  reachByArtist : Dict (String × String) Bool
  recordingSearch : RecordingSearch

abbrev EngineM := Comp EngineState SongError

/-! ## The strategies -/

section

variable (config : EngineConfig) (repos : IdentityMatchingRepos)
  (exclusionsByIdentity : ExclusionsByIdentity)

def ruleMatches (sourcePattern normalizedValue : String) : Bool :=
  sourcePattern = normalizedValue || config.fullmatch sourcePattern normalizedValue

/-- The file a rule names: by its id when that parses, else by its path. -/
def ruleFile (rule : MappingRule) : Option LibraryFile :=
  match config.parseUuid rule.targetId with
  | some fileId => getById repos.files fileId
  | none => getByPath repos.files rule.targetId

/-- The file of a rule that is for the song and names an allowed one. -/
def ruleFor (identity : BroadcastTrackIdentity) (rule : MappingRule) : Option LibraryFile :=
  if rule.targetType ≠ .libraryFile then none
  else if !ruleMatches config rule.sourcePattern identity.normalizedSignature then none
  else (ruleFile config repos rule).filter (exclusionsFor exclusionsByIdentity identity).allows

/-- Tier 0: the first rule that applies wins over every score. -/
def identityMappingRule (identity : BroadcastTrackIdentity) : Option IdentityMatchResult :=
  (repos.rules.findSome? (ruleFor config repos exclusionsByIdentity identity)).map fun file => {
    status := .autoMatched
    tier := .musicbrainzIdExact
    confidenceScore := 100
    libraryFileId := some file.id
    workId := some ((truthy file.workId).getD "") }

def readMemo (reader : Reader) (artist : BroadcastArtist) (key : MemoKey) (fetch : key.Value) :
    EngineM key.Value := do
  let state ← get
  let (value, memo) := (state.memo reader).read artist key fetch
  set { state with memo := Function.update state.memo reader memo }
  return value

/-- Every eligible file of the artist by normalized name, tagged or not. -/
def nameLookupCandidates (reader : Reader) (artist : BroadcastArtist)
    (exclusions : CandidateExclusions) : EngineM (List LibraryFile) := do
  let files ← readMemo reader artist .filesByName
    (getByNormalizedArtistName repos.files artist.normalizedName SONG_NAME_LOOKUP_LIMIT)
  return eligible files artist.normalizedName exclusions

/-- The higher raw score; a tie keeps the MBID result. -/
def betterOf (mbidResult nameResult : Option IdentityMatchResult) : Option IdentityMatchResult :=
  match mbidResult, nameResult with
  | mbidResult, none => mbidResult
  | none, some nameResult => some nameResult
  | some mbidResult, some nameResult =>
    if nameResult.confidenceScore > mbidResult.confidenceScore then some nameResult
    else some mbidResult

variable (titleScore : Option TitleScore)

def score (identity : BroadcastTrackIdentity) (candidates : List LibraryFile) (tier : MatchTier) :
    EngineM IdentityMatchResult :=
  match scoreCandidates config.candidateScores identity.originalTitle candidates tier
    config.strongMatchThreshold titleScore with
  | some result => pure result
  | none => throw .noCandidates

/-- Whether the artist has a file Step B could add to Step A's, asked once per run. -/
def searchCouldAddAFile (mbid : String) (artist : BroadcastArtist) : EngineM Bool := do
  if !config.recordingSearchReach then return true
  let state ← get
  match state.reachByArtist.get? (artist.normalizedName, mbid) with
  | some reach => return reach
  | none =>
    let reach := hasFileBeyondArtistMbid repos.files artist.normalizedName mbid
    set { state with
      reachByArtist := state.reachByArtist.set (artist.normalizedName, mbid) reach }
    return reach

def searchRecordings (artistMbid title : String) : EngineM (List MbRecording) := do
  let state ← get
  let (answer, search) := state.recordingSearch.search config.mbClient artistMbid title
  set { state with recordingSearch := search }
  match answer with
  | .ok recordings => return recordings
  | .error error => throw error

/-- The files with an id not seen yet, each once. -/
def dedupById (seen : List Uuid) : List LibraryFile → List LibraryFile
  | [] => []
  | file :: rest =>
    if file.id ∈ seen then dedupById seen rest
    else file :: dedupById (file.id :: seen) rest

/-- The local files of the recordings MusicBrainz answered with. -/
def recordingFiles (recordings : List MbRecording) : List LibraryFile :=
  dedupById [] ((recordings.filterMap MbRecording.id).flatMap (getByRecordingMbid repos.files))

/-- Step B: the best of the files of all matching recordings. -/
def mbRecordingSearch (mbid : String) (identity : BroadcastTrackIdentity)
    (artist : BroadcastArtist) : EngineM (Option IdentityMatchResult) := do
  if !(← searchCouldAddAFile config repos mbid artist) then return none
  let recordings ← searchRecordings config mbid (config.searchTitle identity.originalTitle)
  let filtered := eligible (recordingFiles repos recordings) artist.normalizedName
    (exclusionsFor exclusionsByIdentity identity)
  if filtered.isEmpty then return none
  return some (← score config titleScore identity filtered .musicbrainzIdSearch)

/-- Step A, escalating to Step B when it does not match. -/
def artistMbidSteps (realMbid : String) (identity : BroadcastTrackIdentity)
    (artist : BroadcastArtist) (exclusions : CandidateExclusions) :
    EngineM (Option IdentityMatchResult) := do
  let mbidFiles ← readMemo .resolvedArtistMbid artist (.filesByMbid realMbid)
    (getByArtistMbid repos.files realMbid)
  let candidateFiles := eligible mbidFiles artist.normalizedName exclusions
  if candidateFiles.isEmpty then
    return ← mbRecordingSearch config repos exclusionsByIdentity titleScore realMbid identity artist
  let localResult ← score config titleScore identity candidateFiles .musicbrainzIdExact
  if localResult.status = .autoMatched then return some localResult
  -- Only a strictly better score displaces Step A.
  match ← mbRecordingSearch config repos exclusionsByIdentity titleScore realMbid identity artist
    with
  | some mbResult =>
    if mbResult.confidenceScore > localResult.confidenceScore then return some mbResult
    return some localResult
  | none => return some localResult

def isResolved (artist : BroadcastArtist) : Bool :=
  artist.matchStatus = .autoMatched ∨ artist.matchStatus = .manualMatched

def missingMatchRecord (detail : String) : IdentityMatchResult where
  status := .needsReview
  tier := .musicbrainzIdSearch
  confidenceScore := 0
  libraryFileId := none
  reasonCode := some .missingMatchRecord
  reasonDetail := some detail

def noLocalFiles : IdentityMatchResult where
  status := .autoRejected
  tier := .musicbrainzIdSearch
  confidenceScore := 0
  libraryFileId := none
  reasonCode := some .noLocalFiles
  reasonDetail := some "Artist MBID confirmed but no matching local recording found"

/-- Step C, unless Steps A and B matched: by name, over every present file of the
artist, tagged or not. -/
def nameStep (mbidResult : Option IdentityMatchResult) (identity : BroadcastTrackIdentity)
    (artist : BroadcastArtist) (exclusions : CandidateExclusions) :
    EngineM (Option IdentityMatchResult) := do
  if mbidResult.any (·.status = .autoMatched) then return mbidResult
  let nameCandidates ← nameLookupCandidates repos .resolvedArtistMbid artist exclusions
  let nameResult ← (if nameCandidates.isEmpty then pure none
    else some <$> score config titleScore identity nameCandidates .localFileFuzzy)
  return some ((betterOf mbidResult nameResult).getD noLocalFiles)

/-- Tier 1: the lookups of a resolved artist, which always have a result. -/
def resolvedArtistMbid (identity : BroadcastTrackIdentity) (artist : BroadcastArtist) :
    EngineM (Option IdentityMatchResult) := do
  if !isResolved artist then return none
  let artistMatch ← readMemo .resolvedArtistMbid artist .artistMatch (repos.getByArtist artist.id)
  match artistMatch with
  | none => return some (missingMatchRecord
      "Artist is resolved but no match record found — data inconsistency")
  | some artistMatch =>
    let mbid := Text.stripText (artistMatch.targetId.getD "")
    if mbid = "" then
      return some (missingMatchRecord "Artist match row has no valid target_id")
    let exclusions := exclusionsFor exclusionsByIdentity identity
    let catalogArtist ← readMemo .resolvedArtistMbid artist (.catalog mbid)
      (repos.getCatalogArtist mbid)
    let realMbid := match catalogArtist with
      | some catalogArtist => truthy catalogArtist.mbid
      | none => some mbid
    let mbidResult ← (match realMbid with
      | some realMbid =>
        artistMbidSteps config repos exclusionsByIdentity titleScore realMbid identity artist
          exclusions
      | none => pure none)
    nameStep config repos titleScore mbidResult identity artist exclusions

def noCandidates (artist : BroadcastArtist) : IdentityMatchResult where
  status := .autoRejected
  tier := .localFileFuzzy
  confidenceScore := 0
  libraryFileId := none
  reasonCode := some .noCandidates
  reasonDetail := some s!"No library files found for artist '{artist.originalName}'"

/-- Tier 2: by name, for an artist that is not resolved. -/
def broadcastToLocal (identity : BroadcastTrackIdentity) (artist : BroadcastArtist) :
    EngineM (Option IdentityMatchResult) := do
  if isResolved artist then return none
  let candidateFiles ← nameLookupCandidates repos .broadcastToLocal artist
    (exclusionsFor exclusionsByIdentity identity)
  if candidateFiles.isEmpty then return some (noCandidates artist)
  return some (← score config titleScore identity candidateFiles .localFileFuzzy)

/-- A chain: the first strategy with a result decides. -/
def resolveChain (identity : BroadcastTrackIdentity) (artist : BroadcastArtist) :
    EngineM (Option IdentityMatchResult) := do
  if let some result := identityMappingRule config repos exclusionsByIdentity identity then
    return some result
  if let some result ← resolvedArtistMbid config repos exclusionsByIdentity titleScore identity
      artist then
    return some result
  broadcastToLocal config repos exclusionsByIdentity titleScore identity artist

end

/-- A song's result in trial mode: V11.1 alone hides, both together match. -/
def trialResult (today trial : IdentityMatchResult) : IdentityMatchResult :=
  if today.status = .autoRejected ∧ trial.status = .autoRejected then today
  else
    let agree := today.status = trial.status ∧ today.libraryFileId = trial.libraryFileId
    if agree ∧ today.status = .autoMatched then today
    else if agree then { trial with status := .needsReview }
    else { trial with
      status := if trial.status = .autoRejected then .autoRejected else .needsReview
      reasonCode := some .titleScoresDisagree
      reasonDetail := some (formatTitleScoresDisagree today.confidenceScore trial.confidenceScore) }

/-- The chains of one run of song matching. -/
structure SongEngines where
  config : EngineConfig
  repos : IdentityMatchingRepos
  exclusionsByIdentity : ExclusionsByIdentity

/-- Today's result for the song or, in trial mode, that of both chains. -/
def SongEngines.resolve (engines : SongEngines) (identity : BroadcastTrackIdentity)
    (artist : BroadcastArtist) : EngineM (Option IdentityMatchResult) := do
  let chain := fun titleScore =>
    resolveChain engines.config engines.repos engines.exclusionsByIdentity titleScore
      identity artist
  let today ← chain none
  match engines.config.trialTitleScore, today with
  | some titleScore, some today =>
    match ← chain (some titleScore) with
    | some trial => return some (trialResult today trial)
    | none => return some today
  | _, today => return today

/-- The chains for one run over `songs`; the rules and the rejections are read once. -/
def buildSongEngines (config : EngineConfig) (songs : List BroadcastTrackIdentity)
    (repos : IdentityMatchingRepos) : SongEngines where
  config := config
  repos := repos
  exclusionsByIdentity := loadExclusions songs repos.files

/-- What a run's chains have read before its first song. -/
def EngineState.start (config : EngineConfig) : EngineState where
  memo := fun _ => .empty
  reachByArtist := .empty
  recordingSearch := ⟨0, config.trialTitleScore.map fun _ => .empty, 0⟩

end RetroStation.Matching
