import RetroStation.Dict.Groups
import RetroStation.Matching.Decisions
import RetroStation.Matching.SearchRuns

/-! # Resolving a playlist's artists

Every pending artist goes through the local strategies: the mapping rules and the catalog.
What these do not resolve is searched at MusicBrainz if its name looks truncated, with one
search for all the spellings of a name, and is deferred otherwise. MusicBrainz, the text
functions and the fuzzy ratio stand outside.
-/

namespace RetroStation.Matching

open Library Effect

def MB_MIN_CANDIDATE_SCORE : Int := 60
def MID_BAND_LOWER : Rat := 55
def MID_BAND_UPPER : Rat := 64
def MID_BAND_GAP_THRESHOLD : Rat := 5
def TRUNCATION_TOLERANCE_CHARS : Int := 2

/-- An artist MusicBrainz answers with. -/
structure MbArtistResult where
  id : String
  name : String
  sortName : Option String := none
  score : Option Int := none
  disambiguation : Option String := none
  deriving DecidableEq, Repr

/-- A result with the MusicBrainz artist that it came from. -/
structure ArtistSearchResult extends ArtistMatchResult where
  mbCandidate : Option MbArtistResult := none

/-- An artist of the catalog, with what the local strategies read of it. -/
structure CanonicalArtist where
  id : String
  name : String
  mbid : Option String
  linkedByLookup : Bool

structure ArtistMatchThresholds where
  strongMatchThreshold : Rat := 80
  mbScoreGap : Rat := 10
  mbAutoLinkScore : Rat := 95
  minPresentationScore : Rat := 50
  broadcastNameMaxLen : Int := 30

/-- The text functions artist matching uses. -/
structure ArtistTexts where
  lower : String → String
  isAlnum : Char → Bool
  normalizeArtist : String → String
  tokenSortRatio : String → String → Rat
  /-- A full regular-expression match; an invalid pattern matches nothing. -/
  fullmatch : String → String → Bool

inductive ArtistError
  | http (exc : HttpError)
  /-- A phase left an artist without a result. -/
  | unresolved (id : Uuid)
  deriving DecidableEq, Repr

/-- Artist matching keeps the names it searched for. -/
abbrev ArtistM := Comp (List String) ArtistError

/-- MusicBrainz, by the name it is asked for. -/
abbrev ArtistClient := String → Except HttpError (List MbArtistResult)

def searchArtist (client : ArtistClient) (name : String) : ArtistM (List MbArtistResult) := do
  modify (· ++ [name])
  match client name with
  | .ok results => pure results
  | .error exc => throw (.http exc)

section

variable (texts : ArtistTexts) (thresholds : ArtistMatchThresholds)

/-! ## Zones -/

/-- Only against a real competitor does a lead count. -/
def artistAutoMatches (topScore gap : Rat) (hasCompetitor : Bool) : Bool :=
  topScore ≥ thresholds.mbAutoLinkScore ||
    (hasCompetitor && topScore ≥ thresholds.strongMatchThreshold && gap ≥ thresholds.mbScoreGap) ||
    (hasCompetitor && MID_BAND_LOWER ≤ topScore && topScore ≤ MID_BAND_UPPER &&
      gap ≥ MID_BAND_GAP_THRESHOLD)

def decideArtistZone (topScore gap : Rat) (hasCompetitor : Bool) :
    MatchStatus × Option ReasonCode × Option String :=
  if artistAutoMatches thresholds topScore gap hasCompetitor then (.autoMatched, none, none)
  else if hasCompetitor && topScore ≥ thresholds.strongMatchThreshold then
    (.needsReview, some .ambiguousGap, some (formatAmbiguousGap gap thresholds.mbScoreGap))
  else (.needsReview, some .lowConfidence, some (formatLowConfidence topScore))

theorem decideArtistZone_decided (topScore gap : Rat) (hasCompetitor : Bool) :
    (decideArtistZone thresholds topScore gap hasCompetitor).1 = .autoMatched ∨
      (decideArtistZone thresholds topScore gap hasCompetitor).1 = .needsReview := by
  unfold decideArtistZone
  split
  · exact .inl rfl
  · split <;> exact .inr rfl

/-- A result in the zone of its score. -/
def zoned (tier : MatchTier) (topScore gap : Rat) (hasCompetitor : Bool) (targetId : String)
    (mbCandidate : Option MbArtistResult) : ArtistSearchResult where
  status := (decideArtistZone thresholds topScore gap hasCompetitor).1
  tier
  confidenceScore := topScore
  targetId
  reasonCode := (decideArtistZone thresholds topScore gap hasCompetitor).2.1
  reasonDetail := (decideArtistZone thresholds topScore gap hasCompetitor).2.2
  decided := decideArtistZone_decided thresholds topScore gap hasCompetitor
  mbCandidate

/-- An exact hit. -/
def exactly (tier : MatchTier) (targetId : String) : ArtistSearchResult where
  status := .autoMatched
  tier
  confidenceScore := 100
  targetId
  decided := .inl rfl

/-! ## The local strategies -/

def artistRuleMatches (sourcePattern normalizedValue : String) : Bool :=
  sourcePattern = normalizedValue || texts.fullmatch sourcePattern normalizedValue

def artistMappingRule (rules : List MappingRule) (artist : BroadcastArtist) :
    Option ArtistSearchResult :=
  (rules.find? fun rule => rule.targetType = .artist &&
    artistRuleMatches texts rule.sourcePattern artist.normalizedName).map fun rule =>
      exactly .manual rule.targetId

/-- A catalog artist of exactly this name: one with an MBID before a local one. -/
def exactCanonical (canonical : List CanonicalArtist) (target : String) : Option String :=
  (canonical.findSome? fun artist => artist.mbid.filter fun _ =>
    texts.normalizeArtist artist.name = target).or
  ((canonical.find? fun artist => artist.mbid.isNone &&
    texts.normalizeArtist artist.name = target).map CanonicalArtist.id)

/-- The artists with an MBID that the linker did not give them, by their likeness. -/
def fuzzyCanonical (canonical : List CanonicalArtist) (target : String) : List (Rat × String) :=
  (canonical.filterMap fun artist => (artist.mbid.filter fun _ => !artist.linkedByLookup).map
    fun mbid =>
      (texts.tokenSortRatio target (texts.normalizeArtist artist.name), mbid)).insertionSort
      fun first second => first.1 > second.1 ∨ first.1 = second.1 ∧ first.2 ≤ second.2

def normalizationStrategy (canonical : List CanonicalArtist) (artist : BroadcastArtist) :
    Option ArtistSearchResult :=
  match exactCanonical texts canonical artist.normalizedName with
  | some targetId => some (exactly .normalization targetId)
  | none =>
    match fuzzyCanonical texts canonical artist.normalizedName with
    | [] => none
    | (topScore, mbid) :: rest =>
      if topScore < thresholds.minPresentationScore then none
      else
        let gap := match rest with
          | (second, _) :: _ => topScore - second
          | [] => 100
        some (zoned thresholds .normalization topScore gap (!rest.isEmpty) mbid none)

/-- What the local engine makes of an artist. -/
def resolveLocally (rules : List MappingRule) (canonical : List CanonicalArtist)
    (artist : BroadcastArtist) : Option ArtistSearchResult :=
  (artistMappingRule texts rules artist).or
    (normalizationStrategy texts thresholds canonical artist)

/-! ## MusicBrainz -/

def isLikelyTruncated (name : String) (maxLen : Int) : Bool :=
  match name.toList.getLast? with
  | none => false
  | some last => name.length ≥ maxLen - TRUNCATION_TOLERANCE_CHARS && texts.isAlnum last

/-- The candidates among the results, the best first. -/
def artistCandidates (results : List MbArtistResult) : List MbArtistResult :=
  (results.filter fun result => result.score.getD 0 ≥ MB_MIN_CANDIDATE_SCORE).insertionSort
    fun first second => first.score.getD 0 > second.score.getD 0 ∨
      first.score.getD 0 = second.score.getD 0 ∧ first.id ≤ second.id

/-- What the search results of an artist make of it. -/
def artistMatchOf (results : List MbArtistResult) : Option ArtistSearchResult :=
  match artistCandidates results with
  | [] => none
  | best :: rest =>
    let second := match rest with
      | second :: _ => second.score.getD 0
      | [] => 0
    some (zoned thresholds .musicbrainzApi (best.score.getD 0)
      ((best.score.getD 0 - second : Int) : Rat) (!rest.isEmpty) best.id (some best))

abbrev SearchMap := Dict String (List MbArtistResult)

/-- The results of an artist's name: those in the map, or else those of a live search. -/
def artistResultsOf (client : ArtistClient) (searchMap : Option SearchMap)
    (artist : BroadcastArtist) : ArtistM (List MbArtistResult) :=
  match searchMap.bind fun searched => searched.get? (texts.lower artist.originalName) with
  | some results => pure results
  | none => searchArtist client artist.originalName

def musicBrainzApi (client : ArtistClient) (searchMap : Option SearchMap)
    (artist : BroadcastArtist) : ArtistM (Option ArtistSearchResult) := do
  return artistMatchOf thresholds (← artistResultsOf texts client searchMap artist)

def truncatedNameMb (client : ArtistClient) (searchMap : Option SearchMap)
    (artist : BroadcastArtist) : ArtistM (Option ArtistSearchResult) :=
  if !isLikelyTruncated texts artist.originalName thresholds.broadcastNameMaxLen then pure none
  else musicBrainzApi texts thresholds client searchMap artist

def deferredRetry : ArtistSearchResult where
  status := .needsReview
  tier := .unclassified
  confidenceScore := 0
  targetId := ""
  reasonCode := some .deferredRetry
  reasonDetail := some formatDeferredRetry
  decided := .inr rfl

/-- What the second phase's engine makes of an artist. -/
def resolveDeferring (client : ArtistClient) (searchMap : Option SearchMap)
    (artist : BroadcastArtist) : ArtistM (Option ArtistSearchResult) := do
  match ← truncatedNameMb texts thresholds client searchMap artist with
  | some result => return some result
  | none => return some deferredRetry

/-! ## The phases -/

/-- The first of some spellings. -/
def representative (originals : List String) : String := (originals.insertionSort (· ≤ ·)).headD ""

/-- The results of a name's search; a search that fails is left out. -/
def searchBucket (client : ArtistClient) (found : SearchMap) (bucket : String × List String) :
    ArtistM SearchMap :=
  tryCatch (do return found.set bucket.1 (← searchArtist client (representative bucket.2)))
    fun
      | .http _ => return found
      | error => throw error

/-- One search for all the spellings of a name. -/
def coalesceArtistSearches (client : ArtistClient) (pending : List BroadcastArtist) :
    ArtistM (SearchMap × Nat) := do
  let buckets := Dict.group texts.lower (pending.map BroadcastArtist.originalName)
  let found ← buckets.entries.foldlM (searchBucket client) .empty
  return (found, buckets.size)

def runLocalPhase (rules : List MappingRule) (canonical : List CanonicalArtist)
    (pending : List BroadcastArtist) : Dict Uuid ArtistSearchResult × List BroadcastArtist :=
  pending.foldl (fun (resolved, unresolved) artist =>
    match resolveLocally texts thresholds rules canonical artist with
    | some result => (resolved.set artist.id result, unresolved)
    | none => (resolved, unresolved ++ [artist])) (.empty, [])

def buildTruncatedSearchMap (client : ArtistClient) (unresolved : List BroadcastArtist) :
    ArtistM (SearchMap × Nat) :=
  let truncated := unresolved.filter fun artist =>
    isLikelyTruncated texts artist.originalName thresholds.broadcastNameMaxLen
  if truncated = [] then return (.empty, 0)
  else coalesceArtistSearches texts client truncated

def runMbOrDeferredPhase (client : ArtistClient) (searchMap : SearchMap)
    (unresolved : List BroadcastArtist) : ArtistM (Dict Uuid ArtistSearchResult) :=
  unresolved.foldlM (fun out artist => do
    match ← resolveDeferring texts thresholds client (some searchMap) artist with
    | some result => return out.set artist.id result
    | none => throw (.unresolved artist.id)) .empty

/-- The results of a playlist's pending artists. -/
def artistResultsForPlaylist (client : ArtistClient) (rules : List MappingRule)
    (canonical : List CanonicalArtist) (pending : List BroadcastArtist) :
    ArtistM (Dict Uuid ArtistSearchResult) := do
  let (resolved, unresolved) := runLocalPhase texts thresholds rules canonical pending
  let (searchMap, _) ← buildTruncatedSearchMap texts thresholds client unresolved
  let second ← runMbOrDeferredPhase texts thresholds client searchMap unresolved
  return second.entries.foldl (fun results entry => results.set entry.1 entry.2) resolved

/-- An artist resolved alone, with a live search. -/
def resolveAlone (client : ArtistClient) (rules : List MappingRule)
    (canonical : List CanonicalArtist) (artist : BroadcastArtist) : ArtistM ArtistSearchResult := do
  match resolveLocally texts thresholds rules canonical artist with
  | some result => return result
  | none =>
    match ← resolveDeferring texts thresholds client none artist with
    | some result => return result
    | none => throw (.unresolved artist.id)

end

end RetroStation.Matching
