import RetroStation.Dict.Groups
import RetroStation.Enrichment.Passes
import RetroStation.Text.Words

/-! # Untagged files

A file without MusicBrainz tags is looked for by its artist and title, one search for all files
that share both. A hit is taken where it is the only one that fits; a file that no one hit fits
stays pending, and is listed.
-/

namespace RetroStation.Enrichment

open Library Curation Text

/-- The version and the rest of a title, and how titles are compared. -/
structure UntaggedConfig extends EnrichmentConfig where
  baseOfTitle : String → String
  normalizeTitle : String → String

/-- A client that searches recordings of an artist by their title, too. -/
structure SearchClient extends MbClient where
  searchRecording : String → String → List MbRecording

/-- How far a recording's length may be from the file's duration, in milliseconds. -/
def DURATION_TOLERANCE_MS : Int := 5000

inductive PickOutcome
  | confident
  | ambiguous
  | empty
  deriving DecidableEq, Repr

/-- What the search said about one file. -/
structure RecordingPick where
  outcome : PickOutcome
  recordingMbid : Option String
  candidateMbids : List String
  deriving DecidableEq, Repr

section

variable (config : UntaggedConfig)

/-- The title sent to MusicBrainz: without its version, its blanks single. -/
def queryTitle (trackTitle : String) : String :=
  String.ofList (squeeze (config.baseOfTitle trackTitle).toList)

/-- The title files are grouped and compared by. -/
def searchTitle (trackTitle : String) : String :=
  config.normalizeTitle (queryTitle config trackTitle)

def creditedTo (hit : MbRecording) (artistMbid : String) : Bool :=
  hit.artistCredit.any fun credit => credit.artist.bind MbArtistRef.id = some artistMbid

/-- Live must agree both ways; a plain title may be any other version. -/
def versionCompatible (fileVersion hitVersion : VersionType) : Bool :=
  if decide (fileVersion = .live) ≠ decide (hitVersion = .live) then false
  else hitVersion = .original || hitVersion = fileVersion

variable (file : LibraryFile) (artistMbid : String)

/-- A hit that carries the file's title, is credited to the artist and may be its version. -/
def isCandidate (hit : MbRecording) : Bool :=
  let title := file.audio.trackTitle.getD ""
  (truthy hit.id).isSome && creditedTo hit artistMbid &&
    searchTitle config (hit.title.getD "") = searchTitle config title &&
    versionCompatible (config.versionOfTitle title) (recordingVersionType config.toTextReader hit)

/-- The length is known and near the duration. -/
def lengthWithin (tolerance duration : Int) (hit : MbRecording) : Bool :=
  hit.length.any fun length => |length - duration| ≤ tolerance

/-- The hits that fit the duration; without one, a hit that is the only candidate. -/
def chosenOf (durationMs : Option Int) (tolerance : Int) (candidates : List MbRecording) :
    List MbRecording :=
  match durationMs with
  | none => if candidates.length = 1 then candidates else []
  | some duration => candidates.filter (lengthWithin tolerance duration)

/-- Which search hit is this file, if the answer is unambiguous. -/
def pickRecording (hits : List MbRecording) (tolerance : Int) : RecordingPick :=
  let candidates := hits.filter (isCandidate config file artistMbid)
  let candidateMbids := candidates.filterMap MbRecording.id
  if candidates = [] then ⟨.empty, none, []⟩
  else
    match chosenOf file.audio.durationMs tolerance candidates with
    | [hit] => ⟨.confident, hit.id, candidateMbids⟩
    | _ => ⟨.ambiguous, none, candidateMbids⟩

end

/-! ## The pairs -/

/-- A file whose artist has an MBID. -/
structure UntaggedCandidate where
  file : LibraryFile
  artistMbid : String
  deriving DecidableEq, Repr

/-- The files one search answers for: what is sent, and what they were grouped by. -/
structure UntaggedPair where
  artistMbid : String
  title : String
  normalizedTitle : String
  files : List LibraryFile
  deriving DecidableEq, Repr

section

variable (config : UntaggedConfig)

def addCandidate (groups : Dict (String × String) (String × List LibraryFile))
    (candidate : UntaggedCandidate) : Dict (String × String) (String × List LibraryFile) :=
  let trackTitle := candidate.file.audio.trackTitle.getD ""
  let normalized := searchTitle config trackTitle
  if normalized = "" then groups
  else
    let key := (candidate.artistMbid, normalized)
    let (title, files) := (groups.get? key).getD (queryTitle config trackTitle, [])
    groups.set key (title, files ++ [candidate.file])

/-- The candidates by artist and title, in the order they first came. -/
def untaggedPairs (candidates : List UntaggedCandidate) : List UntaggedPair :=
  (candidates.foldl (addCandidate config) .empty).entries.map
    fun ((artistMbid, normalizedTitle), (title, files)) =>
      { artistMbid, title, normalizedTitle, files }

/-- A file left pending, and why. -/
structure SkippedFile where
  filePath : String
  outcome : PickOutcome
  candidateMbids : List String
  deriving DecidableEq, Repr

structure PairOutcome where
  enriched : Nat
  skipped : List SkippedFile
  deriving DecidableEq, Repr

def pickOf (artistMbid : String) (hits : List MbRecording) (file : LibraryFile) : RecordingPick :=
  pickRecording config file artistMbid hits DURATION_TOLERANCE_MS

/-- A file goes to its recording's files, or to the skipped ones. -/
def placeFile (artistMbid : String) (hits : List MbRecording)
    (placed : Dict String (List LibraryFile) × List SkippedFile) (file : LibraryFile) :
    Dict String (List LibraryFile) × List SkippedFile :=
  let pick := pickOf config artistMbid hits file
  match pick.recordingMbid with
  | none => (placed.1, placed.2 ++ [⟨file.filePath, pick.outcome, pick.candidateMbids⟩])
  | some recordingMbid =>
    let files := (placed.1.get? recordingMbid).getD []
    (placed.1.set recordingMbid (files ++ [file]), placed.2)

def placeFiles (artistMbid : String) (hits : List MbRecording) (files : List LibraryFile) :
    Dict String (List LibraryFile) × List SkippedFile :=
  files.foldl (placeFile config artistMbid hits) (.empty, [])

variable (client : SearchClient)

/-- The per-recording path for each recording's files, and how many were enriched. -/
def enrichRecordings (db : Database) : List (String × List LibraryFile) → Option (Nat × Database)
  | [] => some (0, db)
  | (recordingMbid, files) :: rest => do
    let (enriched, db) ←
      enrichFilesByRecording config.toEnrichmentConfig client.toMbClient db recordingMbid files
    let (count, db) ← enrichRecordings db rest
    return (enriched + count, db)

/-- One search for the pair, then the per-recording path for every confident file. -/
def enrichUntaggedPair (db : Database) (pair : UntaggedPair) : Option (PairOutcome × Database) :=
  let hits := client.searchRecording pair.artistMbid pair.title
  let (byRecording, skipped) := placeFiles config pair.artistMbid hits pair.files
  (enrichRecordings config client db byRecording.entries).map fun (enriched, db) =>
    (⟨enriched, skipped⟩, db)

end

end RetroStation.Enrichment
