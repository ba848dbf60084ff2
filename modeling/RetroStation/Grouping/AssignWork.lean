import RetroStation.Curation.Masters
import RetroStation.Grouping.PartNumber
import RetroStation.Library.MissingFiles
import RetroStation.Transition.Run

/-! # Assigning works

A file is put on the work of a file with the same audio, on that of its recording, on the
work of its artist whose title is most like its own, or on a new local work.
-/

namespace RetroStation.Grouping

open Library Matching

/-- What normalization makes of texts, and how alike a library finds two of them. -/
structure TitleRules where
  normalizeArtist : String → String
  normalizeTitle : String → String
  extractVersionInfo : String → String × VersionType
  ratio : String → String → ℚ
  partialRatio : String → String → ℚ

namespace TitleRules

variable (rules : TitleRules)

/-- Only letters, digits and single blanks. -/
def strictNormalize (text : String) : String :=
  let stripped := (rules.normalizeTitle text).toList.map fun char =>
    if char.isLower ∨ char.isDigit ∨ char = ' ' then char else ' '
  String.ofList ([' '].intercalate ((stripped.splitOn ' ').filter (· ≠ [])))

/-- A title as it is compared: normalized, with its part number spelled one way. -/
def canonicalTitle (title : String) : String :=
  canonicalizePartNumber (rules.normalizeTitle title)

def partOf (title : String) : Option Int := titlePartNumber (rules.canonicalTitle title)

/-- A file's title without its version. -/
def baseTitle (file : LibraryFile) : String :=
  (rules.extractVersionInfo (file.audio.trackTitle.getD "")).1

def artistOf (file : LibraryFile) : String :=
  rules.normalizeArtist (file.audio.artistName.getD "")

end TitleRules

/-- The work and the recording a file is put on. -/
structure GroupingResult where
  workId : String
  recordingId : Option String := none
  deriving DecidableEq, Repr

/-- The score a title must reach, by its length. -/
def dynamicThreshold (titleLength : Nat) : ℚ :=
  if titleLength < 5 then 95
  else if titleLength < 10 then 90
  else if titleLength ≤ 25 then 85
  else 80

section

variable (rules : TitleRules) (db : Database)

/-! ## Shortcuts -/

def tryAudioHashShortcut (file : LibraryFile) : Option GroupingResult :=
  file.audioHash.bind fun audioHash =>
    (getByAudioHash db.files audioHash).findSome? fun existing =>
      if existing.id ≠ file.id then
        existing.workId.map fun workId => ⟨workId, existing.recordingId⟩
      else none

def tryMbidShortcut (file : LibraryFile) : Option GroupingResult :=
  (truthy file.audio.recordingMbid).bind fun mbid =>
    (db.recordings.find? fun recording => recording.id = mbid).bind fun recording =>
      (truthy recording.workId).map fun workId => ⟨workId, some recording.id⟩

/-! ## The most alike work -/

/-- Works of the artist in title order, at most `limit` of them. -/
def getCandidatesByNormalizedArtist (normalizedName : String) (limit : Nat) :
    List (String × String) :=
  (((db.works.filter fun work => db.catalog.any fun artist =>
    artist.id = work.artistId ∧ artist.normalizedName = some normalizedName).insertionSort
      fun first second => first.title ≤ second.title).take limit).map fun work =>
        (work.id, work.title)

/-- The best candidate so far. -/
structure Best where
  score : ℚ := -1
  workId : Option String := none

/-- A candidate whose part number is another is passed over; of equal scores the smaller
id wins. -/
def consider (normBase : String) (best : Best) (candidate : String × String) : Best :=
  let normCandidate := rules.canonicalTitle candidate.2
  if titlePartNumber normCandidate ≠ titlePartNumber normBase then best
  else
    let score :=
      if rules.strictNormalize normBase = rules.strictNormalize normCandidate then 100
      else 7 / 10 * rules.ratio normBase normCandidate +
        3 / 10 * rules.partialRatio normBase normCandidate
    if score > best.score ∨ (score = best.score ∧ best.workId.all (candidate.1 < ·)) then
      ⟨score, some candidate.1⟩
    else best

def fuzzyMatchWork (normBase normArtist : String) : Option String :=
  if normBase = "" then none
  else
    let candidates := getCandidatesByNormalizedArtist db normArtist 100
    let normBase := canonicalizePartNumber normBase
    let best := candidates.foldl (consider rules normBase) {}
    if dynamicThreshold normBase.length ≤ best.score then best.workId else none

/-! ## A local work -/

/-- The ids that the inserts of one call take. -/
structure NewIds where
  artistId : String
  workId : String
  recordingId : String

/-- The artist of the name, stored if there is none; a used id refuses the insert. -/
def upsertLocalArtist (artistId normalizedName : String) : Option (Database × String) :=
  match db.catalog.find? fun artist => artist.normalizedName = some normalizedName with
  | some artist => some (db, artist.id)
  | none =>
    if db.catalog.any fun artist => artist.id = artistId then none
    else some ({ db with
      catalog := db.catalog ++ [⟨artistId, none, some normalizedName⟩] }, artistId)

def getByArtist (artistId : String) : List Work :=
  db.works.filter fun work => work.artistId = artistId

/-- The artist's work whose title normalizes to the same, or else a new one with the file as
its master. -/
def createLocalWork (file : LibraryFile) (ids : NewIds) (baseTitle normArtist : String) :
    Option (Database × String) := do
  let (db, artistId) ← upsertLocalArtist db ids.artistId normArtist
  match (getByArtist db artistId).find? fun existing =>
      rules.normalizeTitle existing.title = rules.normalizeTitle baseTitle with
  | some existing => pure (db, existing.id)
  | none =>
    let stored ← Curation.createLocalWork db file.id
      { id := ids.workId, title := baseTitle, artistId := artistId }
    pure (stored, ids.workId)

def findOrCreateWork (file : LibraryFile) (ids : NewIds) : Option (Database × String) :=
  let baseTitle := rules.baseTitle file
  let normArtist := rules.artistOf file
  match fuzzyMatchWork rules db (rules.normalizeTitle baseTitle) normArtist with
  | some workId => some (db, workId)
  | none => createLocalWork rules db file ids baseTitle normArtist

/-- The work's recording of the version, stored if there is none. -/
def getOrCreateLocal (recordingId workId : String) (versionType : VersionType) (title : String) :
    Option (Database × String) :=
  match db.recordings.find? fun recording =>
      recording.workId = some workId ∧ recording.versionType = versionType with
  | some recording => some (db, recording.id)
  | none =>
    if db.recordings.any fun recording => recording.id = recordingId then none
    else some ({ db with
      recordings := db.recordings ++
        [{ id := recordingId, title := title, workId := some workId,
           versionType := versionType }] }, recordingId)

/-- A file without an artist or a title is put on no work. -/
def assignWork (file : LibraryFile) (ids : NewIds) :
    Option (Database × Option GroupingResult) :=
  let rawTitle := file.audio.trackTitle.getD ""
  if Text.stripText (file.audio.artistName.getD "") = "" ∨ Text.stripText rawTitle = ""
  then some (db, none)
  else
    match (tryAudioHashShortcut db file).or (tryMbidShortcut db file) with
    | some shortcut => some (db, some shortcut)
    | none => do
      let (db, workId) ← findOrCreateWork rules db file ids
      let (db, recordingId) ← getOrCreateLocal db ids.recordingId workId
        (rules.extractVersionInfo rawTitle).2 rawTitle
      pure (db, some ⟨workId, some recordingId⟩)

end

/-! ## The machine -/

/-- A call on a file, or whatever else changes the file rows between calls. -/
inductive GroupingAction
  | assign (file : LibraryFile) (ids : NewIds)
  | changeFiles (files : List LibraryFile)

def groupingMachine (rules : TitleRules) :
    Transition.Machine Database GroupingAction (Option GroupingResult) where
  step db
    | .assign file ids => assignWork rules db file ids
    | .changeFiles files => some ({ db with files := files }, none)

/-- No shortcut places the file, if the action is a call. -/
def NoShortcut (db : Database) : GroupingAction → Prop
  | .assign file _ => tryAudioHashShortcut db file = none ∧ tryMbidShortcut db file = none
  | .changeFiles _ => True

instance (db : Database) : (action : GroupingAction) → Decidable (NoShortcut db action)
  | .assign _ _ => inferInstanceAs (Decidable (_ ∧ _))
  | .changeFiles _ => .isTrue trivial

end RetroStation.Grouping
