import RetroStation.Dict.Basic
import RetroStation.Library.Statements

/-! # Missing files and their successors

A file moved and retagged in one go is indexed anew, and its old row goes missing. For
each missing row the reconciliation looks for the one present row that holds the same
track, its successor.
-/

namespace RetroStation.Library

/-- How texts are folded, which characters are letters or digits, and the last part of a path. -/
structure Spelling where
  casefold : Char → List Char
  isAlnum : Char → Bool
  fileName : String → String

/-- A remaster or an edit on the same release differs by more than this. -/
def maxDurationDiffMs : Nat := 2000

/-- The formats whose audio can be fingerprinted. -/
def audioHashableFormats : List String := ["flac", "mp3"]

section

variable (spelling : Spelling)

/-- The title in folded case with only its letters and digits, if it has any. -/
def releaseKey (title : Option String) : Option String :=
  title.bind fun title =>
    let key := (title.toList.flatMap spelling.casefold).filter spelling.isAlnum
    if key = [] then none else some (String.ofList key)

def durationsAgree (a b : LibraryFile) : Bool :=
  match a.audio.durationMs, b.audio.durationMs with
  | some first, some second => (first - second).natAbs ≤ maxDurationDiffMs
  | _, _ => false

def sameRecording (a b : LibraryFile) : Bool :=
  a.audio.recordingMbid.isSome ∧ a.audio.recordingMbid = b.audio.recordingMbid ∧
    a.audio.releaseMbid = b.audio.releaseMbid

def releaseTrack (file : LibraryFile) : Option (String × String × Option Int × Int × String) := do
  let release ← releaseKey spelling file.audio.releaseTitle
  let trackNumber ← file.audio.trackNumber
  let normalizedTitle ← file.audio.normalizedTitle
  let normalizedArtistName ← file.audio.normalizedArtistName
  pure (normalizedArtistName, release, file.audio.discNumber, trackNumber, normalizedTitle)

def sameAudio (a b : LibraryFile) : Bool := a.audioHash.isSome ∧ a.audioHash = b.audioHash

/-- The same fingerprint; or, with durations that agree, the same recording on the same
release, or the same place and title on a release of the same letters and digits. -/
def isSameTrack (missing candidate : LibraryFile) : Bool :=
  sameAudio missing candidate ||
    (durationsAgree missing candidate && (sameRecording missing candidate ||
      (releaseTrack spelling missing).isSome &&
        decide (releaseTrack spelling missing = releaseTrack spelling candidate)))

/-! ## Candidates -/

section

variable (files : List LibraryFile)

def getByAudioHash (audioHash : String) : List LibraryFile :=
  orderByPath (files.filter fun row => row.audioHash = some audioHash)

def getPresentByTrack (normalizedArtistName : String) (trackNumber : Int)
    (normalizedTitle : String) : List LibraryFile :=
  orderByPath (files.filter fun row =>
    row.audio.normalizedArtistName = some normalizedArtistName ∧
      row.audio.trackNumber = some trackNumber ∧
      row.audio.normalizedTitle = some normalizedTitle ∧ row.fileStatus = .present)

def getMissing : List LibraryFile :=
  orderByPath (files.filter fun row => row.fileStatus = .missing)

def audioTwins (missing : LibraryFile) : List LibraryFile :=
  match missing.audioHash with
  | none => []
  | some audioHash => getByAudioHash files audioHash

def recordingTwins (missing : LibraryFile) : List LibraryFile :=
  match missing.audio.recordingMbid with
  | none => []
  | some mbid => getByRecordingMbid files mbid

def releaseTrackTwins (missing : LibraryFile) : List LibraryFile :=
  match missing.audio.normalizedArtistName, releaseKey spelling missing.audio.releaseTitle,
    missing.audio.trackNumber, missing.audio.normalizedTitle with
  | some artist, some _, some trackNumber, some title =>
    getPresentByTrack files artist trackNumber title
  | _, _, _, _ => []

/-- Rows that may hold the missing row's track, each once. -/
def successorCandidates (missing : LibraryFile) : List LibraryFile :=
  (Dict.ofList ((audioTwins files missing ++ recordingTwins files missing ++
    releaseTrackTwins spelling files missing).map fun row => (row.id, row))).values

end

/-! ## Choosing -/

/-- The only candidate, else the only one with the missing row's file name. -/
def pick (missing : LibraryFile) (candidates : List LibraryFile) : Option LibraryFile :=
  (onlyOf candidates).or (onlyOf (candidates.filter fun row =>
    spelling.fileName row.filePath = spelling.fileName missing.filePath))

/-- Candidates that can take over the missing row now. -/
def readySuccessors (missing : LibraryFile) (candidates : List LibraryFile) : List LibraryFile :=
  candidates.filter fun row =>
    row.id ≠ missing.id ∧ row.fileStatus = .present ∧ row.workId.isSome ∧
      isSameTrack spelling missing row

/-- Whether the backfill will still give the row a fingerprint. -/
def awaitingFingerprint (row : LibraryFile) : Bool :=
  row.audioHash = none ∧ row.format ∈ audioHashableFormats

/-- An audio match wins once every hashable candidate has its fingerprint. -/
def chooseSuccessor (missing : LibraryFile) (ready : List LibraryFile) : Option LibraryFile :=
  let audio := ready.filter (sameAudio missing)
  if audio ≠ [] ∧ ready.any awaitingFingerprint then none
  else pick spelling missing (if audio ≠ [] then audio else ready)

/-! ## The plan -/

/-- A missing row and the row holding the same track. -/
structure MissingFileMove where
  missingId : Uuid
  missingPath : String
  missingWorkId : Option String
  successorId : Uuid
  successorPath : String
  successorWorkId : Option String
  deriving DecidableEq, Repr

/-- The moves, and the paths of the rows that are left alone. -/
structure MissingFilePlan where
  moves : List MissingFileMove := []
  ambiguous : List String := []
  unmatched : List String := []
  deriving DecidableEq, Repr

def moveTo (missing successor : LibraryFile) : MissingFileMove where
  missingId := missing.id
  missingPath := missing.filePath
  missingWorkId := missing.workId
  successorId := successor.id
  successorPath := successor.filePath
  successorWorkId := successor.workId

/-- A plan as it is made, with the successors already claimed. -/
structure Planning where
  plan : MissingFilePlan := {}
  claimed : List Uuid := []

/-- Pair one missing row. A successor takes over one row only. -/
def planRow (candidatesFor : LibraryFile → List LibraryFile) (planning : Planning)
    (missing : LibraryFile) : Planning :=
  let plan := planning.plan
  let ready := readySuccessors spelling missing (candidatesFor missing)
  if ready = [] then
    { planning with plan := { plan with unmatched := plan.unmatched ++ [missing.filePath] } }
  else
    match chooseSuccessor spelling missing ready with
    | none =>
      { planning with plan := { plan with ambiguous := plan.ambiguous ++ [missing.filePath] } }
    | some successor =>
      if successor.id ∈ planning.claimed then
        { planning with plan := { plan with ambiguous := plan.ambiguous ++ [missing.filePath] } }
      else
        { plan := { plan with moves := plan.moves ++ [moveTo missing successor] }
          claimed := planning.claimed ++ [successor.id] }

/-- The missing rows are paired in path order. -/
def planMissingFileMoves (missingRows : List LibraryFile)
    (candidatesFor : LibraryFile → List LibraryFile) : MissingFilePlan :=
  ((orderByPath missingRows).foldl (planRow spelling candidatesFor) {}).plan

def planForLibrary (files : List LibraryFile) : MissingFilePlan :=
  planMissingFileMoves spelling (getMissing files) (successorCandidates spelling files)

end

/-! ## What the lookups find -/

section

variable {spelling : Spelling} {files : List LibraryFile} {missing row : LibraryFile}

theorem mem_getMissing : row ∈ getMissing files ↔ row ∈ files ∧ row.fileStatus = .missing := by
  simp [getMissing, mem_orderByPath]

theorem mem_audioTwins : row ∈ audioTwins files missing ↔
    row ∈ files ∧ sameAudio missing row = true := by
  unfold audioTwins
  cases hhash : missing.audioHash with
  | none => simp [sameAudio, hhash]
  | some audioHash =>
      simp [getByAudioHash, mem_orderByPath, sameAudio, hhash, @eq_comm _ row.audioHash]

theorem mem_recordingTwins_of (hrow : row ∈ files) (hpresent : row.fileStatus = .present)
    (hsame : sameRecording missing row = true) : row ∈ recordingTwins files missing := by
  simp only [sameRecording, decide_eq_true_eq] at hsame
  unfold recordingTwins
  cases hmbid : missing.audio.recordingMbid with
  | none => simp [hmbid] at hsame
  | some mbid => exact mem_getByRecordingMbid.mpr ⟨hrow, by rw [← hsame.2.1, hmbid], hpresent⟩

/-- What a row that has a place on a release shares with another at the same place. -/
theorem releaseTrack_eq_some {artist release title : String} {disc : Option Int} {number : Int} :
    releaseTrack spelling row = some (artist, release, disc, number, title) ↔
      releaseKey spelling row.audio.releaseTitle = some release ∧
        row.audio.trackNumber = some number ∧ row.audio.normalizedTitle = some title ∧
        row.audio.normalizedArtistName = some artist ∧ row.audio.discNumber = disc := by
  cases hrelease : releaseKey spelling row.audio.releaseTitle <;>
    cases hnumber : row.audio.trackNumber <;> cases htitle : row.audio.normalizedTitle <;>
    cases hartist : row.audio.normalizedArtistName <;>
    (simp [releaseTrack, hrelease, hnumber, htitle, hartist]; try tauto)

/-- The lookup knows no release, but what it finds holds every row at the place. -/
theorem mem_releaseTrackTwins_of (hrow : row ∈ files) (hpresent : row.fileStatus = .present)
    (hkey : (releaseTrack spelling missing).isSome)
    (hsame : releaseTrack spelling missing = releaseTrack spelling row) :
    row ∈ releaseTrackTwins spelling files missing := by
  obtain ⟨⟨artist, release, disc, number, title⟩, hplace⟩ := Option.isSome_iff_exists.mp hkey
  obtain ⟨hrelease, hnumber, htitle, hartist, -⟩ := releaseTrack_eq_some.mp hplace
  obtain ⟨-, hrowNumber, hrowTitle, hrowArtist, -⟩ :=
    releaseTrack_eq_some.mp (hsame.symm.trans hplace)
  simp [releaseTrackTwins, hrelease, hnumber, htitle, hartist, getPresentByTrack, mem_orderByPath,
    hrow, hrowNumber, hrowTitle, hrowArtist, hpresent]

theorem of_mem_twins (hrow : row ∈ audioTwins files missing ++ recordingTwins files missing ++
    releaseTrackTwins spelling files missing) : row ∈ files := by
  rcases List.mem_append.mp hrow with hrow | hrow
  · rcases List.mem_append.mp hrow with hrow | hrow
    · exact (mem_audioTwins.mp hrow).1
    · unfold recordingTwins at hrow
      split at hrow
      · cases hrow
      · exact (mem_getByRecordingMbid.mp hrow).1
  · unfold releaseTrackTwins at hrow
    split at hrow
    · exact List.mem_of_mem_filter (mem_orderByPath.mp hrow)
    · cases hrow

/-- Every present row of the missing row's track is found by one of the three lookups. -/
theorem mem_twins_of_sameTrack (hrow : row ∈ files) (hpresent : row.fileStatus = .present)
    (hsame : isSameTrack spelling missing row = true) :
    row ∈ audioTwins files missing ++ recordingTwins files missing ++
      releaseTrackTwins spelling files missing := by
  simp only [isSameTrack, Bool.or_eq_true, Bool.and_eq_true, decide_eq_true_eq] at hsame
  rw [List.mem_append, List.mem_append]
  rcases hsame with haudio | ⟨-, hrecording | ⟨hkey, hplace⟩⟩
  · exact .inl (.inl (mem_audioTwins.mpr ⟨hrow, haudio⟩))
  · exact .inl (.inr (mem_recordingTwins_of hrow hpresent hrecording))
  · exact .inr (mem_releaseTrackTwins_of hrow hpresent hkey hplace)

theorem nodup_successorCandidates : (successorCandidates spelling files missing).Nodup := by
  set dict := Dict.ofList ((audioTwins files missing ++ recordingTwins files missing ++
    releaseTrackTwins spelling files missing).map fun row => (row.id, row)) with hdict
  have hkeys : dict.values.map LibraryFile.id = dict.keys := by
    rw [Dict.values, Dict.keys, List.map_map]
    refine List.map_congr_left fun entry hentry => ?_
    obtain ⟨found, -, rfl⟩ := List.mem_map.mp (Dict.mem_entries_ofList hentry)
    rfl
  have hnodup : (dict.values.map LibraryFile.id).Nodup := hkeys ▸ dict.nodup
  exact hnodup.of_map

section

variable (hids : Table.UniqueBy LibraryFile.id files)

include hids

theorem mem_successorCandidates : row ∈ successorCandidates spelling files missing ↔
    row ∈ audioTwins files missing ++ recordingTwins files missing ++
      releaseTrackTwins spelling files missing := by
  set twins := audioTwins files missing ++ recordingTwins files missing ++
    releaseTrackTwins spelling files missing with htwins
  have hentry : ∀ {entry : Uuid × LibraryFile},
      entry ∈ (Dict.ofList (twins.map fun row => (row.id, row))).entries →
        entry.2 ∈ twins ∧ entry.1 = entry.2.id := by
    intro entry hentry
    obtain ⟨found, hfound, rfl⟩ := List.mem_map.mp (Dict.mem_entries_ofList hentry)
    exact ⟨hfound, rfl⟩
  constructor
  · intro hrow
    obtain ⟨entry, hmem, rfl⟩ := List.mem_map.mp hrow
    exact (hentry hmem).1
  · intro hrow
    have hkey : row.id ∈ (Dict.ofList (twins.map fun row => (row.id, row))).keys := by
      rw [Dict.mem_keys_ofList, List.map_map]
      exact List.mem_map_of_mem hrow
    obtain ⟨entry, hmem, hid⟩ := List.mem_map.mp hkey
    obtain ⟨hfound, hsame⟩ := hentry hmem
    obtain rfl := hids.eq (of_mem_twins hfound) (of_mem_twins hrow) (hsame.symm.trans hid)
    exact List.mem_map_of_mem hmem

/-- Looking the candidates up finds the ready ones of the whole library. -/
theorem readySuccessors_perm : (readySuccessors spelling missing
    (successorCandidates spelling files missing)).Perm
      (readySuccessors spelling missing files) := by
  have hfiles : files.Nodup := List.Nodup.of_map _ hids
  refine (List.perm_ext_iff_of_nodup (nodup_successorCandidates.filter _)
    (hfiles.filter _)).mpr fun row => ?_
  simp only [List.mem_filter, decide_eq_true_eq]
  constructor
  · rintro ⟨hrow, hready⟩
    exact ⟨of_mem_twins ((mem_successorCandidates hids).mp hrow), hready⟩
  · rintro ⟨hrow, hready⟩
    exact ⟨(mem_successorCandidates hids).mpr
      (mem_twins_of_sameTrack hrow hready.2.1 hready.2.2.2), hready⟩

end

end

end RetroStation.Library
