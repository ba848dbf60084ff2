import RetroStation.Library.Values

/-! # Cue analysis

The audio that needs analysis, what the analyser says of it, and the row that is stored.
-/

namespace RetroStation.Cues

open Library

abbrev AudioHash := String

/-- Audio that needs analysis, and the file that it is read from. -/
structure CueCandidate where
  fileId : Uuid
  path : String
  audioHash : AudioHash
  durationMs : Option Int := none
  fileSize : Option Int := none
  fileMtimeNs : Option Int := none
  deriving DecidableEq, Repr

structure DiskStat where
  size : Int
  mtimeNs : Int
  deriving DecidableEq, Repr

structure CuePoints where
  cueInMs : Int
  cueOutMs : Int
  fadeInMs : Int
  fadeOutMs : Int
  startNextMs : Int
  gainDb : Rat
  deriving DecidableEq, Repr

/-- The result of analysing one audio, as stored. -/
structure CueAnalysis where
  audioHash : AudioHash
  cues : CuePoints
  analysisFailed : Bool
  analyserVersion : Int
  audioSilent : Bool := false
  deriving DecidableEq, Repr

/-- What became of one candidate. -/
inductive Outcome
  | unreadable
  | analysed
  | failed
  | silent
  | noDuration
  | changed
  deriving DecidableEq, Repr

/-- The outcomes that store a row. -/
def Outcome.stored : Outcome → Bool
  | .analysed | .failed | .silent => true
  | .unreadable | .noDuration | .changed => false

abbrev Metadata := List (String × String)

/-- What one batch produced, by file index. -/
structure BatchAnalysis where
  metadata : Nat → Option Metadata := fun _ => none
  stalled : Option Nat := none
  rejected : Nat → Option String := fun _ => none

/-- The analyser's output of one file read as cue points. -/
inductive Verdict
  | points (cues : CuePoints)
  | silent
  | unusable (reason : String)
  deriving DecidableEq, Repr

/-- One candidate and what autocue said about it: its output, or why there is none. -/
structure Autocued where
  candidate : CueCandidate
  metadata : Except String Metadata

def fallbackGainDb : Rat := -8

/-- The row of a file whose analysis gave no cues, if its duration is known. -/
def fallbackPoints (durationMs : Option Int) (defaultFadeOutMs : Int) : Option CuePoints :=
  match durationMs with
  | some duration =>
    if duration ≤ 0 then none
    else some {
      cueInMs := 0
      cueOutMs := duration
      fadeInMs := 0
      fadeOutMs := defaultFadeOutMs
      startNextMs := 0
      gainDb := fallbackGainDb }
  | none => none

/-- Why the file on disk may not be the file hashed. A stat that is not stored is not compared. -/
def statProblem (disk : Option DiskStat) (candidate : CueCandidate) : Option Outcome :=
  match disk with
  | none => some .unreadable
  | some stat =>
    match candidate.fileSize, candidate.fileMtimeNs with
    | some size, some mtimeNs =>
      if stat.size ≠ size ∨ stat.mtimeNs ≠ mtimeNs then some .changed else none
    | _, _ => none

/-- What the analyser is, and how its output and a fallback row are read. -/
structure CueReader where
  analyserVersion : Int
  defaultFadeOutMs : Int
  autocuePoints : Metadata → Verdict

variable (reader : CueReader)

def verdictOf (autocued : Autocued) : Verdict :=
  match autocued.metadata with
  | .error reason => .unusable reason
  | .ok metadata => reader.autocuePoints metadata

/-- Store a row over the one of its audio. -/
def upsertCues (rows : List CueAnalysis) (analysis : CueAnalysis) : List CueAnalysis :=
  rows.filter (fun row => row.audioHash ≠ analysis.audioHash) ++ [analysis]

/-- The outcome, once the row is stored; it is stored while the file still carries the hash. -/
def storedAs (rows : List CueAnalysis) (analysis : CueAnalysis) (current : Bool)
    (outcome : Outcome) : Outcome × List CueAnalysis :=
  if current then (outcome, upsertCues rows analysis) else (.changed, rows)

/-- Write the one result that matters of a candidate: the cues, or a fallback row. -/
def recordAnalysis (rows : List CueAnalysis) (current : Bool) (autocued : Autocued) :
    Outcome × List CueAnalysis :=
  let candidate := autocued.candidate
  match verdictOf reader autocued with
  | .points cues => storedAs rows {
      audioHash := candidate.audioHash
      cues
      analysisFailed := false
      analyserVersion := reader.analyserVersion } current .analysed
  | verdict =>
    match fallbackPoints candidate.durationMs reader.defaultFadeOutMs with
    | none => (.noDuration, rows)
    | some cues =>
      let silent := verdict = .silent
      storedAs rows {
        audioHash := candidate.audioHash
        cues
        analysisFailed := true
        analyserVersion := reader.analyserVersion
        audioSilent := silent } current (if silent then .silent else .failed)

/-! ## What is stored -/

theorem statProblem_not_stored {disk : Option DiskStat} {candidate : CueCandidate}
    {problem : Outcome} (hproblem : statProblem disk candidate = some problem) :
    problem.stored = false ∧ problem ≠ .noDuration := by
  unfold statProblem at hproblem
  split at hproblem
  · obtain rfl := Option.some.inj hproblem
    exact ⟨rfl, nofun⟩
  · split at hproblem
    · split at hproblem
      · obtain rfl := Option.some.inj hproblem
        exact ⟨rfl, nofun⟩
      · cases hproblem
    · cases hproblem

variable {reader} {rows : List CueAnalysis} {current : Bool} {autocued : Autocued}

theorem upsertCues_hashes {analysis : CueAnalysis} {audioHash : AudioHash} :
    audioHash ∈ (upsertCues rows analysis).map CueAnalysis.audioHash ↔
      audioHash ∈ rows.map CueAnalysis.audioHash ∨ audioHash = analysis.audioHash := by
  simp only [upsertCues, List.map_append, List.mem_append, List.mem_map, List.mem_filter,
    List.mem_singleton, decide_eq_true_eq]
  constructor
  · rintro (⟨row, ⟨hrow, -⟩, rfl⟩ | ⟨_, rfl, rfl⟩)
    · exact .inl ⟨row, hrow, rfl⟩
    · exact .inr rfl
  · rintro (⟨row, hrow, rfl⟩ | rfl)
    · by_cases hsame : row.audioHash = analysis.audioHash
      · exact .inr ⟨analysis, rfl, hsame.symm⟩
      · exact .inl ⟨row, ⟨hrow, hsame⟩, rfl⟩
    · exact .inr ⟨analysis, rfl, rfl⟩

/-- What is recorded is a row of the candidate's audio, or nothing. -/
theorem recordAnalysis_cases :
    (∃ analysis outcome, analysis.audioHash = autocued.candidate.audioHash ∧
        outcome.stored = true ∧
        recordAnalysis reader rows current autocued = storedAs rows analysis current outcome) ∨
      recordAnalysis reader rows current autocued = (.noDuration, rows) := by
  unfold recordAnalysis
  dsimp only
  split
  · exact .inl ⟨_, _, rfl, rfl, rfl⟩
  · split
    · exact .inr rfl
    · refine .inl ⟨_, _, rfl, ?_, rfl⟩
      split <;> rfl

/-- A row is stored exactly under an outcome that stores one. -/
theorem recordAnalysis_hashes (audioHash : AudioHash) :
    audioHash ∈ (recordAnalysis reader rows current autocued).2.map CueAnalysis.audioHash ↔
      audioHash ∈ rows.map CueAnalysis.audioHash ∨
        (recordAnalysis reader rows current autocued).1.stored = true ∧
          audioHash = autocued.candidate.audioHash := by
  rcases @recordAnalysis_cases reader rows current autocued with
    ⟨analysis, outcome, haudio, hstored, hrecord⟩ | hrecord
  · rw [hrecord, storedAs, ← haudio]
    split
    · rw [upsertCues_hashes, hstored, eq_self_iff_true, true_and]
    · simp [Outcome.stored]
  · rw [hrecord]
    simp [Outcome.stored]

/-- A current candidate has its row stored, unless it has no duration to store. -/
theorem recordAnalysis_current :
    (recordAnalysis reader rows true autocued).1.stored = true ∨
      (recordAnalysis reader rows true autocued).1 = .noDuration := by
  rcases @recordAnalysis_cases reader rows true autocued with
    ⟨analysis, outcome, -, hstored, hrecord⟩ | hrecord
  · rw [hrecord]
    exact .inl hstored
  · rw [hrecord]
    exact .inr rfl

end RetroStation.Cues
