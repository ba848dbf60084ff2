import RetroStation.Cues.Autocue

/-! # Rows of cues

Cue points are kept in integer columns. A value that is out of their range is refused by the
database, which ends the run that stores it.
-/

namespace RetroStation.Cues.Columns

open Text Effect
open Streaming (StreamTiming)

def INT_MAX : Int := 2 ^ 31 - 1

/-- A value of an integer column. -/
structure Int4 where
  value : Int
  lower : -2 ^ 31 ≤ value
  upper : value ≤ INT_MAX

def Int4.ofInt (column : String) (value : Int) : Except Raised Int4 :=
  if hrange : -2 ^ 31 ≤ value ∧ value ≤ INT_MAX then .ok ⟨value, hrange.1, hrange.2⟩
  else .error (.outOfRange column)

/-- What a column of single precision gives back for a number, or none for one that is out of its
range. Integers of 24 bits are kept. -/
structure RealColumn where
  keep : ℚ → Option ℚ
  keep_int : ∀ value : Int, |value| ≤ 2 ^ 24 → keep value = some (value : ℚ)

/-- A fingerprint's digest lengths, by kind. -/
def DIGEST_LENGTH : List (String × Nat) := [("flac-md5", 32), ("audio-sha256", 64)]

def isLowerHex (char : Char) : Bool := char.isDigit || ('a' ≤ char && char ≤ 'f')

/-- The texts that are read as fingerprints. -/
def isAudioHash (text : String) : Bool :=
  let kind := text.toList.takeWhile (· ≠ ':')
  let digest := (text.toList.dropWhile (· ≠ ':')).drop 1
  DIGEST_LENGTH.lookup (String.ofList kind) = some digest.length && digest.all isLowerHex

/-- Audio that needs analysis, with its fingerprint. -/
structure HashedCandidate extends CueCandidate where
  isAudioHash_audioHash : isAudioHash audioHash

/-- A row of `stream_cues`. -/
structure StreamCueRow where
  audioHash : String
  cueInMs : Int4
  cueOutMs : Int4
  fadeInMs : Int4
  fadeOutMs : Int4
  startNextMs : Int4
  gainDb : ℚ
  analyserVersion : Int4
  analysisFailed : Bool
  audioSilent : Bool

def CUE_ANALYSER_VERSION : Int := 1

section

variable (real : RealColumn)

def realColumn (column : String) (value : ℚ) : Except Raised ℚ :=
  match real.keep value with
  | some kept => .ok kept
  | none => .error (.outOfRange column)

/-- The column's check: a fingerprint. -/
def hashColumn (audioHash : String) : Except Raised String :=
  if isAudioHash audioHash then .ok audioHash else .error .badHash

/-- The row that an analysis is inserted as. -/
def insertedRow (analysis : CueAnalysis) : Except Raised StreamCueRow := do
  let audioHash ← hashColumn analysis.audioHash
  let cueInMs ← Int4.ofInt "cue_in_ms" analysis.cues.cueInMs
  let cueOutMs ← Int4.ofInt "cue_out_ms" analysis.cues.cueOutMs
  let fadeInMs ← Int4.ofInt "fade_in_ms" analysis.cues.fadeInMs
  let fadeOutMs ← Int4.ofInt "fade_out_ms" analysis.cues.fadeOutMs
  let startNextMs ← Int4.ofInt "start_next_ms" analysis.cues.startNextMs
  let gainDb ← realColumn real "gain_db" analysis.cues.gainDb
  let analyserVersion ← Int4.ofInt "analyser_version" analysis.analyserVersion
  return ⟨audioHash, cueInMs, cueOutMs, fadeInMs, fadeOutMs, startNextMs, gainDb,
    analyserVersion, analysis.analysisFailed, analysis.audioSilent⟩

/-- Store a row over the one of its audio. -/
def upsertRow (rows : List StreamCueRow) (row : StreamCueRow) : List StreamCueRow :=
  rows.filter (fun other => other.audioHash ≠ row.audioHash) ++ [row]

/-- Store an analysis while the file still carries the hash; whether it was stored. -/
def storeIfCurrent (rows : List StreamCueRow) (analysis : CueAnalysis) (current : Bool) :
    Except Raised (Bool × List StreamCueRow) :=
  if current then (insertedRow real analysis).map fun row => (true, upsertRow rows row)
  else .ok (false, rows)

/-- The outcome, once the analysis is stored. -/
def recordedAs (rows : List StreamCueRow) (analysis : CueAnalysis) (current : Bool)
    (outcome : Outcome) : Except Raised (Outcome × List StreamCueRow) := do
  let (kept, rows) ← storeIfCurrent real rows analysis current
  return (if kept then outcome else .changed, rows)

end

/-- The points that a row holds. -/
def StreamCueRow.points (row : StreamCueRow) : CuePoints :=
  ⟨row.cueInMs.value, row.cueOutMs.value, row.fadeInMs.value, row.fadeOutMs.value,
    row.startNextMs.value, row.gainDb⟩

/-- The values of a row, unchecked. -/
def StreamCueRow.values (row : StreamCueRow) : CueAnalysis :=
  ⟨row.audioHash, row.points, row.analysisFailed, row.analyserVersion.value, row.audioSilent⟩

/-- The analysis that a row describes; none for an invalid row. -/
def rowAnalysis (row : StreamCueRow) : Option CueAnalysis :=
  if !isAudioHash row.audioHash then none
  else if row.points.problem.isSome then none
  else if row.analyserVersion.value < 1 ∨ (row.audioSilent ∧ !row.analysisFailed) then none
  else some row.values

section

variable (digits : Digits) (repr : String → String) (real : RealColumn) (timing : StreamTiming)

/-- What the analyser said: a rejected line's reason as it is, or its metadata read. -/
def verdict (metadata : Except String Metadata) : Except Raised Verdict :=
  match metadata with
  | .error reason => .ok (.unusable reason)
  | .ok metadata => autocuePoints digits repr metadata

/-- Analyse one candidate and write the one result that matters. -/
def recordAnalysis (rows : List StreamCueRow) (current : Bool) (candidate : HashedCandidate)
    (metadata : Except String Metadata) : Except Raised (Outcome × List StreamCueRow) := do
  match ← verdict digits repr metadata with
  | .points cues => recordedAs real rows {
      audioHash := candidate.audioHash
      cues
      analysisFailed := false
      analyserVersion := CUE_ANALYSER_VERSION } current .analysed
  | heard =>
    match fallbackPoints candidate.durationMs timing.defaultFadeOutMs with
    | none => return (.noDuration, rows)
    | some cues =>
      let silent := heard = .silent
      recordedAs real rows {
        audioHash := candidate.audioHash
        cues
        analysisFailed := true
        analyserVersion := CUE_ANALYSER_VERSION
        audioSilent := silent } current (if silent then .silent else .failed)

end

/-! ## Reading back -/

variable {digits : Digits} {repr : String → String} {real : RealColumn} {timing : StreamTiming}
  {analysis : CueAnalysis} {row : StreamCueRow} {metadata : Except String Metadata}
  {candidate : HashedCandidate} {points : CuePoints}

@[ext] theorem Int4.ext {first second : Int4} (hvalue : first.value = second.value) :
    first = second := by
  cases first
  cases second
  cases hvalue
  rfl

theorem Int4.ofInt_eq_ok_iff {column : String} {value : Int} {cell : Int4} :
    Int4.ofInt column value = .ok cell ↔ cell.value = value := by
  unfold Int4.ofInt
  split
  next hrange =>
    simp only [Except.ok.injEq, Int4.ext_iff]
    exact eq_comm
  next hout =>
    refine ⟨nofun, fun hvalue => ?_⟩
    subst hvalue
    exact absurd ⟨cell.lower, cell.upper⟩ hout

theorem realColumn_eq_ok_iff {column : String} {value kept : ℚ} :
    realColumn real column value = .ok kept ↔ real.keep value = some kept := by
  unfold realColumn
  split
  next found hfound => simp [hfound]
  next hnone => simp [hnone]

theorem hashColumn_eq_ok_iff {audioHash kept : String} :
    hashColumn audioHash = .ok kept ↔ isAudioHash audioHash ∧ kept = audioHash := by
  unfold hashColumn
  split
  next hhash => simp [hhash, eq_comm]
  next hother => simp [hother]

/-- The row of an analysis holds its values, with the gain that the column gives back. -/
theorem insertedRow_eq_ok_iff : insertedRow real analysis = .ok row ↔
    isAudioHash analysis.audioHash ∧ real.keep analysis.cues.gainDb = some row.gainDb ∧
      row.points = { analysis.cues with gainDb := row.gainDb } ∧
      row.audioHash = analysis.audioHash ∧ row.analyserVersion.value = analysis.analyserVersion ∧
      row.analysisFailed = analysis.analysisFailed ∧ row.audioSilent = analysis.audioSilent := by
  unfold insertedRow
  simp only [bind_eq_ok_iff, Int4.ofInt_eq_ok_iff, realColumn_eq_ok_iff, hashColumn_eq_ok_iff]
  constructor
  · rintro ⟨audioHash, ⟨hhash, rfl⟩, cueIn, hcueIn, cueOut, hcueOut, fadeIn, hfadeIn, fadeOut,
      hfadeOut, startNext, hstartNext, gain, hgain, version, hversion, hrow⟩
    obtain rfl := Except.ok.inj hrow
    refine ⟨hhash, hgain, ?_, rfl, hversion, rfl, rfl⟩
    simp only [StreamCueRow.points, hcueIn, hcueOut, hfadeIn, hfadeOut, hstartNext]
  · rintro ⟨hhash, hgain, hpoints, haudioHash, hversion, hfailed, hsilent⟩
    simp only [StreamCueRow.points, CuePoints.mk.injEq, and_true] at hpoints
    obtain ⟨hcueIn, hcueOut, hfadeIn, hfadeOut, hstartNext⟩ := hpoints
    refine ⟨_, ⟨hhash, rfl⟩, _, hcueIn, _, hcueOut, _, hfadeIn, _, hfadeOut, _, hstartNext, _,
      hgain, _, hversion, ?_⟩
    rw [← haudioHash, ← hfailed, ← hsilent]
    rfl

/-- An analysis as it is recorded: of a fingerprint, with points that pass their checks. -/
structure Recorded (analysis : CueAnalysis) : Prop where
  hash : isAudioHash analysis.audioHash
  valid : analysis.cues.Valid
  version : analysis.analyserVersion = CUE_ANALYSER_VERSION
  silent : analysis.audioSilent → analysis.analysisFailed

/-- Points that the columns keep. Those that they count from are below the point they end at. -/
structure Kept (real : RealColumn) (points : CuePoints) : Prop where
  cueOut : points.cueOutMs ≤ INT_MAX
  fadeIn : points.fadeInMs ≤ INT_MAX
  fadeOut : points.fadeOutMs ≤ INT_MAX
  gain : real.keep points.gainDb = some points.gainDb

/-- The analysis is inserted as a row that is read back with its points. -/
def ReadsBack (real : RealColumn) (analysis : CueAnalysis) : Prop :=
  ∃ row, insertedRow real analysis = .ok row ∧
    ∃ back ∈ rowAnalysis row, back.cues = analysis.cues

theorem rowAnalysis_cues {back : CueAnalysis} (hback : back ∈ rowAnalysis row) :
    back.cues = row.points := by
  unfold rowAnalysis at hback
  split at hback
  · cases hback
  · split at hback
    · cases hback
    · split at hback
      · cases hback
      · cases hback
        rfl

theorem rowAnalysis_of_valid (hhash : isAudioHash row.audioHash) (hvalid : row.points.Valid)
    (hversion : 1 ≤ row.analyserVersion.value) (hsilent : row.audioSilent → row.analysisFailed) :
    ∃ back ∈ rowAnalysis row, back.cues = row.points := by
  have hproblem : row.points.problem = none := (CuePoints.problem_eq_none_iff _).mpr hvalid
  refine ⟨row.values, ?_, rfl⟩
  unfold rowAnalysis
  rw [if_neg (by simp [hhash]), if_neg (by simp [hproblem]), if_neg ?_]
  · rfl
  · rintro (hlow | ⟨hsound, hkept⟩)
    · omega
    · simp [hsilent hsound] at hkept

theorem readsBack_iff (hrecorded : Recorded analysis) :
    ReadsBack real analysis ↔ Kept real analysis.cues := by
  obtain ⟨hhash, hvalid, hversion, hsilent⟩ := hrecorded
  constructor
  · rintro ⟨row, hrow, back, hback, hcues⟩
    obtain ⟨-, hgain, hpoints, -⟩ := insertedRow_eq_ok_iff.mp hrow
    have hsame : row.points = analysis.cues := (rowAnalysis_cues hback).symm.trans hcues
    have hkept : row.gainDb = analysis.cues.gainDb := congrArg CuePoints.gainDb hsame
    exact {
      cueOut := (congrArg CuePoints.cueOutMs hsame).symm.trans_le row.cueOutMs.upper
      fadeIn := (congrArg CuePoints.fadeInMs hsame).symm.trans_le row.fadeInMs.upper
      fadeOut := (congrArg CuePoints.fadeOutMs hsame).symm.trans_le row.fadeOutMs.upper
      gain := hgain.trans (congrArg some hkept) }
  · rintro ⟨hcueOut, hfadeIn, hfadeOut, hgain⟩
    obtain ⟨hin, hinFade, houtFade, hnext, hspan, hfits⟩ := hvalid
    have hmax : INT_MAX = 2 ^ 31 - 1 := rfl
    let row : StreamCueRow := {
      audioHash := analysis.audioHash
      cueInMs := ⟨analysis.cues.cueInMs, by omega, by omega⟩
      cueOutMs := ⟨analysis.cues.cueOutMs, by omega, by omega⟩
      fadeInMs := ⟨analysis.cues.fadeInMs, by omega, by omega⟩
      fadeOutMs := ⟨analysis.cues.fadeOutMs, by omega, by omega⟩
      startNextMs := ⟨analysis.cues.startNextMs, by omega, by omega⟩
      gainDb := analysis.cues.gainDb
      analyserVersion :=
        ⟨analysis.analyserVersion, by rw [hversion]; decide, by rw [hversion]; decide⟩
      analysisFailed := analysis.analysisFailed
      audioSilent := analysis.audioSilent }
    have hrow : insertedRow real analysis = .ok row :=
      insertedRow_eq_ok_iff.mpr ⟨hhash, hgain, rfl, rfl, rfl, rfl, rfl⟩
    obtain ⟨back, hback, hcues⟩ := @rowAnalysis_of_valid row hhash
      ⟨hin, hinFade, houtFade, hnext, hspan, hfits⟩ hversion.ge hsilent
    exact ⟨row, hrow, back, hback, hcues⟩

/-! ## What is stored -/

/-- A row is stored that is read back with these points. -/
def StoresPoints (rows after : List StreamCueRow) (points : CuePoints) : Prop :=
  ∃ row, after = upsertRow rows row ∧ ∃ back ∈ rowAnalysis row, back.cues = points

theorem upsertRow_ne_nil {rows : List StreamCueRow} : upsertRow rows row ≠ [] := by
  simp [upsertRow]

theorem recordedAs_stores_iff {outcome : Outcome} :
    (∀ rows current, ∃ kept after,
      recordedAs real rows analysis current outcome = .ok (kept, after) ∧
        (after = rows ∨ StoresPoints rows after analysis.cues)) ↔
      ReadsBack real analysis := by
  constructor
  · intro hrecorded
    obtain ⟨kept, after, hrun, hstores⟩ := hrecorded [] true
    simp only [recordedAs, bind_eq_ok_iff, storeIfCurrent, if_true] at hrun
    obtain ⟨⟨stored, rows⟩, hstore, hafter⟩ := hrun
    cases hrow : insertedRow real analysis with
    | error error => simp [hrow, Except.map] at hstore
    | ok row =>
        simp only [hrow, Except.map, Except.ok.injEq, Prod.mk.injEq] at hstore
        obtain ⟨rfl, rfl⟩ := hstore
        obtain ⟨-, rfl⟩ := Prod.mk.inj (Except.ok.inj hafter)
        rcases hstores with hnone | ⟨other, hsame, back, hback, hcues⟩
        · exact absurd hnone upsertRow_ne_nil
        · obtain rfl : row = other := by simpa [upsertRow] using hsame
          exact ⟨row, hrow, back, hback, hcues⟩
  · rintro ⟨row, hrow, back, hback, hcues⟩ rows current
    cases current with
    | false => exact ⟨.changed, rows, rfl, .inl rfl⟩
    | true =>
        refine ⟨outcome, upsertRow rows row, ?_, .inr ⟨row, rfl, back, hback, hcues⟩⟩
        simp [recordedAs, storeIfCurrent, hrow, Except.map, bind, Except.bind, pure, Except.pure]

/-! ## The fallback row -/

theorem fallbackPoints_eq_some_iff {durationMs : Option Int} {fadeOutMs : Int} :
    fallbackPoints durationMs fadeOutMs = some points ↔
      ∃ duration ∈ durationMs, 0 < duration ∧
        points = ⟨0, duration, 0, fadeOutMs, 0, fallbackGainDb⟩ := by
  unfold fallbackPoints
  cases durationMs with
  | none => simp
  | some duration =>
      dsimp only
      split
      next hempty => simp [not_lt.mpr hempty]
      next hpos => simp [not_le.mp hpos, eq_comm]

theorem kept_fallback_iff {duration fadeOutMs : Int} :
    Kept real ⟨0, duration, 0, fadeOutMs, 0, fallbackGainDb⟩ ↔
      duration ≤ INT_MAX ∧ fadeOutMs ≤ INT_MAX := by
  refine ⟨fun hkept => ⟨hkept.cueOut, hkept.fadeOut⟩, fun ⟨hduration, hfade⟩ =>
    ⟨hduration, show (0 : Int) ≤ INT_MAX by decide, hfade, ?_⟩⟩
  have hgain := real.keep_int (-8) (by decide)
  simpa [fallbackGainDb] using hgain

/-! ## The outcome of a candidate -/

/-- The points that are stored of a candidate that was heard so. -/
def decidedPoints (timing : StreamTiming) (candidate : HashedCandidate) :
    Verdict → Option CuePoints
  | .points cues => some cues
  | _ => fallbackPoints candidate.durationMs timing.defaultFadeOutMs

/-- The analysis of a candidate is decided: its output is read without an error, and whatever is
stored the store is as it was, or holds a row that is read back with the points decided on. -/
def Decided (digits : Digits) (repr : String → String) (real : RealColumn) (timing : StreamTiming)
    (candidate : HashedCandidate) (metadata : Except String Metadata) : Prop :=
  ∃ heard, verdict digits repr metadata = .ok heard ∧ ∀ rows current, ∃ outcome after,
    recordAnalysis digits repr real timing rows current candidate metadata =
      .ok (outcome, after) ∧
    (after = rows ∨ ∃ points ∈ decidedPoints timing candidate heard,
      StoresPoints rows after points)

/-- The columns keep a candidate's fallback row, if it has one. -/
def FallbackFits (timing : StreamTiming) (candidate : HashedCandidate) : Prop :=
  ∀ duration ∈ candidate.durationMs, 0 < duration →
    duration ≤ INT_MAX ∧ timing.defaultFadeOutMs ≤ INT_MAX

/-- No text that is met is too long, and the columns keep the points that the texts write, or the
fallback row when they write none. -/
def Storable (digits : Digits) (real : RealColumn) (timing : StreamTiming)
    (candidate : HashedCandidate) : Except String Metadata → Prop
  | .error _ => FallbackFits timing candidate
  | .ok metadata =>
    ¬Overflows digits metadata ∧
      (∀ points, Writes digits metadata points → Kept real points) ∧
      ((¬∃ points, Writes digits metadata points) → FallbackFits timing candidate)

variable {heard : Verdict}

/-- The analysis that is recorded of a candidate. -/
def recordedAnalysis (candidate : HashedCandidate) (heard : Verdict) (points : CuePoints) :
    CueAnalysis where
  audioHash := candidate.audioHash
  cues := points
  analysisFailed := match heard with
    | .points _ => false
    | _ => true
  analyserVersion := CUE_ANALYSER_VERSION
  audioSilent := heard = .silent

def recordedOutcome : Verdict → Outcome
  | .points _ => .analysed
  | .silent => .silent
  | .unusable _ => .failed

theorem recordAnalysis_eq (hheard : verdict digits repr metadata = .ok heard)
    (rows : List StreamCueRow) (current : Bool) :
    recordAnalysis digits repr real timing rows current candidate metadata =
      match decidedPoints timing candidate heard with
      | none => .ok (.noDuration, rows)
      | some points => recordedAs real rows (recordedAnalysis candidate heard points) current
          (recordedOutcome heard) := by
  unfold recordAnalysis
  rw [hheard]
  cases heard with
  | points cues => rfl
  | silent =>
      simp only [decidedPoints, bind, Except.bind]
      split <;> rfl
  | unusable reason =>
      simp only [decidedPoints, bind, Except.bind]
      split <;> rfl

theorem recorded_recordedAnalysis (hvalid : points.Valid) :
    Recorded (recordedAnalysis candidate heard points) where
  hash := candidate.isAudioHash_audioHash
  valid := hvalid
  version := rfl
  silent hsilent := by
    obtain rfl : heard = .silent := by simpa [recordedAnalysis] using hsilent
    rfl

theorem decided_iff (hheard : verdict digits repr metadata = .ok heard)
    (hvalid : ∀ points ∈ decidedPoints timing candidate heard, points.Valid) :
    Decided digits repr real timing candidate metadata ↔
      ∀ points ∈ decidedPoints timing candidate heard, Kept real points := by
  unfold Decided
  simp only [hheard, Except.ok.injEq, exists_eq_left', recordAnalysis_eq hheard]
  cases hpoints : decidedPoints timing candidate heard with
  | none =>
      simp only [Option.mem_def, reduceCtorEq, false_and, exists_false, or_false, false_implies,
        implies_true, iff_true]
      exact fun rows current => ⟨.noDuration, rows, rfl, rfl⟩
  | some points =>
      have hrecorded := @recorded_recordedAnalysis candidate points heard (hvalid points hpoints)
      simp only [Option.mem_def, Option.some.injEq, exists_eq_left', forall_eq']
      exact recordedAs_stores_iff.trans (readsBack_iff hrecorded)

theorem fallback_valid
    (hpoints : fallbackPoints candidate.durationMs timing.defaultFadeOutMs = some points) :
    points.Valid := by
  obtain ⟨duration, -, hpos, rfl⟩ := fallbackPoints_eq_some_iff.mp hpoints
  exact ⟨le_rfl, le_rfl, Int.natCast_nonneg _, le_rfl, hpos, by simpa using hpos⟩

theorem kept_fallbackPoints_iff :
    (∀ points ∈ fallbackPoints candidate.durationMs timing.defaultFadeOutMs, Kept real points) ↔
      FallbackFits timing candidate := by
  constructor
  · intro hkept duration hduration hpos
    exact kept_fallback_iff.mp
      (hkept _ (fallbackPoints_eq_some_iff.mpr ⟨duration, hduration, hpos, rfl⟩))
  · intro hfits points hpoints
    obtain ⟨duration, hduration, hpos, rfl⟩ := fallbackPoints_eq_some_iff.mp hpoints
    exact kept_fallback_iff.mpr (hfits duration hduration hpos)

theorem decidedPoints_of_not_points (hnone : ∀ points, heard ≠ .points points) :
    decidedPoints timing candidate heard =
      fallbackPoints candidate.durationMs timing.defaultFadeOutMs := by
  cases heard with
  | points cues => exact absurd rfl (hnone cues)
  | silent => rfl
  | unusable reason => rfl

/-- Output is too long to be read, or its reading decides on valid points, which are kept exactly
when it is storable. -/
theorem verdict_cases :
    ((∃ texts, metadata = .ok texts ∧ Overflows digits texts) ∧
      verdict digits repr metadata = .error .overflow) ∨
    ∃ heard, verdict digits repr metadata = .ok heard ∧
      (∀ points ∈ decidedPoints timing candidate heard, points.Valid) ∧
      ((∀ points ∈ decidedPoints timing candidate heard, Kept real points) ↔
        Storable digits real timing candidate metadata) := by
  cases metadata with
  | error reason =>
      exact .inr ⟨.unusable reason, rfl, fun points => fallback_valid, kept_fallbackPoints_iff⟩
  | ok texts =>
      rcases @autocuePoints_cases digits repr texts with
        ⟨hlong, hraised⟩ | ⟨hshort, heard, hheard, hpoints⟩
      · exact .inl ⟨⟨texts, rfl, hlong⟩, hraised⟩
      · refine .inr ⟨heard, hheard, ?_⟩
        by_cases hwrites : ∃ points, Writes digits texts points
        · obtain ⟨points, hwrites⟩ := hwrites
          obtain rfl := (hpoints points).mpr hwrites
          simp only [decidedPoints, Option.mem_def, Option.some.injEq, forall_eq']
          refine ⟨hwrites.valid, fun hkept => ⟨hshort, fun other hother => ?_, fun hnone =>
            absurd ⟨points, hwrites⟩ hnone⟩, fun hstorable => hstorable.2.1 points hwrites⟩
          obtain rfl := Verdict.points.inj ((hpoints other).mpr hother)
          exact hkept
        · have hnone : ∀ points, heard ≠ .points points := fun points hsame =>
            hwrites ⟨points, (hpoints points).mp hsame⟩
          rw [decidedPoints_of_not_points hnone, kept_fallbackPoints_iff]
          exact ⟨fun points => fallback_valid, fun hfits => ⟨hshort, fun points hother =>
            absurd ⟨points, hother⟩ hwrites, fun _ => hfits⟩, fun hstorable =>
              hstorable.2.2 hwrites⟩

/-- A candidate's analysis is decided exactly when its output and its fallback row fit. -/
theorem decided_iff_storable (digits : Digits) (repr : String → String) (real : RealColumn)
    (timing : StreamTiming) (candidate : HashedCandidate) (metadata : Except String Metadata) :
    Decided digits repr real timing candidate metadata ↔
      Storable digits real timing candidate metadata := by
  -- A number text that is too long raises before there is a verdict to check.
  rcases @verdict_cases digits repr real timing metadata candidate with
    ⟨⟨texts, rfl, hlong⟩, hraised⟩ | ⟨heard, hheard, hvalid, hkept⟩
  · refine iff_of_false ?_ fun hstorable => hstorable.1 hlong
    rintro ⟨heard, hheard, -⟩
    cases hraised.symm.trans hheard
  · exact (decided_iff hheard hvalid).trans hkept

/-- A column that keeps the numbers of its range. -/
def plainReal : RealColumn where
  keep value := if |value| ≤ 2 ^ 127 then some value else none
  keep_int value hsmall := by
    rw [if_pos]
    have hcast : |(value : ℚ)| ≤ 2 ^ 24 := by exact_mod_cast hsmall
    linarith

/-- An hour of audio. -/
def hourLong : HashedCandidate where
  fileId := 1
  path := "/music/long.flac"
  audioHash := "flac-md5:0123456789abcdef0123456789abcdef"
  durationMs := some 3600000
  isAudioHash_audioHash := by decide

/-- Output that says that the audio ends five weeks on. -/
def endsFarOn : Metadata := [
  ("liq_cue_in", "0.0"), ("liq_cue_out", "3000000.0"), ("liq_fade_in", "0.0"),
  ("liq_fade_out", "4.193"), ("liq_cross_end_duration", "4.193"), ("liq_amplify", "-3.645 dB")]

theorem decided_endsFarOn : ¬Decided .ascii id plainReal {} hourLong (.ok endsFarOn) := by
  rintro ⟨heard, -, hdecided⟩
  obtain ⟨outcome, after, hrun, -⟩ := hdecided [] true
  have hraised : (recordAnalysis .ascii id plainReal {} [] true hourLong (.ok endsFarOn)).isOk =
      false := by decide +kernel
  rw [hrun] at hraised
  cases hraised

/-! ## A run whose files all fit -/

/-- The reader of a cue run that reads autocue's output so. -/
def autocueReader (digits : Digits) (repr : String → String) (timing : StreamTiming) :
    CueReader where
  analyserVersion := CUE_ANALYSER_VERSION
  defaultFadeOutMs := timing.defaultFadeOutMs
  autocuePoints metadata := match autocuePoints digits repr metadata with
    | .ok heard => heard
    | .error _ => .unusable "overflow"

theorem upsertRow_values {rows : List StreamCueRow} :
    (upsertRow rows row).map StreamCueRow.values =
      upsertCues (rows.map StreamCueRow.values) row.values := by
  simp only [upsertRow, upsertCues, List.map_append, List.filter_map, List.map_cons, List.map_nil]
  rfl

theorem recordedAs_of_kept (hrecorded : Recorded analysis) (hkept : Kept real analysis.cues)
    (rows : List StreamCueRow) (current : Bool) (outcome : Outcome) :
    ∃ after, recordedAs real rows analysis current outcome =
        .ok ((storedAs (rows.map StreamCueRow.values) analysis current outcome).1, after) ∧
      after.map StreamCueRow.values =
        (storedAs (rows.map StreamCueRow.values) analysis current outcome).2 := by
  cases current with
  | false => exact ⟨rows, rfl, rfl⟩
  | true =>
      obtain ⟨row, hrow, back, hback, hcues⟩ := (readsBack_iff hrecorded).mpr hkept
      obtain ⟨-, -, -, hhash, hversion, hfailed, hsilent⟩ := insertedRow_eq_ok_iff.mp hrow
      have hpoints : row.points = analysis.cues := (rowAnalysis_cues hback).symm.trans hcues
      have hvalues : row.values = analysis := by
        unfold StreamCueRow.values
        rw [hhash, hpoints, hversion, hfailed, hsilent]
      refine ⟨upsertRow rows row, ?_, ?_⟩
      · simp [recordedAs, storedAs, storeIfCurrent, hrow, Except.map, bind, Except.bind, pure,
          Except.pure]
      · rw [upsertRow_values, hvalues]
        rfl

/-- What fits is recorded as a run without errors records it. -/
theorem recordAnalysis_of_storable (hstorable : Storable digits real timing candidate metadata)
    (rows : List StreamCueRow) (current : Bool) :
    let run := Cues.recordAnalysis (autocueReader digits repr timing)
      (rows.map StreamCueRow.values) current ⟨candidate.toCueCandidate, metadata⟩
    ∃ after, recordAnalysis digits repr real timing rows current candidate metadata =
      .ok (run.1, after) ∧ after.map StreamCueRow.values = run.2 := by
  dsimp only
  rcases @verdict_cases digits repr real timing metadata candidate with
    ⟨⟨texts, rfl, hlong⟩, -⟩ | ⟨heard, hheard, hvalid, hkept⟩
  · exact absurd hlong hstorable.1
  · have hsame : verdictOf (autocueReader digits repr timing)
        ⟨candidate.toCueCandidate, metadata⟩ = heard := by
      cases metadata with
      | error reason => exact Except.ok.inj hheard
      | ok texts =>
          have hheard : autocuePoints digits repr texts = .ok heard := hheard
          simp only [verdictOf, autocueReader, hheard]
    have hkept := hkept.mpr hstorable
    rw [recordAnalysis_eq hheard, Cues.recordAnalysis, hsame]
    cases heard with
    | points cues =>
        exact recordedAs_of_kept (recorded_recordedAnalysis (hvalid cues rfl)) (hkept cues rfl)
          rows current .analysed
    | silent =>
        simp only [decidedPoints, autocueReader] at hvalid hkept ⊢
        cases hpoints : fallbackPoints candidate.durationMs timing.defaultFadeOutMs with
        | none => exact ⟨rows, rfl, rfl⟩
        | some points =>
            exact recordedAs_of_kept (recorded_recordedAnalysis (hvalid points hpoints))
              (hkept points hpoints) rows current .silent
    | unusable reason =>
        simp only [decidedPoints, autocueReader] at hvalid hkept ⊢
        cases hpoints : fallbackPoints candidate.durationMs timing.defaultFadeOutMs with
        | none => exact ⟨rows, rfl, rfl⟩
        | some points =>
            exact recordedAs_of_kept (recorded_recordedAnalysis (hvalid points hpoints))
              (hkept points hpoints) rows current .failed

end RetroStation.Cues.Columns
