import RetroStation.Cues.Values
import RetroStation.Dict.Basic
import RetroStation.Table.Firsts

/-! # Cue pre-computation

One run over the audio that needs analysis: the priority set batched in memory, then the
library in keyset batches by path. Of each batch what the run has seen is dropped, the stat
is checked, the audio is analysed, the stat is checked again and the result recorded; the files
behind the first one without an outcome go back.
-/

namespace RetroStation.Cues

open Library

/-- What the sources hold: the priority set as it was read, and the present files with a
hash, by path. They read one file in one way. -/
structure CueWork where
  priority : List CueCandidate
  library : List CueCandidate
  byPath : library.Pairwise fun first second => first.path < second.path
  sameFile : ∀ first ∈ priority ++ library, ∀ second ∈ priority ++ library,
    first.fileId = second.fileId → first = second

def needsAnalysis (rows : List CueAnalysis) (candidate : CueCandidate) : Bool :=
  rows.all fun row => row.audioHash ≠ candidate.audioHash

/-- The path is behind the cursor. -/
def isAfter (cursor : Option String) (path : String) : Bool := cursor.all fun after => after < path

/-- Every needing-analysis file of the library, in path order after the cursor. -/
def CueWork.libraryAfter (work : CueWork) (rows : List CueAnalysis) (cursor : Option String)
    (limit : Nat) : List CueCandidate :=
  (work.library.filter fun candidate =>
    needsAnalysis rows candidate && isAfter cursor candidate.path).take limit

/-- The run's work in order. -/
structure Backlog where
  priority : List CueCandidate
  cursor : Option String := none
  libraryDone : Bool := false
  lastFromLibrary : Bool := false
  deriving DecidableEq

/-- The next batch; empty once both sources are exhausted. -/
def Backlog.take (work : CueWork) (rows : List CueAnalysis) (size : Nat) (backlog : Backlog) :
    List CueCandidate × Backlog :=
  if backlog.priority ≠ [] then
    (backlog.priority.take size,
      { backlog with priority := backlog.priority.drop size, lastFromLibrary := false })
  else if backlog.libraryDone then ([], backlog)
  else
    let batch := work.libraryAfter rows backlog.cursor size
    match batch.getLast? with
    | none => ([], { backlog with lastFromLibrary := true, libraryDone := true })
    | some last => (batch, { backlog with lastFromLibrary := true, cursor := some last.path })

/-- The files after a stall go back to where they came from. -/
def Backlog.putBack (backlog : Backlog) (stalled : CueCandidate) (untried : List CueCandidate) :
    Backlog :=
  if backlog.lastFromLibrary then { backlog with cursor := some stalled.path }
  else { backlog with priority := untried ++ backlog.priority }

/-- One run's state, with the rows in the store; the counts are those of the outcomes. -/
structure Run where
  backlog : Backlog
  tried : List Uuid := []
  recorded : List AudioHash := []
  outcomes : List (Uuid × Outcome) := []
  rows : List CueAnalysis
  deriving DecidableEq

structure CueRunConfig extends CueReader where
  batchSize : Nat := 8
  batchSize_pos : 1 ≤ batchSize

/-- What the host answers while one batch runs: each stat check, the analyser, and whether a
file still carries its hash when its row is stored. -/
structure BatchAnswers where
  first : Nat → CueCandidate → Option DiskStat
  second : CueCandidate → Option DiskStat
  current : CueCandidate → Bool
  analysis : BatchAnalysis

/-- The batch without the files this run has tried and the audio it has stored. -/
def unseenOf (run : Run) (batch : List CueCandidate) : List CueCandidate :=
  batch.filter fun candidate =>
    candidate.fileId ∉ run.tried ∧ candidate.audioHash ∉ run.recorded

/-- The first file of each audio. -/
def dedupeAudio (candidates : List CueCandidate) : List CueCandidate :=
  Firsts.firsts CueCandidate.audioHash candidates

/-- The first of `count` files with no outcome. -/
def stalledAt (count : Nat) (analysis : BatchAnalysis) : Option Nat :=
  (List.range count).find? fun index => analysis.stalled = some index ∨
    (analysis.metadata index).isNone ∧ (analysis.rejected index).isNone

/-- What autocue said about one file with an outcome. -/
def autocuedAt (analysis : BatchAnalysis) (index : Nat) (candidate : CueCandidate) : Autocued where
  candidate := candidate
  metadata := match analysis.rejected index with
    | some reason => .error reason
    | none => .ok ((analysis.metadata index).getD [])

def stalledReason : String := "analyser stalled or died on this file (D61)"

/-- The problems of the files before they are analysed, by file. -/
def problemsOf (answers : BatchAnswers) (unseen : List CueCandidate) : Dict Uuid Outcome :=
  Dict.ofList (unseen.zipIdx.filterMap fun (candidate, index) =>
    (statProblem (answers.first index candidate) candidate).map (candidate.fileId, ·))

section

variable (config : CueRunConfig) (answers : BatchAnswers)

/-- Store one analysed file's cues if its stat still matches. -/
def recordOne (rows : List CueAnalysis) (autocued : Autocued) : Outcome × List CueAnalysis :=
  match statProblem (answers.second autocued.candidate) autocued.candidate with
  | some problem => (problem, rows)
  | none => recordAnalysis config.toCueReader rows (answers.current autocued.candidate) autocued

def recordBatch (run : Run) : List Autocued → Run
  | [] => run
  | autocued :: rest =>
    let (outcome, rows) := recordOne config answers run.rows autocued
    recordBatch { run with
      outcomes := run.outcomes ++ [(autocued.candidate.fileId, outcome)]
      recorded := if outcome.stored then run.recorded ++ [autocued.candidate.audioHash]
        else run.recorded
      rows := rows } rest

/-- The files of a batch that passed the check before analysis. -/
def passedOf (run : Run) (batch : List CueCandidate) : List CueCandidate :=
  (unseenOf run batch).filter fun candidate =>
    candidate.fileId ∉ (problemsOf answers (unseenOf run batch)).keys

/-- The files of a batch that are analysed. -/
def readyOf (run : Run) (batch : List CueCandidate) : List CueCandidate :=
  dedupeAudio (passedOf answers run batch)

/-- Check, analyse, check again and record one batch. -/
def runBatch (run : Run) (batch : List CueCandidate) : Run :=
  let unseen := unseenOf run batch
  let ready := readyOf answers run batch
  let checked := { run with
    tried := run.tried ++ unseen.map CueCandidate.fileId
    outcomes := run.outcomes ++ (problemsOf answers unseen).entries }
  let analysis := if ready = [] then {} else answers.analysis
  match stalledAt ready.length analysis with
  | none => recordBatch config answers checked (ready.mapIdx (autocuedAt analysis))
  | some index =>
    match ready[index]? with
    | none => checked
    | some stalled =>
      let untried := ready.drop (index + 1)
      let analysed := (ready.take index).mapIdx (autocuedAt analysis) ++
        [{ candidate := stalled, metadata := .error stalledReason }]
      recordBatch config answers { checked with
        backlog := checked.backlog.putBack stalled untried
        tried := checked.tried.filter (· ∉ untried.map CueCandidate.fileId) } analysed

end

/-- Run the backlog's batches until it is exhausted, or the time is up after one; whether the
run paused, and its end. -/
def runBatches (config : CueRunConfig) (work : CueWork) (answers : Nat → BatchAnswers)
    (timeUp : Nat → Bool) : Nat → Nat → Run → Option (Bool × Run)
  | 0, _, _ => none
  | fuel + 1, number, run =>
    match run.backlog.take work run.rows config.batchSize with
    | ([], backlog) => some (false, { run with backlog })
    | (batch, backlog) =>
      let run := runBatch config (answers number) { run with backlog } batch
      if timeUp number then some (true, run)
      else runBatches config work answers timeUp fuel (number + 1) run

/-- A run begins by dropping the rows of other analyser versions. -/
def startRun (config : CueRunConfig) (work : CueWork) (rows : List CueAnalysis) : Run where
  backlog := { priority := work.priority }
  rows := rows.filter fun row => row.analyserVersion = config.analyserVersion

end RetroStation.Cues
