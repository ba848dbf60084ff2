import RetroStation.Effect.Simulation
import RetroStation.Ingestion.Ingest

/-! # The ingestion task

An upload is ingested in one transaction, which is tried again when it deadlocks. How far it is
goes to a progress row over a connection of its own, and what comes next is queued once the
transaction is committed. Whatever the row's connection answers, the task decides only by what
it has to: an error of the kinds that come from a lost connection is dropped.
-/

namespace RetroStation.Ingestion

open Effect

/-- How a statement on the task's own connection ends: `lost` is an error of the kinds that are
dropped, `broken` any other. -/
inductive Answer
  | done
  | lost
  | broken
  deriving DecidableEq, Repr

inductive HandOff
  | embedding (playlistId : Option Uuid)
  | artistMatching (playlistId : Option Uuid)
  deriving DecidableEq, Repr

inductive TaskError
  | connection
  | ingest (error : IngestError)
  | deadlock
  | database
  /-- An error of the task's own connection. -/
  | progress (lost : Bool)
  /-- An error of the queue that is not of its storage. -/
  | enqueue
  | unreachable

def errorCode : TaskError → Option String
  | .ingest (.duplicatePlaylist _) => some "duplicate_playlist"
  | .ingest (.csvSchema _) => some "csv_schema_mismatch"
  | .ingest .csvDecode => some "csv_decode_failed"
  | _ => none

/-- A transaction: what went wrong in the database, if anything, after the caller was told how
far the rows were. -/
structure Attempt where
  fault : Option TaskError := none
  told : List Nat := []

/-- What the task cannot choose. -/
structure Circumstances where
  /-- The ids that each transaction draws. -/
  newId : Nat → Nat → Uuid
  reading : Reading
  connects : Bool := true
  /-- Each statement on the task's own connection. -/
  answer : Nat → Answer := fun _ => .done
  attempt : Nat → Attempt := fun _ => {}
  enqueue : HandOff → Answer := fun _ => .done

inductive ProgressData
  | running (processed total : Nat)
  | completed (result : IngestionResult) (total : Nat)
  | failed (error : TaskError) (code : Option String) (processed total : Nat)

inductive LogMessage
  | started (total : Nat)
  | completed (result : IngestionResult)
  | failed (error : TaskError)
  | enqueueFailed (handOff : HandOff)

/-- What the task logs when something is dropped. -/
inductive Warning
  | rowDropped
  | logDropped
  | shadowPrevented
  | taskFailed
  | dropsSummary (dropped : Nat)
  deriving DecidableEq, Repr

structure TaskState where
  store : Store
  queued : List HandOff := []
  attempts : Nat := 0
  /-- The rows written, the newest last. -/
  rows : List ProgressData := []
  logs : List LogMessage := []
  statements : Nat := 0
  totalRows : Nat := 0
  lastProcessed : Nat := 0
  midRunDrops : Nat := 0
  warnings : List Warning := []

abbrev Task (Value : Type) := Comp TaskState TaskError Value

section

variable (world : Circumstances)

/-- A statement on the task's own connection. -/
def ask (write : TaskState → TaskState) : Task Unit := do
  let state ← get
  let counted := { state with statements := state.statements + 1 }
  match world.answer state.statements with
  | .done => set (write counted)
  | .lost => do
    set counted
    throw (.progress true)
  | .broken => do
    set counted
    throw (.progress false)

def upsertRow (data : ProgressData) : Task Unit :=
  ask world fun state => { state with rows := state.rows ++ [data] }

def createLog (log : LogMessage) : Task Unit :=
  ask world fun state => { state with logs := state.logs ++ [log] }

def warn (warning : Warning) : Task Unit :=
  modify fun state => { state with warnings := state.warnings ++ [warning] }

/-- An error of a lost connection is dropped. -/
def dropLost (warning : Warning) (write : Task Unit) : Task Unit :=
  tryCatch write fun
    | .progress true => warn warning
    | error => throw error

def safeProgressUpsert (data : ProgressData) : Task Unit :=
  dropLost .rowDropped (upsertRow world data)

def safeSystemLogCreate (log : LogMessage) : Task Unit :=
  dropLost .logDropped (createLog world log)

/-- The first drop is warned of, the others are counted. -/
def countDrop : Task Unit :=
  modify fun state => { state with
    midRunDrops := state.midRunDrops + 1
    warnings := if state.midRunDrops = 0 then state.warnings ++ [.rowDropped]
      else state.warnings }

def onRowProcessed (rowsProcessed : Nat) : Task Unit := do
  modify fun state => { state with lastProcessed := rowsProcessed }
  let state ← get
  tryCatch (upsertRow world (.running rowsProcessed state.totalRows)) fun
    | .progress true => countDrop
    | error => throw error

def tellAll : List Nat → Task Unit
  | [] => pure ()
  | rowsProcessed :: rest => do
    onRowProcessed world rowsProcessed
    tellAll rest

def TaskState.onAttemptStart (state : TaskState) : TaskState :=
  { state with attempts := state.attempts + 1, lastProcessed := 0 }

section

variable (upload : Upload) (stationId : Option Uuid)

/-- One transaction. It is rolled back if anything raises before its commit. -/
def attemptIngest : Task IngestionResult := do
  let state ← get
  set state.onAttemptStart
  let attempt := world.attempt state.attempts
  match attempt.fault, ingestCsv (world.newId state.attempts) world.reading upload stationId
      state.store with
  | some fault, _ => do
    tellAll world attempt.told
    throw fault
  | none, .error error => do
    tellAll world attempt.told
    throw (.ingest error)
  | none, .ok ingest => do
    tellAll world ingest.reported
    modify fun state => { state with store := ingest.store }
    pure ingest.result

/-- A deadlocked transaction is tried again, `left` times in all. -/
def retryOnDeadlock : Nat → Task IngestionResult
  | 0 => throw .unreachable
  | left + 1 => tryCatch (attemptIngest world upload stationId) fun
    | .deadlock => if left = 0 then throw .deadlock else retryOnDeadlock left
    | error => throw error

def MAX_ATTEMPTS : Nat := 3

/-- A hand-off that the storage refuses is logged, whatever becomes of the log. -/
def enqueueOrLog (handOff : HandOff) : Task Unit :=
  match world.enqueue handOff with
  | .done => modify fun state => { state with queued := state.queued ++ [handOff] }
  | .lost => tryCatch (createLog world (.enqueueFailed handOff)) fun _ => warn .logDropped
  | .broken => throw .enqueue

/-- What follows a committed ingest. -/
def finishTask (result : IngestionResult) : Task Unit := do
  let state ← get
  safeProgressUpsert world (.completed result state.totalRows)
  safeSystemLogCreate world (.completed result)
  enqueueOrLog world (.embedding result.playlistId)
  enqueueOrLog world (.artistMatching result.playlistId)

def startTask : Task Unit := do
  match countCsvRows upload with
  | .error error => throw (.ingest error)
  | .ok totalRows => do
    modify fun state => { state with totalRows := totalRows }
    upsertRow world (.running 0 totalRows)
    safeSystemLogCreate world (.started totalRows)

def runTask : Task Unit := do
  startTask world upload
  let result ← retryOnDeadlock world upload stationId MAX_ATTEMPTS
  finishTask world result

/-- Nothing that goes wrong here takes the error's place. -/
def failTask (error : TaskError) : Task Unit := do
  let state ← get
  tryCatch (safeProgressUpsert world
    (.failed error (errorCode error) state.lastProcessed state.totalRows))
    fun _ => warn .shadowPrevented
  tryCatch (safeSystemLogCreate world (.failed error)) fun _ => warn .shadowPrevented
  warn .taskFailed

def summarizeDrops : Task Unit :=
  modify fun state => { state with
    warnings := if state.midRunDrops > 1 then state.warnings ++ [.dropsSummary state.midRunDrops]
      else state.warnings }

def ingestionTask : Task Unit :=
  if world.connects then do
    tryCatch (runTask world upload stationId) fun error => do
      failTask world error
      summarizeDrops
      throw error
    summarizeDrops
  else do
    warn .taskFailed
    throw .connection

end

end

end RetroStation.Ingestion
