import RetroStation.Table.Basic
import RetroStation.Transition.Run
import Mathlib.Data.List.Sort

/-! # The progress rows

What the statements on `progress_tracking` do and answer. Times are microseconds; the
database's clock does not run backwards. The daily prune may be left out, to compare.
-/

namespace RetroStation.Progress

open Transition

abbrev Time := Int

inductive TaskStatus
  | running
  | completed
  | failed
  | timeout
  deriving DecidableEq, Repr

structure TaskProgress (TaskType Data : Type) where
  taskId : String
  taskType : TaskType
  status : TaskStatus
  progressData : Data
  startedAt : Time
  updatedAt : Time
  completedAt : Option Time := none
  deriving DecidableEq, Repr

def second : Time := 1000000

def STALE_THRESHOLD : Time := 10 * 60 * second

def TERMINAL_GRACE : Time := 5 * second

def ACTIVE_WINDOW : Time := 30 * second

def PROGRESS_RETENTION : Time := 14 * 24 * 60 * 60 * second

variable {TaskType Data : Type}

namespace TaskProgress

/-- `coalesce(completed_at, updated_at)`. -/
def ended (row : TaskProgress TaskType Data) : Time := row.completedAt.getD row.updatedAt

def isRunning (row : TaskProgress TaskType Data) : Bool := row.status = .running

def isStale (now : Time) (row : TaskProgress TaskType Data) : Bool :=
  row.isRunning && row.updatedAt < now - STALE_THRESHOLD

/-- The rows of `FEED_SQL`. -/
def isShown (now : Time) (row : TaskProgress TaskType Data) : Bool :=
  row.isRunning || (row.status = .completed || row.status = .failed) &&
    row.ended > now - TERMINAL_GRACE

def isActive (now : Time) (row : TaskProgress TaskType Data) : Bool :=
  row.isRunning || (row.status = .completed || row.status = .failed) &&
    row.updatedAt > now - ACTIVE_WINDOW

def isCompleted [DecidableEq TaskType] (taskType : TaskType) (row : TaskProgress TaskType Data) :
    Bool :=
  row.taskType = taskType && row.status = .completed

end TaskProgress

/-- What `SELECT DISTINCT ON (task_type) task_id .. ORDER BY task_type, started_at DESC` may
answer for the completed rows: of each type, one of the latest. -/
structure LatestCompleted (TaskType Data : Type) where
  ids : List (TaskProgress TaskType Data) → List String
  latest : ∀ rows, Table.UniqueBy TaskProgress.taskId rows → ∀ row ∈ rows,
    row.taskId ∈ ids rows → row.status = .completed ∧
      ∀ other ∈ rows, other.taskType = row.taskType → other.status = .completed →
        other.startedAt ≤ row.startedAt
  each : ∀ rows, Table.UniqueBy TaskProgress.taskId rows → ∀ row ∈ rows,
    row.status = .completed → ∃ other ∈ rows, other.taskType = row.taskType ∧
      other.taskId ∈ ids rows
  one : ∀ rows, Table.UniqueBy TaskProgress.taskId rows → ∀ row ∈ rows, ∀ other ∈ rows,
    row.taskId ∈ ids rows → other.taskId ∈ ids rows → row.taskType = other.taskType →
      row = other

/-- A statement on the table. -/
inductive Statement (TaskType Data : Type)
  | upsert (task : TaskProgress TaskType Data)
  | touchRunning (taskId : String) (overlay : Data)
  /-- A write of a matching run's row; `ends` says of the new data whether it closes the row. -/
  | matchingRun (taskId : String) (change : Data → Data) (ends : Data → Bool)
  | markStaleAsFailed
  | deleteFinishedBefore
  /-- The first statement of a poll, which is committed before the second. -/
  | reapStale
  | readFeed
  | getActiveTasks
  | listRunning
  | lastCompletedStartedAt (taskType : TaskType)

inductive Reply (TaskType Data : Type)
  | done
  | rows (rows : List (TaskProgress TaskType Data))
  | startedAt (time : Option Time)

/-- The table, at a time. -/
structure Tracking (TaskType Data : Type) where
  rows : List (TaskProgress TaskType Data) := []
  clock : Time := 0

def newestFirst (rows : List (TaskProgress TaskType Data)) : List (TaskProgress TaskType Data) :=
  rows.insertionSort fun first second => first.startedAt ≥ second.startedAt

section

variable (rows : List (TaskProgress TaskType Data)) (now : Time)

def upsert (task : TaskProgress TaskType Data) : List (TaskProgress TaskType Data) :=
  if rows.any (fun row => row.taskId = task.taskId) then
    Table.update rows (fun row => row.taskId = task.taskId) fun row =>
      { row with
        status := task.status
        progressData := task.progressData
        updatedAt := task.updatedAt
        completedAt := task.completedAt }
  else rows ++ [task]

def touchRunning (merge : Data → Data → Data) (taskId : String) (overlay : Data) :
    List (TaskProgress TaskType Data) :=
  Table.update rows (fun row => row.taskId = taskId) fun row =>
    { row with
      status := .running
      updatedAt := now
      completedAt := none
      progressData := merge row.progressData overlay }

def writeMatchingRun (taskId : String) (change : Data → Data) (ends : Data → Bool) :
    List (TaskProgress TaskType Data) :=
  Table.update rows
    (fun row => row.taskId = taskId && (row.status = .running || row.status = .failed)) fun row =>
      let progressData := change row.progressData
      { row with
        progressData
        status := if ends progressData then .completed else .running
        updatedAt := now
        completedAt := if ends progressData then some now else none }

/-- The repository's own reaper, which leaves `completed_at`. -/
def markStaleAsFailed : List (TaskProgress TaskType Data) :=
  Table.update rows (TaskProgress.isStale now) fun row => { row with status := .failed }

/-- The feed's reaper. -/
def reapStale : List (TaskProgress TaskType Data) :=
  Table.update rows (TaskProgress.isStale now) fun row =>
    { row with status := .failed, completedAt := some now }

def isFinishedBefore (latest : LatestCompleted TaskType Data) (cutoff : Time)
    (row : TaskProgress TaskType Data) : Bool :=
  !row.isRunning && row.ended < cutoff && row.taskId ∉ latest.ids rows

def deleteFinishedBefore (latest : LatestCompleted TaskType Data) (cutoff : Time) :
    List (TaskProgress TaskType Data) :=
  Table.delete rows (isFinishedBefore rows latest cutoff)

def lastCompletedStartedAt [DecidableEq TaskType] (taskType : TaskType) : Option Time :=
  ((rows.filter (TaskProgress.isCompleted taskType)).map TaskProgress.startedAt).max?

end

section

variable [DecidableEq TaskType] (merge : Data → Data → Data)

/-- The table after a statement, and what it answers; `prune` is what a prune keeps. -/
def execute (prune : List (TaskProgress TaskType Data) → List (TaskProgress TaskType Data))
    (now : Time) (rows : List (TaskProgress TaskType Data)) :
    Statement TaskType Data → List (TaskProgress TaskType Data) × Reply TaskType Data
  | .upsert task => (upsert rows task, .done)
  | .touchRunning taskId overlay => (touchRunning rows now merge taskId overlay, .done)
  | .matchingRun taskId change ends => (writeMatchingRun rows now taskId change ends, .done)
  | .markStaleAsFailed => (markStaleAsFailed rows now, .done)
  | .deleteFinishedBefore => (prune rows, .done)
  | .reapStale => (reapStale rows now, .done)
  | .readFeed => (rows, .rows (newestFirst (rows.filter (TaskProgress.isShown now))))
  | .getActiveTasks => (rows, .rows (newestFirst (rows.filter (TaskProgress.isActive now))))
  | .listRunning => (rows, .rows (newestFirst (rows.filter TaskProgress.isRunning)))
  | .lastCompletedStartedAt taskType => (rows, .startedAt (lastCompletedStartedAt rows taskType))

/-- Statements at times that do not run backwards. -/
def tracking
    (prune : Time → List (TaskProgress TaskType Data) → List (TaskProgress TaskType Data)) :
    Machine (Tracking TaskType Data) (Time × Statement TaskType Data) (Reply TaskType Data) where
  step state action :=
    if state.clock ≤ action.1 then
      let (rows, reply) := execute merge (prune action.1) action.1 state.rows action.2
      some ({ rows, clock := action.1 }, reply)
    else none

/-- The table as it is kept: what ended two weeks ago is pruned. -/
def pruned (latest : LatestCompleted TaskType Data) :
    Machine (Tracking TaskType Data) (Time × Statement TaskType Data) (Reply TaskType Data) :=
  tracking merge fun now rows => deleteFinishedBefore rows latest (now - PROGRESS_RETENTION)

/-- The table if nothing were pruned. -/
def unpruned :
    Machine (Tracking TaskType Data) (Time × Statement TaskType Data) (Reply TaskType Data) :=
  tracking merge fun _ rows => rows

end

end RetroStation.Progress
