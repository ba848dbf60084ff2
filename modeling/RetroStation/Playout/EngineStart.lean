import RetroStation.Text.Decimal
import RetroStation.Transition.Run

/-! # Starting a session engine

A start launches the engine in a worker thread, asks its harbor for the stream until
it answers 200, and tries once more on another port. The call can be cancelled at
every await; the worker threads cannot. Two attempts, five places where a process can
be in someone's charge, and four ways to end it.
-/

namespace RetroStation.Playout

open Text (MAX_STR_DIGITS natOf)
open Transition

/-- A port a session's harbor may listen on. -/
abbrev HarborPort := { port : Nat // 1024 ≤ port ∧ port ≤ 65535 }

structure SessionEndpoint where
  sessionId : String
  harborPort : HarborPort
  /-- How long the harbor may take, as the messages give it. -/
  readyTimeoutS : String

/-! ## The harbor -/

/-- The first word of an answer, its bytes as characters. -/
def versionOf (head : List Char) : List Char := head.takeWhile (· ≠ ' ')

/-- Its second word. -/
def statusWord (head : List Char) : List Char :=
  ((head.dropWhile (· ≠ ' ')).drop 1).takeWhile (· ≠ ' ')

/-- The answer is HTTP's, and its second word is a number. -/
def NamesStatus (head : List Char) : Prop :=
  (versionOf head).length < head.length ∧ "HTTP/".toList <+: versionOf head ∧
    statusWord head ≠ [] ∧ (statusWord head).all Char.isDigit = true

instance (head : List Char) : Decidable (NamesStatus head) :=
  inferInstanceAs (Decidable (_ ∧ _ ∧ _ ∧ _))

/-- The number has more digits than an integer is read from. -/
def HasLongStatus (head : List Char) : Prop :=
  NamesStatus head ∧ MAX_STR_DIGITS < (statusWord head).length

instance (head : List Char) : Decidable (HasLongStatus head) :=
  inferInstanceAs (Decidable (_ ∧ _))

/-- The status of an answer's first line, if it has one; reading its number can fail. -/
def statusOf (head : List Char) : Except String (Option Nat) :=
  let digits := (statusWord head).length
  if ¬NamesStatus head then .ok none
  else if MAX_STR_DIGITS < digits then
    .error <| "Exceeds the limit (4300 digits) for integer string conversion: " ++
      s!"value has {digits} digits; use sys.set_int_max_str_digits() to increase the limit"
  else .ok (some (natOf (statusWord head)))

theorem statusOf_isError {head : List Char} :
    (∃ error, statusOf head = .error error) ↔ HasLongStatus head := by
  by_cases hnames : NamesStatus head
  · by_cases hlong : MAX_STR_DIGITS < (statusWord head).length <;>
      simp [statusOf, HasLongStatus, hnames, hlong]
  · simp [statusOf, HasLongStatus, hnames]

/-- What asking an open connection for the stream comes to. -/
inductive HarborAnswer
  | head (bytes : List Char)
  /-- The connection ended early or was reset, or the head is too long. -/
  | dropped
  /-- The socket reports a timeout. -/
  | timedOut
  /-- Any other `OSError` of the socket. -/
  | fails (error : String)

/-- What the reading of the answer does not catch. -/
def HarborAnswer.IsOdd : HarborAnswer → Prop
  | .head bytes => HasLongStatus bytes
  | .fails _ => True
  | .dropped | .timedOut => False

/-! ## Processes and threads -/

/-- A launched process. `noticed` says its exit code has been read. -/
structure EngineProcess where
  pid : Nat
  killed : Bool
  exitCode : Option Int
  noticed : Bool

namespace EngineProcess

def launched (pid : Nat) : EngineProcess := ⟨pid, false, none, false⟩

/-- Killed, or exited by itself. -/
def Ended (process : EngineProcess) : Prop := process.killed ∨ process.exitCode.isSome

instance (process : EngineProcess) : Decidable process.Ended :=
  inferInstanceAs (Decidable (_ ∨ _))

def exit (code : Int) (process : EngineProcess) : EngineProcess :=
  { process with exitCode := some code }

def poll (process : EngineProcess) : EngineProcess :=
  { process with noticed := process.exitCode.isSome }

def kill (process : EngineProcess) : EngineProcess := { process with killed := true }

/-- Kill the process unless a poll finds it has exited. -/
def pollOrKill (process : EngineProcess) : EngineProcess :=
  if process.exitCode.isSome then process.poll else process.kill

/-- The note on a process that a kill has not ended in time. -/
def notExited (process : EngineProcess) : String :=
  s!"engine process {process.pid} was killed but had not exited after 10 s"

/-- What a reap says, after it has waited for the process. -/
def reapedText (killed : Bool) (process : EngineProcess) : String :=
  match process.exitCode with
  | none => process.notExited
  | some code =>
    if killed then s!"engine killed (exit code {code})" else s!"engine exit code {code}"

end EngineProcess

/-- How far a reaping thread has come. A queued one can still be dropped. -/
inductive ReapStage
  | queued
  | waiting (killed : Bool)
  | ended (text : String)
  | dropped

structure Reap where
  process : Nat
  stage : ReapStage

/-- How far the thread that runs `start_session` has come. -/
inductive StartWork
  | launching
  | assigning (process : Nat)
  /-- The job refused the process; it is killed and waited for. -/
  | refusing (process : Nat) (error : String)
  | started (process : Nat)
  | refused (error : String)

/-- Who takes the result of a starting thread. -/
inductive StartClaim
  | awaited
  | claimed
  /-- The call was cancelled: a done-callback takes it. -/
  | abandoned
  | settled
deriving DecidableEq

structure RunningEngine where
  process : Nat
  pid : Nat
  port : HarborPort
  upstream : Nat

inductive EngineResult
  | running (engine : RunningEngine)
  | startError (message : String)
  | cancelled
  /-- An error that is not an `EngineStartError`. -/
  | escaped (error : String)

/-- Why an attempt leaves without an engine. -/
inductive WayOut
  | failed (message : String)
  | cancelled
  | escaped (error : String)

/-- Where the call stands: at an await, or about to take a step of its own. -/
inductive EnginePhase
  | spawning
  | looking (process : Nat)
  | connecting (process : Nat)
  | exchanging (process connection : Nat)
  | pausing (process : Nat)
  | reaping (process thread : Nat) (notReady : String)
  | leaving (process : Nat) (way : WayOut)
  | retrying (first : String)
  | ended (result : EngineResult)

structure EngineState where
  processes : List EngineProcess
  /-- Each connection to a harbor, and whether it is open. -/
  connections : List Bool
  reaps : List Reap
  work : StartWork
  claim : StartClaim
  port : HarborPort
  /-- The first attempt's failure. -/
  first : Option String
  phase : EnginePhase

inductive EngineAction
  | exits (process : Nat) (code : Int)
  | launches (outcome : Except String Nat)
  | assigns (refusal : Option String)
  | refusalEnds
  | settles
  | claims
  | looks (late : Bool)
  | connects (refused : Bool)
  | answers (answer : HarborAnswer)
  | deadline
  | wakes
  | reapKills (thread : Nat)
  | reapEnds (thread : Nat)
  | reaped
  | leaves
  | retries (port : Except String HarborPort)
  | cancel (dropsReap : Bool)

/-! ## The steps -/

namespace EngineState

def opened (endpoint : SessionEndpoint) : EngineState where
  processes := []
  connections := []
  reaps := []
  work := .launching
  claim := .awaited
  port := endpoint.harborPort
  first := none
  phase := .spawning

variable (state : EngineState)

def onProcess (id : Nat) (change : EngineProcess → EngineProcess) : EngineState :=
  { state with processes := state.processes.modify id change }

def goTo (phase : EnginePhase) : EngineState := { state with phase := phase }

def close (connection : Nat) : EngineState :=
  { state with connections := state.connections.set connection false }

def startReap (process : Nat) : EngineState :=
  { state with reaps := state.reaps ++ [⟨process, .queued⟩] }

def setReap (thread : Nat) (reap : Reap) : EngineState :=
  { state with reaps := state.reaps.set thread reap }

/-- Kill the process now and reap it in a background thread, without waiting here. -/
def abandon (process : Nat) : EngineState :=
  (state.onProcess process .pollOrKill).startReap process

/-- The harbor is not ready: reap the process in a worker thread and wait for it. -/
def reapAndWait (process : Nat) (notReady : String) : EngineState :=
  (state.startReap process).goTo (.reaping process state.reaps.length notReady)

/-- An attempt has failed: try once more, or say why both did. -/
def attemptFailed (endpoint : SessionEndpoint) (message : String) : EngineState :=
  match state.first with
  | none => state.goTo (.retrying message)
  | some first =>
    let sessionId := endpoint.sessionId
    let port := state.port.val
    state.goTo (.ended (.startError
      s!"session {sessionId}: {first}; retry on port {port}: {message}"))

/-- The attempt is over without an engine. -/
def wayOut (endpoint : SessionEndpoint) : WayOut → EngineState
  | .failed message => state.attemptFailed endpoint message
  | .cancelled => state.goTo (.ended .cancelled)
  | .escaped error => state.goTo (.ended (.escaped error))

def notReady (endpoint : SessionEndpoint) : String :=
  let port := state.port.val
  let timeout := endpoint.readyTimeoutS
  s!"harbor on {port} not ready after {timeout} s"

end EngineState

variable (endpoint : SessionEndpoint)

/-- One step of `start_session`, in its thread. -/
def workStep (state : EngineState) : EngineAction → Option EngineState
  | .launches outcome =>
    match state.work, outcome with
    | .launching, .error error => some { state with work := .refused error }
    | .launching, .ok pid => some
        { state with
          processes := state.processes ++ [.launched pid]
          work := .assigning state.processes.length }
    | _, _ => none
  | .assigns refusal =>
    match state.work, refusal with
    | .assigning process, none => some { state with work := .started process }
    | .assigning process, some error => some
        ({ state with work := .refusing process error }.onProcess process .kill)
    | _, _ => none
  | .refusalEnds =>
    match state.work with
    | .refusing process error =>
      state.processes[process]?.map fun killed =>
        let note := killed.notExited
        let refused := if killed.exitCode.isSome then error else s!"{error}; {note}"
        { state with work := .refused refused }.onProcess process .poll
    | _ => none
  | _ => none

/-- The done-callback of a start nobody waits for. -/
def settle (state : EngineState) : Option EngineState :=
  if state.claim = .abandoned then
    match state.work with
    | .started process => some ({ state with claim := .settled }.abandon process)
    | .refused _ => some { state with claim := .settled }
    | _ => none
  else none

/-- One step of a thread that reaps. -/
def reapStep (state : EngineState) : EngineAction → Option EngineState
  | .reapKills thread =>
    match state.reaps[thread]? with
    | some ⟨id, .queued⟩ =>
      state.processes[id]?.map fun process =>
        (state.onProcess id .pollOrKill).setReap thread ⟨id, .waiting process.exitCode.isNone⟩
    | _ => none
  | .reapEnds thread =>
    match state.reaps[thread]? with
    | some ⟨id, .waiting killed⟩ =>
      state.processes[id]?.map fun process =>
        (state.onProcess id .poll).setReap thread ⟨id, .ended (process.reapedText killed)⟩
    | _ => none
  | _ => none

/-- What the call makes of the harbor's answer. The connection is closed on every path
but a 200. -/
def answered (state : EngineState) (id connection : Nat) : HarborAnswer → Option EngineState
  | .head bytes =>
    match statusOf bytes with
    | .error error => some ((state.close connection).goTo (.leaving id (.escaped error)))
    | .ok status =>
      if status = some 200 then
        state.processes[id]?.map fun process =>
          state.goTo (.ended (.running ⟨id, process.pid, state.port, connection⟩))
      else some ((state.close connection).goTo (.pausing id))
  | .dropped => some ((state.close connection).goTo (.pausing id))
  | .timedOut => some ((state.close connection).reapAndWait id (state.notReady endpoint))
  | .fails error => some ((state.close connection).goTo (.leaving id (.escaped error)))

/-- The call is cancelled where it awaits. -/
def cancelled (state : EngineState) (dropsReap : Bool) : Option EngineState :=
  match state.phase with
  | .spawning => some ({ state with claim := .abandoned }.goTo (.ended .cancelled))
  | .connecting process => some (state.goTo (.leaving process .cancelled))
  | .exchanging process connection =>
    some ((state.close connection).goTo (.leaving process .cancelled))
  | .pausing process => some (state.goTo (.leaving process .cancelled))
  | .reaping process thread _ =>
    match dropsReap, state.reaps[thread]? with
    | true, some ⟨id, .queued⟩ =>
      some ((state.setReap thread ⟨id, .dropped⟩).goTo (.leaving process .cancelled))
    | true, _ => none
    | false, _ => some (state.goTo (.leaving process .cancelled))
  | _ => none

/-- One step of the call itself. -/
def callStep (state : EngineState) : EngineAction → Option EngineState
  | .claims =>
    match state.phase, state.work with
    | .spawning, .started process =>
      some ({ state with claim := .claimed }.goTo (.looking process))
    | .spawning, .refused error =>
      some ({ state with claim := .claimed }.attemptFailed endpoint
        s!"engine did not start: {error}")
    | _, _ => none
  | .looks late =>
    match state.phase with
    | .looking id =>
      state.processes[id]?.map fun process =>
        let polled := state.onProcess id .poll
        let port := state.port.val
        if process.exitCode.isSome then
          polled.reapAndWait id s!"engine exited before its harbor on {port} was ready"
        else if late then polled.reapAndWait id (state.notReady endpoint)
        else polled.goTo (.connecting id)
    | _ => none
  | .connects refused =>
    match state.phase with
    | .connecting process =>
      if refused then some (state.goTo (.pausing process))
      else some ({ state with connections := state.connections ++ [true] }.goTo
        (.exchanging process state.connections.length))
    | _ => none
  | .answers answer =>
    match state.phase with
    | .exchanging process connection => answered endpoint state process connection answer
    | _ => none
  | .deadline =>
    match state.phase with
    | .connecting process => some (state.reapAndWait process (state.notReady endpoint))
    | .exchanging process connection =>
      some ((state.close connection).reapAndWait process (state.notReady endpoint))
    | _ => none
  | .wakes =>
    match state.phase with
    | .pausing process => some (state.goTo (.looking process))
    | _ => none
  | .reaped =>
    match state.phase with
    | .reaping process thread notReady =>
      match state.reaps[thread]? with
      | some ⟨_, .ended text⟩ =>
        some (state.goTo (.leaving process (.failed s!"{notReady}; {text}")))
      | _ => none
    | _ => none
  | .leaves =>
    match state.phase with
    | .leaving id way =>
      state.processes[id]?.map fun process =>
        (if process.noticed then state else state.abandon id).wayOut endpoint way
    | _ => none
  | .retries port =>
    match state.phase, port with
    | .retrying first, .error error =>
      let sessionId := endpoint.sessionId
      some (state.goTo (.ended (.startError
        s!"session {sessionId}: {first}; no port to retry on: {error}")))
    | .retrying first, .ok port =>
      if port = state.port then none
      else some
        { state with
          work := .launching
          claim := .awaited
          port := port
          first := some first
          phase := .spawning }
    | _, _ => none
  | .cancel dropsReap => cancelled state dropsReap
  | _ => none

/-- One step of the call, of a thread it left, or of a process. -/
def engineStep (state : EngineState) (action : EngineAction) : Option (EngineState × Unit) :=
  Option.map (·, ()) <|
    match action with
    | .exits id code =>
      match state.processes[id]? with
      | some process =>
        if process.exitCode.isSome then none else some (state.onProcess id (.exit code))
      | none => none
    | .launches outcome => workStep state (.launches outcome)
    | .assigns refusal => workStep state (.assigns refusal)
    | .refusalEnds => workStep state .refusalEnds
    | .settles => settle state
    | .reapKills thread => reapStep state (.reapKills thread)
    | .reapEnds thread => reapStep state (.reapEnds thread)
    | action => callStep endpoint state action

def engineMachine : Machine EngineState EngineAction Unit := ⟨engineStep endpoint⟩

end RetroStation.Playout
