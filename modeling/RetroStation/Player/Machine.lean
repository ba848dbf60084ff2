import Mathlib.Algebra.Group.Nat.Defs
import RetroStation.Transition.Run

/-! # The player page's state machine

`step` gives the next state and, in order, the effects the controller performs
on the browser objects. It holds no timer, socket or element itself; the page
that does is in `Player.Resources`.
-/

namespace RetroStation.Player

inductive Phase
  | idle | connecting | tuning | playing | retrying | needsTap | ended | failed
  deriving DecidableEq, Repr

inductive FailReason
  | noBroadcast | busy | unavailable | unreachable | lost
  deriving DecidableEq, Repr

/-- A stream status as a `status` frame names it. -/
inductive StatusKind
  | tuning | noBroadcast | busy | unavailable | ended | stopped
  deriving DecidableEq, Repr

structure Song where
  artist : String
  title : String
  deriving DecidableEq, Repr

inductive TimerName
  | «open» | tune | grace | stall | tap | deadline | wait
  deriving DecidableEq, Repr

structure PlayerState where
  phase : Phase
  reason : Option FailReason
  song : Option Song
  titlesLost : Bool
  lastStatus : Option StatusKind
  attempt : Nat
  reconnecting : Bool
  lossPending : Bool
  stalling : Bool
  deriving DecidableEq, Repr

inductive PlayerEvent
  | play | stop | visible
  | eventsOpen | eventsFailed (closed : Bool)
  | status (kind : StatusKind) | nowPlaying (song : Song)
  | audioPlaying | audioLost | audioWaiting | audioPaused | playBlocked
  | timeout (timer : TimerName)
  deriving DecidableEq, Repr

inductive Effect
  | openEvents | closeEvents | startAudio | resumeAudio | stopAudio
  | setTimer (timer : TimerName) (ms : Nat)
  | clearTimer (timer : TimerName)
  deriving DecidableEq, Repr

structure Transition where
  state : PlayerState
  effects : List Effect
  deriving DecidableEq, Repr

def OPEN_MS : Nat := 10000
def TUNE_MS : Nat := 15000
def GRACE_MS : Nat := 2000
def STALL_MS : Nat := 10000
def TAP_MS : Nat := 30000
def DEADLINE_MS : Nat := 60000
def FIRST_WAIT_MS : Nat := 1000
def LONGEST_WAIT_MS : Nat := 30000

def TIMERS : List TimerName := [.open, .tune, .grace, .stall, .tap, .deadline, .wait]

theorem mem_TIMERS (timer : TimerName) : timer ∈ TIMERS := by
  cases timer <;> decide

def initialState : PlayerState where
  phase := .idle
  reason := none
  song := none
  titlesLost := false
  lastStatus := none
  attempt := 0
  reconnecting := false
  lossPending := false
  stalling := false

/-- 1, 2, 4, 8, 16, then 30 s; `attempt` counts from one. -/
def retryDelay (attempt : Nat) : Nat :=
  min (FIRST_WAIT_MS * 2 ^ (attempt - 1)) LONGEST_WAIT_MS

/-- The phases that show Play and hold nothing open. -/
def isResting (phase : Phase) : Bool :=
  phase = .idle || phase = .ended || phase = .failed

def quiet (state : PlayerState) : Transition := ⟨state, []⟩

/-- Waiting between tries, not for a reason. -/
def canStartTry (state : PlayerState) : Bool :=
  state.phase = .retrying && !state.lossPending

def clearTimers (keep : Option TimerName) : List Effect :=
  (TIMERS.filter fun timer => some timer ≠ keep).map .clearTimer

def leave (phase : Phase) (reason : Option FailReason) : Transition where
  state := { initialState with phase := phase, reason := reason }
  effects := [.closeEvents, .stopAudio] ++ clearTimers none

/-- Close everything but the deadline, which starts here when no drop was
running, and wait before the next try. -/
def retry (state : PlayerState) (deadlineMs : Nat) : Transition where
  state := { state with
    phase := .retrying
    reason := none
    song := none
    titlesLost := false
    lastStatus := none
    attempt := state.attempt + 1
    reconnecting := true
    lossPending := false
    stalling := false }
  effects := [.closeEvents, .stopAudio] ++ clearTimers (some .deadline) ++
    (if state.reconnecting then [] else [.setTimer .deadline deadlineMs]) ++
    [.setTimer .wait (retryDelay (state.attempt + 1))]

def tryFailed (state : PlayerState) : Transition :=
  if state.reconnecting then retry state DEADLINE_MS else leave .failed (some .unreachable)

def decideByReason (state : PlayerState) (kind : Option StatusKind) (deadlineMs : Nat) :
    Option Transition :=
  match kind with
  | some .ended => some (leave .ended none)
  | some .unavailable => some (leave .failed (some .unavailable))
  | some .stopped => some (retry state deadlineMs)
  | _ => none

def onPlay (state : PlayerState) : Transition :=
  if isResting state.phase then
    ⟨{ initialState with phase := .connecting }, [.openEvents, .setTimer .open OPEN_MS]⟩
  else if state.phase ≠ .needsTap then quiet state
  else
    ⟨{ state with phase := .tuning },
      [.clearTimer .tap, .resumeAudio, .setTimer .tune TUNE_MS]⟩

def startTry (state : PlayerState) : Transition :=
  ⟨{ state with phase := .connecting },
    [.clearTimer .wait, .openEvents, .setTimer .open OPEN_MS]⟩

/-- Only the events' first `open` gives the audio its source. -/
def onEventsOpen (state : PlayerState) : Transition :=
  if state.phase ≠ .connecting then quiet state
  else
    ⟨{ state with phase := .tuning },
      [.clearTimer .open, .startAudio, .setTimer .tune TUNE_MS]⟩

def loseTitles (state : PlayerState) : Transition :=
  ⟨{ state with song := none, titlesLost := true }, [.closeEvents]⟩

def onEventsFailed (state : PlayerState) (closed : Bool) : Transition :=
  if !closed then quiet state
  else match state.phase with
    -- On a first tune-in the audio may still play, so the page goes on without titles.
    | .tuning => if state.reconnecting then tryFailed state else loseTitles state
    | .connecting | .needsTap => tryFailed state
    | .playing => loseTitles state
    | .retrying => ⟨state, [.closeEvents]⟩
    | _ => quiet state

def statusWhileTuning (state : PlayerState) (kind : StatusKind) : Transition :=
  match kind with
  | .noBroadcast => leave .failed (some .noBroadcast)
  | .unavailable => leave .failed (some .unavailable)
  | .ended => leave .ended none
  | .busy => if state.reconnecting then retry state DEADLINE_MS else leave .failed (some .busy)
  | .stopped => retry state DEADLINE_MS
  | .tuning => quiet { state with song := none }

def onStatus (state : PlayerState) (kind : StatusKind) : Transition :=
  match state.phase with
  | .connecting | .tuning | .needsTap => statusWhileTuning state kind
  -- While its own audio plays, a status is information only.
  | .playing => quiet { state with lastStatus := some kind }
  | .retrying =>
    if !state.lossPending then quiet state
    else (decideByReason state (some kind) DEADLINE_MS).getD (quiet state)
  | _ => quiet state

def onNowPlaying (state : PlayerState) (song : Song) : Transition :=
  let connected := state.phase = .tuning || state.phase = .playing || state.phase = .needsTap
  if !connected then quiet state
  else quiet { state with song := some song, lastStatus := none }

def onAudioPlaying (state : PlayerState) : Transition :=
  if state.phase = .playing && state.stalling then
    ⟨{ state with stalling := false }, [.clearTimer .stall]⟩
  else if state.phase ≠ .tuning then quiet state
  else
    ⟨{ state with
        phase := .playing
        lastStatus := none
        attempt := 0
        reconnecting := false
        lossPending := false
        stalling := false },
      clearTimers none⟩

/-- While tuning in, the loss waits for a reason. While playing it is the drop:
the remembered reason decides, else the page waits for one. -/
def onAudioLost (state : PlayerState) : Transition :=
  if state.phase = .tuning then
    if state.lossPending then quiet state
    else ⟨{ state with lossPending := true }, [.setTimer .grace GRACE_MS]⟩
  else if state.phase ≠ .playing then quiet state
  else match decideByReason state state.lastStatus DEADLINE_MS with
    | some decided => decided
    | none =>
      ⟨{ state with
          phase := .retrying
          song := none
          lastStatus := none
          reconnecting := true
          lossPending := true
          stalling := false },
        [.clearTimer .stall, .setTimer .deadline DEADLINE_MS, .setTimer .grace GRACE_MS]⟩

def onAudioWaiting (state : PlayerState) : Transition :=
  if state.phase ≠ .playing || state.stalling then quiet state
  else ⟨{ state with stalling := true }, [.setTimer .stall STALL_MS]⟩

def onPlayBlocked (state : PlayerState) : Transition :=
  if state.phase ≠ .tuning then quiet state
  else
    ⟨{ state with phase := .needsTap, lossPending := false },
      [.clearTimer .tune, .clearTimer .grace, .setTimer .tap TAP_MS]⟩

def onTimeout (state : PlayerState) (timer : TimerName) : Transition :=
  match timer with
  | .open => if state.phase = .connecting then tryFailed state else quiet state
  | .tune => if state.phase = .tuning then tryFailed state else quiet state
  | .grace =>
    if state.phase = .tuning then tryFailed state
    else if state.phase = .retrying && state.lossPending then retry state DEADLINE_MS
    else quiet state
  | .stall =>
    if state.phase ≠ .playing then quiet state
    -- The stall has already waited; the deadline runs from its start.
    else (decideByReason state state.lastStatus (DEADLINE_MS - STALL_MS)).getD
      (retry state (DEADLINE_MS - STALL_MS))
  | .tap =>
    if state.phase ≠ .needsTap then quiet state
    else if state.reconnecting then leave .failed (some .lost) else leave .idle none
  | .deadline =>
    if !isResting state.phase && state.reconnecting then leave .failed (some .lost)
    else quiet state
  | .wait => if canStartTry state then startTry state else quiet state

def step (state : PlayerState) (event : PlayerEvent) : Transition :=
  match event with
  | .play => onPlay state
  | .stop => if isResting state.phase then quiet state else leave .idle none
  | .visible => if canStartTry state then startTry state else quiet state
  | .eventsOpen => onEventsOpen state
  | .eventsFailed closed => onEventsFailed state closed
  | .status kind => onStatus state kind
  | .nowPlaying song => onNowPlaying state song
  | .audioPlaying => onAudioPlaying state
  | .audioLost => onAudioLost state
  | .audioWaiting => onAudioWaiting state
  -- A pause the page did not ask for is a Stop.
  | .audioPaused => if state.phase = .playing then leave .idle none else quiet state
  | .playBlocked => onPlayBlocked state
  | .timeout timer => onTimeout state timer

end RetroStation.Player
