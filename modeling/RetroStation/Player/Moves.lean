import RetroStation.Player.Machine

/-! # The moves of the player machine

Each transition of `step` is one of ten moves. A fact about every step is a
case analysis on the move, whatever handler the event went through.
-/

namespace RetroStation.Player

/-- An effect that neither opens anything nor concerns the deadline. -/
def Effect.minor : Effect → Bool
  | .closeEvents | .clearTimer .stall | .setTimer .stall _ | .setTimer .grace _ => true
  | _ => false

inductive Move (state : PlayerState) (event : PlayerEvent) : Transition → Prop
  | leaves (phase : Phase) (reason : Option FailReason) (hresting : isResting phase) :
      Move state event (leave phase reason)
  | retries (deadlineMs : Nat) (hactive : ¬ isResting state.phase)
      (hdeadline : deadlineMs = DEADLINE_MS ∨
        event = .timeout .stall ∧ deadlineMs = DEADLINE_MS - STALL_MS) :
      Move state event (retry state deadlineMs)
  | remains (next : PlayerState) (effects : List Effect) (hphase : next.phase = state.phase)
      (hreconnecting : next.reconnecting = state.reconnecting)
      (hminor : ∀ effect ∈ effects, effect.minor) :
      Move state event ⟨next, effects⟩
  | tunesIn (hresting : isResting state.phase) :
      Move state event
        ⟨{ initialState with phase := .connecting }, [.openEvents, .setTimer .open OPEN_MS]⟩
  | resumes (hphase : state.phase = .needsTap) :
      Move state event ⟨{ state with phase := .tuning },
        [.clearTimer .tap, .resumeAudio, .setTimer .tune TUNE_MS]⟩
  | triesAgain (hstart : canStartTry state) : Move state event (startTry state)
  | connects (hphase : state.phase = .connecting) (hevent : event = .eventsOpen) :
      Move state event ⟨{ state with phase := .tuning },
        [.clearTimer .open, .startAudio, .setTimer .tune TUNE_MS]⟩
  | plays (next : PlayerState) (hphase : next.phase = .playing)
      (hreconnecting : next.reconnecting = false) :
      Move state event ⟨next, clearTimers none⟩
  | drops (next : PlayerState) (hplaying : state.phase = .playing)
      (hphase : next.phase = .retrying) (hreconnecting : next.reconnecting = true) :
      Move state event ⟨next,
        [.clearTimer .stall, .setTimer .deadline DEADLINE_MS, .setTimer .grace GRACE_MS]⟩
  | asksTap (hphase : state.phase = .tuning) :
      Move state event ⟨{ state with phase := .needsTap, lossPending := false },
        [.clearTimer .tune, .clearTimer .grace, .setTimer .tap TAP_MS]⟩

namespace Move

variable {state : PlayerState} {event : PlayerEvent}

theorem of_quiet (next : PlayerState) (hphase : next.phase = state.phase)
    (hreconnecting : next.reconnecting = state.reconnecting) :
    Move state event (quiet next) :=
  .remains next [] hphase hreconnecting (by simp)

theorem of_tryFailed (hactive : ¬ isResting state.phase) : Move state event (tryFailed state) := by
  unfold tryFailed
  split
  · exact .retries _ hactive (.inl rfl)
  · exact .leaves _ _ rfl

theorem of_decideByReason {kind : Option StatusKind} {deadlineMs : Nat} {decided : Transition}
    (hactive : ¬ isResting state.phase)
    (hdeadline : deadlineMs = DEADLINE_MS ∨
      event = .timeout .stall ∧ deadlineMs = DEADLINE_MS - STALL_MS)
    (hdecided : decideByReason state kind deadlineMs = some decided) :
    Move state event decided := by
  unfold decideByReason at hdecided
  split at hdecided <;> simp only [Option.some.injEq, reduceCtorEq] at hdecided <;> subst decided
  · exact .leaves _ _ rfl
  · exact .leaves _ _ rfl
  · exact .retries _ hactive hdeadline

theorem of_onPlay : Move state event (onPlay state) := by
  unfold onPlay
  split
  next hresting => exact .tunesIn hresting
  next =>
    split
    · exact of_quiet _ rfl rfl
    next hphase => exact .resumes (by simpa using hphase)

theorem of_onEventsOpen : Move state .eventsOpen (onEventsOpen state) := by
  unfold onEventsOpen
  split
  · exact of_quiet _ rfl rfl
  next hphase => exact .connects (by simpa using hphase) rfl

theorem of_onEventsFailed (closed : Bool) : Move state event (onEventsFailed state closed) := by
  have hclose : ∀ next : PlayerState, next.phase = state.phase →
      next.reconnecting = state.reconnecting → Move state event ⟨next, [.closeEvents]⟩ :=
    fun next hphase hreconnecting => .remains next _ hphase hreconnecting (by simp [Effect.minor])
  unfold onEventsFailed
  split
  · exact of_quiet _ rfl rfl
  · split
    next hphase =>
      split
      · exact of_tryFailed (by simp [hphase, isResting])
      · exact hclose _ rfl rfl
    next hphase => exact of_tryFailed (by simp [hphase, isResting])
    next hphase => exact of_tryFailed (by simp [hphase, isResting])
    · exact hclose _ rfl rfl
    · exact hclose _ rfl rfl
    · exact of_quiet _ rfl rfl

theorem of_statusWhileTuning (hactive : ¬ isResting state.phase) (kind : StatusKind) :
    Move state event (statusWhileTuning state kind) := by
  cases kind with
  | noBroadcast | unavailable | ended => exact .leaves _ _ rfl
  | busy =>
      simp only [statusWhileTuning]
      split
      · exact .retries _ hactive (.inl rfl)
      · exact .leaves _ _ rfl
  | stopped => exact .retries _ hactive (.inl rfl)
  | tuning => exact of_quiet _ rfl rfl

theorem of_onStatus (kind : StatusKind) : Move state event (onStatus state kind) := by
  unfold onStatus
  split
  next hphase => exact of_statusWhileTuning (by simp [hphase, isResting]) kind
  next hphase => exact of_statusWhileTuning (by simp [hphase, isResting]) kind
  next hphase => exact of_statusWhileTuning (by simp [hphase, isResting]) kind
  · exact of_quiet _ rfl rfl
  next hphase =>
    split
    · exact of_quiet _ rfl rfl
    · cases hdecided : decideByReason state (some kind) DEADLINE_MS with
      | none => exact of_quiet _ rfl rfl
      | some decided =>
          exact of_decideByReason (by simp [hphase, isResting]) (.inl rfl) hdecided
  · exact of_quiet _ rfl rfl

theorem of_onAudioPlaying : Move state event (onAudioPlaying state) := by
  unfold onAudioPlaying
  split
  · exact .remains _ _ rfl rfl (by simp [Effect.minor])
  · split
    · exact of_quiet _ rfl rfl
    · exact .plays _ rfl rfl

theorem of_onAudioLost : Move state event (onAudioLost state) := by
  unfold onAudioLost
  split
  · split
    · exact of_quiet _ rfl rfl
    · exact .remains _ _ rfl rfl (by simp [Effect.minor])
  · split
    · exact of_quiet _ rfl rfl
    next hphase =>
      simp only [ne_eq, Decidable.not_not] at hphase
      split
      next decided hdecided =>
        exact of_decideByReason (by simp [hphase, isResting]) (.inl rfl) hdecided
      next => exact .drops _ hphase rfl rfl

theorem of_onAudioWaiting : Move state event (onAudioWaiting state) := by
  unfold onAudioWaiting
  split
  · exact of_quiet _ rfl rfl
  · exact .remains _ _ rfl rfl (by simp [Effect.minor])

theorem of_onPlayBlocked : Move state event (onPlayBlocked state) := by
  unfold onPlayBlocked
  split
  · exact of_quiet _ rfl rfl
  next hphase => exact .asksTap (by simpa using hphase)

theorem of_onTimeout (timer : TimerName) :
    Move state (.timeout timer) (onTimeout state timer) := by
  cases timer with
  | «open» | tune =>
      simp only [onTimeout]
      split
      next hphase => exact of_tryFailed (by simp [hphase, isResting])
      · exact of_quiet _ rfl rfl
  | grace =>
      simp only [onTimeout]
      split
      next hphase => exact of_tryFailed (by simp [hphase, isResting])
      · split
        next hwaiting =>
          simp only [Bool.and_eq_true, decide_eq_true_eq] at hwaiting
          exact .retries _ (by simp [hwaiting.1, isResting]) (.inl rfl)
        · exact of_quiet _ rfl rfl
  | stall =>
      simp only [onTimeout]
      split
      · exact of_quiet _ rfl rfl
      next hphase =>
        simp only [ne_eq, Decidable.not_not] at hphase
        have hactive : ¬ isResting state.phase := by simp [hphase, isResting]
        cases hdecided : decideByReason state state.lastStatus (DEADLINE_MS - STALL_MS) with
        | none => exact .retries _ hactive (.inr ⟨rfl, rfl⟩)
        | some decided => exact of_decideByReason hactive (.inr ⟨rfl, rfl⟩) hdecided
  | tap =>
      simp only [onTimeout]
      split
      · exact of_quiet _ rfl rfl
      · split <;> exact .leaves _ _ rfl
  | deadline =>
      simp only [onTimeout]
      split
      · exact .leaves _ _ rfl
      · exact of_quiet _ rfl rfl
  | wait =>
      simp only [onTimeout]
      split
      next hstart => exact .triesAgain hstart
      · exact of_quiet _ rfl rfl

end Move

/-- Every transition is a move. -/
theorem step_move (state : PlayerState) (event : PlayerEvent) :
    Move state event (step state event) := by
  cases event with
  | play => exact .of_onPlay
  | stop =>
      simp only [step]
      split
      · exact .of_quiet _ rfl rfl
      · exact .leaves _ _ rfl
  | audioPaused =>
      simp only [step]
      split
      · exact .leaves _ _ rfl
      · exact .of_quiet _ rfl rfl
  | visible =>
      simp only [step]
      split
      next hstart => exact .triesAgain hstart
      · exact .of_quiet _ rfl rfl
  | eventsOpen => exact .of_onEventsOpen
  | eventsFailed closed => exact .of_onEventsFailed closed
  | status kind => exact .of_onStatus kind
  | nowPlaying song =>
      simp only [step, onNowPlaying]
      split <;> exact .of_quiet _ rfl rfl
  | audioPlaying => exact .of_onAudioPlaying
  | audioLost => exact .of_onAudioLost
  | audioWaiting => exact .of_onAudioWaiting
  | playBlocked => exact .of_onPlayBlocked
  | timeout timer => exact .of_onTimeout timer

end RetroStation.Player
