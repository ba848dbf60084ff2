import RetroStation.Player.Moves
import Mathlib.Logic.Function.Basic

/-! # The player page's resources

The page owns one events stream, one audio element and seven timers, and does
what the machine's effects say. The invariant `Page.Accounted` says that the
machine's state alone determines which timers run and whether the audio has a
source, so that no path through the machine leaves one behind.
-/

namespace RetroStation.Player

/-- The controller's objects: `due` is when each running timer runs out. -/
structure Page where
  state : PlayerState
  eventsOpen : Bool
  audioOn : Bool
  due : TimerName → Option Nat
  now : Nat

namespace Page

def initial : Page where
  state := initialState
  eventsOpen := false
  audioOn := false
  due := fun _ => none
  now := 0

def running (page : Page) (timer : TimerName) : Bool := (page.due timer).isSome

def perform (page : Page) : Effect → Page
  | .openEvents => { page with eventsOpen := true }
  | .closeEvents => { page with eventsOpen := false }
  | .startAudio => { page with audioOn := true }
  | .resumeAudio => page
  | .stopAudio => { page with audioOn := false }
  | .setTimer timer ms =>
    { page with due := Function.update page.due timer (some (page.now + ms)) }
  | .clearTimer timer => { page with due := Function.update page.due timer none }

def apply (page : Page) (transition : Transition) : Page :=
  transition.effects.foldl perform { page with state := transition.state }

/-- A timer that runs out no longer runs when its event reaches the machine. -/
def expire (page : Page) : PlayerEvent → Page
  | .timeout timer => { page with due := Function.update page.due timer none }
  | _ => page

/-- What can happen to the page: a running timer runs out, an open events
stream speaks or fails, and the audio and the listener do as they like. -/
def accepts (page : Page) : PlayerEvent → Bool
  | .timeout timer => page.running timer
  | .eventsOpen | .eventsFailed _ | .status _ | .nowPlaying _ => page.eventsOpen
  | _ => true

end Page

inductive PageAction
  | event (event : PlayerEvent)
  | elapse (ms : Nat)
  deriving DecidableEq, Repr

/-- The page under every sequence of events, with time passing between them.
The output is the effects performed. -/
def pageMachine : Transition.Machine Page PageAction (List Effect) where
  step page action :=
    match action with
    | .elapse ms => some ({ page with now := page.now + ms }, [])
    | .event event =>
      if page.accepts event then
        some ((page.expire event).apply (step page.state event), (step page.state event).effects)
      else none

/-! ## What the state accounts for -/

namespace PlayerState

/-- The timers that run in this state, and no others. -/
def expects (state : PlayerState) : TimerName → Bool
  | .open => state.phase = .connecting
  | .tune => state.phase = .tuning
  | .grace => state.lossPending
  | .stall => state.stalling
  | .tap => state.phase = .needsTap
  | .deadline => state.reconnecting
  | .wait => canStartTry state

/-- The audio has a source from the events' first `open` to the next retry. -/
def hasAudio (state : PlayerState) : Bool :=
  state.phase = .tuning || state.phase = .playing || state.phase = .needsTap ||
    (state.phase = .retrying && state.lossPending)

/-- The flags that only mean something in some phases. -/
structure FlagsFit (state : PlayerState) : Prop where
  lossPending : state.lossPending → state.phase = .tuning ∨ state.phase = .retrying
  stalling : state.stalling → state.phase = .playing
  reconnecting : state.reconnecting → ¬ isResting state.phase ∧ state.phase ≠ .playing
  retrying : state.phase = .retrying → state.reconnecting

end PlayerState

namespace Page

/-- The state accounts for the page's resources, one timer set aside: the one
that has just run out. -/
structure AccountedBut (spared : Option TimerName) (page : Page) : Prop where
  flags : page.state.FlagsFit
  timers : ∀ timer, some timer ≠ spared → page.running timer = page.state.expects timer
  audio : page.audioOn = page.state.hasAudio
  connected : page.state.phase = .connecting → page.eventsOpen
  closed : isResting page.state.phase ∨ canStartTry page.state → page.eventsOpen = false

/-- The state accounts for all of the page's resources. -/
abbrev Accounted (page : Page) : Prop := page.AccountedBut none

/-- An effect meets the page it was meant for: the events are opened only when
closed, and the audio is started only when off, with the events open. -/
def Meets (page : Page) : List Effect → Prop
  | [] => True
  | effect :: rest =>
    (effect = .openEvents → page.eventsOpen = false) ∧
    (effect = .startAudio → page.audioOn = false ∧ page.eventsOpen) ∧
    (page.perform effect).Meets rest

theorem accounted_initial : initial.Accounted where
  flags := by constructor <;> decide
  timers timer _ := by cases timer <;> rfl
  audio := rfl
  connected := by decide
  closed _ := rfl

/-! ## The transitions every path shares -/

theorem perform_clears (page : Page) (timers : List TimerName) :
    (timers.map Effect.clearTimer).foldl perform page =
      { page with due := fun timer => if timer ∈ timers then none else page.due timer } := by
  induction timers generalizing page with
  | nil => simp
  | cons head rest ih =>
      rw [List.map_cons, List.foldl_cons, ih]
      simp only [perform, List.mem_cons, Page.mk.injEq, true_and, and_true]
      funext timer
      by_cases hrest : timer ∈ rest
      · simp [hrest]
      · simp [hrest, Function.update_apply]

theorem perform_clearTimers (page : Page) (keep : Option TimerName) :
    (clearTimers keep).foldl perform page =
      { page with due := fun timer => if some timer = keep then page.due timer else none } := by
  rw [clearTimers, perform_clears]
  simp only [List.mem_filter, mem_TIMERS, true_and, decide_eq_true_eq, ne_eq, ite_not]

theorem apply_leave (page : Page) (phase : Phase) (reason : Option FailReason) :
    page.apply (leave phase reason) =
      { state := { initialState with phase := phase, reason := reason }
        eventsOpen := false
        audioOn := false
        due := fun _ => none
        now := page.now } := by
  simp [apply, leave, perform_clearTimers, perform]

theorem apply_retry (page : Page) (state : PlayerState) (deadlineMs : Nat) :
    page.apply (retry state deadlineMs) =
      { state := (retry state deadlineMs).state
        eventsOpen := false
        audioOn := false
        due := fun timer => match timer with
          | .deadline =>
            if state.reconnecting then page.due .deadline else some (page.now + deadlineMs)
          | .wait => some (page.now + retryDelay (state.attempt + 1))
          | _ => none
        now := page.now } := by
  simp only [apply, retry, List.cons_append, List.nil_append, List.foldl_cons, List.foldl_append,
    perform_clearTimers, perform, List.foldl_nil]
  split <;>
    · simp only [List.foldl_cons, List.foldl_nil, perform, Page.mk.injEq, true_and, and_true]
      funext timer
      cases timer <;> simp

/-- Leaving for a resting phase settles every resource, whatever the page held. -/
theorem accounted_leave (page : Page) (phase : Phase) (reason : Option FailReason)
    (hphase : isResting phase) : (page.apply (leave phase reason)).Accounted := by
  rw [apply_leave]
  constructor
  case flags => constructor <;> simp [initialState, hphase]; cases phase <;> simp_all [isResting]
  case timers =>
    intro timer _
    cases timer <;> cases phase <;>
      simp_all [running, PlayerState.expects, initialState, isResting, canStartTry]
  case audio => cases phase <;> simp_all [PlayerState.hasAudio, initialState, isResting]
  case connected => cases phase <;> simp_all [isResting]
  case closed => simp

/-- A retry settles every resource but the deadline, which it only starts. -/
theorem accounted_retry (page : Page) (state : PlayerState) (deadlineMs : Nat)
    (hdeadline : page.running .deadline = state.reconnecting) :
    (page.apply (retry state deadlineMs)).Accounted := by
  rw [apply_retry]
  constructor
  case flags => constructor <;> simp [retry, isResting]
  case timers =>
    intro timer _
    cases timer <;> simp [running, PlayerState.expects, retry, canStartTry]
    split <;> simp_all [running]
  case audio => simp [PlayerState.hasAudio, retry]
  case connected => simp [retry]
  case closed => simp

theorem accounted_tryFailed (page : Page) (hdeadline : page.running .deadline =
    page.state.reconnecting) : (page.apply (tryFailed page.state)).Accounted := by
  unfold tryFailed
  split
  · exact accounted_retry page _ _ hdeadline
  · exact accounted_leave page _ _ rfl

theorem accounted_decideByReason (page : Page) {kind : Option StatusKind} {deadlineMs : Nat}
    {decided : Transition} (hdeadline : page.running .deadline = page.state.reconnecting)
    (hdecided : decideByReason page.state kind deadlineMs = some decided) :
    (page.apply decided).Accounted := by
  unfold decideByReason at hdecided
  split at hdecided <;> simp only [Option.some.injEq, reduceCtorEq] at hdecided <;> subst decided
  · exact accounted_leave page _ _ rfl
  · exact accounted_leave page _ _ rfl
  · exact accounted_retry page _ _ hdeadline

/-- What the page shows decides nothing about its resources. -/
theorem accounted_quiet (page : Page) (hpage : page.Accounted) (state : PlayerState)
    (hphase : state.phase = page.state.phase)
    (hreconnecting : state.reconnecting = page.state.reconnecting)
    (hloss : state.lossPending = page.state.lossPending)
    (hstalling : state.stalling = page.state.stalling) :
    (page.apply (quiet state)).Accounted := by
  obtain ⟨⟨hflagLoss, hflagStall, hflagDrop, hflagRetry⟩, htimers, haudio, hopen, hclosed⟩ := hpage
  constructor
  case flags => constructor <;> simp_all [apply, quiet]
  case timers =>
    intro timer hspared
    have hrunning := htimers timer hspared
    cases timer <;> simp_all [apply, quiet, running, PlayerState.expects, canStartTry]
  case audio => simp_all [apply, quiet, PlayerState.hasAudio]
  case connected => simp_all [apply, quiet]
  case closed => simp_all [apply, quiet, canStartTry]

/-! ## One event -/

theorem accounted_onPlay (page : Page) (hpage : page.Accounted) :
    (page.apply (onPlay page.state)).Accounted := by
  have hquiet := accounted_quiet page hpage page.state rfl rfl rfl rfl
  obtain ⟨⟨hloss, hstall, hdrop, hretry⟩, htimers, haudio, hopen, hclosed⟩ := hpage
  unfold onPlay
  split
  next hresting =>
    constructor
    case flags => constructor <;> simp [apply, initialState, perform]
    case timers =>
      intro timer hspared
      have hrunning := htimers timer hspared
      cases timer <;>
        simp_all [apply, perform, running, PlayerState.expects, canStartTry, initialState,
          isResting] <;> grind
    case audio => simp_all [apply, perform, PlayerState.hasAudio, initialState, isResting]; grind
    case connected => simp [apply, perform]
    case closed => simp [apply, perform, isResting, canStartTry]
  next hresting =>
    split
    · exact hquiet
    next hphase =>
      simp only [ne_eq, Decidable.not_not] at hphase
      constructor
      case flags => constructor <;> simp_all [apply, perform, isResting]
      case timers =>
        intro timer hspared
        have hrunning := htimers timer hspared
        cases timer <;> simp_all [apply, perform, running, PlayerState.expects, canStartTry]
      case audio => simp_all [apply, perform, PlayerState.hasAudio]
      case connected => simp [apply, perform]
      case closed => simp [apply, perform, isResting, canStartTry]

theorem AccountedBut.weaken {page : Page} (hpage : page.Accounted) (spared : Option TimerName) :
    page.AccountedBut spared :=
  { hpage with timers := fun timer _ => hpage.timers timer (by simp) }

theorem accounted_startTry (page : Page) (hpage : page.AccountedBut (some .wait))
    (hstart : canStartTry page.state) : (page.apply (startTry page.state)).Accounted := by
  obtain ⟨⟨hloss, hstall, hdrop, hretry⟩, htimers, haudio, hopen, hclosed⟩ := hpage
  simp only [canStartTry, Bool.and_eq_true, decide_eq_true_eq, Bool.not_eq_true'] at hstart
  obtain ⟨hphase, hpending⟩ := hstart
  constructor
  case flags => constructor <;> simp_all [apply, startTry, perform, isResting]
  case timers =>
    intro timer hspared
    have hrunning := htimers timer
    cases timer <;>
      simp_all [apply, startTry, perform, running, PlayerState.expects, canStartTry]
  case audio => simp_all [apply, startTry, perform, PlayerState.hasAudio]
  case connected => simp [apply, startTry, perform]
  case closed => simp [apply, startTry, perform, isResting, canStartTry]

theorem accounted_onEventsOpen (page : Page) (hpage : page.Accounted) :
    (page.apply (onEventsOpen page.state)).Accounted := by
  have hquiet := accounted_quiet page hpage page.state rfl rfl rfl rfl
  obtain ⟨⟨hloss, hstall, hdrop, hretry⟩, htimers, haudio, hopen, hclosed⟩ := hpage
  unfold onEventsOpen
  split
  · exact hquiet
  next hphase =>
    simp only [ne_eq, Decidable.not_not] at hphase
    constructor
    case flags => constructor <;> simp_all [apply, perform, isResting]
    case timers =>
      intro timer hspared
      have hrunning := htimers timer hspared
      cases timer <;> simp_all [apply, perform, running, PlayerState.expects, canStartTry]
    case audio => simp_all [apply, perform, PlayerState.hasAudio]
    case connected => simp [apply, perform]
    case closed => simp [apply, perform, isResting, canStartTry]

/-- Closing the events is always accounted for outside `connecting`. -/
theorem accounted_closeEvents (page : Page) (hpage : page.Accounted) {state : PlayerState}
    (hphase : state.phase = page.state.phase) (hnot : page.state.phase ≠ .connecting)
    (hreconnecting : state.reconnecting = page.state.reconnecting)
    (hloss : state.lossPending = page.state.lossPending)
    (hstalling : state.stalling = page.state.stalling) :
    (page.apply ⟨state, [.closeEvents]⟩).Accounted := by
  obtain ⟨hflags, htimers, haudio, -, -⟩ :=
    accounted_quiet page hpage state hphase hreconnecting hloss hstalling
  constructor
  case flags => exact hflags
  case timers => exact htimers
  case audio => exact haudio
  case connected => simp_all [apply, perform]
  case closed => simp [apply, perform]

theorem accounted_onEventsFailed (page : Page) (hpage : page.Accounted) (closed : Bool) :
    (page.apply (onEventsFailed page.state closed)).Accounted := by
  have hquiet := accounted_quiet page hpage page.state rfl rfl rfl rfl
  have hdeadline := hpage.timers .deadline (by simp)
  unfold onEventsFailed
  split
  · exact hquiet
  · split
    next hphase =>
      split
      · exact accounted_tryFailed page hdeadline
      · exact accounted_closeEvents page hpage rfl (by simp [hphase]) rfl rfl rfl
    · exact accounted_tryFailed page hdeadline
    · exact accounted_tryFailed page hdeadline
    next hphase => exact accounted_closeEvents page hpage rfl (by simp [hphase]) rfl rfl rfl
    next hphase => exact accounted_closeEvents page hpage rfl (by simp [hphase]) rfl rfl rfl
    · exact hquiet

theorem accounted_statusWhileTuning (page : Page) (hpage : page.Accounted) (kind : StatusKind) :
    (page.apply (statusWhileTuning page.state kind)).Accounted := by
  have hdeadline := hpage.timers .deadline (by simp)
  cases kind with
  | noBroadcast | unavailable | ended => exact accounted_leave page _ _ rfl
  | busy =>
      simp only [statusWhileTuning]
      split
      · exact accounted_retry page _ _ hdeadline
      · exact accounted_leave page _ _ rfl
  | stopped => exact accounted_retry page _ _ hdeadline
  | tuning => exact accounted_quiet page hpage _ rfl rfl rfl rfl

theorem accounted_onStatus (page : Page) (hpage : page.Accounted) (kind : StatusKind) :
    (page.apply (onStatus page.state kind)).Accounted := by
  have hdeadline := hpage.timers .deadline (by simp)
  have hquiet := accounted_quiet page hpage page.state rfl rfl rfl rfl
  unfold onStatus
  split
  · exact accounted_statusWhileTuning page hpage kind
  · exact accounted_statusWhileTuning page hpage kind
  · exact accounted_statusWhileTuning page hpage kind
  · exact accounted_quiet page hpage _ rfl rfl rfl rfl
  · split
    · exact hquiet
    · cases hdecided : decideByReason page.state (some kind) DEADLINE_MS with
      | none => exact hquiet
      | some decided => exact accounted_decideByReason page hdeadline hdecided
  · exact hquiet

theorem accounted_onNowPlaying (page : Page) (hpage : page.Accounted) (song : Song) :
    (page.apply (onNowPlaying page.state song)).Accounted := by
  unfold onNowPlaying
  dsimp only
  split <;> exact accounted_quiet page hpage _ rfl rfl rfl rfl

theorem accounted_onAudioPlaying (page : Page) (hpage : page.Accounted) :
    (page.apply (onAudioPlaying page.state)).Accounted := by
  have hquiet := accounted_quiet page hpage page.state rfl rfl rfl rfl
  obtain ⟨⟨hloss, hstall, hdrop, hretry⟩, htimers, haudio, hopen, hclosed⟩ := hpage
  unfold onAudioPlaying
  split
  next hplaying =>
    simp only [Bool.and_eq_true, decide_eq_true_eq] at hplaying
    obtain ⟨hphase, hstalling⟩ := hplaying
    constructor
    case flags => constructor <;> simp_all [apply, perform]
    case timers =>
      intro timer hspared
      have hrunning := htimers timer hspared
      cases timer <;> simp_all [apply, perform, running, PlayerState.expects, canStartTry]
    case audio => simp_all [apply, perform, PlayerState.hasAudio]
    case connected => simp_all [apply, perform]
    case closed => simp_all [apply, perform, isResting, canStartTry]
  next hplaying =>
    split
    · exact hquiet
    next hphase =>
      simp only [ne_eq, Decidable.not_not] at hphase
      simp only [apply, perform_clearTimers]
      constructor
      case flags => constructor <;> simp
      case timers =>
        intro timer hspared
        cases timer <;> simp [running, PlayerState.expects, canStartTry]
      case audio => simp_all [PlayerState.hasAudio]
      case connected => simp
      case closed => simp [isResting, canStartTry]

theorem accounted_onAudioLost (page : Page) (hpage : page.Accounted) :
    (page.apply (onAudioLost page.state)).Accounted := by
  have hquiet := accounted_quiet page hpage page.state rfl rfl rfl rfl
  have hdeadline := hpage.timers .deadline (by simp)
  have hdecide : ∀ decided, decideByReason page.state page.state.lastStatus DEADLINE_MS =
      some decided → (page.apply decided).Accounted :=
    fun _ hdecided => accounted_decideByReason page hdeadline hdecided
  obtain ⟨⟨hloss, hstall, hdrop, hretry⟩, htimers, haudio, hopen, hclosed⟩ := hpage
  unfold onAudioLost
  split
  next hphase =>
    split
    · exact hquiet
    · constructor
      case flags => constructor <;> simp_all [apply, perform]
      case timers =>
        intro timer hspared
        have hrunning := htimers timer hspared
        cases timer <;> simp_all [apply, perform, running, PlayerState.expects, canStartTry]
      case audio => simp_all [apply, perform, PlayerState.hasAudio]
      case connected => simp_all [apply, perform]
      case closed => simp_all [apply, perform, isResting, canStartTry]
  next =>
    split
    · exact hquiet
    next hphase =>
      simp only [ne_eq, Decidable.not_not] at hphase
      split
      next decided hdecided => exact hdecide decided hdecided
      next =>
        constructor
        case flags => constructor <;> simp_all [apply, perform, isResting]
        case timers =>
          intro timer hspared
          have hrunning := htimers timer hspared
          cases timer <;> simp_all [apply, perform, running, PlayerState.expects, canStartTry]
        case audio => simp_all [apply, perform, PlayerState.hasAudio]
        case connected => simp [apply, perform]
        case closed => simp [apply, perform, isResting, canStartTry]

theorem accounted_onAudioWaiting (page : Page) (hpage : page.Accounted) :
    (page.apply (onAudioWaiting page.state)).Accounted := by
  have hquiet := accounted_quiet page hpage page.state rfl rfl rfl rfl
  obtain ⟨⟨hloss, hstall, hdrop, hretry⟩, htimers, haudio, hopen, hclosed⟩ := hpage
  unfold onAudioWaiting
  split
  · exact hquiet
  next hphase =>
    simp only [ne_eq, decide_not, Bool.or_eq_true, Bool.not_eq_true', decide_eq_false_iff_not,
      not_or, Decidable.not_not, Bool.not_eq_true] at hphase
    constructor
    case flags => constructor <;> simp_all [apply, perform]
    case timers =>
      intro timer hspared
      have hrunning := htimers timer hspared
      cases timer <;> simp_all [apply, perform, running, PlayerState.expects, canStartTry]
    case audio => simp_all [apply, perform, PlayerState.hasAudio]
    case connected => simp_all [apply, perform]
    case closed => simp_all [apply, perform, isResting, canStartTry]

theorem accounted_onPlayBlocked (page : Page) (hpage : page.Accounted) :
    (page.apply (onPlayBlocked page.state)).Accounted := by
  have hquiet := accounted_quiet page hpage page.state rfl rfl rfl rfl
  obtain ⟨⟨hloss, hstall, hdrop, hretry⟩, htimers, haudio, hopen, hclosed⟩ := hpage
  unfold onPlayBlocked
  split
  · exact hquiet
  next hphase =>
    simp only [ne_eq, Decidable.not_not] at hphase
    constructor
    case flags => constructor <;> simp_all [apply, perform, isResting]
    case timers =>
      intro timer hspared
      have hrunning := htimers timer hspared
      cases timer <;> simp_all [apply, perform, running, PlayerState.expects, canStartTry]
    case audio => simp_all [apply, perform, PlayerState.hasAudio]
    case connected => simp [apply, perform]
    case closed => simp [apply, perform, isResting, canStartTry]

/-- A running timer always belongs to the state it runs out in, so its event is never ignored. -/
theorem accounted_onTimeout (page : Page) (timer : TimerName)
    (hpage : page.AccountedBut (some timer)) (hexpected : page.state.expects timer) :
    (page.apply (onTimeout page.state timer)).Accounted := by
  have hdeadline : timer ≠ .deadline → page.running .deadline = page.state.reconnecting :=
    fun hne => hpage.timers .deadline (by simpa using hne.symm)
  cases timer with
  | «open» =>
      simp only [PlayerState.expects, decide_eq_true_eq] at hexpected
      simp only [onTimeout, hexpected, if_true]
      exact accounted_tryFailed page (hdeadline (by decide))
  | tune =>
      simp only [PlayerState.expects, decide_eq_true_eq] at hexpected
      simp only [onTimeout, hexpected, if_true]
      exact accounted_tryFailed page (hdeadline (by decide))
  | grace =>
      simp only [PlayerState.expects] at hexpected
      rcases hpage.flags.lossPending hexpected with hphase | hphase
      · simp only [onTimeout, hphase, if_true]
        exact accounted_tryFailed page (hdeadline (by decide))
      · simp only [onTimeout, hphase, hexpected, reduceCtorEq, if_false, decide_true,
          Bool.and_self, if_true]
        exact accounted_retry page _ _ (hdeadline (by decide))
  | stall =>
      have hphase := hpage.flags.stalling hexpected
      simp only [onTimeout, hphase, ne_eq, not_true, if_false]
      cases hdecided : decideByReason page.state page.state.lastStatus
          (DEADLINE_MS - STALL_MS) with
      | none => exact accounted_retry page _ _ (hdeadline (by decide))
      | some decided => exact accounted_decideByReason page (hdeadline (by decide)) hdecided
  | tap =>
      simp only [PlayerState.expects, decide_eq_true_eq] at hexpected
      simp only [onTimeout, hexpected, ne_eq, not_true, if_false]
      split <;> exact accounted_leave page _ _ rfl
  | deadline =>
      have hresting := (hpage.flags.reconnecting hexpected).1
      simp only [PlayerState.expects] at hexpected
      simp only [onTimeout, hresting, hexpected, Bool.not_false, Bool.and_self, if_true]
      exact accounted_leave page _ _ rfl
  | wait =>
      simp only [PlayerState.expects] at hexpected
      simp only [onTimeout, hexpected, if_true]
      exact accounted_startTry page hpage hexpected

theorem accounted_expire (page : Page) (hpage : page.Accounted) (timer : TimerName) :
    (page.expire (.timeout timer)).AccountedBut (some timer) :=
  { hpage with
    timers := by
      intro other hother
      have hne : other ≠ timer := by simpa using hother
      simpa [expire, running, Function.update_of_ne hne] using hpage.timers other (by simp) }

theorem accounted_step (page : Page) (hpage : page.Accounted) (event : PlayerEvent)
    (haccepts : page.accepts event) :
    ((page.expire event).apply (step page.state event)).Accounted := by
  cases event with
  | play => exact accounted_onPlay page hpage
  | stop =>
      simp only [step]
      split
      · exact accounted_quiet page hpage _ rfl rfl rfl rfl
      · exact accounted_leave page _ _ rfl
  | visible =>
      simp only [step]
      split
      next hstart => exact accounted_startTry page (.weaken hpage _) hstart
      · exact accounted_quiet page hpage _ rfl rfl rfl rfl
  | eventsOpen => exact accounted_onEventsOpen page hpage
  | eventsFailed closed => exact accounted_onEventsFailed page hpage closed
  | status kind => exact accounted_onStatus page hpage kind
  | nowPlaying song => exact accounted_onNowPlaying page hpage song
  | audioPlaying => exact accounted_onAudioPlaying page hpage
  | audioLost => exact accounted_onAudioLost page hpage
  | audioWaiting => exact accounted_onAudioWaiting page hpage
  | audioPaused =>
      simp only [step]
      split
      · exact accounted_leave page _ _ rfl
      · exact accounted_quiet page hpage _ rfl rfl rfl rfl
  | playBlocked => exact accounted_onPlayBlocked page hpage
  | timeout timer =>
      have hrunning := hpage.timers timer (by simp)
      exact accounted_onTimeout (page.expire (.timeout timer)) timer
        (accounted_expire page hpage timer) (hrunning ▸ haccepts)

end Page

theorem accounted_preserved : pageMachine.Preserves Page.Accounted := by
  intro page next action output hpage hstep
  cases action with
  | elapse ms =>
      simp only [pageMachine, Option.some.injEq, Prod.mk.injEq] at hstep
      obtain ⟨rfl, -⟩ := hstep
      exact ⟨hpage.flags, hpage.timers, hpage.audio, hpage.connected, hpage.closed⟩
  | event event =>
      simp only [pageMachine, Option.ite_none_right_eq_some, Option.some.injEq,
        Prod.mk.injEq] at hstep
      obtain ⟨haccepts, rfl, -⟩ := hstep
      exact Page.accounted_step page hpage event haccepts

theorem accounted_run {trace : List (PageAction × List Effect)} {page : Page}
    (hrun : pageMachine.Run Page.initial trace page) : page.Accounted :=
  hrun.invariant accounted_preserved Page.accounted_initial

/-! ## What the effects meet -/

/-- An effect that opens the events or starts the audio. -/
def Effect.opens (effect : Effect) : Bool := effect = .openEvents || effect = .startAudio

namespace Page

theorem meets_of_not_opens (page : Page) (effects : List Effect)
    (heffects : ∀ effect ∈ effects, effect.opens = false) : page.Meets effects := by
  induction effects generalizing page with
  | nil => trivial
  | cons head rest ih =>
      have hhead : head ≠ .openEvents ∧ head ≠ .startAudio := by
        simpa [Effect.opens] using heffects head (by simp)
      exact ⟨fun heq => absurd heq hhead.1, fun heq => absurd heq hhead.2,
        ih _ fun effect hmem => heffects effect (by simp [hmem])⟩

theorem opens_clearTimers (keep : Option TimerName) :
    ∀ effect ∈ clearTimers keep, effect.opens = false := by
  intro effect hmem
  simp only [clearTimers, List.mem_map] at hmem
  obtain ⟨timer, -, rfl⟩ := hmem
  rfl

theorem opens_leave (phase : Phase) (reason : Option FailReason) :
    ∀ effect ∈ (leave phase reason).effects, effect.opens = false := by
  intro effect hmem
  simp only [leave, List.cons_append, List.nil_append, List.mem_cons] at hmem
  rcases hmem with rfl | rfl | hmem
  · rfl
  · rfl
  · exact opens_clearTimers _ effect hmem

theorem opens_retry (state : PlayerState) (deadlineMs : Nat) :
    ∀ effect ∈ (retry state deadlineMs).effects, effect.opens = false := by
  intro effect hmem
  simp only [retry, List.cons_append, List.nil_append, List.append_assoc, List.mem_cons,
    List.mem_append, List.not_mem_nil, or_false] at hmem
  rcases hmem with rfl | rfl | hmem | hmem | rfl
  · rfl
  · rfl
  · exact opens_clearTimers _ effect hmem
  · split at hmem
    · simp at hmem
    · obtain rfl := List.mem_singleton.mp hmem
      rfl
  · rfl

theorem minor_not_opens {effect : Effect} (hminor : effect.minor) : effect.opens = false := by
  cases effect <;> simp_all [Effect.minor, Effect.opens]

theorem expire_audioOn (page : Page) (event : PlayerEvent) :
    (page.expire event).audioOn = page.audioOn := by
  cases event <;> rfl

theorem expire_eventsOpen (page : Page) (event : PlayerEvent) :
    (page.expire event).eventsOpen = page.eventsOpen := by
  cases event <;> rfl

/-- Every effect of a transition meets the page it was meant for, and the audio
is started only by the events' own `open`. -/
theorem meets_step (page : Page) (hpage : page.Accounted) (event : PlayerEvent) :
    (page.expire event).Meets (step page.state event).effects ∧
      (.startAudio ∈ (step page.state event).effects → event = .eventsOpen) := by
  have hplain : ∀ effects : List Effect, (∀ effect ∈ effects, effect.opens = false) →
      (page.expire event).Meets effects ∧ (.startAudio ∈ effects → event = .eventsOpen) :=
    fun effects heffects => ⟨meets_of_not_opens _ _ heffects,
      fun hmem => absurd (heffects _ hmem) (by simp [Effect.opens])⟩
  have hmove := step_move page.state event
  generalize step page.state event = transition at hmove ⊢
  cases hmove with
  | leaves phase reason hresting => exact hplain _ (opens_leave phase reason)
  | retries deadlineMs => exact hplain _ (opens_retry page.state deadlineMs)
  | remains next effects hphase hreconnecting hminor =>
      exact hplain _ fun effect hmem => minor_not_opens (hminor effect hmem)
  | tunesIn hresting =>
      simp [Meets, expire_eventsOpen, hpage.closed (.inl hresting)]
  | resumes hphase => exact hplain _ (by simp [Effect.opens])
  | triesAgain hstart =>
      simp [startTry, Meets, perform, expire_eventsOpen, hpage.closed (.inr hstart)]
  | connects hphase hevent =>
      have haudio : page.audioOn = false := by
        simpa [PlayerState.hasAudio, hphase] using hpage.audio
      simp [Meets, perform, expire_eventsOpen, expire_audioOn, haudio, hpage.connected hphase,
        hevent]
  | plays => exact hplain _ (opens_clearTimers none)
  | drops => exact hplain _ (by simp [Effect.opens])
  | asksTap => exact hplain _ (by simp [Effect.opens])

end Page

/-! ## Every reachable page -/

/-- What the page holds in each phase. -/
structure Page.HoldsResources (page : Page) : Prop where
  resting : isResting page.state.phase →
    page.eventsOpen = false ∧ page.audioOn = false ∧ ∀ timer, page.running timer = false
  connecting : page.state.phase = .connecting →
    page.eventsOpen ∧ page.audioOn = false ∧
      ∀ timer, page.running timer ↔
        timer = .open ∨ timer = .deadline ∧ page.state.reconnecting
  tuning : page.state.phase = .tuning → page.running .tune ∧ page.audioOn
  needsTap : page.state.phase = .needsTap → page.running .tap
  waiting : page.state.phase = .retrying → page.state.lossPending = false →
    page.running .wait ∧ page.eventsOpen = false ∧ page.audioOn = false
  lossPending : page.state.lossPending ↔ page.running .grace
  stalling : page.state.stalling ↔ page.running .stall
  stallPlays : page.running .stall → page.state.phase = .playing

theorem Page.Accounted.holdsResources {page : Page} (hpage : page.Accounted) :
    page.HoldsResources := by
  have hrunning : ∀ timer, page.running timer = page.state.expects timer :=
    fun timer => hpage.timers timer (by simp)
  obtain ⟨⟨hloss, hstall, hdrop, -⟩, -, haudio, hopen, hclosed⟩ := hpage
  -- A loss or a stall is only on in the phases that its timer is for.
  have hlossOff : page.state.phase ≠ .tuning → page.state.phase ≠ .retrying →
      page.state.lossPending = false := by
    intro htuning hretrying
    by_contra hpending
    rcases hloss (by simpa using hpending) with hphase | hphase
    · exact htuning hphase
    · exact hretrying hphase
  have hstallOff : page.state.phase ≠ .playing → page.state.stalling = false := by
    intro hphase
    by_contra hstalling
    exact hphase (hstall (by simpa using hstalling))
  constructor
  case resting =>
    intro hresting
    have hphase : page.state.phase = .idle ∨ page.state.phase = .ended ∨
        page.state.phase = .failed := by simpa [isResting, or_assoc] using hresting
    refine ⟨hclosed (.inl hresting), ?_, ?_⟩
    · rcases hphase with hphase | hphase | hphase <;>
        simp [haudio, PlayerState.hasAudio, hphase]
    · intro timer
      have hreconnecting : page.state.reconnecting = false := by
        by_contra hrunning
        exact (hdrop (by simpa using hrunning)).1 hresting
      rw [hrunning]
      rcases hphase with hphase | hphase | hphase <;> cases timer <;>
        simp_all [PlayerState.expects, canStartTry]
  case connecting =>
    intro hphase
    refine ⟨hopen hphase, by simp [haudio, PlayerState.hasAudio, hphase], ?_⟩
    intro timer
    rw [hrunning]
    cases timer <;> simp_all [PlayerState.expects, canStartTry]
  case tuning =>
    intro hphase
    simp [hrunning, haudio, PlayerState.expects, PlayerState.hasAudio, hphase]
  case needsTap =>
    intro hphase
    simp [hrunning, PlayerState.expects, hphase]
  case waiting =>
    intro hphase hpending
    have hstart : canStartTry page.state := by simp [canStartTry, hphase, hpending]
    refine ⟨by simpa [hrunning, PlayerState.expects] using hstart, hclosed (.inr hstart), ?_⟩
    simp [haudio, PlayerState.hasAudio, hphase, hpending]
  case lossPending => simp [hrunning, PlayerState.expects]
  case stalling => simp [hrunning, PlayerState.expects]
  case stallPlays =>
    intro hstalling
    exact hstall (by simpa [hrunning, PlayerState.expects] using hstalling)

/-- On every reachable page the machine's state accounts for the events, the
audio and the timers, and whatever event comes next its effects meet the page. -/
theorem resources_accounted {trace : List (PageAction × List Effect)} {page : Page}
    (hrun : pageMachine.Run Page.initial trace page) :
    page.HoldsResources ∧
      ∀ event, (page.expire event).Meets (step page.state event).effects ∧
        (.startAudio ∈ (step page.state event).effects → event = .eventsOpen) := by
  have hpage := accounted_run hrun
  exact ⟨hpage.holdsResources, fun event => page.meets_step hpage event⟩

/-- A page that pressed Play and whose events have opened. -/
theorem resources_accounted_tuned :
    ((Page.initial.apply (onPlay initialState)).apply
      (onEventsOpen (onPlay initialState).state)).HoldsResources := by
  have hplay : pageMachine.step Page.initial (.event .play) =
      some (Page.initial.apply (onPlay initialState), (onPlay initialState).effects) := rfl
  have hopen : pageMachine.step (Page.initial.apply (onPlay initialState)) (.event .eventsOpen) =
      some ((Page.initial.apply (onPlay initialState)).apply
        (onEventsOpen (onPlay initialState).state),
        (onEventsOpen (onPlay initialState).state).effects) := rfl
  exact (resources_accounted ((Transition.Machine.Run.single hplay).snoc hopen)).1

end RetroStation.Player
