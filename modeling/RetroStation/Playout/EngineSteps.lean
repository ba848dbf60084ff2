import RetroStation.Playout.EngineStart

/-! # What a step of a starting engine does

Every step of the call, of a thread it left and of a process, with what the step needs:
each later fact about a run goes by these cases.
-/

namespace RetroStation.Playout

open Transition

variable {endpoint : SessionEndpoint} {state next : EngineState} {action : EngineAction}

/-- The process the call is in charge of. -/
def EnginePhase.process : EnginePhase → Option Nat
  | .looking id | .connecting id | .exchanging id _ | .pausing id | .reaping id _ _
  | .leaving id _ => some id
  | .ended (.running engine) => some engine.process
  | _ => none

/-- The harbor connection the call, or the engine it returned, reads. -/
def EnginePhase.connection : EnginePhase → Option Nat
  | .exchanging _ connection => some connection
  | .ended (.running engine) => some engine.upstream
  | _ => none

/-- Everything a step can do, with what it needs. -/
inductive EngineStep (endpoint : SessionEndpoint) (state : EngineState) :
    EngineAction → EngineState → Prop
  | exits {id : Nat} {code : Int} {process : EngineProcess}
      (hprocess : state.processes[id]? = some process) :
      EngineStep endpoint state (.exits id code) (state.onProcess id (.exit code))
  | launchRefused {error : String} (hwork : state.work = .launching) :
      EngineStep endpoint state (.launches (.error error)) { state with work := .refused error }
  | launched {pid : Nat} (hwork : state.work = .launching) :
      EngineStep endpoint state (.launches (.ok pid))
        { state with
          processes := state.processes ++ [.launched pid]
          work := .assigning state.processes.length }
  | assigned {id : Nat} (hwork : state.work = .assigning id) :
      EngineStep endpoint state (.assigns none) { state with work := .started id }
  | assignRefused {id : Nat} {error : String} (hwork : state.work = .assigning id) :
      EngineStep endpoint state (.assigns (some error))
        ({ state with work := .refusing id error }.onProcess id .kill)
  | refusalEnds {id : Nat} {error refused : String} (hwork : state.work = .refusing id error) :
      EngineStep endpoint state .refusalEnds
        ({ state with work := .refused refused }.onProcess id .poll)
  | settlesStarted {id : Nat} (hclaim : state.claim = .abandoned)
      (hwork : state.work = .started id) :
      EngineStep endpoint state .settles ({ state with claim := .settled }.abandon id)
  | settlesRefused {error : String} (hclaim : state.claim = .abandoned)
      (hwork : state.work = .refused error) :
      EngineStep endpoint state .settles { state with claim := .settled }
  | claims {id : Nat} (hphase : state.phase = .spawning) (hwork : state.work = .started id) :
      EngineStep endpoint state .claims ({ state with claim := .claimed }.goTo (.looking id))
  | claimsRefusal {error message : String} (hphase : state.phase = .spawning)
      (hwork : state.work = .refused error) :
      EngineStep endpoint state .claims
        ({ state with claim := .claimed }.attemptFailed endpoint message)
  | looksOn {id : Nat} (hphase : state.phase = .looking id) :
      EngineStep endpoint state (.looks false) ((state.onProcess id .poll).goTo (.connecting id))
  | gives {id : Nat} {late : Bool} {notReady : String} (hphase : state.phase = .looking id) :
      EngineStep endpoint state (.looks late) ((state.onProcess id .poll).reapAndWait id notReady)
  | unconnected {id : Nat} (hphase : state.phase = .connecting id) :
      EngineStep endpoint state (.connects true) (state.goTo (.pausing id))
  | connected {id : Nat} (hphase : state.phase = .connecting id) :
      EngineStep endpoint state (.connects false)
        ({ state with connections := state.connections ++ [true] }.goTo
          (.exchanging id state.connections.length))
  | ready {id connection : Nat} {bytes : List Char} {process : EngineProcess}
      (hphase : state.phase = .exchanging id connection)
      (hprocess : state.processes[id]? = some process)
      (hanswer : ¬(HarborAnswer.head bytes).IsOdd) :
      EngineStep endpoint state (.answers (.head bytes))
        (state.goTo (.ended (.running ⟨id, process.pid, state.port, connection⟩)))
  | unanswered {id connection : Nat} {answer : HarborAnswer}
      (hphase : state.phase = .exchanging id connection)
      (hanswer : ¬answer.IsOdd) :
      EngineStep endpoint state (.answers answer) ((state.close connection).goTo (.pausing id))
  | answerTimesOut {id connection : Nat} {notReady : String}
      (hphase : state.phase = .exchanging id connection) :
      EngineStep endpoint state (.answers .timedOut)
        ((state.close connection).reapAndWait id notReady)
  | answerFails {id connection : Nat} {answer : HarborAnswer} {error : String}
      (hphase : state.phase = .exchanging id connection) (hanswer : answer.IsOdd) :
      EngineStep endpoint state (.answers answer)
        ((state.close connection).goTo (.leaving id (.escaped error)))
  | connectIsLate {id : Nat} {notReady : String} (hphase : state.phase = .connecting id) :
      EngineStep endpoint state .deadline (state.reapAndWait id notReady)
  | answerIsLate {id connection : Nat} {notReady : String}
      (hphase : state.phase = .exchanging id connection) :
      EngineStep endpoint state .deadline ((state.close connection).reapAndWait id notReady)
  | wakes {id : Nat} (hphase : state.phase = .pausing id) :
      EngineStep endpoint state .wakes (state.goTo (.looking id))
  | reapKills {thread id : Nat} {killed : Bool}
      (hreap : state.reaps[thread]? = some ⟨id, .queued⟩) :
      EngineStep endpoint state (.reapKills thread)
        ((state.onProcess id .pollOrKill).setReap thread ⟨id, .waiting killed⟩)
  | reapEnds {thread id : Nat} {killed : Bool} {text : String}
      (hreap : state.reaps[thread]? = some ⟨id, .waiting killed⟩) :
      EngineStep endpoint state (.reapEnds thread)
        ((state.onProcess id .poll).setReap thread ⟨id, .ended text⟩)
  | reaped {id thread : Nat} {notReady message : String}
      (hphase : state.phase = .reaping id thread notReady) :
      EngineStep endpoint state .reaped (state.goTo (.leaving id (.failed message)))
  | leaves {id : Nat} {way : WayOut} {process : EngineProcess}
      (hphase : state.phase = .leaving id way) (hprocess : state.processes[id]? = some process)
      (hnoticed : process.noticed) :
      EngineStep endpoint state .leaves (state.wayOut endpoint way)
  | abandons {id : Nat} {way : WayOut} (hphase : state.phase = .leaving id way) :
      EngineStep endpoint state .leaves ((state.abandon id).wayOut endpoint way)
  | noPort {first error message : String} (hphase : state.phase = .retrying first) :
      EngineStep endpoint state (.retries (.error error))
        (state.goTo (.ended (.startError message)))
  | retries {first : String} {port : HarborPort} (hphase : state.phase = .retrying first) :
      EngineStep endpoint state (.retries (.ok port))
        { state with
          work := .launching
          claim := .awaited
          port := port
          first := some first
          phase := .spawning }
  | cancelsStart {dropsReap : Bool} (hphase : state.phase = .spawning) :
      EngineStep endpoint state (.cancel dropsReap)
        ({ state with claim := .abandoned }.goTo (.ended .cancelled))
  | cancelsWait {id : Nat} {dropsReap : Bool}
      (hphase : state.phase = .connecting id ∨ state.phase = .pausing id ∨
        ∃ thread notReady, state.phase = .reaping id thread notReady) :
      EngineStep endpoint state (.cancel dropsReap) (state.goTo (.leaving id .cancelled))
  | cancelsAnswer {id connection : Nat} {dropsReap : Bool}
      (hphase : state.phase = .exchanging id connection) :
      EngineStep endpoint state (.cancel dropsReap)
        ((state.close connection).goTo (.leaving id .cancelled))
  | cancelsReap {id thread reaped : Nat} {notReady : String}
      (hphase : state.phase = .reaping id thread notReady)
      (hreap : state.reaps[thread]? = some ⟨reaped, .queued⟩) :
      EngineStep endpoint state (.cancel true)
        ((state.setReap thread ⟨reaped, .dropped⟩).goTo (.leaving id .cancelled))

theorem workStep_cases (hstep : workStep state action = some next) :
    EngineStep endpoint state action next := by
  unfold workStep at hstep
  split at hstep
  · split at hstep
    next hwork =>
      cases hstep
      exact .launchRefused hwork
    next hwork =>
      cases hstep
      exact .launched hwork
    · cases hstep
  · split at hstep
    next hwork =>
      cases hstep
      exact .assigned hwork
    next hwork =>
      cases hstep
      exact .assignRefused hwork
    · cases hstep
  · split at hstep
    next hwork =>
      obtain ⟨process, -, rfl⟩ := Option.map_eq_some_iff.mp hstep
      exact .refusalEnds hwork
    · cases hstep
  · cases hstep

theorem settle_cases (hstep : settle state = some next) :
    EngineStep endpoint state .settles next := by
  unfold settle at hstep
  split at hstep
  next hclaim =>
    split at hstep
    next hwork =>
      cases hstep
      exact .settlesStarted hclaim hwork
    next hwork =>
      cases hstep
      exact .settlesRefused hclaim hwork
    · cases hstep
  · cases hstep

theorem reapStep_cases (hstep : reapStep state action = some next) :
    EngineStep endpoint state action next := by
  unfold reapStep at hstep
  split at hstep
  · split at hstep
    next hreap =>
      obtain ⟨process, -, rfl⟩ := Option.map_eq_some_iff.mp hstep
      exact .reapKills hreap
    · cases hstep
  · split at hstep
    next hreap =>
      obtain ⟨process, -, rfl⟩ := Option.map_eq_some_iff.mp hstep
      exact .reapEnds hreap
    · cases hstep
  · cases hstep

theorem answered_cases {id connection : Nat} {answer : HarborAnswer}
    (hphase : state.phase = .exchanging id connection)
    (hstep : answered endpoint state id connection answer = some next) :
    EngineStep endpoint state (.answers answer) next := by
  cases answer with
  | head bytes =>
      simp only [answered] at hstep
      split at hstep
      next error herror =>
        cases hstep
        exact .answerFails hphase (statusOf_isError.mp ⟨error, herror⟩)
      next status hstatus =>
        have hread : ¬HasLongStatus bytes := fun hlong => by
          obtain ⟨error, herror⟩ := statusOf_isError.mpr hlong
          rw [hstatus] at herror
          cases herror
        split at hstep
        · obtain ⟨process, hprocess, rfl⟩ := Option.map_eq_some_iff.mp hstep
          exact .ready hphase hprocess hread
        · cases hstep
          exact .unanswered hphase hread
  | dropped =>
      cases hstep
      exact .unanswered hphase not_false
  | timedOut =>
      cases hstep
      exact .answerTimesOut hphase
  | fails error =>
      cases hstep
      exact .answerFails hphase trivial

theorem cancelled_cases {dropsReap : Bool} (hstep : cancelled state dropsReap = some next) :
    EngineStep endpoint state (.cancel dropsReap) next := by
  have hwait {id : Nat} (hphase : state.phase = .connecting id ∨ state.phase = .pausing id ∨
        ∃ thread notReady, state.phase = .reaping id thread notReady)
      (hnext : some (state.goTo (.leaving id .cancelled)) = some next) :
      EngineStep endpoint state (.cancel dropsReap) next := by
    cases hnext
    exact .cancelsWait hphase
  unfold cancelled at hstep
  split at hstep
  next hphase =>
    cases hstep
    exact .cancelsStart hphase
  next hphase => exact hwait (.inl hphase) hstep
  next hphase =>
    cases hstep
    exact .cancelsAnswer hphase
  next hphase => exact hwait (.inr (.inl hphase)) hstep
  next hphase =>
    split at hstep
    next hreap =>
      cases hstep
      exact .cancelsReap hphase hreap
    · cases hstep
    · exact hwait (.inr (.inr ⟨_, _, hphase⟩)) hstep
  · cases hstep

theorem callStep_cases (hstep : callStep endpoint state action = some next) :
    EngineStep endpoint state action next := by
  unfold callStep at hstep
  split at hstep
  · split at hstep
    next hphase hwork =>
      cases hstep
      exact .claims hphase hwork
    next hphase hwork =>
      cases hstep
      exact .claimsRefusal hphase hwork
    · cases hstep
  -- A look at the process: gone, or still there but too late, gives the attempt up.
  next late =>
    split at hstep
    next hphase =>
      obtain ⟨process, -, rfl⟩ := Option.map_eq_some_iff.mp hstep
      dsimp only
      split
      · exact .gives hphase
      · cases late with
        | false => exact .looksOn hphase
        | true => exact .gives hphase
    · cases hstep
  next refused =>
    split at hstep
    next hphase =>
      cases refused with
      | false =>
          cases hstep
          exact .connected hphase
      | true =>
          cases hstep
          exact .unconnected hphase
    · cases hstep
  · split at hstep
    next hphase => exact answered_cases hphase hstep
    · cases hstep
  · split at hstep
    next hphase =>
      cases hstep
      exact .connectIsLate hphase
    next hphase =>
      cases hstep
      exact .answerIsLate hphase
    · cases hstep
  · split at hstep
    next hphase =>
      cases hstep
      exact .wakes hphase
    · cases hstep
  · split at hstep
    next hphase =>
      split at hstep
      · cases hstep
        exact .reaped hphase
      · cases hstep
    · cases hstep
  · split at hstep
    next hphase =>
      obtain ⟨process, hprocess, rfl⟩ := Option.map_eq_some_iff.mp hstep
      split
      next hnoticed => exact .leaves hphase hprocess hnoticed
      · exact .abandons hphase
    · cases hstep
  · split at hstep
    next hphase =>
      cases hstep
      exact .noPort hphase
    next hphase =>
      split at hstep
      · cases hstep
      · cases hstep
        exact .retries hphase
    · cases hstep
  · exact cancelled_cases hstep
  · cases hstep

theorem engineStep_cases {output : Unit}
    (hstep : (engineMachine endpoint).step state action = some (next, output)) :
    EngineStep endpoint state action next := by
  obtain ⟨reached, htaken, heq⟩ := Option.map_eq_some_iff.mp hstep
  obtain ⟨rfl, -⟩ := Prod.mk.inj heq
  split at htaken
  · split at htaken
    next hprocess =>
      split at htaken
      · cases htaken
      · cases htaken
        exact .exits hprocess
    · cases htaken
  · exact workStep_cases htaken
  · exact workStep_cases htaken
  · exact workStep_cases htaken
  · exact settle_cases htaken
  · exact reapStep_cases htaken
  · exact reapStep_cases htaken
  · exact callStep_cases htaken

end RetroStation.Playout
