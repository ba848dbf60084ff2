import RetroStation.Playout.EngineSteps

/-! # What a start of a session engine leaves behind

Every process is in somebody's charge until it has ended: the thread that launches it,
the call that has claimed it, or the engine the call returned. Once the call and its
threads are over nothing else runs and no other connection is open; the errors that get
past the call are a socket error the harbor's answer does not name, and that of a status
too long to read.
-/

namespace RetroStation.Playout

open Transition

variable {endpoint : SessionEndpoint} {state next : EngineState} {action : EngineAction}

/-! ## Who is in charge of a process -/

/-- The process a starting thread has launched and not given away. -/
def StartWork.process : StartWork → Option Nat
  | .assigning id | .started id => some id
  | _ => none

def StartWork.Finished : StartWork → Prop
  | .started _ | .refused _ => True
  | _ => False

namespace EngineState

/-- The process has ended, if it was launched at all. -/
def Gone (state : EngineState) (id : Nat) : Prop :=
  ∀ process, state.processes[id]? = some process → process.Ended

/-- The process somebody is in charge of: the starting thread until its result is taken,
then the call. -/
def holder (state : EngineState) : Option Nat :=
  match state.claim with
  | .awaited | .abandoned => state.work.process
  | .claimed | .settled => state.phase.process

end EngineState

/-- What happens to one process ends no other and undoes nothing. -/
structure Gentle (change : EngineProcess → EngineProcess) : Prop where
  ended : ∀ {process : EngineProcess}, process.Ended → (change process).Ended
  noticed : ∀ {process : EngineProcess}, (process.noticed → process.exitCode.isSome) →
    (change process).noticed → (change process).exitCode.isSome
  pid : ∀ process : EngineProcess, (change process).pid = process.pid

theorem gentle_exit (code : Int) : Gentle (.exit code) where
  ended _ := .inr rfl
  noticed _ _ := rfl
  pid _ := rfl

theorem gentle_poll : Gentle .poll where
  ended hended := hended
  noticed _ hnoticed := hnoticed
  pid _ := rfl

theorem gentle_kill : Gentle .kill where
  ended _ := .inl rfl
  noticed hkept hnoticed := hkept hnoticed
  pid _ := rfl

theorem ended_pollOrKill (process : EngineProcess) : process.pollOrKill.Ended := by
  unfold EngineProcess.pollOrKill
  split
  next hexited => exact .inr hexited
  · exact .inl rfl

theorem gentle_pollOrKill : Gentle .pollOrKill where
  ended _ := ended_pollOrKill _
  noticed {process} hkept := by
    unfold EngineProcess.pollOrKill
    split
    · exact gentle_poll.noticed hkept
    · exact gentle_kill.noticed hkept
  pid process := by
    unfold EngineProcess.pollOrKill
    split <;> rfl

/-- Every process that has not ended is in somebody's charge, and nobody notices the end
of a process before it. -/
structure Charged (state : EngineState) : Prop where
  held : ∀ id, state.Gone id ∨ state.holder = some id
  noticed : ∀ process ∈ state.processes, process.noticed → process.exitCode.isSome
  finished : state.claim = .claimed ∨ state.claim = .settled → state.work.Finished
  awaited : state.claim = .awaited ↔ state.phase = .spawning
  ended : state.claim = .abandoned ∨ state.claim = .settled → state.phase = .ended .cancelled

section Charge

variable {id other : Nat} {change : EngineProcess → EngineProcess} {phase : EnginePhase}
  {process : EngineProcess}

theorem getElem?_onProcess :
    (state.onProcess id change).processes[other]? =
      if id = other then state.processes[other]?.map change else state.processes[other]? := by
  rw [EngineState.onProcess, List.getElem?_modify]
  split <;> simp

theorem gone_onProcess (hgentle : Gentle change) (hgone : state.Gone other) :
    (state.onProcess id change).Gone other := by
  intro process hprocess
  rw [getElem?_onProcess] at hprocess
  split at hprocess
  · obtain ⟨before, hbefore, rfl⟩ := Option.map_eq_some_iff.mp hprocess
    exact hgentle.ended (hgone before hbefore)
  · exact hgone process hprocess

theorem gone_onProcess_self (hends : ∀ process, (change process).Ended) :
    (state.onProcess id change).Gone id := by
  intro process hprocess
  rw [getElem?_onProcess, if_pos rfl] at hprocess
  obtain ⟨before, -, rfl⟩ := Option.map_eq_some_iff.mp hprocess
  exact hends before

theorem noticed_onProcess (hgentle : Gentle change)
    (hnoticed : ∀ process ∈ state.processes, process.noticed → process.exitCode.isSome) :
    ∀ process ∈ (state.onProcess id change).processes,
      process.noticed → process.exitCode.isSome := by
  intro process hmem
  obtain ⟨place, hplace⟩ := List.mem_iff_getElem?.mp hmem
  rw [getElem?_onProcess] at hplace
  split at hplace
  · obtain ⟨before, hbefore, rfl⟩ := Option.map_eq_some_iff.mp hplace
    exact hgentle.noticed (hnoticed before (List.mem_of_getElem? hbefore))
  · exact hnoticed process (List.mem_of_getElem? hplace)

theorem gone_of_noticed (hcharged : Charged state) (hprocess : state.processes[id]? = some process)
    (hnoticed : process.noticed) : state.Gone id := by
  intro found hfound
  obtain rfl := Option.some.inj (hprocess.symm.trans hfound)
  exact .inr (hcharged.noticed process (List.mem_of_getElem? hprocess) hnoticed)

theorem holder_of_unclaimed (hclaim : state.claim = .awaited ∨ state.claim = .abandoned) :
    state.holder = state.work.process := by
  rcases hclaim with hclaim | hclaim <;> rw [EngineState.holder, hclaim]

theorem not_claimed (hclaim : state.claim = .awaited ∨ state.claim = .abandoned) :
    ¬(state.claim = .claimed ∨ state.claim = .settled) := by
  rcases hclaim with hclaim | hclaim <;> simp [hclaim]

namespace Charged

theorem opened : Charged (.opened endpoint) where
  held _ := .inl fun _ hprocess => by cases hprocess
  noticed _ hmem := by cases hmem
  finished hclaim := by rcases hclaim with hclaim | hclaim <;> cases hclaim
  awaited := ⟨fun _ => rfl, fun _ => rfl⟩
  ended hclaim := by rcases hclaim with hclaim | hclaim <;> cases hclaim

/-- Connections, reaping threads and the retry's port are nobody's charge. -/
theorem congr (hcharged : Charged state) (hprocesses : next.processes = state.processes)
    (hwork : next.work = state.work) (hclaim : next.claim = state.claim)
    (hphase : next.phase = state.phase) : Charged next := by
  have hholder : next.holder = state.holder := by
    rw [EngineState.holder, EngineState.holder, hwork, hclaim, hphase]
  refine ⟨fun id => ?_, ?_, ?_, ?_, ?_⟩
  · rw [hholder, EngineState.Gone, hprocesses]
    exact hcharged.held id
  · rw [hprocesses]
    exact hcharged.noticed
  · rw [hclaim, hwork]
    exact hcharged.finished
  · rw [hclaim, hphase]
    exact hcharged.awaited
  · rw [hclaim, hphase]
    exact hcharged.ended

theorem onProcess (hcharged : Charged state) (hgentle : Gentle change) :
    Charged (state.onProcess id change) where
  held other := (hcharged.held other).imp (gone_onProcess hgentle) fun hholder => hholder
  noticed := noticed_onProcess hgentle hcharged.noticed
  finished := hcharged.finished
  awaited := hcharged.awaited
  ended := hcharged.ended

theorem claimed (hcharged : Charged state) (hspawning : state.phase ≠ .spawning)
    (hover : state.phase ≠ .ended .cancelled) : state.claim = .claimed := by
  cases hclaim : state.claim with
  | awaited => exact absurd (hcharged.awaited.mp hclaim) hspawning
  | claimed => rfl
  | abandoned => exact absurd (hcharged.ended (.inl hclaim)) hover
  | settled => exact absurd (hcharged.ended (.inr hclaim)) hover

theorem claimed_of_process (hcharged : Charged state) (hprocess : state.phase.process = some id) :
    state.claim = .claimed := by
  refine hcharged.claimed ?_ ?_ <;> rintro hphase <;> rw [hphase] at hprocess <;> cases hprocess

/-- The call moves on with its process, or without one that has ended. -/
theorem goTo (hcharged : Charged state) (hclaim : state.claim = .claimed)
    (hspawning : phase ≠ .spawning)
    (hprocess : ∀ id, state.phase.process = some id → state.Gone id ∨ phase.process = some id) :
    Charged (state.goTo phase) where
  held id := by
    rcases hcharged.held id with hgone | hholder
    · exact .inl hgone
    · rw [EngineState.holder, hclaim] at hholder
      rcases hprocess id hholder with hgone | hsame
      · exact .inl hgone
      · refine .inr ?_
        simpa only [EngineState.holder, EngineState.goTo, hclaim] using hsame
  noticed := hcharged.noticed
  finished := hcharged.finished
  awaited := by
    refine ⟨fun hawaited => ?_, fun hphase => absurd hphase hspawning⟩
    exact absurd (hclaim.symm.trans hawaited) (by decide)
  ended habandoned := by
    have hnot : state.claim = .abandoned ∨ state.claim = .settled := habandoned
    rw [hclaim] at hnot
    rcases hnot with hnot | hnot <;> cases hnot

/-- The call takes what the starting thread has come to. -/
theorem claim (hcharged : Charged state) (hphase : state.phase = .spawning)
    (hfinished : state.work.Finished) (hspawning : phase ≠ .spawning)
    (hprocess : phase.process = state.work.process) :
    Charged ({ state with claim := .claimed }.goTo phase) where
  held id := by
    rcases hcharged.held id with hgone | hholder
    · exact .inl hgone
    · rw [EngineState.holder, hcharged.awaited.mpr hphase] at hholder
      exact .inr (hprocess.trans hholder)
  noticed := hcharged.noticed
  finished _ := hfinished
  awaited := ⟨(fun hclaim => nomatch hclaim), fun hphase => absurd hphase hspawning⟩
  ended hclaim := by rcases hclaim with hclaim | hclaim <;> cases hclaim

/-- A done-callback takes the result of an abandoned start. -/
theorem settle (hcharged : Charged state) (hclaim : state.claim = .abandoned)
    (hfinished : state.work.Finished)
    (hgone : ∀ id, state.work.process = some id → state.Gone id) :
    Charged { state with claim := .settled } where
  held id := by
    rcases hcharged.held id with hended | hholder
    · exact .inl hended
    · rw [EngineState.holder, hclaim] at hholder
      exact .inl (hgone id hholder)
  noticed := hcharged.noticed
  finished _ := hfinished
  awaited := by
    have hover := hcharged.ended (.inl hclaim)
    refine ⟨(fun hsettled => nomatch hsettled), fun hphase => ?_⟩
    exact absurd (hover.symm.trans hphase) (by simp)
  ended _ := hcharged.ended (.inl hclaim)

theorem unclaimed (hcharged : Charged state) (hunfinished : ¬state.work.Finished) :
    state.claim = .awaited ∨ state.claim = .abandoned := by
  cases hclaim : state.claim with
  | awaited => exact .inl rfl
  | claimed => exact absurd (hcharged.finished (.inl hclaim)) hunfinished
  | abandoned => exact .inr rfl
  | settled => exact absurd (hcharged.finished (.inr hclaim)) hunfinished

/-- The starting thread goes on; nobody has taken its result yet. -/
theorem work {work : StartWork} (hcharged : Charged state) (hunfinished : ¬state.work.Finished)
    (hprocess : ∀ id, state.work.process = some id → state.Gone id ∨ work.process = some id) :
    Charged { state with work := work } := by
  have hclaim := hcharged.unclaimed hunfinished
  have hafter : EngineState.holder { state with work := work } = work.process :=
    holder_of_unclaimed hclaim
  refine ⟨fun id => ?_, hcharged.noticed, fun hdone => ?_, hcharged.awaited, hcharged.ended⟩
  · rcases hcharged.held id with hgone | hholder
    · exact .inl hgone
    · rw [holder_of_unclaimed hclaim] at hholder
      exact (hprocess id hholder).imp_right hafter.trans
  · exact absurd hdone (not_claimed hclaim)

/-- The thread launches the process at the end of the list, and holds it. -/
theorem launch {launched : EngineProcess} (hcharged : Charged state)
    (hnew : launched.noticed = false) (hwork : state.work = .launching) :
    Charged
      { state with
        processes := state.processes ++ [launched]
        work := .assigning state.processes.length } := by
  have hclaim := hcharged.unclaimed (by rw [hwork]; exact False.elim)
  refine ⟨fun id => ?_, fun process hmem => ?_, fun hdone => ?_, hcharged.awaited,
    hcharged.ended⟩
  · rcases Nat.lt_trichotomy id state.processes.length with hlt | rfl | hgt
    · refine .inl fun process hprocess => ?_
      rw [List.getElem?_append_left hlt] at hprocess
      rcases hcharged.held id with hgone | hholder
      · exact hgone process hprocess
      · rw [holder_of_unclaimed hclaim, hwork] at hholder
        cases hholder
    · exact .inr (holder_of_unclaimed hclaim)
    · refine .inl fun process hprocess => ?_
      have hin := (List.getElem?_eq_some_iff.mp hprocess).1
      rw [List.length_append, List.length_singleton] at hin
      omega
  · rcases List.mem_append.mp hmem with hmem | hmem
    · exact hcharged.noticed process hmem
    · obtain rfl := List.mem_singleton.mp hmem
      simp [hnew]
  · exact absurd hdone (not_claimed hclaim)

end Charged

end Charge

/-! ## What every step keeps -/

/-- A phase in which the call has neither a process nor a connection. -/
structure EnginePhase.Bare (phase : EnginePhase) : Prop where
  process : phase.process = none
  connection : phase.connection = none
  spawning : phase ≠ .spawning
  unescaped : ∀ error, phase ≠ .ended (.escaped error)

theorem attemptFailed_eq (endpoint : SessionEndpoint) (state : EngineState) (message : String) :
    ∃ phase, state.attemptFailed endpoint message = state.goTo phase ∧ phase.Bare := by
  unfold EngineState.attemptFailed
  cases hfirst : state.first with
  | none => exact ⟨_, rfl, rfl, rfl, by simp, by simp⟩
  | some first => exact ⟨_, rfl, rfl, rfl, by simp, by simp⟩

theorem wayOut_eq (endpoint : SessionEndpoint) (state : EngineState) (way : WayOut) :
    ∃ phase, state.wayOut endpoint way = state.goTo phase ∧ phase.process = none ∧
      phase.connection = none ∧ phase ≠ .spawning := by
  cases way with
  | failed message =>
      obtain ⟨phase, heq, hbare⟩ := attemptFailed_eq endpoint state message
      exact ⟨phase, heq, hbare.process, hbare.connection, hbare.spawning⟩
  | cancelled => exact ⟨_, rfl, rfl, rfl, by simp⟩
  | escaped error => exact ⟨_, rfl, rfl, rfl, by simp⟩

/-- The call stays with its process. -/
theorem Charged.stays {id : Nat} {phase : EnginePhase} (hcharged : Charged state)
    (hbefore : state.phase.process = some id) (hafter : phase.process = some id) :
    Charged (state.goTo phase) := by
  refine hcharged.goTo (hcharged.claimed_of_process hbefore) ?_ fun other hother => ?_
  · rintro rfl
    cases hafter
  · exact .inr (hafter.trans (hbefore.symm.trans hother))

theorem Charged.reapAndWait {id : Nat} {notReady : String} (hcharged : Charged state)
    (hphase : state.phase.process = some id) : Charged (state.reapAndWait id notReady) := by
  have hreap : Charged (state.startReap id) := hcharged.congr rfl rfl rfl rfl
  exact hreap.stays hphase rfl

theorem Charged.abandon {id : Nat} (hcharged : Charged state) :
    Charged (state.abandon id) ∧ (state.abandon id).Gone id := by
  have hkilled : Charged (state.onProcess id .pollOrKill) := hcharged.onProcess gentle_pollOrKill
  exact ⟨hkilled.congr rfl rfl rfl rfl,
    @gone_onProcess_self state _ _ ended_pollOrKill⟩

theorem Charged.wayOut {id : Nat} {way : WayOut} (hcharged : Charged state)
    (hphase : state.phase.process = some id) (hgone : state.Gone id) :
    Charged (state.wayOut endpoint way) := by
  obtain ⟨phase, heq, hprocess, -, hspawning⟩ := wayOut_eq endpoint state way
  rw [heq]
  refine hcharged.goTo (hcharged.claimed_of_process hphase) hspawning fun other hother => ?_
  obtain rfl := Option.some.inj (hphase.symm.trans hother)
  exact .inl hgone

theorem charged_step (hcharged : Charged state) (hstep : EngineStep endpoint state action next) :
    Charged next := by
  cases hstep with
  | exits hprocess => exact hcharged.onProcess (gentle_exit _)
  | launchRefused hwork =>
      exact hcharged.work (by rw [hwork]; exact id) fun id hid => by rw [hwork] at hid; cases hid
  | launched hwork => exact hcharged.launch rfl hwork
  | assigned hwork =>
      refine hcharged.work (by rw [hwork]; exact id) fun id hid => .inr ?_
      rw [hwork] at hid
      exact hid
  -- The process left without a job is killed before the refusal is reported.
  | assignRefused hwork =>
      refine (hcharged.onProcess gentle_kill).work (by rw [EngineState.onProcess, hwork]; exact id)
        fun id hid => .inl ?_
      rw [EngineState.onProcess, hwork] at hid
      obtain rfl := Option.some.inj hid
      exact gone_onProcess_self fun _ => .inl rfl
  | refusalEnds hwork =>
      have hwaits (refused : String) : Charged { state with work := .refused refused } :=
        hcharged.work (by rw [hwork]; exact id) fun id hid => by rw [hwork] at hid; cases hid
      exact (hwaits _).onProcess gentle_poll
  -- Nobody waits for this start any more: its engine is reaped in the background.
  | @settlesStarted id hclaim hwork =>
      obtain ⟨habandoned, hgone⟩ := hcharged.abandon
      have hfinished : (state.abandon id).work.Finished := by
        rw [EngineState.abandon, EngineState.startReap, EngineState.onProcess, hwork]
        trivial
      refine habandoned.settle hclaim hfinished fun other hother => ?_
      rw [EngineState.abandon, EngineState.startReap, EngineState.onProcess, hwork] at hother
      obtain rfl := Option.some.inj hother
      exact hgone
  | settlesRefused hclaim hwork =>
      refine hcharged.settle hclaim (by rw [hwork]; trivial) fun id hid => ?_
      rw [hwork] at hid
      cases hid
  | claims hphase hwork =>
      exact hcharged.claim hphase (by rw [hwork]; trivial) (by simp) (by rw [hwork]; rfl)
  | claimsRefusal hphase hwork =>
      obtain ⟨phase, heq, hbare⟩ := attemptFailed_eq endpoint
        { state with claim := .claimed } _
      rw [heq]
      refine hcharged.claim hphase (by rw [hwork]; trivial) hbare.spawning ?_
      rw [hbare.process, hwork]
      rfl
  | looksOn hphase =>
      exact (hcharged.onProcess gentle_poll).stays (by rw [EngineState.onProcess, hphase]; rfl) rfl
  | gives hphase =>
      exact (hcharged.onProcess gentle_poll).reapAndWait (by
        rw [EngineState.onProcess, hphase]; rfl)
  | unconnected hphase => exact hcharged.stays (by rw [hphase]; rfl) rfl
  | connected hphase =>
      have hopened : Charged { state with connections := state.connections ++ [true] } :=
        hcharged.congr rfl rfl rfl rfl
      exact hopened.stays (by rw [hphase]; rfl) rfl
  | ready hphase hprocess => exact hcharged.stays (by rw [hphase]; rfl) rfl
  | unanswered hphase _ =>
      exact (hcharged.congr rfl rfl rfl rfl : Charged (state.close _)).stays
        (by rw [EngineState.close, hphase]; rfl) rfl
  | answerTimesOut hphase =>
      exact (hcharged.congr rfl rfl rfl rfl : Charged (state.close _)).reapAndWait
        (by rw [EngineState.close, hphase]; rfl)
  | answerFails hphase =>
      exact (hcharged.congr rfl rfl rfl rfl : Charged (state.close _)).stays
        (by rw [EngineState.close, hphase]; rfl) rfl
  | connectIsLate hphase => exact hcharged.reapAndWait (by rw [hphase]; rfl)
  | answerIsLate hphase =>
      exact (hcharged.congr rfl rfl rfl rfl : Charged (state.close _)).reapAndWait
        (by rw [EngineState.close, hphase]; rfl)
  | wakes hphase => exact hcharged.stays (by rw [hphase]; rfl) rfl
  | reapKills hreap => exact (hcharged.onProcess gentle_pollOrKill).congr rfl rfl rfl rfl
  | reapEnds hreap => exact (hcharged.onProcess gentle_poll).congr rfl rfl rfl rfl
  | reaped hphase => exact hcharged.stays (by rw [hphase]; rfl) rfl
  | leaves hphase hprocess hnoticed =>
      exact hcharged.wayOut (by rw [hphase]; rfl) (gone_of_noticed hcharged hprocess hnoticed)
  | abandons hphase =>
      obtain ⟨habandoned, hgone⟩ := hcharged.abandon
      refine habandoned.wayOut ?_ hgone
      rw [EngineState.abandon, EngineState.startReap, EngineState.onProcess, hphase]
      rfl
  | noPort hphase =>
      have hclaim := hcharged.claimed (by rw [hphase]; simp) (by rw [hphase]; simp)
      refine hcharged.goTo hclaim (by simp) fun id hid => ?_
      rw [hphase] at hid
      cases hid
  -- The second attempt begins with no process to answer for.
  | retries hphase =>
      have hclaim := hcharged.claimed (by rw [hphase]; simp) (by rw [hphase]; simp)
      refine ⟨fun id => ?_, hcharged.noticed, fun hdone => ?_, ⟨fun _ => rfl, fun _ => rfl⟩,
        fun hdone => ?_⟩
      · refine (hcharged.held id).imp_right fun hholder => ?_
        rw [EngineState.holder, hclaim, hphase] at hholder
        cases hholder
      · rcases hdone with hdone | hdone <;> cases hdone
      · rcases hdone with hdone | hdone <;> cases hdone
  -- The thread is still at work: what it starts is reaped when it settles.
  | cancelsStart hphase =>
      have hclaim := hcharged.awaited.mpr hphase
      refine ⟨fun id => ?_, hcharged.noticed, fun hdone => ?_, ⟨(fun h => nomatch h), fun h => ?_⟩,
        fun _ => rfl⟩
      · refine (hcharged.held id).imp_right fun hholder => ?_
        rw [EngineState.holder, hclaim] at hholder
        exact hholder
      · rcases hdone with hdone | hdone <;> cases hdone
      · cases h
  | cancelsWait hphase =>
      refine hcharged.stays ?_ rfl
      rcases hphase with hphase | hphase | ⟨_, _, hphase⟩ <;> rw [hphase] <;> rfl
  | cancelsAnswer hphase =>
      exact (hcharged.congr rfl rfl rfl rfl : Charged (state.close _)).stays
        (by rw [EngineState.close, hphase]; rfl) rfl
  | cancelsReap hphase _ =>
      exact (hcharged.congr rfl rfl rfl rfl : Charged (state.setReap _ _)).stays
        (by rw [EngineState.setReap, hphase]; rfl) rfl

/-! ## Connections -/

/-- The open connections are the one the call, or the engine it returned, reads. -/
def Wired (state : EngineState) : Prop :=
  ∀ connection, state.connections[connection]? = some true ↔
    state.phase.connection = some connection

namespace Wired

theorem same (hwired : Wired state) (hconnections : next.connections = state.connections)
    (hphase : next.phase.connection = state.phase.connection) : Wired next := by
  intro connection
  rw [hconnections, hphase]
  exact hwired connection

theorem closes {connection : Nat} (hwired : Wired state)
    (hphase : state.phase.connection = some connection)
    (hconnections : next.connections = state.connections.set connection false)
    (hafter : next.phase.connection = none) : Wired next := by
  intro other
  rw [hconnections, hafter, List.getElem?_set]
  constructor
  · intro hopen
    split at hopen
    · split at hopen <;> cases hopen
    next hother =>
      have hsame := (hwired other).mp hopen
      rw [hphase] at hsame
      exact absurd (Option.some.inj hsame) hother
  · rintro ⟨⟩

theorem opens (hwired : Wired state) (hphase : state.phase.connection = none)
    (hconnections : next.connections = state.connections ++ [true])
    (hafter : next.phase.connection = some state.connections.length) : Wired next := by
  intro other
  rw [hconnections, hafter]
  rcases Nat.lt_trichotomy other state.connections.length with hlt | rfl | hgt
  · rw [List.getElem?_append_left hlt, hwired other, hphase]
    simp only [reduceCtorEq, Option.some.injEq, false_iff]
    omega
  · simp
  · rw [List.getElem?_eq_none (by simp only [List.length_append, List.length_singleton]; omega)]
    simp only [reduceCtorEq, Option.some.injEq, false_iff]
    omega

end Wired

theorem wired_step (hwired : Wired state) (hstep : EngineStep endpoint state action next) :
    Wired next := by
  cases hstep with
  | exits | launchRefused | launched | assigned | assignRefused | refusalEnds | settlesStarted
  | settlesRefused | reapKills | reapEnds => exact hwired.same rfl rfl
  | claims hphase => exact hwired.same rfl (by rw [hphase]; rfl)
  | claimsRefusal hphase =>
      obtain ⟨phase, heq, hbare⟩ := attemptFailed_eq endpoint
        { state with claim := .claimed } _
      rw [heq]
      exact hwired.same rfl (hbare.connection.trans (by rw [hphase]; rfl))
  | looksOn hphase | gives hphase | unconnected hphase | connectIsLate hphase | wakes hphase
  | reaped hphase | noPort hphase | retries hphase | cancelsStart hphase | cancelsReap hphase =>
      exact hwired.same rfl (by rw [hphase]; rfl)
  | connected hphase => exact hwired.opens (by rw [hphase]; rfl) rfl rfl
  | ready hphase => exact hwired.same rfl (by rw [hphase]; rfl)
  | unanswered hphase | answerTimesOut hphase | answerFails hphase | answerIsLate hphase
  | cancelsAnswer hphase => exact hwired.closes (by rw [hphase]; rfl) rfl rfl
  | @leaves id way process hphase =>
      obtain ⟨phase, heq, -, hconnection, -⟩ := wayOut_eq endpoint state way
      rw [heq]
      exact hwired.same rfl (hconnection.trans (by rw [hphase]; rfl))
  | @abandons id way hphase =>
      obtain ⟨phase, heq, -, hconnection, -⟩ := wayOut_eq endpoint (state.abandon id) way
      rw [heq]
      exact hwired.same rfl (hconnection.trans (by rw [hphase]; rfl))
  | cancelsWait hphase =>
      refine hwired.same rfl ?_
      rcases hphase with hphase | hphase | ⟨_, _, hphase⟩ <;> rw [hphase] <;> rfl

/-! ## Launches -/

/-- The launches a starting thread has still to make. -/
def StartWork.toLaunch : StartWork → Nat
  | .launching => 1
  | _ => 0

/-- An attempt launches at most one process, and there are at most two attempts. -/
structure Counted (state : EngineState) : Prop where
  launches : state.processes.length + state.work.toLaunch ≤ if state.first = none then 1 else 2
  retrying : ∀ message, state.phase = .retrying message → state.first = none

namespace Counted

theorem same (hcounted : Counted state)
    (hprocesses : next.processes.length = state.processes.length)
    (hwork : next.work.toLaunch ≤ state.work.toLaunch) (hfirst : next.first = state.first)
    (hphase : ∀ message, next.phase = .retrying message → state.first = none) :
    Counted next := by
  refine ⟨?_, fun message hretrying => hfirst.trans (hphase message hretrying)⟩
  rw [hprocesses, hfirst]
  exact Nat.le_trans (Nat.add_le_add_left hwork _) hcounted.launches

theorem work (hcounted : Counted state)
    (hprocesses : next.processes.length = state.processes.length)
    (hwork : next.work.toLaunch = 0) (hfirst : next.first = state.first)
    (hphase : next.phase = state.phase) : Counted next :=
  hcounted.same hprocesses (by omega) hfirst fun message hretrying =>
    hcounted.retrying message (hphase ▸ hretrying)

theorem goTo {phase : EnginePhase} (hcounted : Counted state)
    (hphase : ∀ message, phase ≠ .retrying message) : Counted (state.goTo phase) :=
  hcounted.same rfl (Nat.le_refl _) rfl fun message hretrying =>
    absurd hretrying (hphase message)

theorem attemptFailed (hcounted : Counted state) (message : String) :
    Counted (state.attemptFailed endpoint message) := by
  unfold EngineState.attemptFailed
  cases hfirst : state.first with
  | none => exact hcounted.same rfl (Nat.le_refl _) rfl fun _ _ => hfirst
  | some first => exact hcounted.goTo (by simp)

theorem wayOut (hcounted : Counted state) (way : WayOut) :
    Counted (state.wayOut endpoint way) := by
  cases way with
  | failed message => exact hcounted.attemptFailed message
  | cancelled | escaped => exact hcounted.goTo (by simp)

end Counted

@[simp] theorem length_onProcess {id : Nat} {change : EngineProcess → EngineProcess} :
    (state.onProcess id change).processes.length = state.processes.length :=
  List.length_modify ..

theorem counted_step (hcounted : Counted state)
    (hstep : EngineStep endpoint state action next) : Counted next := by
  cases hstep with
  | exits | reapKills | reapEnds =>
      exact hcounted.same length_onProcess (Nat.le_refl _) rfl hcounted.retrying
  | launchRefused => exact hcounted.work rfl rfl rfl rfl
  | launched hwork =>
      have hlaunches := hcounted.launches
      rw [hwork] at hlaunches
      refine ⟨?_, hcounted.retrying⟩
      rw [List.length_append]
      exact hlaunches
  | assigned => exact hcounted.work rfl rfl rfl rfl
  | assignRefused | refusalEnds => exact hcounted.work length_onProcess rfl rfl rfl
  | settlesStarted =>
      exact hcounted.same length_onProcess (Nat.le_refl _) rfl hcounted.retrying
  | settlesRefused => exact hcounted.same rfl (Nat.le_refl _) rfl hcounted.retrying
  | claims | connected => exact hcounted.same rfl (Nat.le_refl _) rfl (by simp [EngineState.goTo])
  | claimsRefusal =>
      have hclaimed : Counted { state with claim := .claimed } :=
        ⟨hcounted.launches, hcounted.retrying⟩
      exact hclaimed.attemptFailed _
  | looksOn | gives =>
      exact hcounted.same length_onProcess (Nat.le_refl _) rfl
        (by simp [EngineState.goTo, EngineState.reapAndWait])
  | unconnected | ready | wakes | reaped | noPort | cancelsWait => exact hcounted.goTo (by simp)
  | unanswered | answerTimesOut | answerFails | connectIsLate | answerIsLate | cancelsStart
  | cancelsAnswer | cancelsReap =>
      exact hcounted.same rfl (Nat.le_refl _) rfl
        (by simp [EngineState.goTo, EngineState.reapAndWait])
  | leaves => exact hcounted.wayOut _
  | @abandons id way =>
      have habandoned : Counted (state.abandon id) :=
        hcounted.same length_onProcess (Nat.le_refl _) rfl hcounted.retrying
      exact habandoned.wayOut way
  | retries hphase =>
      have hfirst := hcounted.retrying _ hphase
      have hlaunches := hcounted.launches
      rw [if_pos hfirst] at hlaunches
      refine ⟨?_, fun message hretrying => nomatch hretrying⟩
      simp only [StartWork.toLaunch, reduceCtorEq, if_false]
      omega

/-! ## The engine returned -/

/-- The engine the call returned is a process it launched, on the port of the last attempt. -/
def Named (state : EngineState) : Prop :=
  ∀ engine, state.phase = .ended (.running engine) → engine.port = state.port ∧
    ∃ process, state.processes[engine.process]? = some process ∧ process.pid = engine.pid

namespace Named

theorem same (hnamed : Named state) (hprocesses : next.processes = state.processes)
    (hport : next.port = state.port) (hphase : next.phase = state.phase) : Named next := by
  intro engine hover
  rw [hprocesses, hport]
  exact hnamed engine (hphase ▸ hover)

theorem onProcess {id : Nat} {change : EngineProcess → EngineProcess} (hnamed : Named state)
    (hgentle : Gentle change) : Named (state.onProcess id change) := by
  intro engine hover
  obtain ⟨hport, process, hprocess, hpid⟩ := hnamed engine hover
  refine ⟨hport, ?_⟩
  rw [getElem?_onProcess]
  split
  · exact ⟨change process, by rw [hprocess]; rfl, (hgentle.pid process).trans hpid⟩
  · exact ⟨process, hprocess, hpid⟩

theorem other {phase : EnginePhase} (hphase : ∀ engine, phase ≠ .ended (.running engine)) :
    Named (state.goTo phase) := fun engine hover => absurd hover (hphase engine)

end Named

theorem ne_running {phase : EnginePhase} (hphase : phase.process = none) (engine : RunningEngine) :
    phase ≠ .ended (.running engine) := by
  rintro rfl
  cases hphase

theorem named_wayOut (way : WayOut) : Named (state.wayOut endpoint way) := by
  obtain ⟨phase, heq, hprocess, -⟩ := wayOut_eq endpoint state way
  rw [heq]
  exact Named.other (ne_running hprocess)

theorem named_step (hnamed : Named state) (hstep : EngineStep endpoint state action next) :
    Named next := by
  cases hstep with
  | exits => exact hnamed.onProcess (gentle_exit _)
  | launchRefused | assigned | settlesRefused => exact hnamed.same rfl rfl rfl
  | launched =>
      intro engine hover
      obtain ⟨hport, process, hprocess, hpid⟩ := hnamed engine hover
      refine ⟨hport, process, ?_, hpid⟩
      rw [List.getElem?_append_left (List.getElem?_eq_some_iff.mp hprocess).1]
      exact hprocess
  | assignRefused => exact (hnamed.same rfl rfl rfl : Named _).onProcess gentle_kill
  | refusalEnds => exact (hnamed.same rfl rfl rfl : Named _).onProcess gentle_poll
  | settlesStarted | reapKills =>
      exact (hnamed.onProcess gentle_pollOrKill).same rfl rfl rfl
  | reapEnds => exact (hnamed.onProcess gentle_poll).same rfl rfl rfl
  | claims | looksOn | gives | unconnected | connected | unanswered | answerTimesOut | answerFails
  | connectIsLate | answerIsLate | wakes | reaped | noPort | cancelsStart | cancelsWait
  | cancelsAnswer | cancelsReap => exact Named.other (by simp)
  | claimsRefusal =>
      obtain ⟨phase, heq, hbare⟩ := attemptFailed_eq endpoint
        { state with claim := .claimed } _
      rw [heq]
      exact Named.other (ne_running hbare.process)
  | ready hphase hprocess =>
      rintro engine ⟨⟩
      exact ⟨rfl, _, hprocess, rfl⟩
  | leaves | abandons => exact named_wayOut _
  | retries => exact fun engine hover => nomatch hover

/-! ## Errors that get past the call -/

/-- The call is on its way out with an error that is no `EngineStartError`. -/
def EnginePhase.Escaping : EnginePhase → Prop
  | .leaving _ (.escaped _) | .ended (.escaped _) => True
  | _ => False

theorem escaping_attemptFailed {message : String} :
    ¬(state.attemptFailed endpoint message).phase.Escaping := by
  unfold EngineState.attemptFailed
  split <;> exact id

theorem escaping_wayOut {id : Nat} {way : WayOut} :
    (state.wayOut endpoint way).phase.Escaping ↔ (EnginePhase.leaving id way).Escaping := by
  cases way with
  | failed message => exact iff_of_false escaping_attemptFailed not_false
  | cancelled => exact Iff.rfl
  | escaped error => exact Iff.rfl

/-- On an open connection, a socket error other than a reset and a timeout or an answer
whose status is too long a number. -/
def EngineAction.FailsOddly (action : EngineAction) : Prop :=
  ∃ answer : HarborAnswer, action = .answers answer ∧ answer.IsOdd

theorem escaping_step (hstep : EngineStep endpoint state action next) :
    next.phase.Escaping ↔ state.phase.Escaping ∨ action.FailsOddly := by
  cases hstep with
  | exits | launchRefused | launched | assigned | assignRefused | refusalEnds | settlesStarted
  | settlesRefused | reapKills | reapEnds =>
      exact (or_iff_left (by simp [EngineAction.FailsOddly])).symm
  | claimsRefusal hphase =>
      refine iff_of_false escaping_attemptFailed ?_
      simp [hphase, EnginePhase.Escaping, EngineAction.FailsOddly]
  | claims hphase | looksOn hphase | gives hphase | unconnected hphase | connected hphase
  | connectIsLate hphase | answerIsLate hphase | wakes hphase | reaped hphase | noPort hphase
  | retries hphase | cancelsStart hphase | cancelsAnswer hphase | cancelsReap hphase =>
      refine iff_of_false id ?_
      simp [hphase, EnginePhase.Escaping, EngineAction.FailsOddly]
  | answerTimesOut hphase =>
      refine iff_of_false id ?_
      simp [hphase, EnginePhase.Escaping, EngineAction.FailsOddly, HarborAnswer.IsOdd]
  | ready hphase _ hanswer | unanswered hphase hanswer =>
      refine iff_of_false id ?_
      simpa [hphase, EnginePhase.Escaping, EngineAction.FailsOddly] using hanswer
  | answerFails _ hanswer => exact iff_of_true trivial (.inr ⟨_, rfl, hanswer⟩)
  | leaves hphase | abandons hphase =>
      rw [escaping_wayOut, hphase, or_iff_left (by simp [EngineAction.FailsOddly])]
  | cancelsWait hphase =>
      refine iff_of_false id ?_
      rcases hphase with hphase | hphase | ⟨_, _, hphase⟩ <;>
        simp [hphase, EnginePhase.Escaping, EngineAction.FailsOddly]

/-! ## Whole runs -/

/-- What every run keeps. -/
structure EngineOk (state : EngineState) : Prop where
  charged : Charged state
  wired : Wired state
  counted : Counted state
  named : Named state

theorem engineOk_opened : EngineOk (.opened endpoint) where
  charged := .opened
  wired _ := by simp [EngineState.opened, EnginePhase.connection]
  counted := ⟨Nat.le_refl _, fun _ hretrying => nomatch hretrying⟩
  named _ hover := nomatch hover

theorem engineOk_preserved : (engineMachine endpoint).Preserves EngineOk := by
  intro state next action output hok hstep
  have hcases := engineStep_cases hstep
  exact ⟨charged_step hok.charged hcases, wired_step hok.wired hcases,
    counted_step hok.counted hcases, named_step hok.named hcases⟩

section Runs

variable {trace : List (EngineAction × Unit)} {result : EngineResult}

theorem engineOk_run (hrun : (engineMachine endpoint).Run (.opened endpoint) trace state) :
    EngineOk state := hrun.invariant engineOk_preserved engineOk_opened

theorem escaping_run (hrun : (engineMachine endpoint).Run (.opened endpoint) trace state) :
    state.phase.Escaping ↔ ∃ entry ∈ trace, entry.1.FailsOddly := by
  induction hrun with
  | nil => simp [EngineState.opened, EnginePhase.Escaping]
  | snoc _ hstep ih =>
      rw [escaping_step (engineStep_cases hstep), ih]
      simp only [List.mem_append, List.mem_singleton, or_and_right, exists_or, exists_eq_left]

/-- The call has ended, and so have the threads it left. -/
structure EngineState.AtRest (state : EngineState) (result : EngineResult) : Prop where
  ended : state.phase = .ended result
  finished : state.work.Finished
  settled : state.claim ≠ .abandoned
  reaped : ∀ reap ∈ state.reaps, reap.stage = .dropped ∨ ∃ text, reap.stage = .ended text

/-- Nothing outlives the start but the engine it returned, with its one connection. -/
structure LeavesNothing (state : EngineState) (result : EngineResult) : Prop where
  processes : ∀ id process, state.processes[id]? = some process →
    process.Ended ∨ ∃ engine, result = .running engine ∧ engine.process = id
  connections : ∀ connection, state.connections[connection]? = some true ↔
    ∃ engine, result = .running engine ∧ engine.upstream = connection
  engine : ∀ engine, result = .running engine → engine.port = state.port ∧
    ∃ process, state.processes[engine.process]? = some process ∧ process.pid = engine.pid
  launches : state.processes.length ≤ 2

/-- A process is launched only when all launched before it have been killed or had exited. -/
def LaunchesAlone (state : EngineState) (action : EngineAction) : Prop :=
  ∀ pid, action = .launches (.ok pid) → ∀ process ∈ state.processes, process.Ended

theorem EngineOk.leavesNothing (hok : EngineOk state) (hrest : state.AtRest result) :
    LeavesNothing state result where
  processes id process hprocess := by
    rcases hok.charged.held id with hgone | hholder
    · exact .inl (hgone process hprocess)
    · refine .inr ?_
      -- a settled or claimed start is nobody's but the call's, and the call is over
      have hclaim : state.claim = .claimed ∨ state.claim = .settled := by
        cases hclaim : state.claim with
        | awaited =>
            have hphase := hok.charged.awaited.mp hclaim
            rw [hrest.ended] at hphase
            cases hphase
        | claimed => exact .inl rfl
        | abandoned => exact absurd hclaim hrest.settled
        | settled => exact .inr rfl
      have hheld : (EnginePhase.ended result).process = some id := by
        rcases hclaim with hclaim | hclaim <;>
          simpa only [EngineState.holder, hclaim, hrest.ended] using hholder
      cases result with
      | running engine => exact ⟨engine, rfl, Option.some.inj hheld⟩
      | startError | cancelled | escaped => cases hheld
  connections connection := by
    rw [hok.wired connection, hrest.ended]
    cases result with
    | running engine => simp [EnginePhase.connection]
    | startError | cancelled | escaped => simp [EnginePhase.connection]
  engine engine hresult := hok.named engine (hresult ▸ hrest.ended)
  launches := by
    have hlaunches := hok.counted.launches
    split at hlaunches <;> omega

theorem launchesAlone_run (hrun : (engineMachine endpoint).Run (.opened endpoint) trace state) :
    (engineMachine endpoint).Meets LaunchesAlone (.opened endpoint) trace := by
  rintro before action output after current rfl hbefore pid rfl process hprocess
  obtain ⟨middle, later, hmiddle, htaken, -⟩ := hrun.split
  obtain rfl := hbefore.deterministic hmiddle
  have hcharged := (engineOk_run hbefore).charged
  cases engineStep_cases htaken with
  | launched hwork =>
      obtain ⟨place, hplace⟩ := List.mem_iff_getElem?.mp hprocess
      rcases hcharged.held place with hgone | hholder
      · exact hgone process hplace
      · rw [holder_of_unclaimed (hcharged.unclaimed (by rw [hwork]; exact id)), hwork] at hholder
        cases hholder

/-- Whatever the engine, its harbor and the caller do, a start leaves nothing behind but
the engine it returned, launches one process after another, and raises nothing but its own
error, exactly when no open connection fails with an error it does not name or answers with
a status that is too long to read. -/
theorem startReadyEngine_leavesNothing
    (hrun : (engineMachine endpoint).Run (.opened endpoint) trace state)
    (hrest : state.AtRest result) :
    (LeavesNothing state result ∧
      (engineMachine endpoint).Meets LaunchesAlone (.opened endpoint) trace ∧
      ∀ error, result ≠ .escaped error) ↔
      ∀ entry ∈ trace, ¬entry.1.FailsOddly := by
  -- An odd failure is the only way for an error to escape.
  have hescaping : (∃ error, result = .escaped error) ↔ ∃ entry ∈ trace, entry.1.FailsOddly := by
    rw [← escaping_run hrun, hrest.ended]
    cases result with
    | escaped error => exact iff_of_true ⟨error, rfl⟩ trivial
    | running | startError | cancelled => exact iff_of_false (by simp) not_false
  constructor
  · rintro ⟨-, -, hresult⟩ entry hentry hfails
    obtain ⟨error, heq⟩ := hescaping.mpr ⟨entry, hentry, hfails⟩
    exact hresult error heq
  · intro hnone
    refine ⟨(engineOk_run hrun).leavesNothing hrest, launchesAlone_run hrun, fun error heq => ?_⟩
    obtain ⟨entry, hentry, hfails⟩ := hescaping.mp ⟨error, heq⟩
    exact hnone entry hentry hfails

end Runs

theorem reaped_alone (id : Nat) (text : String) :
    ∀ reap ∈ [(⟨id, .ended text⟩ : Reap)],
      reap.stage = .dropped ∨ ∃ text, reap.stage = .ended text := by simp

def twoPorts : SessionEndpoint := ⟨"evening", ⟨2000, by decide⟩, "5.0"⟩

/-- The first engine exits before its harbor answers; the second one answers. -/
def secondAnswers : List EngineAction :=
  [.launches (.ok 7), .assigns none, .claims, .looks false, .connects true, .wakes,
    .exits 0 1, .looks false, .reapKills 0, .reapEnds 0, .reaped, .leaves,
    .retries (.ok ⟨2001, by decide⟩), .launches (.ok 8), .assigns none, .claims, .looks false,
    .connects false, .answers (.head "HTTP/1.0 200 OK".toList)]

theorem startReadyEngine_secondAnswers :
    ∃ trace state engine, (engineMachine twoPorts).Run (.opened twoPorts) trace state ∧
      state.AtRest (.running engine) ∧ trace.map Prod.fst = secondAnswers ∧
      LeavesNothing state (.running engine) ∧
      (engineMachine twoPorts).Meets LaunchesAlone (.opened twoPorts) trace := by
  have hrun := Machine.run_of_exec
    (rfl : (engineMachine twoPorts).exec (.opened twoPorts) secondAnswers = some (_, _))
  have hreaped := reaped_alone 0 "engine exit code 1"
  have hshort : ¬(HarborAnswer.head "HTTP/1.0 200 OK".toList).IsOdd := fun hlong =>
    absurd hlong.2 (by decide)
  obtain ⟨hleaves, hmeets, -⟩ := (@startReadyEngine_leavesNothing _ _ _
    (.running ⟨1, 8, ⟨2001, by decide⟩, 0⟩) hrun ⟨rfl, trivial, by decide, hreaped⟩).mpr
      (by simpa [EngineAction.FailsOddly] using hshort)
  exact ⟨_, _, _, hrun, ⟨rfl, trivial, by decide, hreaped⟩, rfl, hleaves, hmeets⟩

/-- The harbor takes the connection and then fails with an error that is neither a reset nor
a timeout: the engine is killed, and the error goes past the call. -/
theorem oddFailure_escapes :
    ¬∀ trace state result, (engineMachine twoPorts).Run (.opened twoPorts) trace state →
      state.AtRest result →
      LeavesNothing state result ∧
        (engineMachine twoPorts).Meets LaunchesAlone (.opened twoPorts) trace ∧
        ∀ error, result ≠ .escaped error := by
  intro hall
  have hrun := Machine.run_of_exec
    (rfl : (engineMachine twoPorts).exec (.opened twoPorts)
      [.launches (.ok 7), .assigns none, .claims, .looks false, .connects false,
        .answers (.fails "network down"), .leaves, .reapKills 0, .exits 0 1, .reapEnds 0] =
      some (_, _))
  obtain ⟨-, -, hresult⟩ := hall _ _ (.escaped "network down") hrun
    ⟨rfl, trivial, by decide, reaped_alone 0 "engine killed (exit code 1)"⟩
  exact hresult _ rfl

end RetroStation.Playout
