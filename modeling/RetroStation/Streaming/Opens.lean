import RetroStation.Streaming.ListenerFeed

/-! # Opening and closing sessions

An open admits its session, starts the engine while the listener is placed, and
hands the engine to the session, which its relay plays. Placement, the start, a
cancellation, a close or the watchdog may strike between any two of its steps.
-/

namespace RetroStation.Streaming

/-- One tune-in. -/
structure ListenRequest where
  year : Nat
  listenerKey : Option String
  deriving DecidableEq, Repr

/-- The tune-in's bookmark key, which is also its listener channel. -/
def ListenRequest.channel (request : ListenRequest) (stationId : Uuid) : Option BookmarkKey :=
  request.listenerKey.map fun key => ⟨key, stationId, request.year⟩

/-- What has been done to one engine. `closed` is the flag of the once-closing
upstream that its session and relay share. -/
structure EngineLog where
  stops : Nat := 0
  closes : Nat := 0
  closed : Bool := false
  deriving DecidableEq, Repr

namespace EngineLog

def stop (log : EngineLog) : EngineLog := { log with stops := log.stops + 1 }

def close (log : EngineLog) : EngineLog := { log with closes := log.closes + 1 }

def closeOnce (log : EngineLog) : EngineLog :=
  if log.closed then log else { log.close with closed := true }

/-- Halt an engine as its start returned it. -/
def halt (log : EngineLog) : EngineLog := log.stop.close

/-- Halt an engine that a session keeps. -/
def haltKept (log : EngineLog) : EngineLog := log.stop.closeOnce

end EngineLog

/-- A session of the table. Its engine is named by the session it was started
for. -/
structure ListenerSession where
  session : StreamSession
  engine : Option Uuid := none
  stopped : Bool := false

/-- The session has an engine that has not been stopped. -/
def ListenerSession.runs (session : ListenerSession) : Bool :=
  session.engine.isSome && !session.stopped

inductive PlacingResult
  | placed | noBroadcast | endOfSchedule | failed | cancelled
  deriving DecidableEq, Repr

inductive StartResult
  | started | startError | failed | cancelled
  deriving DecidableEq, Repr

/-- An open that awaits its placement and its engine's start. -/
structure Opening where
  key : Option BookmarkKey
  placing : Option PlacingResult := none
  start : Option StartResult := none
  cancelled : Bool := false
  deriving DecidableEq, Repr

/-- The service. `abandoned` holds the starts that are halted when they finish,
`issued` every session id given out, and `limit` the limit the last admitted
open read. -/
structure ServiceState where
  reading : Dict Nat ListenRequest := .empty
  opening : Dict Uuid Opening := .empty
  abandoned : Dict Uuid (Option StartResult) := .empty
  sessions : Dict Uuid ListenerSession := .empty
  relays : List Uuid := []
  engines : Dict Uuid EngineLog := .empty
  feed : FeedState
  issued : List Uuid := []
  limit : Nat := 0

namespace ServiceState

/-- Change what has been done to an engine. -/
def onEngine (state : ServiceState) (engine : Uuid) (change : EngineLog → EngineLog) :
    ServiceState :=
  match state.engines.get? engine with
  | some log => { state with engines := state.engines.set engine (change log) }
  | none => state

/-- A call of the listener feed. -/
def callFeed (state : ServiceState) (action : FeedAction) : ServiceState :=
  match feedMachine.step state.feed action with
  | some (feed, _) => { state with feed := feed }
  | none => state

/-- Tell a session's channel, when it has one. -/
def tellEnded (state : ServiceState) (key : Option BookmarkKey) (id : Uuid) (kind : StatusKind) :
    ServiceState :=
  match key with
  | some key => state.callFeed (.ended key id kind)
  | none => state

def tellOpened (state : ServiceState) (key : Option BookmarkKey) (id : Uuid) : ServiceState :=
  match key with
  | some key => state.callFeed (.opened key id)
  | none => state

def refuse (state : ServiceState) (key : Option BookmarkKey) (kind : StatusKind) : ServiceState :=
  match key with
  | some key => state.callFeed (.refused key kind)
  | none => state

/-- Halt a session's engine, unless it has none or is already stopped. -/
def stop (state : ServiceState) (session : ListenerSession) : ServiceState :=
  match session.engine with
  | some engine => if session.stopped then state else state.onEngine engine EngineLog.haltKept
  | none => state

/-- Free the slot, tell the channel, then stop the engine. -/
def close (state : ServiceState) (id : Uuid) : ServiceState :=
  match state.sessions.get? id with
  | none => state
  | some session =>
    let kind := if scheduleFinished session.session then StatusKind.ended else .stopped
    ({ state with sessions := state.sessions.erase id }.tellEnded
      session.session.bookmarkKey id kind).stop session

def closeAll (state : ServiceState) : ServiceState := state.sessions.keys.foldl close state

/-- The sessions the watchdog finds overdue, of those whose engine runs. -/
def frozenSessions (state : ServiceState) (overdue : List Uuid) : List Uuid :=
  state.sessions.keys.filter fun id =>
    match state.sessions.get? id with
    | some session => session.runs && decide (id ∈ overdue)
    | none => false

/-- Stop one session's engine, if it runs; the session stays. -/
def stopSession (state : ServiceState) (id : Uuid) : ServiceState :=
  match state.sessions.get? id with
  | some session =>
    if session.runs then
      { state with
        sessions := state.sessions.set id { session with stopped := true } }.stop session
    else state
  | none => state

def stopFrozen (state : ServiceState) (overdue : List Uuid) : ServiceState :=
  (state.frozenSessions overdue).foldl stopSession state

/-! ## Opening -/

/-- A session that never finished opening. One that was closed meanwhile has
left the table, and has no engine to stop. -/
def abandonOpen (state : ServiceState) (id : Uuid) (key : Option BookmarkKey)
    (failure : StatusKind) : ServiceState :=
  let told := { state with sessions := state.sessions.erase id }.tellEnded key id failure
  match state.sessions.get? id with
  | some session => told.stop session
  | none => told

/-- A start that no open waits for: halted now if it is ready, else once it is. -/
def abandonStart (state : ServiceState) (id : Uuid) : Option StartResult → ServiceState
  | none => { state with abandoned := state.abandoned.set id none }
  | some .started => state.onEngine id EngineLog.halt
  | some _ => state

/-- The session takes its slot. -/
def admitted (state : ServiceState) (key : Option BookmarkKey) (limit : Nat) (id : Uuid)
    (session : StreamSession) : ServiceState :=
  { state with
    sessions := state.sessions.set id ⟨{ session with bookmarkKey := key }, none, false⟩
    issued := id :: state.issued
    limit := limit }

/-- Take a slot, unless the limit read is reached or was not a limit, and start
the engine, unless no port is free for it. -/
def admitSession (state : ServiceState) (request : ListenRequest) (station : Uuid)
    (limit : Option Nat) (id : Uuid) (session : StreamSession) (portFree : Bool) : ServiceState :=
  let key := request.channel station
  match limit with
  | none => state.refuse key .unavailable
  | some limit =>
    if state.sessions.size ≥ limit then state.refuse key .busy
    else
      let told := (state.admitted key limit id session).tellOpened key id
      if portFree then { told with opening := told.opening.set id { key := key } }
      else told.abandonOpen id key .unavailable

end ServiceState

/-- Why an open that resumes does not keep its engine; `none` keeps it, and
nothing at all is an open that still waits. A cancelled open may resume before
its start has finished. -/
def Opening.failure (opening : Opening) (isOpen : Bool) : Option (Option StatusKind) :=
  if opening.cancelled then some (some .stopped)
  else
    match opening.placing, opening.start with
    | some .noBroadcast, some _ | some .endOfSchedule, some _ => some (some .noBroadcast)
    | some .cancelled, some _ => some (some .stopped)
    | some .failed, some _ => some (some .unavailable)
    | some .placed, some .cancelled => some (some .stopped)
    | some .placed, some .startError | some .placed, some .failed => some (some .unavailable)
    | some .placed, some .started => if isOpen then some none else some (some .unavailable)
    | _, _ => none

namespace ServiceState

/-- An open resumes from its wait: it keeps its engine and hands out its relay,
or it abandons the start and then the session. -/
def settle (state : ServiceState) (id : Uuid) (relayFails : Bool) : Option ServiceState :=
  match state.opening.get? id with
  | none => none
  | some opening =>
    let resumed := { state with opening := state.opening.erase id }
    match opening.failure (state.sessions.get? id).isSome, state.sessions.get? id with
    | none, _ => none
    | some (some failure), _ =>
      some ((resumed.abandonStart id opening.start).abandonOpen id opening.key failure)
    | some none, some session =>
      let kept := { resumed with
        sessions := resumed.sessions.set id { session with engine := some id } }
      if relayFails then some (kept.abandonOpen id opening.key .unavailable)
      else some { kept with relays := id :: kept.relays }
    | some none, none => none

/-- A start finishes; an engine it returns has been neither stopped nor closed. -/
def startEnds (state : ServiceState) (id : Uuid) (result : StartResult) : Option ServiceState :=
  let engines := if result = .started then state.engines.set id {} else state.engines
  match state.opening.get? id, state.abandoned.get? id with
  | some opening, _ =>
    if opening.start.isSome then none
    else some { state with
      opening := state.opening.set id { opening with start := some result }, engines := engines }
  | none, some none =>
    some { state with abandoned := state.abandoned.set id (some result), engines := engines }
  | none, _ => none

/-- The done-callback of an abandoned start. -/
def startCallback (state : ServiceState) (id : Uuid) : Option ServiceState :=
  match state.abandoned.get? id with
  | some (some result) =>
    some ({ state with abandoned := state.abandoned.erase id }.abandonStart id (some result))
  | _ => none

end ServiceState

/-! ## The machine -/

/-- `changes` is whatever placement, items and reports store in a session, and
`feed` a step of a subscriber or of the clock. -/
inductive ServiceAction
  | open (call : Nat) (request : ListenRequest)
  | cancelReading (call : Nat)
  | read (call : Nat) (station : Option Uuid) (limit : Option Nat) (id : Uuid)
      (session : StreamSession) (portFree : Bool)
  | cancel (id : Uuid)
  | placingEnds (id : Uuid) (result : PlacingResult)
  | startEnds (id : Uuid) (result : StartResult)
  | settle (id : Uuid) (relayFails : Bool)
  | startCallback (id : Uuid)
  | relayCloses (id : Uuid)
  | relayEnds (id : Uuid)
  | close (id : Uuid)
  | closeAll
  | stopFrozen (overdue : List Uuid)
  | changes (id : Uuid) (session : StreamSession)
  | title (id : Uuid) (artist text : String) (showsAt : Int)
  | feed (action : FeedAction)

/-- The steps of the feed that the service does not take itself. -/
def FeedAction.isListeners : FeedAction → Bool
  | .advance _ | .subscribe _ _ | .aclose _ | .reader _ _ => true
  | _ => false

open ServiceState in
/-- The service under every interleaving of its opens, closes, relays, watchdog
and listeners. A session id is given out once. -/
def serviceMachine : Transition.Machine ServiceState ServiceAction Unit where
  step state action := (·, ()) <$>
    match action with
    | .open call request =>
      if (state.reading.get? call).isSome then none
      else some { state with reading := state.reading.set call request }
    | .cancelReading call => some { state with reading := state.reading.erase call }
    | .read call station limit id session portFree =>
      match state.reading.get? call with
      | none => none
      | some request =>
        let answered := { state with reading := state.reading.erase call }
        match station with
        | none => some answered
        | some station =>
          if id ∈ state.issued then none
          else some (answered.admitSession request station limit id session portFree)
    | .cancel id =>
      (state.opening.get? id).map fun opening =>
        { state with opening := state.opening.set id { opening with cancelled := true } }
    | .placingEnds id result =>
      match state.opening.get? id with
      | none => none
      | some opening =>
        if opening.placing.isSome then none
        else some { state with
          opening := state.opening.set id { opening with placing := some result } }
    | .startEnds id result => state.startEnds id result
    | .settle id relayFails => state.settle id relayFails
    | .startCallback id => state.startCallback id
    | .relayCloses id =>
      if id ∈ state.relays then some (state.onEngine id EngineLog.closeOnce) else none
    | .relayEnds id => if id ∈ state.relays then some (state.close id) else none
    | .close id => some (state.close id)
    | .closeAll => some state.closeAll
    | .stopFrozen overdue => some (state.stopFrozen overdue)
    | .changes id session =>
      match state.sessions.get? id with
      | none => none
      | some found =>
        if session.bookmarkKey = found.session.bookmarkKey then
          some { state with sessions := state.sessions.set id { found with session := session } }
        else none
    | .title id artist text showsAt =>
      match (state.sessions.get? id).bind fun found => found.session.bookmarkKey with
      | none => none
      | some key => some (state.callFeed (.title key id artist text showsAt))
    | .feed action => if action.isListeners then some (state.callFeed action) else none

/-- The service before anyone has tuned in. -/
def idleService (elapsedNow : Int) : ServiceState := { feed := ⟨{}, elapsedNow⟩ }

end RetroStation.Streaming
