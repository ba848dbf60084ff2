import RetroStation.Streaming.Session
import RetroStation.Transition.Run

/-! # The item contract, await by await

An engine asks for one seq at a time, but its calls may overlap. Each call runs
to its next await and waits there for an answer from outside: the placement, a
read in a worker thread, a clip, the liners or the stored cues. `itemMachine`
lets every call in flight be resumed in any order, with reports, placement and a
close between.
-/

namespace RetroStation.Streaming

inductive ItemError
  | unknownSession
  | sessionToken
  | unknownItem (seq : Nat)
  | endOfSchedule
  | readFailed
  | stream (error : StreamError)
  | missingKey (seq : Nat)
  | missingLiner
  deriving DecidableEq, Repr

/-- One call from a session's engine. -/
structure ItemCall where
  token : Option String
  seq : Nat
  deriving DecidableEq, Repr

structure StreamConfig where
  host : HostPaths
  timing : StreamTiming
  finalClip : Option FinalClip
  signOffDir : Option String
  linersDir : Option String
  nowPlayingDelay : Int

/-- Where a call waits. -/
inductive Pending
  | placement
  | landing (landing : Landing)
  | walk (previous : Slot)
  | clip
  | liners (song next : Assigned)
  | cues (following : Assigned)

/-- What reading the user's sign-off clip finds. -/
inductive SignOffRead
  | stored (fileName : String) (spanMs : Nat) (hspan : 0 < spanMs)
  | absent
  | malformed
  | failed

/-- What reading the station's liners finds. `unread` is a read that was busy,
late or refused, which plays no liner. -/
inductive LinersRead
  | answered (liners : List PlayableLiner)
  | unread
  | failed

/-- What a waiting call is resumed with. A failed thread is `readFails`. -/
inductive Answer
  | placed
  | timedOut
  | thread (readFails : Bool)
  | signOff (read : SignOffRead)
  | liners (read : LinersRead) (shuffle : List Uuid → List Uuid)
  | cues (answer : Option (Option CuePoints))

/-- A call either waits or is answered. -/
inductive Outcome
  | waits (pending : Pending)
  | answers (result : Except ItemError ItemPayload)

section

variable (config : StreamConfig) (loadDay : DayLoader)

/-- The session is in the table and the token is its own. -/
def authorised (session : StreamSession) (isOpen : Bool) (call : ItemCall) :
    Except ItemError Unit :=
  if !isOpen then .error .unknownSession
  else if call.token = some session.token then .ok ()
  else .error .sessionToken

def slotPayload (seq : Nat) (slot : Slot) : Except ItemError ItemPayload :=
  (payload config.host config.timing seq slot).mapError .stream

/-- The payload already assigned to `seq`; `none` when `seq` is the next one. -/
def served (session : StreamSession) (seq : Nat) : Except ItemError (Option ItemPayload) :=
  match session.assigned.get? seq with
  | some slot => (slotPayload config seq slot).map some
  | none =>
    match session.endSeq with
    | some endSeq =>
      if seq ≥ endSeq then .error .endOfSchedule
      else if seq ≠ session.assigned.size then .error (.unknownItem seq)
      else .ok none
    | none => if seq ≠ session.assigned.size then .error (.unknownItem seq) else .ok none

/-- Store the seq's assignment, unless a concurrent call already has. -/
def assign (session : StreamSession) (seq : Nat) (slot : Slot) :
    StreamSession × Except ItemError ItemPayload :=
  match served config session seq with
  | .error error => (session, .error error)
  | .ok (some sent) => (session, .ok sent)
  | .ok none =>
    match slotPayload config seq slot with
    | .error error => (session, .error error)
    | .ok sent => ({ session with assigned := session.assigned.set seq slot }, .ok sent)

/-- Record the end at `seq`; `none` is the end with no clip to play. -/
def endSchedule (session : StreamSession) (seq : Nat) (clip : Option FinalClip) :
    StreamSession × Except ItemError ItemPayload :=
  match served config session seq with
  | .error error => (session, .error error)
  | .ok (some sent) => (session, .ok sent)
  | .ok none =>
    match clip with
    | none => ({ session with endSeq := some seq }, .error .endOfSchedule)
    | some clip =>
      ({ session with assigned := session.assigned.set seq (.clip clip), endSeq := some (seq + 1) },
        .ok (finalPayload config.host seq clip))

/-- The clip that signs the station off: the user's, else the configured default.
A malformed setting plays no clip. -/
def finalClip (read : SignOffRead) : Except ItemError (Option FinalClip) :=
  match config.signOffDir with
  | none => .ok config.finalClip
  | some folder =>
    match read with
    | .failed => .error .readFailed
    | .malformed => .ok none
    | .absent => .ok config.finalClip
    | .stored fileName spanMs hspan =>
      .ok (some ⟨config.host.join folder fileName, spanMs, hspan⟩)

/-- The song the schedule goes on from: after a liner, the song it followed. -/
def walkedFrom : Slot → Option Assigned
  | .song assigned => some assigned
  | .liner slot => some slot.after
  | .clip _ => none

/-- The next playable item after `after`, from its top. -/
def following (after : ItemRef) : Except StreamError Assigned := do
  let ref ← nextItem loadDay config.timing after
  let item ← itemAt loadDay ref
  return ⟨ref, item, 0⟩

/-- Where the landing's item is read. -/
def landingAssigned (landing : Landing) : Except StreamError Assigned := do
  let item ← itemAt loadDay landing.ref
  return ⟨landing.ref, item, landing.offsetMs⟩

/-- A liner's file in its station's folder. -/
def linerPath (root : String) (stationId : Uuid) (fileName : String) : String :=
  config.host.join (config.host.join root (toString stationId)) fileName

/-- Whether a liner read is due after a song, and from which folder. -/
def linerDueAt (session : StreamSession) (seq : Nat) : Bool :=
  session.stationId.isSome && config.linersDir.isSome &&
    linerDue (songsSinceLiner session seq) session.linerCadence

/-- The seq's liner once the liners have been read; `none` plays the next song.
The rotation moves on only when this call stored the liner. -/
def linerAfter (session : StreamSession) (seq : Nat) (song next : Assigned)
    (liners : List PlayableLiner) (shuffle : List Uuid → List Uuid) :
    StreamSession × Option (Except ItemError ItemPayload) :=
  match served config session seq with
  | .error error => (session, some (.error error))
  | .ok (some sent) => (session, some (.ok sent))
  | .ok none =>
    match nextLiner session.linerRotation (liners.map PlayableLiner.linerId) shuffle with
    | (none, _) => (session, none)
    | (some picked, rotation) =>
      match liners.find? (fun liner => liner.linerId = picked),
        session.stationId, config.linersDir with
      | some liner, some stationId, some root =>
        let slot : LinerSlot := ⟨liner, linerPath config root stationId liner.fileName, song,
          sentSpanMs config.timing song, some next⟩
        let (stored, result) := assign config session seq (.liner slot)
        if stored.assigned.get? seq = some (.liner slot) then
          ({ stored with linerRotation := rotation }, some result)
        else (stored, some result)
      | _, _, _ => (session, some (.error .missingLiner))

/-- A later seq: first the walk from what was handed out before. -/
def afterLanding (session : StreamSession) (seq : Nat) : Outcome :=
  match session.assigned.get? (seq - 1) with
  | none => .answers (.error (.missingKey (seq - 1)))
  | some (.clip _) => .answers (.error .endOfSchedule)
  | some previous => .waits (.walk previous)

/-- A call up to its first await. -/
def item (session : StreamSession) (isOpen : Bool) (call : ItemCall) : Outcome :=
  match authorised session isOpen call with
  | .error error => .answers (.error error)
  | .ok () =>
    match served config session call.seq with
    | .error error => .answers (.error error)
    | .ok (some sent) => .answers (.ok sent)
    | .ok none => if call.seq = 0 then .waits .placement else afterLanding session call.seq

/-- A call from one await to its next. `none` is an answer to another question. -/
def resumed (session : StreamSession) (isOpen : Bool) (call : ItemCall) (pending : Pending)
    (answer : Answer) : Option (StreamSession × Outcome) :=
  let raises (error : ItemError) := some (session, Outcome.answers (.error error))
  match pending, answer with
  | .placement, .timedOut => raises (.unknownItem call.seq)
  | .placement, .placed =>
    if !session.placed then none
    else match authorised session isOpen call, session.landing with
      | .error error, _ => raises error
      | .ok (), none => raises (.unknownItem call.seq)
      | .ok (), some landing => some (session, .waits (.landing landing))
  | .landing landing, .thread readFails =>
    if readFails then raises .readFailed
    else match landingAssigned loadDay landing, authorised session isOpen call with
      | .error error, _ => raises (.stream error)
      | .ok _, .error error => raises error
      | .ok assigned, .ok () =>
        let (stored, result) := assign config session call.seq (.song assigned)
        some (stored, .answers result)
  | .walk previous, .thread readFails =>
    if readFails then raises .readFailed
    else match walkedFrom previous with
      | none => raises .endOfSchedule
      | some song =>
        match following config loadDay song.ref with
        | .error (.endOfSchedule _) => some (session, .waits .clip)
        | .error error => raises (.stream error)
        | .ok next =>
          match previous with
          | .song _ =>
            if linerDueAt config session call.seq then some (session, .waits (.liners song next))
            else some (session, .waits (.cues next))
          | _ => some (session, .waits (.cues next))
  | .clip, .signOff read =>
    match finalClip config read, authorised session isOpen call with
    | .error error, _ => raises error
    | .ok _, .error error => raises error
    | .ok clip, .ok () =>
      let (stored, result) := endSchedule config session call.seq clip
      some (stored, .answers result)
  | .liners song next, .liners read shuffle =>
    match read with
    | .failed => raises .readFailed
    | .unread | .answered _ =>
      let liners := match read with
        | .answered liners => liners
        | _ => []
      match authorised session isOpen call with
      | .error error => raises error
      | .ok () =>
        match linerAfter config session call.seq song next liners shuffle with
        | (stored, some result) => some (stored, .answers result)
        | (stored, none) => some (stored, .waits (.cues next))
  | .cues next, .cues answer =>
    match authorised session isOpen call with
    | .error error => raises error
    | .ok () =>
      let (stored, result) := assign config session call.seq
        (.song (reread config.timing next answer))
      some (stored, .answers result)
  | _, _ => none

/-! ## Reports -/

/-- The slot a report is about. -/
def reported (session : StreamSession) (seq : Nat) : Except ItemError Slot :=
  match session.assigned.get? seq with
  | some slot => .ok slot
  | none => .error (.unknownItem seq)

/-- Commit the position, never backwards, and time a song's title. -/
def started (session : StreamSession) (isOpen : Bool) (call : ItemCall) (elapsedNow : Int) :
    StreamSession × Except ItemError Unit :=
  match authorised session isOpen call, reported session call.seq with
  | .error error, _ => (session, .error error)
  | .ok (), .error error => (session, .error error)
  | .ok (), .ok slot =>
    let ahead := match session.committed with
      | some committed => decide (committed.seq < call.seq)
      | none => true
    if !ahead then (session, .ok ())
    else
      let committed := { session with committed := some ⟨call.seq, slot, elapsedNow⟩ }
      match slot with
      | .song assigned =>
        ({ committed with nowPlaying := some (elapsedNow + config.nowPlayingDelay,
            assigned.item.artist ++ " - " ++ assigned.item.title) }, .ok ())
      | _ => (committed, .ok ())

/-- Flag an item the engine could not play; a final clip's failure is remembered. -/
def failed (session : StreamSession) (isOpen : Bool) (call : ItemCall) :
    StreamSession × Except ItemError Unit :=
  match authorised session isOpen call, reported session call.seq with
  | .error error, _ => (session, .error error)
  | .ok (), .error error => (session, .error error)
  | .ok (), .ok slot =>
    match slot with
    | .clip _ => ({ session with finalFailed := true }, .ok ())
    | _ => (session, .ok ())

end

/-! ## The machine -/

structure SessionState where
  session : StreamSession
  isOpen : Bool
  inFlight : Dict Nat (ItemCall × Pending)

inductive SessionAction
  | place (schedule : Schedule) (live : Option LivePosition) (saved : Option SavedBookmark)
  | placeFails
  | request (id : Nat) (call : ItemCall)
  | resume (id : Nat) (answer : Answer)
  | started (call : ItemCall) (elapsedNow : Int)
  | failed (call : ItemCall)
  | close

/-- What an action says to its caller. -/
inductive Reply
  | silent
  | item (call : ItemCall) (result : Except ItemError ItemPayload)
  | report (call : ItemCall) (result : Except ItemError Unit)

namespace SessionState

/-- The state after a call has run to its next await. -/
def after (state : SessionState) (id : Nat) (call : ItemCall) (session : StreamSession) :
    Outcome → SessionState × Reply
  | .waits pending =>
    ({ state with session := session, inFlight := state.inFlight.set id (call, pending) }, .silent)
  | .answers result =>
    ({ state with session := session, inFlight := state.inFlight.erase id }, .item call result)

end SessionState

/-- The session's placement: it reads the session's own days, once. -/
def placedSession (session : StreamSession) (result : Except StreamError Placement) :
    StreamSession :=
  match result with
  | .ok placement => { session with
      landing := some placement.tuned.landing
      clockOffset := some placement.tuned.clockOffset
      placed := true }
  | .error _ => { session with placed := true }

/-- One session under every interleaving of its calls, reports, placement and close. -/
def itemMachine (config : StreamConfig) (loadDay : DayLoader) :
    Transition.Machine SessionState SessionAction Reply where
  step state action :=
    match action with
    | .place schedule live saved =>
      if state.session.placed then none
      else
        let schedule := { schedule with loadDay := loadDay, timing := config.timing }
        let placed := placedSession state.session (placeListener schedule live saved).result
        some ({ state with session := placed }, .silent)
    | .placeFails =>
      if state.session.placed then none
      else some ({ state with session := { state.session with placed := true } }, .silent)
    | .request id call =>
      match state.inFlight.get? id with
      | some _ => none
      | none =>
        some (state.after id call state.session (item config state.session state.isOpen call))
    | .resume id answer =>
      match state.inFlight.get? id with
      | none => none
      | some (call, pending) =>
        (resumed config loadDay state.session state.isOpen call pending answer).map
          fun (session, outcome) => state.after id call session outcome
    | .started call elapsedNow =>
      let (session, result) := started config state.session state.isOpen call elapsedNow
      some ({ state with session := session }, .report call result)
    | .failed call =>
      let (session, result) := failed state.session state.isOpen call
      some ({ state with session := session }, .report call result)
    | .close => some ({ state with isOpen := false }, .silent)

/-- A session as admission makes it. -/
def admitted (openedAt : Int) (bookmarkKey : Option BookmarkKey) (token : String)
    (stationId : Option Uuid) (linerCadence : Option LinerCadence) : SessionState where
  session := {
    openedAt := openedAt
    bookmarkKey := bookmarkKey
    token := token
    stationId := stationId
    linerCadence := linerCadence }
  isOpen := true
  inFlight := .empty

end RetroStation.Streaming
