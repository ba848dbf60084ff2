import RetroStation.Dict.Basic
import RetroStation.Streaming.Placement

/-! # A stream session

What one listener's session remembers: the landing, what each seq was handed
out, what has started, and the end of the schedule.
-/

namespace RetroStation.Streaming

/-- What a listener's channel is told about its stream. -/
inductive StatusKind
  | tuning | noBroadcast | busy | unavailable | ended | stopped
  deriving DecidableEq, Repr

/-- The position a `started` report has confirmed, with when it started. -/
structure Committed where
  seq : Nat
  slot : Slot
  startedAt : Int
  deriving DecidableEq, Repr

/-- One listener's mutable state. The day loader is fixed for the session. -/
structure StreamSession where
  openedAt : Int
  bookmarkKey : Option BookmarkKey
  token : String
  stationId : Option Uuid
  linerCadence : Option LinerCadence
  landing : Option Landing := none
  clockOffset : Option Int := none
  placed : Bool := false
  assigned : Dict Nat Slot := .empty
  committed : Option Committed := none
  endSeq : Option Nat := none
  finalFailed : Bool := false
  nowPlaying : Option (Int × String) := none
  linerRotation : LinerRotation := {}

/-- The schedule has ended and its last item that can play has started: the last
assigned one or, when the final clip failed, the one before it. -/
def scheduleFinished (session : StreamSession) : Bool :=
  match session.endSeq, session.committed with
  | some endSeq, some committed =>
    let lastToPlay : Int := endSeq - (if session.finalFailed then 2 else 1)
    (committed.seq : Int) ≥ lastToPlay
  | _, _ => false

/-- The committed song and how much of it has played. During a liner it is the
song walked to after the one before, with nothing of it heard. -/
def songHeard (committed : Committed) (elapsedNow : Int) : Option (Assigned × Int) :=
  match committed.slot with
  | .liner slot =>
    match slot.nextSong with
    | some nextSong => some (nextSong, 0)
    | none => some (slot.after, slot.afterSpanMs * 1000)
  | .song assigned => some (assigned, elapsedNow - committed.startedAt)
  | .clip _ => none

/-- The songs handed out before `beforeSeq` since the session's last liner. -/
def songsSinceLiner (session : StreamSession) (beforeSeq : Nat) : Nat :=
  (List.range beforeSeq).foldl (fun count seq =>
    match session.assigned.get? seq with
    | some (.liner _) => 0
    | some (.song _) => count + 1
    | _ => count) 0

/-- The session's position, unless it has none to resume from. -/
def livePosition (sessionId : Uuid) (session : StreamSession) (elapsedNow : Int) :
    Option LivePosition :=
  match session.committed, session.clockOffset with
  | some committed, some clockOffset =>
    if scheduleFinished session then none
    else (songHeard committed elapsedNow).map fun (song, played) =>
      ⟨sessionId, ⟨song.ref, song.offsetMs⟩, song.item.eventId, played, clockOffset⟩
  | _, _ => none

/-- The live position of the channel's newest open session that has one. -/
def newestLivePosition (sessions : Dict Uuid StreamSession) (channel : BookmarkKey)
    (elapsedNow : Int) : Option LivePosition :=
  sessions.entries.reverse.findSome? fun (sessionId, session) =>
    if session.bookmarkKey = some channel then livePosition sessionId session elapsedNow else none

/-- The landing's play: seq 0's item once it was sent, else the day's. -/
def landingItem (loadDay : DayLoader) (session : StreamSession) (landing : Landing) :
    Except StreamError ScheduleItem :=
  match session.assigned.get? 0 with
  | some (.song first) => .ok first.item
  | _ => itemAt loadDay landing.ref

/-- Where the listener was: the committed item plus the time it has played, or
the landing when nothing has started. -/
def leftAt (loadDay : DayLoader) (session : StreamSession) (hasEngine : Bool)
    (wallNow elapsedNow : Int) : Except StreamError (Option SavedBookmark) := do
  match hasEngine, session.clockOffset, session.landing with
  | true, some clockOffset, some landing =>
    match session.committed.bind fun committed => songHeard committed elapsedNow with
    | some (song, played) =>
      let landing := (⟨song.ref, song.offsetMs⟩ : Landing).advancedBy played
      return some ⟨⟨landing, song.item.loggedAt, wallNow, clockOffset⟩, song.item.eventId,
        some elapsedNow⟩
    | none =>
      let item ← landingItem loadDay session landing
      return some ⟨⟨landing, item.loggedAt, wallNow, clockOffset⟩, item.eventId,
        some elapsedNow⟩
  | _, _, _ => return none

/-- What closing a session tells its channel, and the bookmarks after it. A
keyless session tells no one and keeps nothing. -/
def closing (loadDay : DayLoader) (session : StreamSession) (hasEngine : Bool)
    (wallNow elapsedNow : Int) (bookmarks : Dict BookmarkKey SavedBookmark) :
    Except StreamError (Option StatusKind × Dict BookmarkKey SavedBookmark) := do
  match session.bookmarkKey with
  | none => return (none, bookmarks)
  | some key =>
    if scheduleFinished session then return (some .ended, bookmarks.erase key)
    else
      match ← leftAt loadDay session hasEngine wallNow elapsedNow with
      | some saved => return (some .stopped, bookmarks.set key saved)
      | none => return (some .stopped, bookmarks)

/-- How long an item plays as sent: its span from the offset, or the rest of the
file when its cues are dropped. -/
def sentSpanMs (timing : StreamTiming) (assigned : Assigned) : Int :=
  match assigned.item.file with
  | none => 0 - assigned.offsetMs
  | some file =>
    match file.cues with
    | some cues =>
      if (file.cuesToPlay assigned.offsetMs timing).isNone then
        file.durationMs.getD 0 - cues.cueInMs - assigned.offsetMs
      else file.spanMs - assigned.offsetMs
    | none => file.spanMs - assigned.offsetMs

/-! ## What was handed out -/

namespace StreamSession

/-- Everything handed out, in seq order. -/
def handedOut (session : StreamSession) : List Slot := session.assigned.values

/-- The seqs handed out are consecutive, from 0. -/
def Consecutive (session : StreamSession) : Prop :=
  session.assigned.keys = List.range session.assigned.size

end StreamSession

end RetroStation.Streaming
