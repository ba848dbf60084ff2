import Mathlib.Algebra.Order.Ring.Rat
import Mathlib.Logic.Function.Basic
import RetroStation.Transition.Run

/-! # The streaming thread of a session script

One engine process plays one listener's session: it fetches the next items, pushes
them onto three decks in turn and starts each at the start-next point of the one
before. Workers and timers only ring the bell; the synchronous callbacks of the
streaming thread own the playback state. The decks stand outside: a deck starts the
requests of its queue in order, if it starts them at all, and calls start-next for a
track it has started.
-/

namespace RetroStation.Playout.SessionScript

open Transition

/-- A reading of the clock, in seconds since the epoch. -/
abbrev Time := { seconds : Rat // 0 ≤ seconds }

/-- A push that has not started this long after has failed. -/
def playCheckS : Rat := 1

structure SessionConfig where
  /-- Whether there is an intro to play first. -/
  introSfx : Bool
  introFadeAt : Rat

/-- What the backend says of an item; a number left out is `none`. -/
structure Annotations where
  itemSeq : Option Nat
  snRem : Option Rat
  cueIn : Option Rat
  cueOut : Option Rat

structure Request where
  ticket : Nat
  annotations : Annotations

/-- The answer of one fetch: a resolved item, an unplayable one, the end of the schedule,
or none for now. -/
inductive FetchOutcome
  | item (request : Request)
  | skip
  | ended
  | retry

namespace FetchOutcome

def isItem : FetchOutcome → Bool
  | .item _ => true
  | _ => false

/-- The outcomes that move on to the next item. -/
def passes : FetchOutcome → Bool
  | .item _ | .skip => true
  | _ => false

end FetchOutcome

/-- What the one fetch worker has written. -/
structure FetchResult where
  ticket : Nat
  seq : Nat
  outcome : FetchOutcome

/-- A push not yet started. -/
structure Awaiting where
  seq : Nat
  pushedAt : Rat
  deck : Fin 3
  request : Request

structure Deck where
  queue : List Request := []
  /-- When the deck's current track ends. -/
  freeAt : Rat := 0
  snRem : Rat := 0
  fired : Bool := false
  /-- Whether a track has started on the deck. -/
  started : Bool := false

namespace Deck

def push (request : Request) (deck : Deck) : Deck := { deck with queue := deck.queue ++ [request] }

/-- The deck forgets the request, if it has not started it. -/
def remove (request : Request) (deck : Deck) : Deck :=
  { deck with queue := deck.queue.filter fun queued => queued.ticket ≠ request.ticket }

/-- The deck takes the next request off its queue. -/
def take (deck : Deck) : Deck := { deck with queue := deck.queue.tail }

/-- A track starts on the deck. -/
def start (snRem freeAt : Rat) (deck : Deck) : Deck :=
  { deck with snRem := snRem, fired := false, freeAt := freeAt, started := true }

/-- The deck's track hands over. -/
def handOver (deck : Deck) : Deck := { deck with fired := true, snRem := 0 }

end Deck

inductive Report
  | started (seq : Nat)
  | failed (seq : Nat)
deriving DecidableEq

def Report.seq : Report → Nat
  | .started seq | .failed seq => seq

/-- What has happened outside: the workers' answers and those taken in, the pushes, what
was reported of them, and the pushes made while another was awaited. -/
structure SessionLog where
  answered : List (Nat × FetchOutcome) := []
  absorbed : List (Nat × FetchOutcome) := []
  pushed : List Nat := []
  reports : List Report := []
  clashes : Nat := 0

structure SessionState where
  prefetched : List (Nat × Request) := []
  nextSeq : Nat := 0
  ended : Bool := false
  fetchTicket : Nat := 0
  absorbedTicket : Nat := 0
  fetchHeld : Bool := false
  fetchResult : FetchResult := ⟨0, 0, .retry⟩
  /-- The fetches in flight, each with its ticket. -/
  inFlight : List (Nat × Nat) := []
  nextDeck : Fin 3 := 0
  booted : Bool := false
  starved : Bool := false
  awaiting : Option Awaiting := none
  /-- Positive when every deck was busy: when the first frees up. -/
  deckWaitUntil : Rat := 0
  decks : Fin 3 → Deck := fun _ => {}
  /-- The deck of the track started last. -/
  newest : Option (Fin 3) := none
  introPushedAt : Option Rat := none
  introUnavailable : Bool := false
  closed : Bool := false
  log : SessionLog := {}

/-- The readings of one push: one for each deck asked, and that of the push. -/
structure PushClock where
  deck : Fin 3 → Time
  pushed : Time

/-- The readings of one pass through the decision point. -/
structure SettleClock where
  intro : Time
  boot : PushClock
  check : Time
  failed : PushClock
  wait : Time
  freed : PushClock
  resume : PushClock

namespace SessionState

variable (state : SessionState)

def onDeck (deck : Fin 3) (change : Deck → Deck) : SessionState :=
  { state with decks := Function.update state.decks deck (change (state.decks deck)) }

def report (report : Report) : SessionState :=
  { state with log := { state.log with reports := state.log.reports ++ [report] } }

/-! ## Pushing -/

/-- The deck the push waits on is taken even while idle. -/
def deckIsFree (now : Time) (deck : Fin 3) : Bool :=
  !(state.awaiting.any fun pushed => pushed.deck = deck) && (state.decks deck).freeAt ≤ now.val

/-- The next deck in turn that is free. -/
def freeDeck (clock : PushClock) : Option (Fin 3) :=
  [state.nextDeck, state.nextDeck + 1, state.nextDeck + 2].find? fun deck =>
    state.deckIsFree (clock.deck deck) deck

def waitForAFreeDeck : SessionState :=
  let soonest := min (min (state.decks 0).freeAt (state.decks 1).freeAt) (state.decks 2).freeAt
  { state with deckWaitUntil := soonest }

/-- Push the oldest prefetched item onto the next free deck. -/
def pushTo (deck : Fin 3) (now : Time) (seq : Nat) (request : Request)
    (rest : List (Nat × Request)) : SessionState :=
  { state.onDeck deck (.push request) with
    prefetched := rest
    nextDeck := deck + 1
    starved := false
    deckWaitUntil := 0
    awaiting := some ⟨seq, now.val, deck, request⟩
    log := { state.log with pushed := state.log.pushed ++ [seq] } }

def pushNext (clock : PushClock) : SessionState :=
  let clashes := state.log.clashes + (if state.awaiting.isSome then 1 else 0)
  let state := { state with log := { state.log with clashes := clashes } }
  match state.prefetched, state.freeDeck clock with
  | [], _ => { state with deckWaitUntil := 0, starved := true }
  | _ :: _, none => { state with starved := false }.waitForAFreeDeck
  | (seq, request) :: rest, some deck => state.pushTo deck clock.pushed seq request rest

def boot (clock : PushClock) : SessionState :=
  if state.booted then state else { state with booted := true }.pushNext clock

/-! ## The decision point -/

def absorbFetchResult : SessionState :=
  let ⟨ticket, seq, outcome⟩ := state.fetchResult
  if ticket > state.absorbedTicket then
    let state :=
      { state with
        absorbedTicket := ticket
        log := { state.log with absorbed := state.log.absorbed ++ [(seq, outcome)] } }
    match outcome with
    | .item request =>
      { state with prefetched := state.prefetched ++ [(seq, request)], nextSeq := seq + 1 }
    | .skip => { state with nextSeq := seq + 1 }
    | .ended => { state with ended := true }
    | .retry => { state with fetchHeld := true }
  else state

/-- The first song starts some way into the intro; without a playable one, at once. -/
def bootUnlessIntroPlays (config : SessionConfig) (clock : SettleClock) : SessionState :=
  if state.booted then state
  else if !config.introSfx then state.boot clock.boot
  else if state.introUnavailable then state.boot clock.boot
  else match state.introPushedAt with
  | some pushedAt =>
    if clock.intro.val ≥ pushedAt + config.introFadeAt + playCheckS then state.boot clock.boot
    else state
  | none => state

/-- A file that resolved can still fail when its deck opens it: report it and play the
next item instead. -/
def failPushThatNeverStarted (clock : SettleClock) : SessionState :=
  match state.awaiting with
  | some pushed =>
    if clock.check.val ≥ pushed.pushedAt + playCheckS then
      (({ state with awaiting := none }.onDeck pushed.deck (.remove pushed.request)).report
        (.failed pushed.seq)).pushNext clock.failed
    else state
  | none => state

def pushWhenADeckFrees (clock : SettleClock) : SessionState :=
  if state.deckWaitUntil > 0 ∧ clock.wait.val ≥ state.deckWaitUntil then
    state.pushNext clock.freed
  else state

def resume (clock : SettleClock) : SessionState :=
  if state.booted ∧ state.starved ∧ state.prefetched ≠ [] then state.pushNext clock.resume
  else state

def fetchMore : SessionState :=
  if state.fetchTicket = state.absorbedTicket ∧ ¬state.fetchHeld ∧ ¬state.ended ∧
      state.prefetched.length < 2 then
    { state with
      fetchTicket := state.fetchTicket + 1
      inFlight := state.inFlight ++ [(state.fetchTicket + 1, state.nextSeq)] }
  else state

/-- The streaming thread's one decision point. -/
def settle (config : SessionConfig) (clock : SettleClock) : SessionState :=
  let state := state.absorbFetchResult
  let state := state.bootUnlessIntroPlays config clock
  let state := state.failPushThatNeverStarted clock
  let state := state.pushWhenADeckFrees clock
  let state := state.resume clock
  state.fetchMore

/-- A deck start or a filler boundary lets a held fetch try the backend again. -/
def retryFetch (config : SessionConfig) (clock : SettleClock) : SessionState :=
  { state with fetchHeld := false }.settle config clock

/-! ## The callbacks -/

/-- How long a track that starts now keeps its deck busy. -/
def trackSpan (annotations : Annotations) (remaining : Rat) : Rat :=
  match annotations.cueOut with
  | none => max 0 remaining
  | some cueOut => cueOut - annotations.cueIn.getD 0

/-- A track starts on its deck: a push that awaited it awaits no more. -/
def trackStarted (deck : Fin 3) (now : Time) (remaining : Rat) (annotations : Annotations) :
    SessionState :=
  let freeAt := now.val + trackSpan annotations remaining
  let state := { state.onDeck deck (.start (annotations.snRem.getD 0) freeAt) with
    newest := some deck
    awaiting := state.awaiting.filter fun pushed =>
      annotations.itemSeq.any fun itemSeq => itemSeq ≠ pushed.seq }
  match annotations.itemSeq with
  | some itemSeq => state.report (.started itemSeq)
  | none => state

end SessionState

inductive SessionAction
  | bell (clock : SettleClock)
  | deckStarts (deck : Fin 3) (now : Time) (remaining : Rat) (clock : SettleClock)
  /-- The deck cannot open the next request of its queue. -/
  | deckDrops (deck : Fin 3)
  | startNext (deck : Fin 3) (clock : PushClock)
  | fillerBoundary (clock : SettleClock)
  | introPushed (now : Time)
  | introUnavailable
  | introPosition (clock : PushClock)
  | answers (outcome : FetchOutcome)

/-- The backend annotates an item with the seq it was asked for. -/
def FetchOutcome.annotated (seq : Nat) : FetchOutcome → Bool
  | .item request => request.annotations.itemSeq = some seq
  | _ => true

open SessionState in
/-- One callback of the streaming thread, or one write of a worker. -/
def sessionStep (config : SessionConfig) (state : SessionState) :
    SessionAction → Option (SessionState × Unit)
  | .bell clock => some (state.settle config clock, ())
  | .deckStarts deck now remaining clock =>
    match (state.decks deck).queue with
    | request :: _ =>
      some (((state.onDeck deck .take).trackStarted deck now remaining
        request.annotations).retryFetch config clock, ())
    | [] => none
  | .deckDrops deck =>
    match (state.decks deck).queue with
    | _ :: _ => some (state.onDeck deck .take, ())
    | [] => none
  | .startNext deck clock =>
    if (state.decks deck).started then
      if (state.decks deck).fired then some (state, ())
      else some ((state.onDeck deck .handOver).pushNext clock, ())
    else none
  | .fillerBoundary clock =>
    if state.ended ∧ state.prefetched = [] ∧ state.awaiting.isNone then
      some ({ state with closed := true }, ())
    else some (state.retryFetch config clock, ())
  | .introPushed now => some ({ state with introPushedAt := some now.val }, ())
  | .introUnavailable => some ({ state with introUnavailable := true }, ())
  | .introPosition clock => some (state.boot clock, ())
  | .answers outcome =>
    match state.inFlight with
    | (ticket, seq) :: rest =>
      if outcome.annotated seq then
        some ({ state with
          inFlight := rest
          fetchResult := ⟨ticket, seq, outcome⟩
          log := { state.log with answered := state.log.answered ++ [(seq, outcome)] } }, ())
      else none
    | [] => none

def sessionMachine (config : SessionConfig) : Machine SessionState SessionAction Unit :=
  ⟨sessionStep config⟩

/-! ## A short session -/

def second (count : Nat) : Time := ⟨count, Rat.natCast_nonneg⟩

/-- Every reading is the same. -/
def pushAt (count : Nat) : PushClock := ⟨fun _ => second count, second count⟩

def clockAt (count : Nat) : SettleClock where
  intro := second count
  boot := pushAt count
  check := second count
  failed := pushAt count
  wait := second count
  freed := pushAt count
  resume := pushAt count

def threeMinutes (seq : Nat) : Request :=
  ⟨seq, ⟨some seq, some 5, some 0, some 180⟩⟩

/-- The first song starts and hands over, the second fails to start, the third follows. -/
def twoSongs : List SessionAction :=
  [.bell (clockAt 0), .answers (.item (threeMinutes 0)), .bell (clockAt 1),
    .deckStarts 0 (second 1) 180 (clockAt 1), .answers (.item (threeMinutes 1)),
    .bell (clockAt 2), .answers .skip, .bell (clockAt 3), .answers (.item (threeMinutes 3)),
    .bell (clockAt 4), .startNext 0 (pushAt 176), .deckDrops 1, .bell (clockAt 178),
    .deckStarts 2 (second 178) 180 (clockAt 178)]

end RetroStation.Playout.SessionScript
