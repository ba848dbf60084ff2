import Mathlib.Data.List.Pairwise
import RetroStation.Streaming.Session

/-! # One subscription's mailbox

A mailbox queues the statuses told to it, and beside the queue holds at most one
title that waits for its delay. Its reader may be suspended in a wait while
statuses and titles arrive.
-/

namespace RetroStation.Streaming

/-- A song as it is told. `serial` stands for the object's identity: the call of
the feed that told it. -/
structure NowPlaying where
  serial : Nat
  artist : String
  title : String
  deriving DecidableEq, Repr

/-- A change in the stream's state, numbered as a title is. -/
structure Status where
  serial : Nat
  kind : StatusKind
  deriving DecidableEq, Repr

inductive ListenerEvent
  | nowPlaying (title : NowPlaying)
  | status (status : Status)
  deriving DecidableEq, Repr

/-- A title waiting to be told: it shows at `showsAt` on the elapsed clock. -/
structure Held where
  title : NowPlaying
  showsAt : Int
  deriving DecidableEq, Repr

/-- Events one subscription may hold unread; one more and it is disconnected. -/
def pendingLimit : Nat := 16

/-- Where a subscription's reader is. A wait keeps the title it started its
sleep for; `settling` is the end of the wait, while its sleep is cancelled. -/
inductive Reader
  | idle
  | waiting (held : Option Held) (woken slept : Bool)
  | settling (held : Option Held) (slept cancelled : Bool)
  deriving DecidableEq, Repr

structure Mailbox where
  queue : List ListenerEvent := []
  held : Option Held := none
  isShut : Bool := false
  reader : Reader := .idle
  deriving DecidableEq, Repr

namespace Mailbox

/-- How many events are held unread, the waiting title included. -/
def backlog (mailbox : Mailbox) : Nat :=
  mailbox.queue.length + if mailbox.held.isSome then 1 else 0

/-- Wake the reader, if it waits. -/
def wake (mailbox : Mailbox) : Mailbox :=
  match mailbox.reader with
  | .waiting held _ slept => { mailbox with reader := .waiting held true slept }
  | _ => mailbox

/-- A refusal: told at once, and the waiting title stays. -/
def tell (mailbox : Mailbox) (status : Status) : Mailbox :=
  wake { mailbox with queue := mailbox.queue ++ [.status status] }

/-- Replace the waiting title, which is told first if its delay has passed. -/
def replaceTitle (mailbox : Mailbox) (elapsedNow : Int) (held : Option Held) : Mailbox :=
  match mailbox.held with
  | some old =>
    if old.showsAt ≤ elapsedNow then
      { mailbox with queue := mailbox.queue ++ [.nowPlaying old.title], held := held }
    else { mailbox with held := held }
  | none => { mailbox with held := held }

/-- A status that ends the current title. -/
def supersede (mailbox : Mailbox) (elapsedNow : Int) (status : Status) : Mailbox :=
  (mailbox.replaceTitle elapsedNow none).tell status

/-- A newer title: it replaces the waiting one. -/
def hold (mailbox : Mailbox) (elapsedNow : Int) (held : Held) : Mailbox :=
  (mailbox.replaceTitle elapsedNow (some held)).wake

/-- The subscription is over: anything unread is dropped and the reader ends. -/
def shut (mailbox : Mailbox) : Mailbox :=
  wake { mailbox with queue := [], held := none, isShut := true }

/-- The next event that may be told now, removed from the mailbox. -/
def take (mailbox : Mailbox) (elapsedNow : Int) : Mailbox × Option ListenerEvent :=
  match mailbox.queue with
  | event :: rest => ({ mailbox with queue := rest }, some event)
  | [] =>
    match mailbox.held with
    | some held =>
      if held.showsAt ≤ elapsedNow then
        ({ mailbox with held := none }, some (.nowPlaying held.title))
      else (mailbox, none)
    | none => (mailbox, none)

end Mailbox

/-! ## Deliveries -/

/-- What the feed delivers to every subscription of a channel. -/
inductive Delivery
  | tell (status : Status)
  | supersede (status : Status)
  | hold (held : Held)
  deriving DecidableEq, Repr

namespace Delivery

def serial : Delivery → Nat
  | .tell status | .supersede status => status.serial
  | .hold held => held.title.serial

def status? : Delivery → Option Status
  | .tell status | .supersede status => some status
  | .hold _ => none

end Delivery

namespace Mailbox

def deliver (mailbox : Mailbox) (elapsedNow : Int) : Delivery → Mailbox
  | .tell status => mailbox.tell status
  | .supersede status => mailbox.supersede elapsedNow status
  | .hold held => mailbox.hold elapsedNow held

/-- A delivery, which disconnects a subscription left too far behind. -/
def delivered (mailbox : Mailbox) (elapsedNow : Int) (delivery : Delivery) : Mailbox :=
  let mailbox := mailbox.deliver elapsedNow delivery
  if mailbox.backlog > pendingLimit then mailbox.shut else mailbox

end Mailbox

/-! ## The reader -/

/-- What a reader can do: ask for the next event, have its sleep end, wake from
its wait, finish the wait, or be cancelled. -/
inductive ReaderAction
  | next | sleepEnds | wakes | settles | cancels
  deriving DecidableEq, Repr

inductive ReaderReply
  | waits
  | told (event : ListenerEvent)
  | over
  | cancelled
  deriving DecidableEq, Repr

namespace Mailbox

/-- One turn of the reader's loop: an event, the end, or a new wait. -/
def turn (mailbox : Mailbox) (elapsedNow : Int) : Mailbox × ReaderReply :=
  if mailbox.isShut then ({ mailbox with reader := .idle }, .over)
  else
    match mailbox.take elapsedNow with
    | (taken, some event) => ({ taken with reader := .idle }, .told event)
    | (taken, none) => ({ taken with reader := .waiting taken.held false false }, .waits)

/-- The end of a wait whose sleep ran its full length: its title is told, if it
still waits. -/
def overslept (mailbox : Mailbox) (held : Option Held) (slept : Bool) : Mailbox :=
  match held with
  | some held =>
    if slept && decide (mailbox.held = some held) then
      { mailbox with queue := mailbox.queue ++ [.nowPlaying held.title], held := none }
    else mailbox
  | none => mailbox

/-- A sleep ends no earlier than its title shows. -/
def readerStep (mailbox : Mailbox) (elapsedNow : Int) :
    ReaderAction → Option (Mailbox × ReaderReply)
  | .next =>
    match mailbox.reader with
    | .idle => some (mailbox.turn elapsedNow)
    | _ => none
  | .sleepEnds =>
    match mailbox.reader with
    | .waiting (some held) woken _ =>
      if held.showsAt ≤ elapsedNow then
        some ({ mailbox with reader := .waiting (some held) woken true }, .waits)
      else none
    | .settling (some held) _ cancelled =>
      if held.showsAt ≤ elapsedNow then
        some ({ mailbox with reader := .settling (some held) true cancelled }, .waits)
      else none
    | _ => none
  | .wakes =>
    match mailbox.reader with
    | .waiting held woken slept =>
      if woken || slept then
        some ({ mailbox with reader := .settling held slept false }, .waits)
      else none
    | _ => none
  | .settles =>
    match mailbox.reader with
    | .settling held slept cancelled =>
      if cancelled then some ({ mailbox with reader := .idle }, .cancelled)
      else some ((mailbox.overslept held slept).turn elapsedNow)
    | _ => none
  | .cancels =>
    match mailbox.reader with
    | .waiting held _ slept | .settling held slept _ =>
      some ({ mailbox with reader := .settling held slept true }, .waits)
    | .idle => none

end Mailbox

end RetroStation.Streaming
