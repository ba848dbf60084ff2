import Mathlib.Data.List.Nodup
import RetroStation.Transition.Run

/-! # The shared progress feed

One task polls for every connected client. It parks while nobody listens, sleeps an
interval after each poll unless a new client wakes it, and puts the newest item in each
client's queue of one place. The actions are what the event loop may run next: a piece of
the polling task between two awaits, a client's endpoint, or the clock.
-/

namespace RetroStation.Progress

open Transition

variable {Frame : Type}

/-- What `poll` is caught raising. -/
inductive PollError
  | poolTimeout
  | tooManyRequests
  | database
deriving DecidableEq, Repr

/-- How a poll ends. `bug` is any exception that `_poll_once` does not catch. -/
inductive PollResult (Frame : Type)
  | frame (frame : Frame)
  | failed (error : PollError)
  | bug

structure FeedClosed where
  code : Nat
  reason : String
deriving DecidableEq, Repr

inductive FeedItem (Frame : Type)
  | frame (frame : Frame)
  | closed (closed : FeedClosed)
deriving DecidableEq, Repr

def failure : PollError → FeedClosed
  | .poolTimeout | .tooManyRequests => ⟨1013, "Database pool saturated"⟩
  | .database => ⟨1011, "Database unavailable"⟩

def pollOnce : PollResult Frame → Option (FeedItem Frame)
  | .frame frame => some (.frame frame)
  | .failed error => some (.closed (failure error))
  | .bug => none

/-- Where the endpoint of a client stands. -/
inductive Endpoint
  | getting
  | sending
  | closing
deriving DecidableEq, Repr

structure Subscriber (Frame : Type) where
  id : Nat
  firstPoll : Nat
  /-- The queue, which has one place. -/
  items : Option (FeedItem Frame) := none
  endpoint : Endpoint := .getting
deriving Repr

namespace Subscriber

/-- The queue's one place holds the newest item. -/
def offer (item : FeedItem Frame) (subscriber : Subscriber Frame) : Subscriber Frame :=
  { subscriber with items := some item }

/-- One turn of the loop over the subscribers. -/
def offerPoll (pollNumber : Nat) (item : FeedItem Frame) (subscriber : Subscriber Frame) :
    Subscriber Frame :=
  if pollNumber ≥ subscriber.firstPoll then subscriber.offer item else subscriber

def take (item : FeedItem Frame) (subscriber : Subscriber Frame) : Subscriber Frame :=
  { subscriber with
    items := none
    endpoint := match item with
      | .frame _ => .sending
      | .closed _ => .closing }

@[simp] theorem offerPoll_id (pollNumber : Nat) (item : FeedItem Frame)
    (subscriber : Subscriber Frame) :
    (subscriber.offerPoll pollNumber item).id = subscriber.id := by
  unfold offerPoll
  split <;> rfl

@[simp] theorem offerPoll_firstPoll (pollNumber : Nat) (item : FeedItem Frame)
    (subscriber : Subscriber Frame) :
    (subscriber.offerPoll pollNumber item).firstPoll = subscriber.firstPoll := by
  unfold offerPoll
  split <;> rfl

@[simp] theorem offerPoll_endpoint (pollNumber : Nat) (item : FeedItem Frame)
    (subscriber : Subscriber Frame) :
    (subscriber.offerPoll pollNumber item).endpoint = subscriber.endpoint := by
  unfold offerPoll
  split <;> rfl

end Subscriber

/-- Where the polling task waits. -/
inductive Poller
  | created
  | parked
  | polling (pollNumber : Nat)
  | sleeping
  | ended
deriving DecidableEq, Repr

structure ProgressFeed (Frame : Type) where
  subscribers : List (Subscriber Frame) := []
  pollsStarted : Nat := 0
  wake : Bool := false
  task : Poller := .created
  /-- The identity of the next subscription. -/
  joined : Nat := 0
deriving Repr

inductive Action (Frame : Type)
  /-- The task runs for the first time. -/
  | starts
  /-- The event that the task waits for is set. -/
  | wakes
  /-- The interval has run out. -/
  | timesOut
  | returns (result : PollResult Frame)
  | stop
  | joins
  | takes (id : Nat)
  | sent (id : Nat)
  | leaves (id : Nat)

inductive Said (Frame : Type)
  | parked
  | began (pollNumber : Nat)
  | offered (pollNumber : Nat) (item : FeedItem Frame)
  | crashed
  | stopped
  | joined (id : Nat)
  | took (item : FeedItem Frame)
  | sent
  | left

namespace ProgressFeed

def beginPoll (feed : ProgressFeed Frame) : ProgressFeed Frame × Said Frame :=
  let pollNumber := feed.pollsStarted + 1
  ({ feed with wake := false, pollsStarted := pollNumber, task := .polling pollNumber },
    .began pollNumber)

/-- The head of the loop. Waiting for an event that is already set does not wait. -/
def turn (feed : ProgressFeed Frame) : ProgressFeed Frame × Said Frame :=
  if feed.subscribers.isEmpty ∧ ¬ feed.wake then ({ feed with task := .parked }, .parked)
  else feed.beginPoll

def update (feed : ProgressFeed Frame) (id : Nat)
    (change : Subscriber Frame → Subscriber Frame) : ProgressFeed Frame :=
  { feed with
    subscribers := feed.subscribers.map fun subscriber =>
      if subscriber.id = id then change subscriber else subscriber }

def find? (feed : ProgressFeed Frame) (id : Nat) : Option (Subscriber Frame) :=
  feed.subscribers.find? fun subscriber => subscriber.id = id

/-- What the task does with the poll it awaited. -/
def polled (feed : ProgressFeed Frame) (pollNumber : Nat) (result : PollResult Frame) :
    ProgressFeed Frame × Said Frame :=
  match pollOnce result with
  | none => ({ feed with task := .ended }, .crashed)
  | some item =>
    ({ feed with
        subscribers := feed.subscribers.map (Subscriber.offerPoll pollNumber item)
        task := .sleeping },
      .offered pollNumber item)

def subscribe (feed : ProgressFeed Frame) : ProgressFeed Frame × Said Frame :=
  ({ feed with
      subscribers := feed.subscribers ++
        [{ id := feed.joined, firstPoll := feed.pollsStarted + 1 }]
      wake := true
      joined := feed.joined + 1 },
    .joined feed.joined)

def step (feed : ProgressFeed Frame) : Action Frame → Option (ProgressFeed Frame × Said Frame)
  | .starts => if feed.task = .created then some feed.turn else none
  | .wakes =>
    match feed.task with
    | .parked => if feed.wake then some feed.beginPoll else none
    | .sleeping => if feed.wake then some feed.turn else none
    | _ => none
  | .timesOut => if feed.task = .sleeping then some feed.turn else none
  | .returns result =>
    match feed.task with
    | .polling pollNumber => some (feed.polled pollNumber result)
    | _ => none
  | .stop => if feed.task = .ended then none else some ({ feed with task := .ended }, .stopped)
  | .joins => some feed.subscribe
  | .takes id =>
    match feed.find? id with
    | some { endpoint := .getting, items := some item, .. } =>
      some (feed.update id (Subscriber.take item), .took item)
    | _ => none
  | .sent id =>
    match feed.find? id with
    | some { endpoint := .sending, .. } =>
      some (feed.update id ({ · with endpoint := .getting }), .sent)
    | _ => none
  | .leaves id =>
    match feed.find? id with
    | some _ =>
      some ({ feed with
        subscribers := feed.subscribers.filter fun subscriber => subscriber.id ≠ id }, .left)
    | none => none

def machine : Machine (ProgressFeed Frame) (Action Frame) (Said Frame) := ⟨step⟩

end ProgressFeed

end RetroStation.Progress

/-! ## The steps of the progress feed

What a step can do, said once. Every fact about runs is read off these cases.
-/

namespace RetroStation.Progress

open Transition

variable {Frame : Type}

/-- The task is resumed at the head of its loop, or on the way to it. -/
def Action.resumes : Action Frame → Bool
  | .starts | .wakes | .timesOut => true
  | _ => false

namespace ProgressFeed

/-- The steps, by what they say. -/
inductive Step (feed : ProgressFeed Frame) :
    Action Frame → ProgressFeed Frame → Said Frame → Prop
  | parks {action : Action Frame} (hresumes : action.resumes) (hnobody : feed.subscribers = [])
      (hwake : feed.wake = false) :
      Step feed action { feed with task := .parked } .parked
  | begins {action : Action Frame} (hresumes : action.resumes)
      (hcause : feed.wake = true ∨
        feed.subscribers ≠ [] ∧ (feed.task = .created ∨ action = .timesOut)) :
      Step feed action feed.beginPoll.1 feed.beginPoll.2
  | offers {pollNumber : Nat} {item : FeedItem Frame} {result : PollResult Frame}
      (htask : feed.task = .polling pollNumber) (hitem : pollOnce result = some item) :
      Step feed (.returns result)
        { feed with
          subscribers := feed.subscribers.map (Subscriber.offerPoll pollNumber item)
          task := .sleeping }
        (.offered pollNumber item)
  | crashes : Step feed (.returns .bug) { feed with task := .ended } .crashed
  | stops : Step feed .stop { feed with task := .ended } .stopped
  | joins : Step feed .joins feed.subscribe.1 feed.subscribe.2
  | takes {id : Nat} {subscriber : Subscriber Frame} {item : FeedItem Frame}
      (hfind : feed.find? id = some subscriber) (hitem : subscriber.items = some item)
      (hgetting : subscriber.endpoint = .getting) :
      Step feed (.takes id) (feed.update id (Subscriber.take item)) (.took item)
  | sends {id : Nat} {subscriber : Subscriber Frame} (hfind : feed.find? id = some subscriber)
      (hsending : subscriber.endpoint = .sending) :
      Step feed (.sent id) (feed.update id ({ · with endpoint := .getting })) .sent
  | leaves {id : Nat} :
      Step feed (.leaves id) { feed with
        subscribers := feed.subscribers.filter fun subscriber => subscriber.id ≠ id } .left

theorem turn_step {feed : ProgressFeed Frame} {action : Action Frame}
    (hresumes : action.resumes)
    (hcause : feed.task = .created ∨ action = .timesOut ∨ feed.wake = true) :
    Step feed action feed.turn.1 feed.turn.2 := by
  unfold turn
  split
  next hidle =>
    simp only [List.isEmpty_iff, Bool.not_eq_true] at hidle
    exact .parks hresumes hidle.1 hidle.2
  next hbusy =>
    simp only [List.isEmpty_iff, Bool.not_eq_true, not_and, Bool.not_eq_false] at hbusy
    by_cases hwake : feed.wake = true
    · exact .begins hresumes (.inl hwake)
    · refine .begins hresumes (.inr ⟨fun hnobody => hwake (hbusy hnobody), ?_⟩)
      rcases hcause with hcreated | htimesOut | hset
      · exact .inl hcreated
      · exact .inr htimesOut
      · exact absurd hset hwake

theorem step_cases {feed next : ProgressFeed Frame} {action : Action Frame} {said : Said Frame}
    (hstep : machine.step feed action = some (next, said)) : Step feed action next said := by
  change feed.step action = some (next, said) at hstep
  cases action with
  | starts =>
      simp only [step, Option.ite_none_right_eq_some, Option.some.injEq] at hstep
      obtain ⟨hcreated, hturn⟩ := hstep
      have hturned : Step feed .starts feed.turn.1 feed.turn.2 := turn_step rfl (.inl hcreated)
      rwa [hturn] at hturned
  | wakes =>
      simp only [step] at hstep
      split at hstep
      · simp only [Option.ite_none_right_eq_some, Option.some.injEq] at hstep
        obtain ⟨hwake, hbegin⟩ := hstep
        have hbegun : Step feed .wakes feed.beginPoll.1 feed.beginPoll.2 := .begins rfl (.inl hwake)
        rwa [hbegin] at hbegun
      · simp only [Option.ite_none_right_eq_some, Option.some.injEq] at hstep
        obtain ⟨hwake, hturn⟩ := hstep
        have hturned : Step feed .wakes feed.turn.1 feed.turn.2 :=
          turn_step rfl (.inr (.inr hwake))
        rwa [hturn] at hturned
      · cases hstep
  -- The wait times out whatever set it, so only the turn that follows matters.
  | timesOut =>
      simp only [step, Option.ite_none_right_eq_some, Option.some.injEq] at hstep
      obtain ⟨-, hturn⟩ := hstep
      have hturned : Step feed .timesOut feed.turn.1 feed.turn.2 :=
        turn_step rfl (.inr (.inl rfl))
      rwa [hturn] at hturned
  | returns result =>
      simp only [step] at hstep
      split at hstep
      next pollNumber htask =>
        cases hitem : pollOnce result with
        -- Only a bug in the poll itself brings no item, and it ends the task.
        | none =>
            obtain rfl : result = .bug := by
              cases result with
              | bug => rfl
              | frame | failed => cases hitem
            simp only [polled, hitem, Option.some.injEq, Prod.mk.injEq] at hstep
            obtain ⟨rfl, rfl⟩ := hstep
            exact .crashes
        | some item =>
            simp only [polled, hitem, Option.some.injEq, Prod.mk.injEq] at hstep
            obtain ⟨rfl, rfl⟩ := hstep
            exact .offers htask hitem
      · cases hstep
  | stop =>
      simp only [step, Option.ite_none_left_eq_some, Option.some.injEq, Prod.mk.injEq] at hstep
      obtain ⟨-, rfl, rfl⟩ := hstep
      exact .stops
  | joins =>
      have hjoined : Step feed .joins feed.subscribe.1 feed.subscribe.2 := .joins
      rwa [show feed.subscribe = (next, said) by simpa [step] using hstep] at hjoined
  | takes id =>
      simp only [step] at hstep
      split at hstep
      next hfind =>
        simp only [Option.some.injEq, Prod.mk.injEq] at hstep
        obtain ⟨rfl, rfl⟩ := hstep
        exact .takes hfind rfl rfl
      · cases hstep
  | sent id =>
      simp only [step] at hstep
      split at hstep
      next hfind =>
        simp only [Option.some.injEq, Prod.mk.injEq] at hstep
        obtain ⟨rfl, rfl⟩ := hstep
        exact .sends hfind rfl
      · cases hstep
  | leaves id =>
      simp only [step] at hstep
      split at hstep
      · simp only [Option.some.injEq, Prod.mk.injEq] at hstep
        obtain ⟨rfl, rfl⟩ := hstep
        exact .leaves
      · cases hstep

theorem find?_mem {feed : ProgressFeed Frame} {id : Nat} {subscriber : Subscriber Frame}
    (hfind : feed.find? id = some subscriber) :
    subscriber ∈ feed.subscribers ∧ subscriber.id = id :=
  ⟨List.mem_of_find?_eq_some hfind, by simpa using List.find?_some hfind⟩

theorem map_id_update (feed : ProgressFeed Frame) (id : Nat)
    (change : Subscriber Frame → Subscriber Frame) (hid : ∀ subscriber, (change subscriber).id =
      subscriber.id) :
    (feed.update id change).subscribers.map Subscriber.id =
      feed.subscribers.map Subscriber.id := by
  rw [update, List.map_map]
  refine List.map_congr_left fun subscriber _ => ?_
  dsimp only [Function.comp_apply]
  split
  · exact hid subscriber
  · rfl

end ProgressFeed

end RetroStation.Progress
