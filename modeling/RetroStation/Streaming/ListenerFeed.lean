import RetroStation.Streaming.MailboxOrder
import RetroStation.Transition.Run

/-! # The listener feed

The feed tells each channel's subscriptions what its newest still-playing stream
does. When that stream ends, the next newest owns the channel at once.
-/

namespace RetroStation.Streaming

/-- One channel's state. `mailboxes` names its subscriptions, oldest first. -/
structure Channel where
  stillPlaying : List Uuid := []
  current : Option Held := none
  mailboxes : List Nat := []
  deriving DecidableEq, Repr

namespace Channel

/-- The newest still-playing stream. -/
def owner (channel : Channel) : Option Uuid := channel.stillPlaying.getLast?

def idle (channel : Channel) : Bool := channel.stillPlaying.isEmpty && channel.mailboxes.isEmpty

end Channel

/-- A subscription's mailbox, with the channel it leaves when it is closed. -/
structure Subscription where
  channel : BookmarkKey
  mailbox : Mailbox
  deriving DecidableEq, Repr

/-- Every channel and every subscription ever made. `told` counts what has been
told, and numbers it. -/
structure ListenerFeed where
  channels : Dict BookmarkKey Channel := .empty
  subscriptions : List Subscription := []
  openCount : Int := 0
  told : Nat := 0

/-- What a call of the feed told, and the subscriptions it was told to. -/
structure Told where
  delivery : Delivery
  mailboxes : List Nat
  deriving DecidableEq, Repr

namespace ListenerFeed

/-- Change one subscription's mailbox. -/
def update (feed : ListenerFeed) (id : Nat) (change : Mailbox → Mailbox) : ListenerFeed :=
  { feed with subscriptions := feed.subscriptions.modify id fun subscription =>
      { subscription with mailbox := change subscription.mailbox } }

def setChannel (feed : ListenerFeed) (key : BookmarkKey) (channel : Channel) : ListenerFeed :=
  { feed with channels := feed.channels.set key channel }

/-- The channel's state, a new one when it has none. -/
def channelOf (feed : ListenerFeed) (key : BookmarkKey) : Channel :=
  (feed.channels.get? key).getD {}

def prune (feed : ListenerFeed) (key : BookmarkKey) : ListenerFeed :=
  if (feed.channelOf key).idle then { feed with channels := feed.channels.erase key } else feed

/-- A subscription is closed or disconnected: it ends and no longer counts. -/
def forget (feed : ListenerFeed) (key : BookmarkKey) (id : Nat) : ListenerFeed :=
  match feed.subscriptions[id]? with
  | none => feed
  | some subscription =>
    if subscription.mailbox.isShut then feed
    else
      let shut := { feed.update id Mailbox.shut with openCount := feed.openCount - 1 }
      match shut.channels.get? key with
      | none => shut
      | some channel =>
        (shut.setChannel key { channel with mailboxes := channel.mailboxes.erase id }).prune key

/-- Deliver to one subscription; one left too far behind is disconnected. -/
def deliverTo (elapsedNow : Int) (key : BookmarkKey) (delivery : Delivery) (feed : ListenerFeed)
    (id : Nat) : ListenerFeed :=
  let delivered := feed.update id (·.deliver elapsedNow delivery)
  match delivered.subscriptions[id]? with
  | none => delivered
  | some subscription =>
    if subscription.mailbox.backlog > pendingLimit then delivered.forget key id else delivered

def tell (feed : ListenerFeed) (elapsedNow : Int) (key : BookmarkKey) (delivery : Delivery) :
    ListenerFeed × Option Told :=
  match feed.channels.get? key with
  | none => (feed, none)
  | some channel =>
    (channel.mailboxes.foldl (deliverTo elapsedNow key delivery) feed,
      some ⟨delivery, channel.mailboxes⟩)

/-- The session becomes the channel's stream, and `tuning` is told. -/
def opened (feed : ListenerFeed) (elapsedNow : Int) (key : BookmarkKey) (session : Uuid) :
    ListenerFeed × Option Told :=
  let channel := feed.channelOf key
  let playing := { channel with
    stillPlaying := channel.stillPlaying ++ [session], current := none }
  { feed.setChannel key playing with told := feed.told + 1 }.tell elapsedNow key
    (.supersede ⟨feed.told, .tuning⟩)

/-- A tune-in was refused; the owner and its title stay. -/
def refused (feed : ListenerFeed) (elapsedNow : Int) (key : BookmarkKey) (kind : StatusKind) :
    ListenerFeed × Option Told :=
  { feed with told := feed.told + 1 }.tell elapsedNow key (.tell ⟨feed.told, kind⟩)

/-- The owner's new title, told at `showsAt`. -/
def title (feed : ListenerFeed) (elapsedNow : Int) (key : BookmarkKey) (session : Uuid)
    (artist text : String) (showsAt : Int) : ListenerFeed × Option Told :=
  match feed.channels.get? key with
  | none => (feed, none)
  | some channel =>
    if channel.owner ≠ some session then (feed, none)
    else
      let held : Held := ⟨⟨feed.told, artist, text⟩, showsAt⟩
      { feed.setChannel key { channel with current := some held } with
        told := feed.told + 1 }.tell elapsedNow key (.hold held)

/-- The session has ended. When it owned the channel, `kind` is told and the
next newest stream takes the channel back, of which nothing is told. -/
def ended (feed : ListenerFeed) (elapsedNow : Int) (key : BookmarkKey) (session : Uuid)
    (kind : StatusKind) : ListenerFeed × Option Told :=
  match feed.channels.get? key with
  | none => (feed, none)
  | some channel =>
    if session ∉ channel.stillPlaying then (feed, none)
    else
      let rest := channel.stillPlaying.erase session
      if channel.owner = some session then
        let (feed, told) :=
          { feed.setChannel key { channel with stillPlaying := rest, current := none } with
            told := feed.told + 1 }.tell elapsedNow key (.supersede ⟨feed.told, kind⟩)
        (feed.prune key, told)
      else ((feed.setChannel key { channel with stillPlaying := rest }).prune key, none)

/-- The feed with a new subscription, which holds the channel's current title
first. -/
def subscribed (feed : ListenerFeed) (key : BookmarkKey) : ListenerFeed :=
  let channel := feed.channelOf key
  { feed.setChannel key { channel with
      mailboxes := channel.mailboxes ++ [feed.subscriptions.length] } with
    subscriptions := feed.subscriptions ++ [⟨key, { held := channel.current }⟩]
    openCount := feed.openCount + 1 }

/-- Subscribe, unless `limit` subscriptions are already open. -/
def subscribe (feed : ListenerFeed) (key : BookmarkKey) (limit : Int) :
    ListenerFeed × Option Nat :=
  if feed.openCount ≥ limit then (feed, none)
  else (feed.subscribed key, some feed.subscriptions.length)

def aclose (feed : ListenerFeed) (id : Nat) : ListenerFeed :=
  match feed.subscriptions[id]? with
  | none => feed
  | some subscription => feed.forget subscription.channel id

/-- One step of a subscription's reader. -/
def read (feed : ListenerFeed) (elapsedNow : Int) (id : Nat) (action : ReaderAction) :
    Option (ListenerFeed × ReaderReply) :=
  match feed.subscriptions[id]? with
  | none => none
  | some subscription =>
    (subscription.mailbox.readerStep elapsedNow action).map fun (mailbox, reply) =>
      (feed.update id fun _ => mailbox, reply)

end ListenerFeed

/-! ## The machine -/

structure FeedState where
  feed : ListenerFeed
  elapsedNow : Int

inductive FeedAction
  | advance (elapsedNow : Int)
  | opened (key : BookmarkKey) (session : Uuid)
  | refused (key : BookmarkKey) (kind : StatusKind)
  | title (key : BookmarkKey) (session : Uuid) (artist text : String) (showsAt : Int)
  | ended (key : BookmarkKey) (session : Uuid) (kind : StatusKind)
  | subscribe (key : BookmarkKey) (limit : Int)
  | aclose (id : Nat)
  | reader (id : Nat) (action : ReaderAction)

inductive FeedReply
  | silent
  | told (told : Option Told)
  | subscribed (id : Option Nat)
  | reads (id : Nat) (reply : ReaderReply)

/-- The feed under every interleaving of its callers and readers. The elapsed
clock never goes back. -/
def feedMachine : Transition.Machine FeedState FeedAction FeedReply where
  step state action :=
    let answers (answer : ListenerFeed × Option Told) :=
      some ({ state with feed := answer.1 }, FeedReply.told answer.2)
    match action with
    | .advance elapsedNow =>
      if state.elapsedNow ≤ elapsedNow then
        some ({ state with elapsedNow := elapsedNow }, .silent)
      else none
    | .opened key session => answers (state.feed.opened state.elapsedNow key session)
    | .refused key kind => answers (state.feed.refused state.elapsedNow key kind)
    | .title key session artist text showsAt =>
      answers (state.feed.title state.elapsedNow key session artist text showsAt)
    | .ended key session kind => answers (state.feed.ended state.elapsedNow key session kind)
    | .subscribe key limit =>
      let (feed, id) := state.feed.subscribe key limit
      some ({ state with feed := feed }, .subscribed id)
    | .aclose id => some ({ state with feed := state.feed.aclose id }, .silent)
    | .reader id action =>
      (state.feed.read state.elapsedNow id action).map fun (feed, reply) =>
        ({ state with feed := feed }, .reads id reply)

end RetroStation.Streaming
