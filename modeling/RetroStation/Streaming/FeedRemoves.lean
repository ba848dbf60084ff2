import RetroStation.Streaming.FeedCalls

/-! # The feed's removals

A channel's list gives up a mailbox by `list.remove`, which fails on one that is not
listed. Here every call is written with that failure; from a feed whose channels list
their open subscriptions no call ever fails.
-/

namespace RetroStation.Streaming

/-- `list.remove`: it fails where the element is not listed. -/
def remove? {α : Type} [DecidableEq α] (list : List α) (element : α) : Option (List α) :=
  if element ∈ list then some (list.erase element) else none

theorem remove?_of_mem {α : Type} [DecidableEq α] {list : List α} {element : α}
    (hmem : element ∈ list) : remove? list element = some (list.erase element) :=
  if_pos hmem

namespace ListenerFeed

def forget? (feed : ListenerFeed) (key : BookmarkKey) (id : Nat) : Option ListenerFeed :=
  match feed.subscriptions[id]? with
  | none => some feed
  | some subscription =>
    if subscription.mailbox.isShut then some feed
    else
      let shut := { feed.update id Mailbox.shut with openCount := feed.openCount - 1 }
      match shut.channels.get? key with
      | none => some shut
      | some channel =>
        (remove? channel.mailboxes id).map fun mailboxes =>
          (shut.setChannel key { channel with mailboxes := mailboxes }).prune key

def deliverTo? (elapsedNow : Int) (key : BookmarkKey) (delivery : Delivery) (feed : ListenerFeed)
    (id : Nat) : Option ListenerFeed :=
  let delivered := feed.update id (·.deliver elapsedNow delivery)
  match delivered.subscriptions[id]? with
  | none => some delivered
  | some subscription =>
    if subscription.mailbox.backlog > pendingLimit then delivered.forget? key id
    else some delivered

def tell? (feed : ListenerFeed) (elapsedNow : Int) (key : BookmarkKey) (delivery : Delivery) :
    Option (ListenerFeed × Option Told) :=
  match feed.channels.get? key with
  | none => some (feed, none)
  | some channel =>
    (channel.mailboxes.foldlM (deliverTo? elapsedNow key delivery) feed).map fun next =>
      (next, some ⟨delivery, channel.mailboxes⟩)

def opened? (feed : ListenerFeed) (elapsedNow : Int) (key : BookmarkKey) (session : Uuid) :
    Option (ListenerFeed × Option Told) :=
  let channel := feed.channelOf key
  let playing := { channel with
    stillPlaying := channel.stillPlaying ++ [session], current := none }
  { feed.setChannel key playing with told := feed.told + 1 }.tell? elapsedNow key
    (.supersede ⟨feed.told, .tuning⟩)

def refused? (feed : ListenerFeed) (elapsedNow : Int) (key : BookmarkKey) (kind : StatusKind) :
    Option (ListenerFeed × Option Told) :=
  { feed with told := feed.told + 1 }.tell? elapsedNow key (.tell ⟨feed.told, kind⟩)

def title? (feed : ListenerFeed) (elapsedNow : Int) (key : BookmarkKey) (session : Uuid)
    (artist text : String) (showsAt : Int) : Option (ListenerFeed × Option Told) :=
  match feed.channels.get? key with
  | none => some (feed, none)
  | some channel =>
    if channel.owner ≠ some session then some (feed, none)
    else
      let held : Held := ⟨⟨feed.told, artist, text⟩, showsAt⟩
      { feed.setChannel key { channel with current := some held } with
        told := feed.told + 1 }.tell? elapsedNow key (.hold held)

def ended? (feed : ListenerFeed) (elapsedNow : Int) (key : BookmarkKey) (session : Uuid)
    (kind : StatusKind) : Option (ListenerFeed × Option Told) :=
  match feed.channels.get? key with
  | none => some (feed, none)
  | some channel =>
    if session ∉ channel.stillPlaying then some (feed, none)
    else
      (remove? channel.stillPlaying session).bind fun rest =>
        if channel.owner = some session then
          ({ feed.setChannel key { channel with stillPlaying := rest, current := none } with
            told := feed.told + 1 }.tell? elapsedNow key (.supersede ⟨feed.told, kind⟩)).map
              fun (answer : ListenerFeed × Option Told) => (answer.1.prune key, answer.2)
        else some ((feed.setChannel key { channel with stillPlaying := rest }).prune key, none)

def aclose? (feed : ListenerFeed) (id : Nat) : Option ListenerFeed :=
  match feed.subscriptions[id]? with
  | none => some feed
  | some subscription => feed.forget? subscription.channel id

end ListenerFeed

/-! ## Nothing fails -/

section

variable {feed : ListenerFeed} {key : BookmarkKey} {id : Nat} {elapsedNow : Int}
  {delivery : Delivery}

/-- An open subscription is listed on its own channel. -/
theorem forget?_eq (hok : FeedOk feed) {subscription : Subscription}
    (hsubscription : feed.subscriptions[id]? = some subscription) :
    feed.forget? subscription.channel id = some (feed.forget subscription.channel id) := by
  unfold ListenerFeed.forget? ListenerFeed.forget
  simp only [hsubscription]
  cases hshut : subscription.mailbox.isShut with
  | true => rfl
  | false =>
      have hlisted := (hok.listed subscription.channel id).mpr
        ⟨subscription, hsubscription, rfl, hshut⟩
      simp only [Bool.false_eq_true, if_false]
      cases hchannel : feed.channels.get? subscription.channel with
      | none => simp [ListenerFeed.channelOf, hchannel] at hlisted
      | some channel =>
          rw [channelOf_of_get? hchannel] at hlisted
          simp only [ListenerFeed.update, hchannel, remove?_of_mem hlisted, Option.map_some]

theorem deliverTo?_eq (hok : FeedOk feed) (hid : id ∈ (feed.channelOf key).mailboxes) :
    ListenerFeed.deliverTo? elapsedNow key delivery feed id =
      some (ListenerFeed.deliverTo elapsedNow key delivery feed id) := by
  obtain ⟨subscription, hsubscription, rfl, -⟩ := (hok.listed key id).mp hid
  have hupdated := @FeedOk.update feed id hok (·.deliver elapsedNow delivery) fun subscription _ =>
    subscription.mailbox.deliver_isShut elapsedNow delivery
  have hnow : (feed.update id (·.deliver elapsedNow delivery)).subscriptions[id]? =
      some { subscription with
        mailbox := subscription.mailbox.deliver elapsedNow delivery } := by
    simp [ListenerFeed.update_subscriptions, hsubscription]
  unfold ListenerFeed.deliverTo? ListenerFeed.deliverTo
  simp only [hnow]
  split
  · exact @forget?_eq _ id hupdated { subscription with
      mailbox := subscription.mailbox.deliver elapsedNow delivery } hnow
  · rfl

/-- A disconnection on the way leaves the subscriptions still to come listed. -/
theorem foldlM_deliverTo? {ids : List Nat} (hok : FeedOk feed) (hnodup : ids.Nodup)
    (hids : ∀ id ∈ ids, id ∈ (feed.channelOf key).mailboxes) :
    ids.foldlM (ListenerFeed.deliverTo? elapsedNow key delivery) feed =
      some (ids.foldl (ListenerFeed.deliverTo elapsedNow key delivery) feed) := by
  induction ids generalizing feed with
  | nil => rfl
  | cons id rest ih =>
      obtain ⟨hid, hrest⟩ := List.nodup_cons.mp hnodup
      have hfirst := @deliverTo_delivers feed key id elapsedNow delivery hok
        (hids id List.mem_cons_self)
      rw [List.foldlM_cons, deliverTo?_eq hok (hids id List.mem_cons_self)]
      refine ih hfirst.ok hrest fun other hother => ?_
      have hne : other ∉ [id] := fun hmem => hid (List.mem_singleton.mp hmem ▸ hother)
      exact (hfirst.others key other hne).mpr (hids other (List.mem_cons_of_mem _ hother))

theorem tell?_eq (hok : FeedOk feed) (elapsedNow : Int) (key : BookmarkKey)
    (delivery : Delivery) :
    feed.tell? elapsedNow key delivery = some (feed.tell elapsedNow key delivery) := by
  unfold ListenerFeed.tell? ListenerFeed.tell
  cases hchannel : feed.channels.get? key with
  | none => rfl
  | some channel =>
      have hof := channelOf_of_get? hchannel
      simp only [foldlM_deliverTo? hok (hof ▸ hok.nodup key) fun id hid => hof ▸ hid,
        Option.map_some]

/-- A channel may take other streams and another title before it is told of them. -/
theorem setChannel_tell?_eq (hok : FeedOk feed) {channel : Channel}
    (hmailboxes : channel.mailboxes = (feed.channelOf key).mailboxes)
    (hnoTitle : channel.stillPlaying = [] → channel.current = none) (elapsedNow : Int)
    (delivery : Delivery) :
    { feed.setChannel key channel with told := feed.told + 1 }.tell? elapsedNow key delivery =
      some ({ feed.setChannel key channel with told := feed.told + 1 }.tell elapsedNow key
        delivery) :=
  have hset := hok.setChannel hmailboxes hnoTitle
  @tell?_eq { feed.setChannel key channel with told := feed.told + 1 }
    ⟨hset.nodup, hset.listed, hset.noTitle⟩ elapsedNow key delivery

theorem opened?_eq (hok : FeedOk feed) (elapsedNow : Int) (key : BookmarkKey) (session : Uuid) :
    feed.opened? elapsedNow key session = some (feed.opened elapsedNow key session) :=
  @setChannel_tell?_eq feed key hok { feed.channelOf key with
    stillPlaying := (feed.channelOf key).stillPlaying ++ [session], current := none }
    rfl (fun _ => rfl) elapsedNow _

theorem refused?_eq (hok : FeedOk feed) (elapsedNow : Int) (key : BookmarkKey)
    (kind : StatusKind) :
    feed.refused? elapsedNow key kind = some (feed.refused elapsedNow key kind) :=
  @tell?_eq { feed with told := feed.told + 1 } ⟨hok.nodup, hok.listed, hok.noTitle⟩ elapsedNow
    key _

theorem title?_eq (hok : FeedOk feed) (elapsedNow : Int) (key : BookmarkKey) (session : Uuid)
    (artist text : String) (showsAt : Int) :
    feed.title? elapsedNow key session artist text showsAt =
      some (feed.title elapsedNow key session artist text showsAt) := by
  unfold ListenerFeed.title? ListenerFeed.title
  cases hchannel : feed.channels.get? key with
  | none => rfl
  | some channel =>
      by_cases howner : channel.owner = some session
      · simp only [howner, ne_eq, not_true_eq_false, if_false]
        have hplaying : channel.stillPlaying ≠ [] := by
          rintro hnone
          simp [Channel.owner, hnone] at howner
        exact @setChannel_tell?_eq feed key hok
          { channel with current := some ⟨⟨feed.told, artist, text⟩, showsAt⟩ }
          (by rw [channelOf_of_get? hchannel]) (fun hnone => absurd hnone hplaying) elapsedNow _
      · simp only [howner, ne_eq, not_false_eq_true, if_true]

theorem ended?_eq (hok : FeedOk feed) (elapsedNow : Int) (key : BookmarkKey) (session : Uuid)
    (kind : StatusKind) :
    feed.ended? elapsedNow key session kind =
      some (feed.ended elapsedNow key session kind) := by
  unfold ListenerFeed.ended? ListenerFeed.ended
  cases hchannel : feed.channels.get? key with
  | none => rfl
  | some channel =>
      by_cases hplaying : session ∈ channel.stillPlaying
      · simp only [hplaying, not_true_eq_false, if_false, remove?_of_mem hplaying,
          Option.bind_some]
        split
        · have htell := @setChannel_tell?_eq feed key hok
            { channel with stillPlaying := channel.stillPlaying.erase session, current := none }
            (by rw [channelOf_of_get? hchannel]) (fun _ => rfl) elapsedNow
            (.supersede ⟨feed.told, kind⟩)
          simp only [htell, Option.map_some]
        · rfl
      · simp only [hplaying, not_false_eq_true, if_true]

theorem aclose?_eq (hok : FeedOk feed) (id : Nat) : feed.aclose? id = some (feed.aclose id) := by
  unfold ListenerFeed.aclose? ListenerFeed.aclose
  cases hsubscription : feed.subscriptions[id]? with
  | none => rfl
  | some subscription => exact forget?_eq hok hsubscription

end

/-- No call fails at a `list.remove`. -/
structure NeverFails (feed : ListenerFeed) (elapsedNow : Int) : Prop where
  opened : ∀ key session, feed.opened? elapsedNow key session =
    some (feed.opened elapsedNow key session)
  refused : ∀ key kind, feed.refused? elapsedNow key kind =
    some (feed.refused elapsedNow key kind)
  title : ∀ key session artist text showsAt,
    feed.title? elapsedNow key session artist text showsAt =
      some (feed.title elapsedNow key session artist text showsAt)
  ended : ∀ key session kind, feed.ended? elapsedNow key session kind =
    some (feed.ended elapsedNow key session kind)
  aclose : ∀ id, feed.aclose? id = some (feed.aclose id)

theorem FeedOk.neverFails {feed : ListenerFeed} (hok : FeedOk feed) (elapsedNow : Int) :
    NeverFails feed elapsedNow where
  opened := opened?_eq hok elapsedNow
  refused := refused?_eq hok elapsedNow
  title := title?_eq hok elapsedNow
  ended := ended?_eq hok elapsedNow
  aclose := aclose?_eq hok

end RetroStation.Streaming
