import RetroStation.Streaming.ListenerFeed

/-! # What each call of the feed does

A call changes one channel's state, and delivers to the channel's subscriptions
one by one. Disconnecting one of them on the way leaves the others as they were.
-/

namespace RetroStation.Streaming

/-- The mailboxes a channel lists are its open subscriptions, and a channel with
no stream has no title. -/
structure FeedOk (feed : ListenerFeed) : Prop where
  nodup : ∀ key, (feed.channelOf key).mailboxes.Nodup
  listed : ∀ key id, id ∈ (feed.channelOf key).mailboxes ↔ ∃ subscription,
    feed.subscriptions[id]? = some subscription ∧ subscription.channel = key ∧
      subscription.mailbox.isShut = false
  noTitle : ∀ key, (feed.channelOf key).stillPlaying = [] → (feed.channelOf key).current = none

namespace ListenerFeed

/-! ## Reading a channel -/

@[simp] theorem channelOf_setChannel (feed : ListenerFeed) (key other : BookmarkKey)
    (channel : Channel) : (feed.setChannel key channel).channelOf other =
      if other = key then channel else feed.channelOf other := by
  simp only [channelOf, setChannel, Dict.get?_set]
  split <;> rfl

@[simp] theorem channelOf_update (feed : ListenerFeed) (id : Nat) (change : Mailbox → Mailbox)
    (key : BookmarkKey) : (feed.update id change).channelOf key = feed.channelOf key := rfl

/-- Pruning drops only what an unknown channel has. -/
theorem channelOf_prune {feed : ListenerFeed} {key : BookmarkKey}
    (hnoTitle : (feed.channelOf key).stillPlaying = [] → (feed.channelOf key).current = none)
    (other : BookmarkKey) : (feed.prune key).channelOf other = feed.channelOf other := by
  unfold prune
  split
  next hidle =>
    simp only [Channel.idle, Bool.and_eq_true, List.isEmpty_iff] at hidle
    by_cases hother : other = key
    · subst hother
      have hnone : ({ feed with channels := feed.channels.erase other } : ListenerFeed).channelOf
          other = {} := by simp [channelOf]
      rw [hnone]
      have hcurrent := hnoTitle hidle.1
      obtain ⟨hplaying, hmailboxes⟩ := hidle
      cases hchannel : feed.channelOf other
      simp_all
    · simp [channelOf, Dict.get?_erase, hother]
  next => rfl

@[simp] theorem prune_subscriptions (feed : ListenerFeed) (key : BookmarkKey) :
    (feed.prune key).subscriptions = feed.subscriptions := by
  unfold prune; split <;> rfl

@[simp] theorem prune_told (feed : ListenerFeed) (key : BookmarkKey) :
    (feed.prune key).told = feed.told := by
  unfold prune; split <;> rfl

theorem update_subscriptions (feed : ListenerFeed) (id other : Nat)
    (change : Mailbox → Mailbox) : (feed.update id change).subscriptions[other]? =
      (feed.subscriptions[other]?).map fun subscription =>
        if other = id then { subscription with mailbox := change subscription.mailbox }
        else subscription := by
  rw [update, List.getElem?_modify]
  by_cases hother : id = other
  · simp [hother]
  · simp [hother, Ne.symm hother]

end ListenerFeed

/-- Two feeds with the same streams and titles on every channel. -/
def SameStreams (feed next : ListenerFeed) : Prop :=
  ∀ key, (next.channelOf key).stillPlaying = (feed.channelOf key).stillPlaying ∧
    (next.channelOf key).current = (feed.channelOf key).current

theorem SameStreams.trans {feed middle next : ListenerFeed} (hfirst : SameStreams feed middle)
    (hsecond : SameStreams middle next) : SameStreams feed next :=
  fun key => ⟨(hsecond key).1.trans (hfirst key).1, (hsecond key).2.trans (hfirst key).2⟩

/-! ## Mailboxes one by one -/

section

variable {feed : ListenerFeed} {key : BookmarkKey} {id : Nat}

theorem FeedOk.update (hok : FeedOk feed) {change : Mailbox → Mailbox}
    (hshut : ∀ subscription, feed.subscriptions[id]? = some subscription →
      (change subscription.mailbox).isShut = subscription.mailbox.isShut) :
    FeedOk (feed.update id change) where
  nodup := hok.nodup
  noTitle := hok.noTitle
  listed key other := by
    rw [ListenerFeed.channelOf_update, hok.listed, ListenerFeed.update_subscriptions]
    cases hsubscription : feed.subscriptions[other]? with
    | none => simp
    | some subscription =>
        by_cases hother : other = id
        · subst hother
          simp [hshut subscription hsubscription]
        · simp [hother]

/-- A subscription is closed: it leaves its channel's list, and nothing else
changes. -/
structure Closes (feed next : ListenerFeed) (id : Nat) : Prop where
  ok : FeedOk next
  streams : SameStreams feed next
  told : next.told = feed.told
  subscriptions : ∀ other : Nat, next.subscriptions[other]? =
    (feed.subscriptions[other]?).map fun subscription =>
      if other = id then { subscription with mailbox := subscription.mailbox.shut }
      else subscription
  mailboxes : ∀ key, (next.channelOf key).mailboxes = (feed.channelOf key).mailboxes.erase id

theorem forget_closes (hok : FeedOk feed) {subscription : Subscription}
    (hsubscription : feed.subscriptions[id]? = some subscription)
    (hopen : subscription.mailbox.isShut = false) :
    Closes feed (feed.forget subscription.channel id) id := by
  have hlisted : id ∈ (feed.channelOf subscription.channel).mailboxes :=
    (hok.listed _ id).mpr ⟨subscription, hsubscription, rfl, hopen⟩
  obtain ⟨channel, hchannel⟩ :
      ∃ channel, feed.channels.get? subscription.channel = some channel := by
    cases hchannel : feed.channels.get? subscription.channel with
    | none => simp [ListenerFeed.channelOf, hchannel] at hlisted
    | some channel => exact ⟨channel, rfl⟩
  have hof : feed.channelOf subscription.channel = channel := by
    simp [ListenerFeed.channelOf, hchannel]
  have hforget : feed.forget subscription.channel id =
      (({ feed.update id Mailbox.shut with openCount := feed.openCount - 1 } :
        ListenerFeed).setChannel subscription.channel
          { channel with mailboxes := channel.mailboxes.erase id }).prune subscription.channel := by
    unfold ListenerFeed.forget
    simp [hsubscription, hopen, ListenerFeed.update, hchannel]
  have hchannels : ∀ other, (feed.forget subscription.channel id).channelOf other =
      { feed.channelOf other with mailboxes := (feed.channelOf other).mailboxes.erase id } := by
    intro other
    rw [hforget, ListenerFeed.channelOf_prune]
    · rw [ListenerFeed.channelOf_setChannel]
      split
      next hother => rw [hother, hof]
      next hother =>
        have hnot : id ∉ (feed.channelOf other).mailboxes := by
          rw [hok.listed]
          rintro ⟨found, hfound, rfl, -⟩
          rw [hsubscription] at hfound
          obtain rfl := Option.some.inj hfound
          exact hother rfl
        rw [List.erase_of_not_mem hnot]
        rfl
    · rw [ListenerFeed.channelOf_setChannel, if_pos rfl]
      exact fun hidle => hof ▸ hok.noTitle _ (by rw [hof]; exact hidle)
  have hsubscriptions : ∀ other : Nat,
      (feed.forget subscription.channel id).subscriptions[other]? =
        (feed.subscriptions[other]?).map fun subscription =>
          if other = id then { subscription with mailbox := subscription.mailbox.shut }
          else subscription := by
    intro other
    rw [hforget, ListenerFeed.prune_subscriptions]
    exact feed.update_subscriptions id other Mailbox.shut
  refine ⟨⟨?_, ?_, ?_⟩, fun other => by rw [hchannels]; exact ⟨rfl, rfl⟩,
    by rw [hforget, ListenerFeed.prune_told]; rfl, hsubscriptions, fun other => by rw [hchannels]⟩
  · intro other
    rw [hchannels]
    exact (hok.nodup other).erase id
  · intro other index
    rw [hchannels, (hok.nodup other).mem_erase_iff, hok.listed, hsubscriptions]
    cases feed.subscriptions[index]? with
    | none => simp
    | some found =>
        by_cases hindex : index = id <;> simp [hindex, Mailbox.shut]
  · intro other hidle
    rw [hchannels] at hidle ⊢
    exact hok.noTitle other hidle

@[simp] theorem Mailbox.deliver_isShut (mailbox : Mailbox) (elapsedNow : Int)
    (delivery : Delivery) : (mailbox.deliver elapsedNow delivery).isShut = mailbox.isShut := by
  cases delivery <;> simp [Mailbox.deliver, Mailbox.tell, Mailbox.supersede, Mailbox.hold]

/-- A delivery to some of a channel's subscriptions, and what it leaves alone. -/
structure Delivers (feed next : ListenerFeed) (elapsedNow : Int) (delivery : Delivery)
    (ids : List Nat) : Prop where
  ok : FeedOk next
  streams : SameStreams feed next
  told : next.told = feed.told
  subscriptions : ∀ id : Nat, next.subscriptions[id]? =
    (feed.subscriptions[id]?).map fun subscription =>
      if id ∈ ids then
        { subscription with mailbox := subscription.mailbox.delivered elapsedNow delivery }
      else subscription
  others : ∀ key, ∀ id ∉ ids,
    id ∈ (next.channelOf key).mailboxes ↔ id ∈ (feed.channelOf key).mailboxes

variable {elapsedNow : Int} {delivery : Delivery}

theorem deliverTo_delivers (hok : FeedOk feed) (hid : id ∈ (feed.channelOf key).mailboxes) :
    Delivers feed (ListenerFeed.deliverTo elapsedNow key delivery feed id) elapsedNow delivery
      [id] := by
  obtain ⟨subscription, hsubscription, rfl, hopen⟩ := (hok.listed key id).mp hid
  have hupdated := @FeedOk.update feed id hok (·.deliver elapsedNow delivery) fun subscription _ =>
    subscription.mailbox.deliver_isShut elapsedNow delivery
  have hnow : (feed.update id (·.deliver elapsedNow delivery)).subscriptions[id]? =
      some { subscription with
        mailbox := subscription.mailbox.deliver elapsedNow delivery } := by
    simp [ListenerFeed.update_subscriptions, hsubscription]
  have hothers : ∀ other : Nat, other ≠ id →
      (feed.update id (·.deliver elapsedNow delivery)).subscriptions[other]? =
        feed.subscriptions[other]? := by
    intro other hother
    simp [ListenerFeed.update_subscriptions, hother]
  unfold ListenerFeed.deliverTo
  simp only [hnow]
  split
  next hover =>
    have hcloses := forget_closes hupdated hnow (by simpa using hopen)
    refine ⟨hcloses.ok, hcloses.streams, hcloses.told,
      fun other => ?_, fun other index hindex => ?_⟩
    · rw [hcloses.subscriptions]
      by_cases hother : other = id
      · subst hother
        rw [hnow, hsubscription]
        simp [Mailbox.delivered, hover]
      · rw [hothers other hother]
        simp [hother]
    · rw [hcloses.mailboxes, List.mem_erase_of_ne (by simpa using hindex)]
      rfl
  next hunder =>
    refine ⟨hupdated, fun _ => ⟨rfl, rfl⟩, rfl, fun other => ?_, fun _ _ _ => Iff.rfl⟩
    by_cases hother : other = id
    · subst hother
      rw [hnow, hsubscription]
      simp [Mailbox.delivered, hunder]
    · rw [hothers other hother]
      simp [hother]

/-- The subscriptions are delivered to in turn. -/
theorem foldl_delivers {ids : List Nat} (hok : FeedOk feed) (hnodup : ids.Nodup)
    (hids : ∀ id ∈ ids, id ∈ (feed.channelOf key).mailboxes) :
    Delivers feed (ids.foldl (ListenerFeed.deliverTo elapsedNow key delivery) feed) elapsedNow
      delivery ids := by
  induction ids generalizing feed with
  | nil =>
      exact ⟨hok, fun _ => ⟨rfl, rfl⟩, rfl, fun id => by simp, fun _ _ _ => Iff.rfl⟩
  | cons id rest ih =>
      obtain ⟨hid, hrest⟩ := List.nodup_cons.mp hnodup
      have hfirst := @deliverTo_delivers feed key id elapsedNow delivery hok
        (hids id (List.mem_cons_self ..))
      have hlater := ih hfirst.ok hrest fun other hother => by
        rw [hfirst.others key other (by rintro hmem; simp_all)]
        exact hids other (List.mem_cons_of_mem _ hother)
      rw [List.foldl_cons]
      refine ⟨hlater.ok, hfirst.streams.trans hlater.streams, hlater.told.trans hfirst.told,
        fun other => ?_, fun other index hindex => ?_⟩
      · rw [hlater.subscriptions, hfirst.subscriptions, Option.map_map]
        congr 1
        funext subscription
        by_cases hother : other = id
        · subst hother
          simp [hid]
        · simp [hother]
      · rw [hlater.others other index (by simp_all), hfirst.others other index (by simp_all)]

theorem tell_delivers (hok : FeedOk feed) (key : BookmarkKey) (elapsedNow : Int)
    (delivery : Delivery) :
    Delivers feed (feed.tell elapsedNow key delivery).1 elapsedNow delivery
        (feed.channelOf key).mailboxes ∧
      ((feed.tell elapsedNow key delivery).2 =
          some ⟨delivery, (feed.channelOf key).mailboxes⟩ ∨
        (feed.tell elapsedNow key delivery).2 = none ∧ (feed.channelOf key).mailboxes = []) := by
  cases hchannel : feed.channels.get? key with
  | none =>
      have hof : (feed.channelOf key).mailboxes = [] := by
        simp [ListenerFeed.channelOf, hchannel]
      simp only [ListenerFeed.tell, hchannel, hof]
      exact ⟨⟨hok, fun _ => ⟨rfl, rfl⟩, rfl, fun id => by simp, fun _ _ _ => Iff.rfl⟩,
        .inr (by simp)⟩
  | some channel =>
      have hof : (feed.channelOf key).mailboxes = channel.mailboxes := by
        simp [ListenerFeed.channelOf, hchannel]
      simp only [ListenerFeed.tell, hchannel, hof]
      exact ⟨foldl_delivers hok (hof ▸ hok.nodup key) (fun id hid => hof ▸ hid), .inl (by simp)⟩

/-! ## The calls -/

theorem tell_said {said : Told} (hsaid : (feed.tell elapsedNow key delivery).2 = some said) :
    said = ⟨delivery, (feed.channelOf key).mailboxes⟩ := by
  unfold ListenerFeed.tell at hsaid
  split at hsaid
  · cases hsaid
  next channel hchannel =>
    rw [← Option.some.inj hsaid, ListenerFeed.channelOf, hchannel, Option.getD_some]

/-- What a call delivered to a subscription. -/
def reached (told : Option Told) (id : Nat) : Option Delivery :=
  told.bind fun told => if id ∈ told.mailboxes then some told.delivery else none

theorem reached_eq_some {told : Option Told} :
    reached told id = some delivery ↔
      ∃ said, told = some said ∧ id ∈ said.mailboxes ∧ said.delivery = delivery := by
  simp [reached, Option.bind_eq_some_iff]

/-- Telling reaches the subscriptions the channel lists. -/
theorem tell_reached (feed : ListenerFeed) (elapsedNow : Int) (key : BookmarkKey)
    (delivery : Delivery) (id : Nat) :
    reached (feed.tell elapsedNow key delivery).2 id =
      if id ∈ (feed.channelOf key).mailboxes then some delivery else none := by
  unfold ListenerFeed.tell ListenerFeed.channelOf
  split
  next hchannel => simp [reached, hchannel]
  next channel hchannel => simp [reached, hchannel]

namespace Mailbox

/-- A mailbox after a call that delivered `delivery`, if anything. -/
def after (mailbox : Mailbox) (elapsedNow : Int) : Option Delivery → Mailbox
  | some delivery => mailbox.delivered elapsedNow delivery
  | none => mailbox

end Mailbox

/-- A call on a channel that may tell something: what it tells is numbered by the
count of what was told before, and every subscription gets what reached it. -/
structure Calls (feed next : ListenerFeed) (key : BookmarkKey) (elapsedNow : Int)
    (told : Option Told) : Prop where
  ok : FeedOk next
  mono : feed.told ≤ next.told
  said : ∀ said, told = some said → said.delivery.serial = feed.told ∧
    next.told = feed.told + 1 ∧ said.mailboxes = (feed.channelOf key).mailboxes
  subscriptions : ∀ id : Nat, next.subscriptions[id]? =
    (feed.subscriptions[id]?).map fun subscription =>
      { subscription with mailbox := subscription.mailbox.after elapsedNow (reached told id) }

theorem calls_nothing (hok : FeedOk feed) : Calls feed feed key elapsedNow none where
  ok := hok
  mono := le_rfl
  said := by simp
  subscriptions id := by simp [reached, Mailbox.after]

/-- A channel's streams and title may change before something is told. -/
theorem FeedOk.setChannel (hok : FeedOk feed) {channel : Channel}
    (hmailboxes : channel.mailboxes = (feed.channelOf key).mailboxes)
    (hnoTitle : channel.stillPlaying = [] → channel.current = none) :
    FeedOk (feed.setChannel key channel) where
  nodup other := by
    rw [ListenerFeed.channelOf_setChannel]
    split
    · exact hmailboxes ▸ hok.nodup key
    · exact hok.nodup other
  listed other id := by
    rw [ListenerFeed.channelOf_setChannel]
    split
    next hother => rw [hother, hmailboxes]; exact hok.listed key id
    next => exact hok.listed other id
  noTitle other := by
    rw [ListenerFeed.channelOf_setChannel]
    split
    · exact hnoTitle
    · exact hok.noTitle other

theorem FeedOk.prune (hok : FeedOk feed) (key : BookmarkKey) : FeedOk (feed.prune key) where
  nodup other := by rw [ListenerFeed.channelOf_prune (hok.noTitle key)]; exact hok.nodup other
  listed other id := by
    rw [ListenerFeed.channelOf_prune (hok.noTitle key), ListenerFeed.prune_subscriptions]
    exact hok.listed other id
  noTitle other := by rw [ListenerFeed.channelOf_prune (hok.noTitle key)]; exact hok.noTitle other

/-- Telling one thing after the channel's streams and title have changed. -/
theorem tell_calls {before : ListenerFeed} (hok : FeedOk feed)
    (hserial : delivery.serial = before.told) (htold : feed.told = before.told + 1)
    (hsubscriptions : feed.subscriptions = before.subscriptions)
    (hmailboxes : (feed.channelOf key).mailboxes = (before.channelOf key).mailboxes) :
    Calls before (feed.tell elapsedNow key delivery).1 key elapsedNow
        (feed.tell elapsedNow key delivery).2 ∧
      (feed.tell elapsedNow key delivery).1.told = before.told + 1 ∧
      SameStreams feed (feed.tell elapsedNow key delivery).1 := by
  obtain ⟨hdelivers, hreply⟩ := tell_delivers hok key elapsedNow delivery
  have hnext := hdelivers.told.trans htold
  refine ⟨⟨hdelivers.ok, by omega, ?_, ?_⟩, hnext, hdelivers.streams⟩
  · intro said hsaid
    rw [tell_said hsaid]
    exact ⟨hserial, hnext, hmailboxes⟩
  · intro id
    rw [hdelivers.subscriptions, ← hsubscriptions]
    congr 1
    funext subscription
    rcases hreply with hreply | ⟨hreply, hnone⟩
    · rw [hreply]
      by_cases hid : id ∈ (feed.channelOf key).mailboxes <;>
        simp [reached, hid, Mailbox.after]
    · rw [hreply, hnone]
      simp [reached, Mailbox.after]

/-- The streams and titles of a feed that changed on one channel only. -/
def ChangesStreams (feed next : ListenerFeed) (key : BookmarkKey) (playing : List Uuid)
    (current : Option Held) : Prop :=
  ∀ other, (next.channelOf other).stillPlaying =
      (if other = key then playing else (feed.channelOf other).stillPlaying) ∧
    (next.channelOf other).current =
      (if other = key then current else (feed.channelOf other).current)

theorem setChannel_changes (feed : ListenerFeed) (key : BookmarkKey) (channel : Channel) :
    ChangesStreams feed (feed.setChannel key channel) key channel.stillPlaying channel.current := by
  intro other
  rw [ListenerFeed.channelOf_setChannel]
  split <;> exact ⟨rfl, rfl⟩

/-- A call that changes its channel and then tells something on it. -/
theorem changes_calls (hok : FeedOk feed) {channel : Channel}
    (hmailboxes : channel.mailboxes = (feed.channelOf key).mailboxes)
    (hnoTitle : channel.stillPlaying = [] → channel.current = none)
    (hserial : delivery.serial = feed.told) (elapsedNow : Int) :
    let answer := { feed.setChannel key channel with told := feed.told + 1 }.tell elapsedNow key
      delivery
    Calls feed answer.1 key elapsedNow answer.2 ∧ answer.1.told = feed.told + 1 ∧
      ChangesStreams feed answer.1 key channel.stillPlaying channel.current := by
  intro answer
  have hset := hok.setChannel hmailboxes hnoTitle
  have hchanged : FeedOk { feed.setChannel key channel with told := feed.told + 1 } :=
    ⟨hset.nodup, hset.listed, hset.noTitle⟩
  obtain ⟨hcalls, htold, hstreams⟩ := @tell_calls _ key elapsedNow delivery feed hchanged hserial
    rfl rfl (by rw [← hmailboxes]; simp [ListenerFeed.channelOf, ListenerFeed.setChannel])
  refine ⟨hcalls, htold, fun other => ?_⟩
  obtain ⟨hplaying, hcurrent⟩ := setChannel_changes feed key channel other
  exact ⟨(hstreams other).1.trans hplaying, (hstreams other).2.trans hcurrent⟩

theorem opened_calls (hok : FeedOk feed) (elapsedNow : Int) (key : BookmarkKey) (session : Uuid) :
    Calls feed (feed.opened elapsedNow key session).1 key elapsedNow
        (feed.opened elapsedNow key session).2 ∧
      (feed.opened elapsedNow key session).1.told = feed.told + 1 ∧
      ChangesStreams feed (feed.opened elapsedNow key session).1 key
        ((feed.channelOf key).stillPlaying ++ [session]) none :=
  @changes_calls feed key (.supersede ⟨feed.told, .tuning⟩) hok
    { feed.channelOf key with
      stillPlaying := (feed.channelOf key).stillPlaying ++ [session], current := none }
    rfl (fun _ => rfl) rfl elapsedNow

theorem refused_calls (hok : FeedOk feed) (elapsedNow : Int) (key : BookmarkKey)
    (kind : StatusKind) :
    Calls feed (feed.refused elapsedNow key kind).1 key elapsedNow
        (feed.refused elapsedNow key kind).2 ∧
      (feed.refused elapsedNow key kind).1.told = feed.told + 1 ∧
      SameStreams feed (feed.refused elapsedNow key kind).1 :=
  @tell_calls { feed with told := feed.told + 1 } key elapsedNow (.tell ⟨feed.told, kind⟩) feed
    ⟨hok.nodup, hok.listed, hok.noTitle⟩ rfl rfl rfl rfl

/-- The newest still-playing stream of a channel. -/
def ListenerFeed.owner (feed : ListenerFeed) (key : BookmarkKey) : Option Uuid :=
  (feed.channelOf key).owner

theorem channelOf_of_get? {channel : Channel} (hchannel : feed.channels.get? key = some channel) :
    feed.channelOf key = channel := by
  simp [ListenerFeed.channelOf, hchannel]

/-- Only the owner's title is told; it becomes the channel's title. -/
theorem title_calls (hok : FeedOk feed) (elapsedNow : Int) (key : BookmarkKey) (session : Uuid)
    (artist text : String) (showsAt : Int) :
    let answer := feed.title elapsedNow key session artist text showsAt
    Calls feed answer.1 key elapsedNow answer.2 ∧
      ((feed.owner key ≠ some session ∧ answer = (feed, none)) ∨
        (feed.owner key = some session ∧ answer.1.told = feed.told + 1 ∧
          (∀ said, answer.2 = some said →
            said.delivery = .hold ⟨⟨feed.told, artist, text⟩, showsAt⟩) ∧
          ChangesStreams feed answer.1 key (feed.channelOf key).stillPlaying
            (some ⟨⟨feed.told, artist, text⟩, showsAt⟩))) := by
  unfold ListenerFeed.title
  cases hchannel : feed.channels.get? key with
  | none =>
      refine ⟨calls_nothing hok, .inl ⟨?_, rfl⟩⟩
      simp [ListenerFeed.owner, ListenerFeed.channelOf, hchannel, Channel.owner]
  | some channel =>
      have hof := channelOf_of_get? hchannel
      by_cases howner : channel.owner = some session
      · simp only [howner, ne_eq, not_true_eq_false, if_false]
        have hplaying : channel.stillPlaying ≠ [] := by
          rintro hnone
          simp [Channel.owner, hnone] at howner
        have hcalls := @changes_calls feed key
          (.hold ⟨⟨feed.told, artist, text⟩, showsAt⟩) hok
          { channel with current := some ⟨⟨feed.told, artist, text⟩, showsAt⟩ }
          (by rw [hof]) (fun hnone => absurd hnone hplaying) rfl elapsedNow
        exact ⟨hcalls.1, .inr ⟨by simp [ListenerFeed.owner, hof, howner], hcalls.2.1,
          fun said hsaid => by rw [tell_said hsaid], hof ▸ hcalls.2.2⟩⟩
      · simp only [howner, ne_eq, not_false_eq_true, if_true]
        exact ⟨calls_nothing hok, .inl ⟨by simpa [ListenerFeed.owner, hof] using howner, trivial⟩⟩

theorem Calls.prune {next : ListenerFeed} {told : Option Told}
    (hcalls : Calls feed next key elapsedNow told) :
    Calls feed (next.prune key) key elapsedNow told where
  ok := hcalls.ok.prune key
  mono := by rw [ListenerFeed.prune_told]; exact hcalls.mono
  said := by rw [ListenerFeed.prune_told]; exact hcalls.said
  subscriptions := by rw [ListenerFeed.prune_subscriptions]; exact hcalls.subscriptions

theorem ChangesStreams.prune {next : ListenerFeed} {playing : List Uuid} {current : Option Held}
    (hchanges : ChangesStreams feed next key playing current) (hok : FeedOk next) :
    ChangesStreams feed (next.prune key) key playing current := by
  intro other
  rw [ListenerFeed.channelOf_prune (hok.noTitle key)]
  exact hchanges other

/-- While a stream that does not own the channel plays, the owner plays too. -/
theorem erase_ne_nil {playing : List Uuid} {session : Uuid} (hplaying : session ∈ playing)
    (howner : playing.getLast? ≠ some session) : playing.erase session ≠ [] := by
  obtain ⟨last, hlast⟩ : ∃ last, playing.getLast? = some last := by
    cases hlast : playing.getLast? with
    | none => simp_all
    | some last => exact ⟨last, rfl⟩
  have hne : last ≠ session := by
    rintro rfl
    exact howner hlast
  exact List.ne_nil_of_mem ((List.mem_erase_of_ne hne).mpr (List.mem_of_getLast? hlast))

/-- A still-playing session stops being so; the channel's title goes with its
owner. -/
theorem ended_calls (hok : FeedOk feed) (elapsedNow : Int) (key : BookmarkKey) (session : Uuid)
    (kind : StatusKind) :
    let answer := feed.ended elapsedNow key session kind
    Calls feed answer.1 key elapsedNow answer.2 ∧
      ((session ∉ (feed.channelOf key).stillPlaying ∧ answer = (feed, none)) ∨
        (session ∈ (feed.channelOf key).stillPlaying ∧
          (∀ said, answer.2 = some said → feed.owner key = some session ∧
            said.delivery = .supersede ⟨feed.told, kind⟩) ∧
          ChangesStreams feed answer.1 key ((feed.channelOf key).stillPlaying.erase session)
            (if feed.owner key = some session then none else (feed.channelOf key).current))) := by
  unfold ListenerFeed.ended
  cases hchannel : feed.channels.get? key with
  | none =>
      refine ⟨calls_nothing hok, .inl ⟨?_, rfl⟩⟩
      simp [ListenerFeed.channelOf, hchannel]
  | some channel =>
      have hof := channelOf_of_get? hchannel
      by_cases hplaying : session ∈ channel.stillPlaying
      · simp only [hplaying, not_true_eq_false, if_false]
        by_cases howner : channel.owner = some session
        · simp only [howner, if_true]
          have hcalls := @changes_calls feed key (.supersede ⟨feed.told, kind⟩) hok
            { channel with
              stillPlaying := channel.stillPlaying.erase session, current := none }
            (by rw [hof]) (fun _ => rfl) rfl elapsedNow
          refine ⟨hcalls.1.prune, .inr ⟨by rwa [hof], ?_, ?_⟩⟩
          · exact fun said hsaid => ⟨by simpa [ListenerFeed.owner, hof] using howner,
              by rw [tell_said hsaid]⟩
          · rw [if_pos (by simpa [ListenerFeed.owner, hof] using howner), hof]
            exact hcalls.2.2.prune hcalls.1.ok
        · simp only [howner, if_false]
          have hset := @FeedOk.setChannel feed key hok
            { channel with stillPlaying := channel.stillPlaying.erase session }
            (by rw [hof]) (fun hnone => absurd hnone (erase_ne_nil hplaying howner))
          have hcalls : Calls feed (feed.setChannel key
              { channel with stillPlaying := channel.stillPlaying.erase session }) key
                elapsedNow none :=
            ⟨hset, le_rfl, by simp, fun id => (@calls_nothing _ key _ hok).subscriptions id⟩
          refine ⟨hcalls.prune, .inr ⟨by rwa [hof], by simp, ?_⟩⟩
          rw [if_neg (by simpa [ListenerFeed.owner, hof] using howner), hof]
          exact (setChannel_changes feed key _).prune hset
      · simp only [hplaying, not_false_eq_true, if_true]
        exact ⟨calls_nothing hok, .inl ⟨by rwa [hof], trivial⟩⟩

/-! ## Subscribing -/

theorem channelOf_subscribed (feed : ListenerFeed) (key other : BookmarkKey) :
    (feed.subscribed key).channelOf other =
      if other = key then { feed.channelOf key with
        mailboxes := (feed.channelOf key).mailboxes ++ [feed.subscriptions.length] }
      else feed.channelOf other :=
  feed.channelOf_setChannel key other _

/-- A new subscription is listed last on its channel and holds the channel's
title. -/
theorem FeedOk.subscribed (hok : FeedOk feed) (key : BookmarkKey) :
    FeedOk (feed.subscribed key) := by
  have hbelow : ∀ {other id}, id ∈ (feed.channelOf other).mailboxes →
      id < feed.subscriptions.length := by
    intro other id hid
    obtain ⟨subscription, hsubscription, -⟩ := (hok.listed other id).mp hid
    exact (List.getElem?_eq_some_iff.mp hsubscription).1
  have hsubscriptions : (feed.subscribed key).subscriptions =
      feed.subscriptions ++ [⟨key, { held := (feed.channelOf key).current }⟩] := rfl
  constructor
  case nodup =>
    intro other
    rw [channelOf_subscribed]
    split
    · refine List.nodup_append.mpr ⟨hok.nodup key, List.nodup_singleton _, ?_⟩
      rintro id hid _ hnew rfl
      have hlt := hbelow hid
      rw [List.mem_singleton.mp hnew] at hlt
      exact lt_irrefl _ hlt
    · exact hok.nodup other
  case listed =>
    intro other id
    rw [channelOf_subscribed, hsubscriptions]
    rcases Nat.lt_trichotomy id feed.subscriptions.length with hlt | heq | hgt
    · rw [List.getElem?_append_left hlt, ← hok.listed]
      split
      next hother => simp [hother, hlt.ne]
      next => rfl
    · have hold : id ∉ (feed.channelOf other).mailboxes := fun hid => by
        have hlt := hbelow hid
        omega
      subst heq
      rw [List.getElem?_concat_length]
      split
      next hother => simp [hother]
      next hother => simpa [hold] using Ne.symm hother
    · rw [List.getElem?_eq_none (by simpa using Nat.succ_le_of_lt hgt)]
      have hold : ∀ other, id ∉ (feed.channelOf other).mailboxes := fun other hid => by
        have hlt := hbelow hid
        omega
      split
      · simpa [hold] using hgt.ne'
      · simp [hold]
  case noTitle =>
    intro other
    rw [channelOf_subscribed]
    split
    · exact hok.noTitle key
    · exact hok.noTitle other

end

end RetroStation.Streaming
