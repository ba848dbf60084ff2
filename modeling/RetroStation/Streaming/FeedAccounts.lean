import RetroStation.Streaming.DeliveryOrder
import RetroStation.Streaming.FeedRemoves

/-! # The feed's accounts

The feed counts its open subscriptions, lists each on one channel, and drops a
channel from its table once nothing plays and nobody listens there.
-/

namespace RetroStation.Streaming

/-- Changing one element changes the count by the new one less the one it replaces. -/
theorem countP_modify {α : Type} {p : α → Bool} {list : List α} {index : Nat} {element : α}
    (change : α → α) (helement : list[index]? = some element) :
    (list.modify index change).countP p + (if p element then 1 else 0) =
      list.countP p + if p (change element) then 1 else 0 := by
  induction list generalizing index with
  | nil => cases helement
  | cons head rest ih =>
      cases index with
      | zero =>
          obtain rfl := Option.some.inj helement
          simp only [List.modify_zero_cons, List.countP_cons]
          omega
      | succ index =>
          have hrest := ih (by simpa using helement)
          simp only [List.modify_succ_cons, List.countP_cons]
          omega

/-- Counting elements is counting their places. -/
theorem countP_eq_places {α : Type} (p : α → Bool) (list : List α) :
    list.countP p = ((List.range list.length).filter fun index => list[index]?.any p).length := by
  induction list using List.reverseRecOn with
  | nil => rfl
  | append_singleton list last ih =>
      have hbefore : (List.range list.length).filter (fun index => (list ++ [last])[index]?.any p) =
          (List.range list.length).filter fun index => list[index]?.any p := by
        refine List.filter_congr fun index hindex => ?_
        rw [List.getElem?_append_left (List.mem_range.mp hindex)]
      rw [List.countP_append, ih, List.length_append, List.length_singleton, List.range_succ,
        List.filter_append, List.length_append, hbefore]
      cases hlast : p last <;> simp [hlast]

namespace ListenerFeed

/-- How many subscriptions are not shut. -/
def openSubscriptions (feed : ListenerFeed) : Nat :=
  feed.subscriptions.countP fun subscription => !subscription.mailbox.isShut

/-- How many mailboxes the channels of the table list. -/
def listedMailboxes (feed : ListenerFeed) : Nat :=
  (feed.channels.values.map fun channel => channel.mailboxes.length).sum

/-- A channel of the table that nothing plays on and nobody listens to. -/
def IdleAt (feed : ListenerFeed) (key : BookmarkKey) : Prop :=
  ∃ channel, feed.channels.get? key = some channel ∧ channel.idle = true

/-- The feed counts as open what is not shut. -/
def Balanced (feed : ListenerFeed) : Prop := feed.openCount = feed.openSubscriptions

end ListenerFeed

/-! ## What one call does to the count and the table -/

/-- A call that keeps the books: it counts what it shuts and makes, and leaves no channel
idle that was not. -/
structure KeepsBooks (feed next : ListenerFeed) : Prop where
  count : next.openCount - next.openSubscriptions = feed.openCount - feed.openSubscriptions
  idle : ∀ key, next.IdleAt key → feed.IdleAt key

theorem KeepsBooks.refl (feed : ListenerFeed) : KeepsBooks feed feed := ⟨rfl, fun _ hidle => hidle⟩

theorem KeepsBooks.trans {feed middle next : ListenerFeed} (hfirst : KeepsBooks feed middle)
    (hsecond : KeepsBooks middle next) : KeepsBooks feed next :=
  ⟨hsecond.count.trans hfirst.count, fun key hidle => hfirst.idle key (hsecond.idle key hidle)⟩

section

variable {feed : ListenerFeed} {key other : BookmarkKey} {id : Nat} {channel : Channel}
  {elapsedNow : Int}

theorem idleAt_prune (hidle : (feed.prune key).IdleAt other) : feed.IdleAt other ∧ other ≠ key := by
  obtain ⟨channel, hchannel, hchannelIdle⟩ := hidle
  unfold ListenerFeed.prune at hchannel
  split at hchannel
  next =>
    by_cases hother : other = key
    · simp [hother] at hchannel
    · rw [Dict.get?_erase_of_ne hother] at hchannel
      exact ⟨⟨channel, hchannel, hchannelIdle⟩, hother⟩
  next hbusy =>
    refine ⟨⟨channel, hchannel, hchannelIdle⟩, ?_⟩
    rintro rfl
    exact hbusy (channelOf_of_get? hchannel ▸ hchannelIdle)

theorem idleAt_setChannel (hidle : (feed.setChannel key channel).IdleAt other) :
    other = key ∧ channel.idle = true ∨ other ≠ key ∧ feed.IdleAt other := by
  obtain ⟨found, hfound, hfoundIdle⟩ := hidle
  by_cases hother : other = key
  · subst hother
    rw [ListenerFeed.setChannel, Dict.get?_set_self] at hfound
    obtain rfl := Option.some.inj hfound
    exact .inl ⟨rfl, hfoundIdle⟩
  · rw [ListenerFeed.setChannel, Dict.get?_set_of_ne hother] at hfound
    exact .inr ⟨hother, found, hfound, hfoundIdle⟩

/-- A busy channel may be set, and pruning may only drop one. -/
theorem keepsBooks_setChannel (hbusy : channel.idle = false) :
    KeepsBooks feed (feed.setChannel key channel) := by
  refine ⟨rfl, fun other hidle => ?_⟩
  rcases idleAt_setChannel hidle with ⟨-, hchannel⟩ | ⟨-, hbefore⟩
  · rw [hbusy] at hchannel
    cases hchannel
  · exact hbefore

/-- What is set at a key that is pruned next may be idle. -/
theorem keepsBooks_setChannel_prune :
    KeepsBooks feed ((feed.setChannel key channel).prune key) := by
  constructor
  case count =>
    unfold ListenerFeed.prune
    split <;> rfl
  case idle =>
    intro other hidle
    obtain ⟨hset, hother⟩ := idleAt_prune hidle
    rcases idleAt_setChannel hset with ⟨hsame, -⟩ | ⟨-, hbefore⟩
    · exact absurd hsame hother
    · exact hbefore

theorem openSubscriptions_update {subscription : Subscription} {change : Mailbox → Mailbox}
    (hsubscription : feed.subscriptions[id]? = some subscription) :
    (feed.update id change).openSubscriptions + (if subscription.mailbox.isShut then 0 else 1) =
      feed.openSubscriptions + if (change subscription.mailbox).isShut then 0 else 1 := by
  have hcount := @countP_modify _ (fun subscription : Subscription => !subscription.mailbox.isShut)
    _ _ _ (fun subscription => { subscription with mailbox := change subscription.mailbox })
    hsubscription
  unfold ListenerFeed.openSubscriptions ListenerFeed.update
  cases hbefore : subscription.mailbox.isShut <;>
    cases hafter : (change subscription.mailbox).isShut <;> simpa [hbefore, hafter] using hcount

theorem keepsBooks_update {change : Mailbox → Mailbox}
    (hshut : ∀ subscription, feed.subscriptions[id]? = some subscription →
      (change subscription.mailbox).isShut = subscription.mailbox.isShut) :
    KeepsBooks feed (feed.update id change) := by
  refine ⟨?_, fun _ hidle => hidle⟩
  cases hsubscription : feed.subscriptions[id]? with
  | none =>
      have hsame : feed.subscriptions.modify id (fun subscription =>
          { subscription with mailbox := change subscription.mailbox }) = feed.subscriptions :=
        List.modify_eq_self (List.getElem?_eq_none_iff.mp hsubscription)
      simp only [ListenerFeed.openSubscriptions, ListenerFeed.update, hsame]
  | some subscription =>
      have hcount := @openSubscriptions_update _ _ _ change hsubscription
      rw [hshut subscription hsubscription] at hcount
      have hsame : (feed.update id change).openSubscriptions = feed.openSubscriptions := by omega
      rw [hsame]
      rfl

/-- A subscription is counted out as it is shut, and its channel goes once it is idle. -/
theorem keepsBooks_forget (feed : ListenerFeed) (key : BookmarkKey) (id : Nat) :
    KeepsBooks feed (feed.forget key id) := by
  unfold ListenerFeed.forget
  split
  · exact .refl feed
  next subscription hsubscription =>
    split
    · exact .refl feed
    next hopen =>
      have hcount := @openSubscriptions_update feed id subscription Mailbox.shut hsubscription
      have hends : subscription.mailbox.shut.isShut = true := Mailbox.wake_isShut _
      rw [if_neg hopen, if_pos hends] at hcount
      have hshut : KeepsBooks feed
          { feed.update id Mailbox.shut with openCount := feed.openCount - 1 } := by
        refine ⟨?_, fun _ hidle => hidle⟩
        change feed.openCount - 1 - ((feed.update id Mailbox.shut).openSubscriptions : Int) = _
        omega
      dsimp only
      split
      · exact hshut
      · exact hshut.trans keepsBooks_setChannel_prune

theorem keepsBooks_deliverTo (elapsedNow : Int) (key : BookmarkKey) (delivery : Delivery)
    (feed : ListenerFeed) (id : Nat) :
    KeepsBooks feed (ListenerFeed.deliverTo elapsedNow key delivery feed id) := by
  have hdelivered : KeepsBooks feed (feed.update id (·.deliver elapsedNow delivery)) :=
    keepsBooks_update fun subscription _ => subscription.mailbox.deliver_isShut elapsedNow delivery
  unfold ListenerFeed.deliverTo
  dsimp only
  split
  · exact hdelivered
  · split
    · exact hdelivered.trans (keepsBooks_forget _ key id)
    · exact hdelivered

theorem keepsBooks_tell (feed : ListenerFeed) (elapsedNow : Int) (key : BookmarkKey)
    (delivery : Delivery) : KeepsBooks feed (feed.tell elapsedNow key delivery).1 := by
  unfold ListenerFeed.tell
  split
  · exact .refl feed
  next channel hchannel =>
    clear hchannel
    dsimp only
    generalize channel.mailboxes = ids
    induction ids generalizing feed with
    | nil => exact .refl feed
    | cons id rest ih =>
        exact (keepsBooks_deliverTo elapsedNow key delivery feed id).trans (ih _)

/-- A new subscription is counted in, and its channel is not idle. -/
theorem keepsBooks_subscribed (feed : ListenerFeed) (key : BookmarkKey) :
    KeepsBooks feed (feed.subscribed key) := by
  constructor
  case count =>
    simp only [ListenerFeed.subscribed, ListenerFeed.openSubscriptions, List.countP_append,
      List.countP_singleton, Bool.not_false, if_true]
    omega
  case idle =>
    intro other hidle
    refine (@keepsBooks_setChannel feed key _ ?_).idle other hidle
    simp [Channel.idle]

/-! ## The calls -/

/-- A channel that is busy with its new streams is told of them. -/
theorem keepsBooks_setChannel_tell (hbusy : channel.idle = false) (delivery : Delivery) :
    KeepsBooks feed ({ feed.setChannel key channel with told := feed.told + 1 }.tell elapsedNow key
      delivery).1 := by
  have hset : KeepsBooks feed { feed.setChannel key channel with told := feed.told + 1 } :=
    ⟨rfl, (keepsBooks_setChannel hbusy).idle⟩
  exact hset.trans (keepsBooks_tell _ elapsedNow key delivery)

theorem keepsBooks_title (session : Uuid) (artist text : String) (showsAt : Int) :
    KeepsBooks feed (feed.title elapsedNow key session artist text showsAt).1 := by
  unfold ListenerFeed.title
  split
  · exact .refl feed
  next channel _ =>
    split
    · exact .refl feed
    next howner =>
      refine keepsBooks_setChannel_tell ?_ _
      cases hplaying : channel.stillPlaying with
      | nil => simp [Channel.owner, hplaying] at howner
      | cons head rest => simp [Channel.idle]

/-- The channel may be idle once its owner is gone, also after the telling has
disconnected its last subscription; it is pruned at the end. -/
theorem keepsBooks_ended (session : Uuid) (kind : StatusKind) :
    KeepsBooks feed (feed.ended elapsedNow key session kind).1 := by
  unfold ListenerFeed.ended
  split
  · exact .refl feed
  next channel hchannel =>
    split
    · exact .refl feed
    · dsimp only
      split
      · set changed : ListenerFeed :=
          { feed.setChannel key { channel with
              stillPlaying := channel.stillPlaying.erase session
              current := none } with
            told := feed.told + 1 } with hchanged
        have htold := keepsBooks_tell changed elapsedNow key (.supersede ⟨feed.told, kind⟩)
        constructor
        case count =>
          have hpruned : ∀ next : ListenerFeed,
              (next.prune key).openCount - (next.prune key).openSubscriptions =
                next.openCount - (next.openSubscriptions : Int) := by
            intro next
            unfold ListenerFeed.prune
            split <;> rfl
          exact (hpruned _).trans htold.count
        case idle =>
          intro other hidle
          obtain ⟨htell, hother⟩ := idleAt_prune hidle
          rcases idleAt_setChannel (htold.idle other htell) with ⟨hsame, -⟩ | ⟨-, hbefore⟩
          · exact absurd hsame hother
          · exact hbefore
      · exact keepsBooks_setChannel_prune

theorem keepsBooks_read {action : ReaderAction} {next : ListenerFeed} {reply : ReaderReply}
    (hread : feed.read elapsedNow id action = some (next, reply)) : KeepsBooks feed next := by
  unfold ListenerFeed.read at hread
  split at hread
  · cases hread
  next subscription hsubscription =>
    obtain ⟨⟨mailbox, _⟩, hstep, heq⟩ := Option.map_eq_some_iff.mp hread
    obtain ⟨rfl, rfl⟩ := Prod.mk.inj heq
    refine keepsBooks_update fun found hfound => ?_
    obtain rfl := Option.some.inj (hsubscription.symm.trans hfound)
    exact Mailbox.readerStep_isShut hstep

end

/-- Every step keeps the books. -/
theorem feed_step_keepsBooks {state next : FeedState} {action : FeedAction} {reply : FeedReply}
    (hstep : feedMachine.step state action = some (next, reply)) :
    KeepsBooks state.feed next.feed := by
  cases action with
  | advance elapsedNow =>
      simp only [feedMachine] at hstep
      split at hstep
      · cases hstep
        exact .refl _
      · cases hstep
  | opened key session =>
      cases hstep
      exact keepsBooks_setChannel_tell (by simp [Channel.idle]) _
  | refused key kind =>
      cases hstep
      have htold := keepsBooks_tell { state.feed with told := state.feed.told + 1 }
        state.elapsedNow key (.tell ⟨state.feed.told, kind⟩)
      exact ⟨htold.count, htold.idle⟩
  | title key session artist text showsAt =>
      cases hstep
      exact keepsBooks_title session artist text showsAt
  | ended key session kind =>
      cases hstep
      exact keepsBooks_ended session kind
  | subscribe key limit =>
      cases hstep
      change KeepsBooks state.feed (state.feed.subscribe key limit).1
      unfold ListenerFeed.subscribe
      split
      · exact .refl _
      · exact keepsBooks_subscribed _ key
  | aclose id =>
      cases hstep
      change KeepsBooks state.feed (state.feed.aclose id)
      unfold ListenerFeed.aclose
      split
      · exact .refl _
      · exact keepsBooks_forget ..
  | reader id step =>
      obtain ⟨⟨feed, answer⟩, hread, heq⟩ := Option.map_eq_some_iff.mp hstep
      obtain ⟨rfl, rfl⟩ := Prod.mk.inj heq
      exact keepsBooks_read hread

/-! ## What a mailbox holds -/

namespace Mailbox

theorem length_unread (mailbox : Mailbox) : mailbox.unread.length = mailbox.backlog := by
  cases hheld : mailbox.held <;> simp [unread, backlog, hheld]

theorem shut_backlog (mailbox : Mailbox) : mailbox.shut.backlog = 0 := by
  rw [← length_unread, shut, wake_unread]
  rfl

/-- A delivery that would leave too much unread leaves nothing. -/
theorem delivered_backlog (mailbox : Mailbox) (elapsedNow : Int) (delivery : Delivery) :
    (mailbox.delivered elapsedNow delivery).backlog ≤ pendingLimit := by
  unfold delivered
  dsimp only
  split
  · simp [shut_backlog]
  next hunder => exact Nat.not_lt.mp hunder

theorem readerStep_backlog {mailbox next : Mailbox} {elapsedNow : Int} {action : ReaderAction}
    {reply : ReaderReply} (hstep : mailbox.readerStep elapsedNow action = some (next, reply)) :
    next.backlog ≤ mailbox.backlog := by
  rw [← length_unread, ← length_unread, readerStep_unread hstep, List.length_append]
  exact Nat.le_add_left ..

end Mailbox

theorem MailboxStep.backlog {elapsedNow : Int} {action : FeedAction} {reply : FeedReply} {id : Nat}
    {mailbox after : Mailbox} (hstep : MailboxStep elapsedNow action reply id mailbox after)
    (hwithin : mailbox.backlog ≤ pendingLimit) : after.backlog ≤ pendingLimit := by
  cases hstep with
  | untouched => exact hwithin
  | delivered delivery => exact mailbox.delivered_backlog elapsedNow delivery
  | closed => simp [Mailbox.shut_backlog]
  | reads step answer _ _ hstep => exact (Mailbox.readerStep_backlog hstep).trans hwithin

/-- The feed's books: the count, the table and what each mailbox holds. -/
structure BooksOk (feed : ListenerFeed) : Prop where
  balanced : feed.Balanced
  tidy : ∀ key, ¬feed.IdleAt key
  within : ∀ (id : Nat) subscription, feed.subscriptions[id]? = some subscription →
    subscription.mailbox.backlog ≤ pendingLimit

theorem booksOk {elapsedNow : Int} {trace : List (FeedAction × FeedReply)} {state : FeedState}
    (hrun : feedMachine.Run (idleFeed elapsedNow) trace state) : BooksOk state.feed := by
  induction hrun with
  | nil => exact ⟨rfl, by simp [idleFeed, ListenerFeed.IdleAt], by simp [idleFeed]⟩
  | @snoc trace state next action reply hrun hstep ih =>
      have hbooks := feed_step_keepsBooks hstep
      have heffect := feed_step (feedRunOk hrun).ok hstep
      constructor
      case balanced =>
        have hcount := hbooks.count
        have hbefore : state.feed.openCount = state.feed.openSubscriptions := ih.balanced
        show next.feed.openCount = next.feed.openSubscriptions
        omega
      case tidy => exact fun key hidle => ih.tidy key (hbooks.idle key hidle)
      case within =>
        intro id subscription hsubscription
        cases hbefore : state.feed.subscriptions[id]? with
        | none =>
            rw [heffect.made id subscription hbefore hsubscription]
            cases (state.feed.channelOf subscription.channel).current <;>
              simp [Mailbox.backlog, pendingLimit]
        | some earlier =>
            obtain ⟨mailbox, hkept, hmailbox⟩ := heffect.kept id earlier hbefore
            obtain rfl := Option.some.inj (hkept.symm.trans hsubscription)
            exact hmailbox.backlog (ih.within id earlier hbefore)

/-! ## The lists -/

section

variable {feed : ListenerFeed}

/-- The mailboxes the table lists, channel by channel. -/
def ListenerFeed.listed (feed : ListenerFeed) : List Nat :=
  feed.channels.entries.flatMap fun entry => entry.2.mailboxes

theorem mem_listed (hok : FeedOk feed) {id : Nat} :
    id ∈ feed.listed ↔ ∃ subscription, feed.subscriptions[id]? = some subscription ∧
      subscription.mailbox.isShut = false := by
  constructor
  · intro hid
    obtain ⟨⟨key, channel⟩, hentry, hmailbox⟩ := List.mem_flatMap.mp hid
    have hof := channelOf_of_get? (Dict.get?_eq_some_iff.mpr hentry)
    obtain ⟨subscription, hsubscription, -, hopen⟩ := (hok.listed key id).mp (hof ▸ hmailbox)
    exact ⟨subscription, hsubscription, hopen⟩
  · rintro ⟨subscription, hsubscription, hopen⟩
    have hlisted := (hok.listed subscription.channel id).mpr ⟨subscription,
      hsubscription, rfl, hopen⟩
    cases hchannel : feed.channels.get? subscription.channel with
    | none => simp [ListenerFeed.channelOf, hchannel] at hlisted
    | some channel =>
        rw [channelOf_of_get? hchannel] at hlisted
        exact List.mem_flatMap.mpr
          ⟨(subscription.channel, channel), Dict.get?_eq_some_iff.mp hchannel, hlisted⟩

/-- No mailbox is listed twice: not on one channel, and not on two, since a subscription has
one channel. -/
theorem nodup_listed (hok : FeedOk feed) : feed.listed.Nodup := by
  refine List.nodup_flatMap.mpr ⟨fun ⟨key, channel⟩ hentry => ?_, ?_⟩
  · exact channelOf_of_get? (Dict.get?_eq_some_iff.mpr hentry) ▸ hok.nodup key
  · have hkeys : feed.channels.entries.Pairwise fun first second => first.1 ≠ second.1 :=
      List.pairwise_map.mp feed.channels.nodup
    refine hkeys.imp_of_mem fun {first second} hfirst hsecond hne => ?_
    intro id hid hother
    have hone : id ∈ (feed.channelOf first.1).mailboxes :=
      (channelOf_of_get? (Dict.get?_eq_some_iff.mpr hfirst)).symm ▸ hid
    have htwo : id ∈ (feed.channelOf second.1).mailboxes :=
      (channelOf_of_get? (Dict.get?_eq_some_iff.mpr hsecond)).symm ▸ hother
    obtain ⟨subscription, hsubscription, hchannel, -⟩ := (hok.listed _ id).mp hone
    obtain ⟨found, hfound, hfoundChannel, -⟩ := (hok.listed _ id).mp htwo
    obtain rfl := Option.some.inj (hsubscription.symm.trans hfound)
    exact hne (hchannel.symm.trans hfoundChannel)

theorem listedMailboxes_eq (hok : FeedOk feed) : feed.listedMailboxes = feed.openSubscriptions := by
  have hplaces : feed.openSubscriptions = ((List.range feed.subscriptions.length).filter fun id =>
      feed.subscriptions[id]?.any fun subscription => !subscription.mailbox.isShut).length :=
    countP_eq_places _ _
  have hperm : feed.listed.Perm ((List.range feed.subscriptions.length).filter fun id =>
      feed.subscriptions[id]?.any fun subscription => !subscription.mailbox.isShut) := by
    refine (List.perm_ext_iff_of_nodup (nodup_listed hok)
      (List.nodup_range.filter _)).mpr fun id => ?_
    rw [mem_listed hok, List.mem_filter, List.mem_range]
    cases hsubscription : feed.subscriptions[id]? with
    | none => simp
    | some subscription =>
        simpa using fun _ => (List.getElem?_eq_some_iff.mp hsubscription).1
  rw [hplaces, ← hperm.length_eq, ListenerFeed.listed, List.length_flatMap,
    ListenerFeed.listedMailboxes, Dict.values, List.map_map]
  rfl

/-- An open subscription is listed on one channel of the table, once. -/
theorem listed_once (hok : FeedOk feed) {id : Nat} {subscription : Subscription}
    (hsubscription : feed.subscriptions[id]? = some subscription)
    (hopen : subscription.mailbox.isShut = false) :
    ∃ channel, feed.channels.get? subscription.channel = some channel ∧
      channel.mailboxes.count id = 1 ∧ ∀ key other, feed.channels.get? key = some other →
        id ∈ other.mailboxes → key = subscription.channel := by
  have hlisted := (hok.listed subscription.channel id).mpr ⟨subscription, hsubscription, rfl, hopen⟩
  cases hchannel : feed.channels.get? subscription.channel with
  | none => simp [ListenerFeed.channelOf, hchannel] at hlisted
  | some channel =>
      have hof := channelOf_of_get? hchannel
      rw [hof] at hlisted
      refine ⟨channel, rfl,
        List.count_eq_one_of_mem (hof ▸ hok.nodup subscription.channel) hlisted, ?_⟩
      intro key other hother hmailbox
      obtain ⟨found, hfound, hfoundChannel, -⟩ :=
        (hok.listed key id).mp ((channelOf_of_get? hother).symm ▸ hmailbox)
      obtain rfl := Option.some.inj (hsubscription.symm.trans hfound)
      exact hfoundChannel.symm

end

/-! ## Every run -/

/-- After every run the count is that of the open subscriptions and of the listed mailboxes;
a subscription is taken below the limit only; an open one is listed once, on one channel, and
holds no more than it may; no channel stays idle in the table; and no call fails. -/
theorem feed_accounted {elapsedNow : Int} {trace : List (FeedAction × FeedReply)}
    {state : FeedState} (hrun : feedMachine.Run (idleFeed elapsedNow) trace state) :
    (state.feed.openCount = state.feed.openSubscriptions ∧
      state.feed.openSubscriptions = state.feed.listedMailboxes) ∧
    (∀ key limit id, (state.feed.subscribe key limit).2 = some id →
      state.feed.openCount < limit) ∧
    (∀ (id : Nat) subscription, state.feed.subscriptions[id]? = some subscription →
      subscription.mailbox.isShut = false → subscription.mailbox.backlog ≤ pendingLimit ∧
      ∃ channel, state.feed.channels.get? subscription.channel = some channel ∧
        channel.mailboxes.count id = 1 ∧ ∀ key other, state.feed.channels.get? key = some other →
          id ∈ other.mailboxes → key = subscription.channel) ∧
    (∀ key channel, state.feed.channels.get? key = some channel →
      channel.stillPlaying ≠ [] ∨ channel.mailboxes ≠ []) ∧
    NeverFails state.feed state.elapsedNow := by
  have hok := (feedRunOk hrun).ok
  have hbooks := booksOk hrun
  refine ⟨⟨hbooks.balanced, (listedMailboxes_eq hok).symm⟩, ?_, ?_, ?_, hok.neverFails _⟩
  · intro key limit id hid
    unfold ListenerFeed.subscribe at hid
    split at hid
    · cases hid
    next hbelow => exact Int.not_le.mp hbelow
  · exact fun id subscription hsubscription hopen =>
      ⟨hbooks.within id subscription hsubscription, listed_once hok hsubscription hopen⟩
  · intro key channel hchannel
    by_contra hidle
    refine hbooks.tidy key ⟨channel, hchannel, ?_⟩
    rw [not_or, not_not, not_not] at hidle
    simp [Channel.idle, hidle]

/-- A subscription falls behind as its channel's only stream ends: it is disconnected on the
way, and closed once more by its reader. -/
theorem feed_accounted_disconnected : ∃ trace state,
    feedMachine.Run (idleFeed 0) trace state ∧ state.feed.subscriptions.length = 2 ∧
      state.feed.openCount = 1 ∧ state.feed.channels.size = 1 ∧
      state.feed.openCount = state.feed.openSubscriptions := by
  have hrun := Transition.Machine.run_of_exec (rfl : feedMachine.exec (idleFeed 0)
    ([.subscribe ⟨"key", 1, 1⟩ 4, .opened ⟨"key", 1, 1⟩ 7, .subscribe ⟨"other", 1, 1⟩ 4] ++
      List.replicate 15 (.refused ⟨"key", 1, 1⟩ .busy) ++
      [.ended ⟨"key", 1, 1⟩ 7 .ended, .aclose 0]) = some (_, _))
  exact ⟨_, _, hrun, rfl, rfl, rfl, (feed_accounted hrun).1.1⟩

end RetroStation.Streaming
