import RetroStation.Streaming.FeedCalls

/-! # One step of the listener feed

A step touches a subscription's mailbox in one of four ways, and takes a title
only from its channel's owner.
-/

namespace RetroStation.Streaming

/-! ## What a step says of one subscription -/

/-- What a step delivered to a subscription. -/
def FeedReply.deliveredTo (id : Nat) : FeedReply → Option Delivery
  | .told said => reached said id
  | _ => none

/-- What a step of its reader returned. -/
def FeedReply.readBy (id : Nat) : FeedReply → Option ListenerEvent
  | .reads reader reply => if reader = id then reply.event? else none
  | _ => none

/-! ## One step -/

/-- What a step may do to one subscription's mailbox. -/
inductive MailboxStep (elapsedNow : Int) (action : FeedAction) (reply : FeedReply) (id : Nat)
    (mailbox : Mailbox) : Mailbox → Prop
  | untouched (hdelivered : reply.deliveredTo id = none) (hread : reply.readBy id = none) :
      MailboxStep elapsedNow action reply id mailbox mailbox
  | delivered (delivery : Delivery) (hdelivered : reply.deliveredTo id = some delivery)
      (hread : reply.readBy id = none) :
      MailboxStep elapsedNow action reply id mailbox (mailbox.delivered elapsedNow delivery)
  | closed (haction : action = .aclose id) (hdelivered : reply.deliveredTo id = none)
      (hread : reply.readBy id = none) :
      MailboxStep elapsedNow action reply id mailbox mailbox.shut
  | reads (step : ReaderAction) (answer : ReaderReply) (next : Mailbox)
      (hreply : reply = .reads id answer)
      (hstep : mailbox.readerStep elapsedNow step = some (next, answer)) :
      MailboxStep elapsedNow action reply id mailbox next

/-- What one step does to the feed: every subscription keeps its channel, what is
told is numbered in turn, and titles come from owners. -/
structure StepEffect (state next : FeedState) (action : FeedAction) (reply : FeedReply) :
    Prop where
  ok : FeedOk next.feed
  told : state.feed.told ≤ next.feed.told
  clock : state.elapsedNow ≤ next.elapsedNow
  kept : ∀ (id : Nat) subscription, state.feed.subscriptions[id]? = some subscription →
    ∃ mailbox, next.feed.subscriptions[id]? = some { subscription with mailbox := mailbox } ∧
      MailboxStep state.elapsedNow action reply id subscription.mailbox mailbox
  made : ∀ (id : Nat) subscription, state.feed.subscriptions[id]? = none →
    next.feed.subscriptions[id]? = some subscription →
    subscription.mailbox = { held := (state.feed.channelOf subscription.channel).current }
  unmade : ∀ id : Nat, state.feed.subscriptions[id]? = none →
    reply.deliveredTo id = none ∧ reply.readBy id = none
  numbered : ∀ id delivery, reply.deliveredTo id = some delivery →
    delivery.serial = state.feed.told ∧ next.feed.told = state.feed.told + 1
  held : ∀ (id : Nat) subscription held, state.feed.subscriptions[id]? = some subscription →
    reply.deliveredTo id = some (.hold held) → ∃ session,
      state.feed.owner subscription.channel = some session ∧
        action = .title subscription.channel session held.title.artist held.title.title held.showsAt
  current : ∀ key held, (next.feed.channelOf key).current = some held →
    (state.feed.channelOf key).current = some held ∨
      (held.title.serial = state.feed.told ∧ state.feed.told < next.feed.told ∧
        ∃ session, state.feed.owner key = some session ∧
          action = .title key session held.title.artist held.title.title held.showsAt)

section

variable {state next : FeedState} {action : FeedAction} {reply : FeedReply}

/-- A step that tells something through a call of the feed. -/
theorem calls_effect {key : BookmarkKey} {feed : ListenerFeed} {told : Option Told}
    (hok : FeedOk state.feed) (hcalls : Calls state.feed feed key state.elapsedNow told)
    (hheld : ∀ said held, told = some said → said.delivery = .hold held →
      ∃ session, state.feed.owner key = some session ∧
        action = .title key session held.title.artist held.title.title held.showsAt)
    (hcurrent : ∀ key held, (feed.channelOf key).current = some held →
      (state.feed.channelOf key).current = some held ∨
        (held.title.serial = state.feed.told ∧ state.feed.told < feed.told ∧
          ∃ session, state.feed.owner key = some session ∧
            action = .title key session held.title.artist held.title.title held.showsAt)) :
    StepEffect state { state with feed := feed } action (.told told) where
  ok := hcalls.ok
  told := hcalls.mono
  clock := Int.le_refl _
  kept id subscription hsubscription := by
    refine ⟨subscription.mailbox.after state.elapsedNow (reached told id),
      by simp [hcalls.subscriptions, hsubscription], ?_⟩
    cases hreached : reached told id with
    | none => exact .untouched hreached rfl
    | some delivery => exact .delivered delivery hreached rfl
  made id subscription hnone hmade := by
    rw [hcalls.subscriptions, hnone] at hmade
    cases hmade
  unmade id hnone := by
    refine ⟨?_, rfl⟩
    cases hreached : reached told id with
    | none => exact hreached
    | some delivery =>
        obtain ⟨said, rfl, hmember, -⟩ := reached_eq_some.mp hreached
        rw [(hcalls.said said rfl).2.2, hok.listed] at hmember
        obtain ⟨subscription, hsubscription, -⟩ := hmember
        rw [hnone] at hsubscription
        cases hsubscription
  numbered id delivery hdelivered := by
    obtain ⟨said, rfl, -, rfl⟩ := reached_eq_some.mp hdelivered
    exact ⟨(hcalls.said said rfl).1, (hcalls.said said rfl).2.1⟩
  held id subscription held hsubscription hdelivered := by
    obtain ⟨said, rfl, hmember, hsaid⟩ := reached_eq_some.mp hdelivered
    rw [(hcalls.said said rfl).2.2, hok.listed] at hmember
    obtain ⟨found, hfound, rfl, -⟩ := hmember
    obtain rfl := Option.some.inj (hsubscription.symm.trans hfound)
    exact hheld said held rfl hsaid
  current := hcurrent

/-- A step that tells nothing and changes no title or stream. -/
theorem quiet_effect {feed : ListenerFeed} (hok : FeedOk feed)
    (htold : feed.told = state.feed.told) (hstreams : SameStreams state.feed feed)
    (hreply : ∀ id, reply.deliveredTo id = none)
    (hunmade : ∀ id : Nat, state.feed.subscriptions[id]? = none → reply.readBy id = none)
    (hmade : ∀ (id : Nat) subscription, state.feed.subscriptions[id]? = none →
      feed.subscriptions[id]? = some subscription →
      subscription.mailbox = { held := (state.feed.channelOf subscription.channel).current })
    (hkept : ∀ (id : Nat) subscription, state.feed.subscriptions[id]? = some subscription →
      ∃ mailbox, feed.subscriptions[id]? = some { subscription with mailbox := mailbox } ∧
        MailboxStep state.elapsedNow action reply id subscription.mailbox mailbox) :
    StepEffect state { state with feed := feed } action reply where
  ok := hok
  told := htold.ge
  clock := Int.le_refl _
  kept := hkept
  made := hmade
  unmade id hnone := ⟨hreply id, hunmade id hnone⟩
  numbered id delivery hdelivered := by simp [hreply] at hdelivered
  held id subscription held _ hdelivered := by simp [hreply] at hdelivered
  current key held hcurrent := .inl ((hstreams key).2 ▸ hcurrent)

theorem subscribe_effect (hok : FeedOk state.feed) (key : BookmarkKey) (limit : Int) :
    StepEffect state { state with feed := (state.feed.subscribe key limit).1 } action
      (.subscribed (state.feed.subscribe key limit).2) := by
  unfold ListenerFeed.subscribe
  split
  · exact quiet_effect hok rfl (fun _ => ⟨rfl, rfl⟩) (fun _ => rfl) (fun _ _ => rfl)
      (fun id subscription hnone hmade => by rw [hnone] at hmade; cases hmade)
      fun id subscription hsubscription =>
        ⟨subscription.mailbox, hsubscription, .untouched rfl rfl⟩
  · refine quiet_effect (hok.subscribed key) rfl ?_ (fun _ => rfl) (fun _ _ => rfl) ?_ ?_
    · intro other
      rw [channelOf_subscribed]
      split
      next hother => rw [hother]; exact ⟨rfl, rfl⟩
      next => exact ⟨rfl, rfl⟩
    · intro id subscription hnone hmade
      rw [ListenerFeed.subscribed,
        List.getElem?_append_right (List.getElem?_eq_none_iff.mp hnone)] at hmade
      obtain rfl := List.mem_singleton.mp (List.mem_of_getElem? hmade)
      rfl
    · intro id subscription hsubscription
      exact ⟨subscription.mailbox, (List.getElem?_append_left
        (List.getElem?_eq_some_iff.mp hsubscription).1).trans hsubscription, .untouched rfl rfl⟩

theorem aclose_effect (hok : FeedOk state.feed) {id : Nat} (haction : action = .aclose id) :
    StepEffect state { state with feed := state.feed.aclose id } action .silent := by
  have hstays : StepEffect state { state with feed := state.feed } action .silent :=
    quiet_effect hok rfl (fun _ => ⟨rfl, rfl⟩) (fun _ => rfl) (fun _ _ => rfl)
      (fun id subscription hnone hmade => by rw [hnone] at hmade; cases hmade)
      fun id subscription hsubscription =>
        ⟨subscription.mailbox, hsubscription, .untouched rfl rfl⟩
  unfold ListenerFeed.aclose
  split
  · exact hstays
  next subscription hsubscription =>
    cases hopen : subscription.mailbox.isShut with
    | true => simpa [ListenerFeed.forget, hsubscription, hopen] using hstays
    | false =>
        have hcloses := forget_closes hok hsubscription hopen
        refine quiet_effect hcloses.ok hcloses.told hcloses.streams (fun _ => rfl)
          (fun _ _ => rfl) (fun other found hnone hmade => ?_) fun other found hfound => ?_
        · rw [hcloses.subscriptions, hnone] at hmade
          cases hmade
        · by_cases hother : other = id
          · subst hother
            exact ⟨found.mailbox.shut, by simp [hcloses.subscriptions, hfound],
              .closed haction rfl rfl⟩
          · exact ⟨found.mailbox, by simp [hcloses.subscriptions, hfound, hother],
              .untouched rfl rfl⟩

theorem read_effect (hok : FeedOk state.feed) {id : Nat} {step : ReaderAction}
    {feed : ListenerFeed} {answer : ReaderReply}
    (hread : state.feed.read state.elapsedNow id step = some (feed, answer)) :
    StepEffect state { state with feed := feed } action (.reads id answer) := by
  unfold ListenerFeed.read at hread
  split at hread
  · cases hread
  next subscription hsubscription =>
    obtain ⟨⟨mailbox, _⟩, hstep, heq⟩ := Option.map_eq_some_iff.mp hread
    obtain ⟨rfl, rfl⟩ := Prod.mk.inj heq
    have hupdated : ∀ other : Nat, (state.feed.update id fun _ => mailbox).subscriptions[other]? =
        (state.feed.subscriptions[other]?).map fun found =>
          if other = id then { found with mailbox := mailbox } else found :=
      fun other => state.feed.update_subscriptions id other _
    refine quiet_effect (hok.update ?_) rfl (fun _ => ⟨rfl, rfl⟩) (fun _ => rfl) ?_ ?_ ?_
    · intro found hfound
      obtain rfl := Option.some.inj (hsubscription.symm.trans hfound)
      exact Mailbox.readerStep_isShut hstep
    · intro other hnone
      have hother : id ≠ other := by
        rintro rfl
        rw [hsubscription] at hnone
        cases hnone
      simp [FeedReply.readBy, hother]
    · intro other found hnone hmade
      rw [hupdated, hnone] at hmade
      cases hmade
    · intro other found hfound
      by_cases hother : other = id
      · subst hother
        obtain rfl := Option.some.inj (hsubscription.symm.trans hfound)
        exact ⟨mailbox, by simp [hupdated, hsubscription],
          .reads step _ mailbox rfl hstep⟩
      · exact ⟨found.mailbox, by simp [hupdated, hfound, hother],
          .untouched rfl (by simp [FeedReply.readBy, Ne.symm hother])⟩

/-- Only the owner's title is ever held; a call that tells a status holds none. -/
theorem feed_step (hok : FeedOk state.feed)
    (hstep : feedMachine.step state action = some (next, reply)) :
    StepEffect state next action reply := by
  -- Every call is its `calls` lemma with the delivery it made; only `title` holds one back.
  cases action with
  | advance elapsedNow =>
      simp only [feedMachine] at hstep
      split at hstep
      next hlater =>
        cases hstep
        refine ⟨hok, le_rfl, hlater, fun id subscription hsubscription =>
          ⟨subscription.mailbox, hsubscription, .untouched rfl rfl⟩,
          fun id subscription hnone hmade => ?_, fun _ _ => ⟨rfl, rfl⟩,
          fun _ _ hdelivered => (by cases hdelivered),
          fun _ _ _ _ hdelivered => (by cases hdelivered), fun _ _ hcurrent => .inl hcurrent⟩
        rw [hnone] at hmade
        cases hmade
      next => cases hstep
  | opened key session =>
      cases hstep
      obtain ⟨hcalls, -, hstreams⟩ := opened_calls hok state.elapsedNow key session
      refine calls_effect hok hcalls ?_ fun other held hcurrent => ?_
      · intro said held hsaid hheld
        rw [tell_said hsaid] at hheld
        cases hheld
      · rw [(hstreams other).2] at hcurrent
        split at hcurrent
        · cases hcurrent
        · exact .inl hcurrent
  | refused key kind =>
      cases hstep
      obtain ⟨hcalls, -, hstreams⟩ := refused_calls hok state.elapsedNow key kind
      refine calls_effect hok hcalls ?_ fun other held hcurrent =>
        .inl ((hstreams other).2 ▸ hcurrent)
      intro said held hsaid hheld
      rw [tell_said hsaid] at hheld
      cases hheld
  | title key session artist text showsAt =>
      cases hstep
      obtain ⟨hcalls, hcases⟩ := title_calls hok state.elapsedNow key session artist text showsAt
      refine calls_effect hok hcalls ?_ fun other held hcurrent => ?_
      · intro said held hsaid hheld
        rcases hcases with ⟨-, hnothing⟩ | ⟨howner, -, hdelivery, -⟩
        · rw [hnothing] at hsaid
          cases hsaid
        · rw [hdelivery said hsaid, Delivery.hold.injEq] at hheld
          subst hheld
          exact ⟨session, howner, rfl⟩
      · rcases hcases with ⟨-, hnothing⟩ | ⟨howner, htold, -, hstreams⟩
        · rw [hnothing] at hcurrent
          exact .inl hcurrent
        · rw [(hstreams other).2] at hcurrent
          split at hcurrent
          next hother =>
            obtain rfl := Option.some.inj hcurrent
            exact .inr ⟨rfl, by omega, session, hother ▸ howner, by rw [hother]⟩
          next => exact .inl hcurrent
  | ended key session kind =>
      cases hstep
      obtain ⟨hcalls, hcases⟩ := ended_calls hok state.elapsedNow key session kind
      refine calls_effect hok hcalls ?_ fun other held hcurrent => ?_
      · intro said held hsaid hheld
        rcases hcases with ⟨-, hnothing⟩ | ⟨-, hdelivery, -⟩
        · rw [hnothing] at hsaid
          cases hsaid
        · rw [(hdelivery said hsaid).2] at hheld
          cases hheld
      · rcases hcases with ⟨-, hnothing⟩ | ⟨-, -, hstreams⟩
        · rw [hnothing] at hcurrent
          exact .inl hcurrent
        · rw [(hstreams other).2] at hcurrent
          split at hcurrent
          next hother =>
            split at hcurrent
            · cases hcurrent
            · exact .inl (hother ▸ hcurrent)
          next => exact .inl hcurrent
  | subscribe key limit =>
      cases hstep
      exact subscribe_effect hok key limit
  | aclose id =>
      cases hstep
      exact aclose_effect hok rfl
  | reader id step =>
      obtain ⟨⟨feed, answer⟩, hread, heq⟩ := Option.map_eq_some_iff.mp hstep
      obtain ⟨rfl, rfl⟩ := Prod.mk.inj heq
      exact read_effect hok hread

end

/-! ## The streams of a channel -/

/-- A step's effect on what still plays on a channel. -/
def FeedAction.plays (key : BookmarkKey) (playing : List Uuid) : FeedAction → List Uuid
  | .opened other session => if other = key then playing ++ [session] else playing
  | .ended other session _ => if other = key then playing.erase session else playing
  | _ => playing

theorem step_plays {state next : FeedState} {action : FeedAction} {reply : FeedReply}
    (hok : FeedOk state.feed) (hstep : feedMachine.step state action = some (next, reply))
    (key : BookmarkKey) : (next.feed.channelOf key).stillPlaying =
      action.plays key (state.feed.channelOf key).stillPlaying := by
  have hother : ∀ {other : BookmarkKey} {playing : List Uuid} {current : Option Held}
      {feed : ListenerFeed}, ChangesStreams state.feed feed other playing current →
      (feed.channelOf key).stillPlaying =
        if other = key then playing else (state.feed.channelOf key).stillPlaying := by
    intro other playing current feed hstreams
    rw [(hstreams key).1]
    by_cases heq : key = other
    · simp [heq]
    · simp [heq, Ne.symm heq]
  cases action with
  | advance elapsedNow =>
      simp only [feedMachine] at hstep
      split at hstep
      · cases hstep; rfl
      · cases hstep
  | opened other session =>
      cases hstep
      rw [hother (opened_calls hok state.elapsedNow other session).2.2, FeedAction.plays]
      split
      next heq => rw [heq]
      next => rfl
  | refused other kind =>
      cases hstep
      exact ((refused_calls hok state.elapsedNow other kind).2.2 key).1
  | title other session artist text showsAt =>
      cases hstep
      rcases (title_calls hok state.elapsedNow other session artist text showsAt).2 with
        ⟨-, hnothing⟩ | ⟨-, -, -, hstreams⟩
      · simp only [hnothing]
        rfl
      · rw [hother hstreams]
        split
        next heq => rw [heq]; rfl
        next => rfl
  | ended other session kind =>
      cases hstep
      rcases (ended_calls hok state.elapsedNow other session kind).2 with
        ⟨hnot, hnothing⟩ | ⟨-, -, hstreams⟩
      · simp only [hnothing, FeedAction.plays]
        split
        next heq => rw [List.erase_of_not_mem (heq ▸ hnot)]
        next => rfl
      · rw [hother hstreams, FeedAction.plays]
        split
        next heq => rw [heq]
        next => rfl
  | subscribe other limit =>
      have hnext : { state with feed := (state.feed.subscribe other limit).1 } = next :=
        congrArg Prod.fst (Option.some.inj hstep)
      subst hnext
      unfold ListenerFeed.subscribe
      split
      · rfl
      · change ((state.feed.subscribed other).channelOf key).stillPlaying = _
        rw [channelOf_subscribed]
        split
        next heq => rw [heq]; rfl
        next => rfl
  -- A listener who leaves tells nobody that a session ended.
  | aclose id =>
      cases hstep
      simp only [FeedAction.plays, ListenerFeed.aclose]
      split
      · rfl
      next subscription hsubscription =>
        cases hopen : subscription.mailbox.isShut with
        | true => simp [ListenerFeed.forget, hsubscription, hopen]
        | false => exact ((forget_closes hok hsubscription hopen).streams key).1
  | reader id step =>
      obtain ⟨⟨feed, answer⟩, hread, heq⟩ := Option.map_eq_some_iff.mp hstep
      obtain ⟨rfl, rfl⟩ := Prod.mk.inj heq
      unfold ListenerFeed.read at hread
      split at hread
      · cases hread
      · obtain ⟨_, -, hanswer⟩ := Option.map_eq_some_iff.mp hread
        obtain ⟨rfl, rfl⟩ := Prod.mk.inj hanswer
        rfl

end RetroStation.Streaming
