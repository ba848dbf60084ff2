import RetroStation.Streaming.FeedSteps

/-! # The order of the listener feed

Whatever the interleaving of callers, readers and the clock, a subscription
reads its statuses in the order told, and a title only from its channel's owner,
once its delay has passed, and before whatever superseded it.
-/

namespace RetroStation.Streaming

/-! ## What a trace says of one subscription -/

def deliveredTo (trace : List (FeedAction × FeedReply)) (id : Nat) : List Delivery :=
  trace.filterMap fun entry => entry.2.deliveredTo id

def readBy (trace : List (FeedAction × FeedReply)) (id : Nat) : List ListenerEvent :=
  trace.filterMap fun entry => entry.2.readBy id

/-- The feed before anything is told. -/
def idleFeed (elapsedNow : Int) : FeedState := ⟨{}, elapsedNow⟩

/-- The title was reported on the channel by the session that owned it then. -/
def Reported (elapsedNow : Int) (trace : List (FeedAction × FeedReply)) (key : BookmarkKey)
    (held : Held) : Prop :=
  ∃ before session reply after state,
    trace = before ++ (.title key session held.title.artist held.title.title held.showsAt, reply) ::
      after ∧
    feedMachine.Run (idleFeed elapsedNow) before state ∧
    state.feed.owner key = some session ∧ held.title.serial = state.feed.told

theorem Reported.mono {elapsedNow : Int} {trace : List (FeedAction × FeedReply)}
    {key : BookmarkKey} {held : Held} (hreported : Reported elapsedNow trace key held)
    (more : List (FeedAction × FeedReply)) : Reported elapsedNow (trace ++ more) key held := by
  obtain ⟨before, session, reply, after, state, rfl, hrun, howner, hserial⟩ := hreported
  exact ⟨before, session, reply, after ++ more, state, by simp, hrun, howner, hserial⟩

/-! ## Every run -/

/-- A mailbox keeps its order through a step. -/
theorem MailboxStep.ok {elapsedNow : Int} {action : FeedAction} {reply : FeedReply} {id : Nat}
    {mailbox after : Mailbox} (hstep : MailboxStep elapsedNow action reply id mailbox after)
    {initial : Option Held} {told : List Delivery} {read : List ListenerEvent} {next later : Nat}
    (hok : MailboxOk initial told read next elapsedNow mailbox)
    (hnumbered : ∀ delivery, reply.deliveredTo id = some delivery →
      delivery.serial = next ∧ later = next + 1) (hlater : next ≤ later) :
    MailboxOk initial (told ++ (reply.deliveredTo id).toList)
      (read ++ (reply.readBy id).toList) later elapsedNow after := by
  cases hstep with
  | untouched hdelivered hread => simpa [hdelivered, hread] using hok.mono hlater
  | delivered delivery hdelivered hread =>
      obtain ⟨hserial, rfl⟩ := hnumbered delivery hdelivered
      simpa [hdelivered, hread] using hok.delivered hserial
  | closed _ hdelivered hread => simpa [hdelivered, hread] using hok.shut.mono hlater
  | reads step answer _ hreply hstep =>
      subst hreply
      simpa [FeedReply.deliveredTo, FeedReply.readBy] using
        (readerStep_reads hok hstep).ok.mono hlater

/-- What is known of every subscription, and of the titles of every channel,
after a run. -/
structure FeedRunOk (elapsedNow : Int) (trace : List (FeedAction × FeedReply))
    (state : FeedState) : Prop where
  ok : FeedOk state.feed
  mailboxes : ∀ (id : Nat) subscription, state.feed.subscriptions[id]? = some subscription →
    ∃ initial, (∀ held, initial = some held →
        Reported elapsedNow trace subscription.channel held) ∧
      MailboxOk initial (deliveredTo trace id) (readBy trace id) state.feed.told
        state.elapsedNow subscription.mailbox
  unmade : ∀ id : Nat, state.feed.subscriptions[id]? = none →
    deliveredTo trace id = [] ∧ readBy trace id = []
  held : ∀ (id : Nat) subscription held, state.feed.subscriptions[id]? = some subscription →
    .hold held ∈ deliveredTo trace id → Reported elapsedNow trace subscription.channel held
  current : ∀ key held, (state.feed.channelOf key).current = some held →
    Reported elapsedNow trace key held ∧ held.title.serial < state.feed.told

section

variable {elapsedNow : Int} {trace : List (FeedAction × FeedReply)} {state : FeedState}

theorem feedRunOk (hrun : feedMachine.Run (idleFeed elapsedNow) trace state) :
    FeedRunOk elapsedNow trace state := by
  induction hrun with
  | nil =>
      refine ⟨⟨?_, ?_, ?_⟩, ?_, ?_, ?_, ?_⟩ <;>
        simp [idleFeed, ListenerFeed.channelOf, deliveredTo, readBy]
  | @snoc trace state next action reply hrun hstep ih =>
      have heffect := feed_step ih.ok hstep
      have hdelivered : ∀ id, deliveredTo (trace ++ [(action, reply)]) id =
          deliveredTo trace id ++ (reply.deliveredTo id).toList := by
        intro id
        cases hreply : reply.deliveredTo id <;> simp [deliveredTo, hreply]
      have hread : ∀ id, readBy (trace ++ [(action, reply)]) id =
          readBy trace id ++ (reply.readBy id).toList := by
        intro id
        cases hreply : reply.readBy id <;> simp [readBy, hreply]
      -- a title the step takes from an owner is reported by this very step
      have hnow : ∀ key held, held.title.serial = state.feed.told →
          (∃ session, state.feed.owner key = some session ∧ action =
            .title key session held.title.artist held.title.title held.showsAt) →
          Reported elapsedNow (trace ++ [(action, reply)]) key held := by
        rintro key held hserial ⟨session, howner, rfl⟩
        exact ⟨trace, session, reply, [], state, rfl, hrun, howner, hserial⟩
      have hbefore : ∀ (id : Nat) subscription,
          next.feed.subscriptions[id]? = some subscription →
          state.feed.subscriptions[id]? = none ∨ ∃ earlier,
            state.feed.subscriptions[id]? = some earlier ∧
              earlier.channel = subscription.channel := by
        intro id subscription hsubscription
        cases hearlier : state.feed.subscriptions[id]? with
        | none => exact .inl rfl
        | some earlier =>
            obtain ⟨mailbox, hkept, -⟩ := heffect.kept id earlier hearlier
            rw [hkept] at hsubscription
            exact .inr ⟨earlier, rfl, by rw [← Option.some.inj hsubscription]⟩
      constructor
      case ok => exact heffect.ok
      case mailboxes =>
        intro id subscription hsubscription
        rw [hdelivered, hread]
        rcases hbefore id subscription hsubscription with hnone | ⟨earlier, hearlier, hchannel⟩
        · obtain ⟨hnotTold, hnotRead⟩ := ih.unmade id hnone
          obtain ⟨hnotNow, hnotReadNow⟩ := heffect.unmade id hnone
          have hmade := heffect.made id subscription hnone hsubscription
          refine ⟨(state.feed.channelOf subscription.channel).current, fun held hheld =>
            (ih.current _ held hheld).1.mono _, ?_⟩
          rw [hnotTold, hnotRead, hnotNow, hnotReadNow, hmade]
          exact mailboxOk_made (fun held hheld =>
            (ih.current _ held hheld).2.trans_le heffect.told) _
        · obtain ⟨mailbox, hkept, hkeeps⟩ := heffect.kept id earlier hearlier
          obtain ⟨initial, hinitial, hmailbox⟩ := ih.mailboxes id earlier hearlier
          rw [hkept] at hsubscription
          obtain rfl := Option.some.inj hsubscription
          exact ⟨initial, fun held hheld => (hinitial held hheld).mono _,
            (hkeeps.ok hmailbox (heffect.numbered id) heffect.told).later heffect.clock⟩
      case unmade =>
        intro id hnone
        rw [hdelivered, hread]
        have hearlier : state.feed.subscriptions[id]? = none := by
          cases hearlier : state.feed.subscriptions[id]? with
          | none => rfl
          | some earlier =>
              obtain ⟨mailbox, hkept, -⟩ := heffect.kept id earlier hearlier
              rw [hnone] at hkept
              cases hkept
        obtain ⟨hnotTold, hnotRead⟩ := ih.unmade id hearlier
        obtain ⟨hnotNow, hnotReadNow⟩ := heffect.unmade id hearlier
        simp [hnotTold, hnotRead, hnotNow, hnotReadNow]
      case held =>
        intro id subscription held hsubscription hheld
        rw [hdelivered] at hheld
        rcases hbefore id subscription hsubscription with hnone | ⟨earlier, hearlier, hchannel⟩
        · simp [(ih.unmade id hnone).1, (heffect.unmade id hnone).1] at hheld
        · rw [← hchannel]
          rcases List.mem_append.mp hheld with hheld | hheld
          · exact (ih.held id earlier held hearlier hheld).mono _
          · have hnew := Option.mem_toList.mp hheld
            exact hnow _ held (heffect.numbered id _ hnew).1
              (heffect.held id earlier held hearlier hnew)
      case current =>
        intro key held hcurrent
        rcases heffect.current key held hcurrent with hearlier | ⟨hserial, htold, howner⟩
        · obtain ⟨hreported, hserial⟩ := ih.current key held hearlier
          exact ⟨hreported.mono _, hserial.trans_le heffect.told⟩
        · exact ⟨hnow key held hserial howner, hserial ▸ htold⟩

end

/-! ## The sessions of a trace -/

/-- The sessions opened on a channel, in the order admitted. -/
def openedOn (trace : List (FeedAction × FeedReply)) (key : BookmarkKey) : List Uuid :=
  trace.filterMap fun entry =>
    match entry.1 with
    | .opened other session => if other = key then some session else none
    | _ => none

/-- Every session opened. -/
def openedSessions (trace : List (FeedAction × FeedReply)) : List Uuid :=
  trace.filterMap fun entry =>
    match entry.1 with
    | .opened _ session => some session
    | _ => none

/-- The session was opened on the channel and has not ended on it since. -/
def StillPlaying (trace : List (FeedAction × FeedReply)) (key : BookmarkKey) (session : Uuid) :
    Prop :=
  ∃ before reply after, trace = before ++ (.opened key session, reply) :: after ∧
    ∀ kind reply, (.ended key session kind, reply) ∉ after

theorem stillPlaying_snoc {trace : List (FeedAction × FeedReply)} {action : FeedAction}
    {reply : FeedReply} {key : BookmarkKey} {session : Uuid} :
    StillPlaying (trace ++ [(action, reply)]) key session ↔
      action = .opened key session ∨
        StillPlaying trace key session ∧ ∀ kind, action ≠ .ended key session kind := by
  constructor
  · rintro ⟨before, opened, after, htrace, hended⟩
    rcases List.eq_nil_or_concat after with rfl | ⟨earlier, last, rfl⟩
    · obtain ⟨-, hlast⟩ := List.append_inj' htrace rfl
      exact .inl (congrArg Prod.fst (List.singleton_inj.mp hlast))
    · rw [List.concat_eq_append] at htrace hended
      rw [← List.cons_append, ← List.append_assoc] at htrace
      obtain ⟨rfl, hlast⟩ := List.append_inj' htrace rfl
      refine .inr ⟨⟨before, opened, earlier, rfl, fun kind reply hmem =>
        hended kind reply (List.mem_append_left _ hmem)⟩, ?_⟩
      rintro kind rfl
      exact hended kind reply (by simp [List.singleton_inj.mp hlast])
  · rintro (rfl | ⟨⟨before, opened, after, rfl, hended⟩, haction⟩)
    · exact ⟨trace, reply, [], rfl, by simp⟩
    · refine ⟨before, opened, after ++ [(action, reply)], by simp, fun kind other hmem => ?_⟩
      rcases List.mem_append.mp hmem with hearlier | hnow
      · exact hended kind other hearlier
      · exact haction kind (congrArg Prod.fst (List.mem_singleton.mp hnow)).symm

theorem openedOn_sublist (trace : List (FeedAction × FeedReply)) (key : BookmarkKey) :
    (openedOn trace key).Sublist (openedSessions trace) := by
  induction trace with
  | nil => exact List.Sublist.refl _
  | cons entry rest ih =>
      obtain ⟨action, reply⟩ := entry
      cases action with
      | opened other session =>
          by_cases heq : other = key
          · simpa [openedOn, openedSessions, heq] using ih
          · simpa [openedOn, openedSessions, heq] using ih.cons session
      | _ => exact ih

section

variable {elapsedNow : Int} {trace : List (FeedAction × FeedReply)} {state : FeedState}

/-- When no session is opened twice, what still plays on a channel is what was
opened there and has not ended since, in the order admitted. -/
theorem streams_run (hrun : feedMachine.Run (idleFeed elapsedNow) trace state)
    (hopened : (openedSessions trace).Nodup) (key : BookmarkKey) :
    (state.feed.channelOf key).stillPlaying.Sublist (openedOn trace key) ∧
      ∀ session, session ∈ (state.feed.channelOf key).stillPlaying ↔
        StillPlaying trace key session := by
  induction hrun with
  | nil => exact ⟨List.Sublist.refl _, fun session => by simp [idleFeed, ListenerFeed.channelOf,
      StillPlaying]⟩
  | @snoc trace state next action reply hrun hstep ih =>
      have hearlier : (openedSessions trace).Nodup := by
        rw [openedSessions, List.filterMap_append] at hopened
        exact hopened.of_append_left
      obtain ⟨hsublist, hplaying⟩ := ih hearlier
      have hnodup : (state.feed.channelOf key).stillPlaying.Nodup :=
        (hearlier.sublist (openedOn_sublist trace key)).sublist hsublist
      rw [step_plays (feedRunOk hrun).ok hstep key]
      simp only [stillPlaying_snoc, ← hplaying]
      have happend : openedOn (trace ++ [(action, reply)]) key =
          openedOn trace key ++ openedOn [(action, reply)] key := List.filterMap_append
      rw [happend]
      cases action with
      | opened other session =>
          by_cases heq : other = key
          · subst heq
            refine ⟨by simpa [FeedAction.plays, openedOn] using hsublist, fun found => ?_⟩
            simp [FeedAction.plays, or_comm, eq_comm]
          · refine ⟨by simpa [FeedAction.plays, openedOn, heq] using hsublist, fun found => ?_⟩
            simp [FeedAction.plays, heq]
      | ended other session kind =>
          by_cases heq : other = key
          · subst heq
            refine ⟨by simpa [FeedAction.plays, openedOn] using List.erase_sublist.trans hsublist,
              fun found => ?_⟩
            simp only [FeedAction.plays, if_true, hnodup.mem_erase_iff]
            simp [and_comm, eq_comm]
          · refine ⟨by simpa [FeedAction.plays, openedOn, heq] using hsublist, fun found => ?_⟩
            simp [FeedAction.plays, heq]
      | _ => simpa [FeedAction.plays, openedOn] using hsublist

/-- The session was opened on the channel, and its end there has been told. -/
def HasEnded (trace : List (FeedAction × FeedReply)) (key : BookmarkKey) (session : Uuid) :
    Prop :=
  ∃ before kind reply after, trace = before ++ (.ended key session kind, reply) :: after ∧
    ∃ earlier, (.opened key session, earlier) ∈ before

theorem mem_openedSessions {key : BookmarkKey} {session : Uuid} {reply : FeedReply}
    (hopened : (.opened key session, reply) ∈ trace) : session ∈ openedSessions trace :=
  List.mem_filterMap.mpr ⟨_, hopened, rfl⟩

theorem openedSessions_split {before after : List (FeedAction × FeedReply)} {key : BookmarkKey}
    {session : Uuid} {reply : FeedReply} :
    openedSessions (before ++ (.opened key session, reply) :: after) =
      openedSessions before ++ session :: openedSessions after := by
  simp [openedSessions]

/-- No session is opened on two channels. -/
theorem opened_once {key other : BookmarkKey} {session : Uuid} {first second : FeedReply}
    (hopened : (openedSessions trace).Nodup)
    (hkey : (.opened key session, first) ∈ trace)
    (hother : (.opened other session, second) ∈ trace) : other = key := by
  obtain ⟨before, after, rfl⟩ := List.append_of_mem hkey
  rw [openedSessions_split, List.nodup_append, List.nodup_cons] at hopened
  obtain ⟨-, ⟨hafter, -⟩, hbefore⟩ := hopened
  rcases List.mem_append.mp hother with hother | hother
  · exact absurd rfl (hbefore session (mem_openedSessions hother) session (List.mem_cons_self ..))
  · rcases List.mem_cons.mp hother with heq | hother
    · cases heq
      rfl
    · exact absurd (mem_openedSessions hother) hafter

theorem feedOk_preserved : feedMachine.Preserves fun state => FeedOk state.feed :=
  fun _ _ _ _ hok hstep => (feed_step hok hstep).ok

/-- A session that plays nowhere plays nowhere until it is opened. -/
theorem gone_run {later : FeedState} (hok : FeedOk state.feed)
    (hrun : feedMachine.Run state trace later) {session : Uuid}
    (hgone : ∀ key, session ∉ (state.feed.channelOf key).stillPlaying)
    (hopened : session ∉ openedSessions trace) (key : BookmarkKey) :
    session ∉ (later.feed.channelOf key).stillPlaying := by
  induction hrun with
  | nil => exact hgone key
  | @snoc trace middle next action reply hrun hstep ih =>
      rw [openedSessions, List.filterMap_append, List.mem_append, not_or] at hopened
      have hearlier := ih hopened.1
      have hmiddle := @Transition.Machine.Run.invariant _ _ _ _ _ _ _
        (fun state => FeedOk state.feed) feedOk_preserved hok hrun
      rw [step_plays hmiddle hstep key]
      cases action with
      | opened other found =>
          have hne : session ≠ found := by simpa using hopened.2
          simp only [FeedAction.plays]
          split
          · simpa [hne] using hearlier
          · exact hearlier
      | ended other found kind =>
          simp only [FeedAction.plays]
          split
          · exact fun hplaying => hearlier (List.mem_of_mem_erase hplaying)
          · exact hearlier
      | _ => exact hearlier

/-- An ended session plays on no channel again. -/
theorem gone_after_ended (hrun : feedMachine.Run (idleFeed elapsedNow) trace state)
    (hopened : (openedSessions trace).Nodup) {key : BookmarkKey} {session : Uuid}
    (hended : HasEnded trace key session) (other : BookmarkKey) :
    session ∉ (state.feed.channelOf other).stillPlaying := by
  obtain ⟨before, kind, reply, after, rfl, first, hfirst⟩ := hended
  obtain ⟨middle, next, hbefore, hstep, hafter⟩ := hrun.split
  have hsplit : openedSessions (before ++ (.ended key session kind, reply) :: after) =
      openedSessions before ++ openedSessions after := by simp [openedSessions]
  rw [hsplit] at hopened
  have hopenedBefore := hopened.of_append_left
  have hok := (feedRunOk hbefore).ok
  refine gone_run (feedOk_preserved hok hstep) hafter (fun found hplaying => ?_) ?_ other
  · obtain ⟨hsublist, hiff⟩ := streams_run hbefore hopenedBefore found
    rw [step_plays hok hstep found, FeedAction.plays] at hplaying
    split at hplaying
    next heq =>
      have hnodup := (hopenedBefore.sublist (openedOn_sublist before found)).sublist hsublist
      exact absurd rfl (hnodup.mem_erase_iff.mp hplaying).1
    next hne =>
      obtain ⟨opens, opened, closes, rfl, -⟩ := (hiff session).mp hplaying
      exact hne (opened_once hopenedBefore
        (List.mem_append_right _ (List.mem_cons_self ..)) hfirst)
  · exact fun hlater => absurd rfl
      ((List.nodup_append.mp hopened).2.2 session (mem_openedSessions hfirst) session hlater)

/-! ## The delivery order -/

/-- One subscription's reads: its statuses are the first of those told, and its
titles and superseding statuses come in the order told. -/
structure ReadsInOrder (trace : List (FeedAction × FeedReply)) (id : Nat) : Prop where
  numbered : (deliveredTo trace id).Pairwise fun first second => first.serial < second.serial
  statuses : (readBy trace id).filterMap ListenerEvent.status? <+:
    (deliveredTo trace id).filterMap Delivery.status?
  order : (readBy trace id).Pairwise (InOrder (deliveredTo trace id))

/-- What a refusal does to one subscription of its channel: the waiting title
waits on and the status goes behind the queue, unless the subscription already
holds as much as it may, when it is disconnected. -/
def RefusalKeeps (mailbox next : Mailbox) (status : Status) : Prop :=
  if mailbox.backlog < pendingLimit then
    next.held = mailbox.held ∧ next.queue = mailbox.queue ++ [.status status] ∧
      next.isShut = mailbox.isShut
  else next.isShut = true ∧ next.unread = []

theorem delivered_tell (mailbox : Mailbox) (elapsedNow : Int) (status : Status) :
    RefusalKeeps mailbox (mailbox.delivered elapsedNow (.tell status)) status := by
  have hbacklog : (mailbox.tell status).backlog = mailbox.backlog + 1 := by
    simp only [Mailbox.backlog, Mailbox.tell, Mailbox.wake_queue, Mailbox.wake_held,
      List.length_append, List.length_singleton]
    omega
  unfold RefusalKeeps Mailbox.delivered
  simp only [Mailbox.deliver, hbacklog]
  split
  next hroom =>
    rw [if_neg (by omega)]
    simp [Mailbox.tell]
  next hfull =>
    rw [if_pos (by omega)]
    simp [Mailbox.shut, Mailbox.unread]

/-- A step's effect on a title that waits unread: it is read, it is dropped by
something newer told before its delay has passed, or its subscription ends. -/
theorem title_waits {next : FeedState} {action : FeedAction} {reply : FeedReply}
    (hok : FeedOk state.feed) (hstep : feedMachine.step state action = some (next, reply))
    {id : Nat} {subscription : Subscription} {title : NowPlaying}
    (hsubscription : state.feed.subscriptions[id]? = some subscription)
    (hunread : .nowPlaying title ∈ subscription.mailbox.unread) :
    ∃ mailbox, next.feed.subscriptions[id]? = some { subscription with mailbox := mailbox } ∧
      (.nowPlaying title ∈ mailbox.unread ∨ reply.readBy id = some (.nowPlaying title) ∨
        action = .aclose id ∨ ∃ delivery, reply.deliveredTo id = some delivery ∧
          (subscription.mailbox.Drops state.elapsedNow delivery title ∨
            pendingLimit < (subscription.mailbox.deliver state.elapsedNow delivery).backlog)) := by
  obtain ⟨mailbox, hmailbox, hmoved⟩ := (feed_step hok hstep).kept id subscription hsubscription
  refine ⟨mailbox, hmailbox, ?_⟩
  cases hmoved with
  | untouched => exact .inl hunread
  | delivered delivery hdelivered _ =>
      rcases Mailbox.delivered_keeps hunread delivery with hkept | hdrops | hover
      · exact .inl hkept
      · exact .inr (.inr (.inr ⟨delivery, hdelivered, .inl hdrops⟩))
      · exact .inr (.inr (.inr ⟨delivery, hdelivered, .inr hover⟩))
  | closed haction => exact .inr (.inr (.inl haction))
  | reads step answer _ hreply hreader =>
      rw [Mailbox.readerStep_unread hreader, List.mem_append] at hunread
      rcases hunread with hread | hkept
      · refine .inr (.inl ?_)
        simpa [hreply, FeedReply.readBy] using hread
      · exact .inl hkept

/-- A title is read once its delay has passed, and its session owned the channel
when it was reported. -/
theorem title_read (hrun : feedMachine.Run (idleFeed elapsedNow) trace state)
    {action : FeedAction} {next : FeedState} {id : Nat} {title : NowPlaying}
    (hstep : feedMachine.step state action =
      some (next, .reads id (.told (.nowPlaying title)))) :
    ∃ subscription held, state.feed.subscriptions[id]? = some subscription ∧
      held.title = title ∧ Reported elapsedNow trace subscription.channel held ∧
      held.showsAt ≤ state.elapsedNow := by
  have hrunOk := feedRunOk hrun
  have heffect := feed_step hrunOk.ok hstep
  have hread : (FeedReply.reads id (.told (.nowPlaying title))).readBy id =
      some (.nowPlaying title) := by simp [FeedReply.readBy, ReaderReply.event?]
  cases hsubscription : state.feed.subscriptions[id]? with
  | none =>
      have hnot := (heffect.unmade id hsubscription).2
      rw [hread] at hnot
      cases hnot
  | some subscription =>
      obtain ⟨mailbox, -, hmoved⟩ := heffect.kept id subscription hsubscription
      obtain ⟨initial, hinitial, hmailbox⟩ := hrunOk.mailboxes id subscription hsubscription
      cases hmoved with
      | untouched _ hnot | delivered _ _ hnot | closed _ _ hnot =>
          rw [hread] at hnot
          cases hnot
      | reads step answer _ hreply hreader =>
          obtain rfl := (FeedReply.reads.inj hreply).2
          obtain ⟨held, hoffered, htitle, hdue⟩ :=
            (readerStep_reads hmailbox hreader).due title rfl
          refine ⟨subscription, held, rfl, htitle, ?_, hdue⟩
          rcases hoffered with hfirst | htold
          · exact hinitial held hfirst
          · exact hrunOk.held id subscription held hsubscription htold

/-- Whatever the interleaving: every subscription reads in order; it reads a
title only from its channel's owner and once its delay has passed; a refusal
keeps the waiting title unless it disconnects, and so does every step that tells
nothing newer; and when no session is opened twice, an ended one reaches no one
and the next newest owns the channel. -/
theorem delivery_order (hrun : feedMachine.Run (idleFeed elapsedNow) trace state) :
    (∀ id : Nat, ReadsInOrder trace id) ∧
    (∀ action next id title,
      feedMachine.step state action = some (next, .reads id (.told (.nowPlaying title))) →
      ∃ subscription held, state.feed.subscriptions[id]? = some subscription ∧
        held.title = title ∧ Reported elapsedNow trace subscription.channel held ∧
        held.showsAt ≤ state.elapsedNow) ∧
    (∀ key kind next reply, feedMachine.step state (.refused key kind) = some (next, reply) →
      ∀ (id : Nat) subscription, state.feed.subscriptions[id]? = some subscription →
        ∃ mailbox, next.feed.subscriptions[id]? = some { subscription with mailbox := mailbox } ∧
          if subscription.channel = key ∧ subscription.mailbox.isShut = false then
            RefusalKeeps subscription.mailbox mailbox ⟨state.feed.told, kind⟩
          else mailbox = subscription.mailbox) ∧
    (∀ action next reply, feedMachine.step state action = some (next, reply) →
      ∀ (id : Nat) subscription title, state.feed.subscriptions[id]? = some subscription →
        .nowPlaying title ∈ subscription.mailbox.unread →
        ∃ mailbox, next.feed.subscriptions[id]? = some { subscription with mailbox := mailbox } ∧
          (.nowPlaying title ∈ mailbox.unread ∨ reply.readBy id = some (.nowPlaying title) ∨
            action = .aclose id ∨ ∃ delivery, reply.deliveredTo id = some delivery ∧
              (subscription.mailbox.Drops state.elapsedNow delivery title ∨
                pendingLimit <
                  (subscription.mailbox.deliver state.elapsedNow delivery).backlog))) ∧
    ((openedSessions trace).Nodup →
      (∀ key, ∃ playing : List Uuid, playing.Sublist (openedOn trace key) ∧
        (∀ session, session ∈ playing ↔ StillPlaying trace key session) ∧
        state.feed.owner key = playing.getLast?) ∧
      ∀ key session, HasEnded trace key session → ∀ other,
        (∀ artist text showsAt,
          feedMachine.step state (.title other session artist text showsAt) =
            some (state, .told none)) ∧
        ∀ kind, feedMachine.step state (.ended other session kind) =
          some (state, .told none)) := by
  have hrunOk := feedRunOk hrun
  refine ⟨fun id => ?_, ?_, ?_, ?_,
    fun hopened => ⟨fun key => ?_, fun key session hended other => ?_⟩⟩
  · cases hsubscription : state.feed.subscriptions[id]? with
    | none =>
        obtain ⟨hdelivered, hread⟩ := hrunOk.unmade id hsubscription
        constructor <;> simp [hdelivered, hread]
    | some subscription =>
        obtain ⟨initial, -, hmailbox⟩ := hrunOk.mailboxes id subscription hsubscription
        exact ⟨hmailbox.toldOrder, hmailbox.statusesRead,
          hmailbox.order.sublist (List.sublist_append_left _ _)⟩
  · exact fun action next id title hstep => title_read hrun hstep
  · intro key kind next reply hstep id subscription hsubscription
    obtain ⟨mailbox, hmailbox, hmoved⟩ :=
      (feed_step hrunOk.ok hstep).kept id subscription hsubscription
    cases hstep
    have hreached : FeedReply.deliveredTo id
        (.told (state.feed.refused state.elapsedNow key kind).2) =
          if id ∈ (state.feed.channelOf key).mailboxes
            then some (.tell ⟨state.feed.told, kind⟩) else none :=
      tell_reached { state.feed with told := state.feed.told + 1 } state.elapsedNow key _ id
    have hlisted : id ∈ (state.feed.channelOf key).mailboxes ↔
        subscription.channel = key ∧ subscription.mailbox.isShut = false := by
      simp [hrunOk.ok.listed, hsubscription]
    refine ⟨mailbox, hmailbox, ?_⟩
    simp only [hlisted] at hreached
    -- A refusal reaches the open mailboxes of its channel and no other.
    cases hmoved with
    | untouched hnot =>
        rw [hreached] at hnot
        split
        next hopen => simp [hopen] at hnot
        next => rfl
    | delivered delivery hdelivered =>
        rw [hreached] at hdelivered
        split
        next hopen =>
          rw [if_pos hopen] at hdelivered
          obtain rfl := Option.some.inj hdelivered
          exact delivered_tell ..
        next hclosed =>
          rw [if_neg hclosed] at hdelivered
          cases hdelivered
    | closed haction => cases haction
    | reads _ _ _ hreply => cases hreply
  · exact fun action next reply hstep id subscription title hsubscription hunread =>
      title_waits hrunOk.ok hstep hsubscription hunread
  · obtain ⟨hsublist, hiff⟩ := streams_run hrun hopened key
    exact ⟨_, hsublist, hiff, rfl⟩
  -- An ended session owns no channel any more, so what it reports is dropped.
  · have hgone := gone_after_ended hrun hopened hended other
    constructor
    · intro artist text showsAt
      have hnot : state.feed.owner other ≠ some session := fun howner =>
        hgone (List.mem_of_getLast? howner)
      rcases (title_calls hrunOk.ok state.elapsedNow other session artist text showsAt).2 with
        ⟨-, hnothing⟩ | ⟨howner, -⟩
      · simp only [feedMachine, hnothing]
      · exact absurd howner hnot
    · intro kind
      rcases (ended_calls hrunOk.ok state.elapsedNow other session kind).2 with
        ⟨-, hnothing⟩ | ⟨hplaying, -⟩
      · simp only [feedMachine, hnothing]
      · exact absurd hplaying hgone

end

/-- A subscription with a title waiting behind as many statuses as it may hold. -/
theorem crowded_run : ∃ trace state subscription held,
    feedMachine.Run (idleFeed 0) trace state ∧ openedSessions trace = [7] ∧
      state.feed.subscriptions[0]? = some subscription ∧
      subscription.mailbox.held = some held ∧ ∃ next reply after,
        feedMachine.step state (.refused ⟨"key", 1, 1⟩ .busy) = some (next, reply) ∧
          next.feed.subscriptions[0]? = some after ∧ after.mailbox.unread = [] :=
  ⟨_, _, _, _, Transition.Machine.run_of_exec
    (show feedMachine.exec (idleFeed 0) ([.subscribe ⟨"key", 1, 1⟩ 6, .opened ⟨"key", 1, 1⟩ 7,
      .title ⟨"key", 1, 1⟩ 7 "Artist" "Title" 10] ++
        List.replicate 14 (.refused ⟨"key", 1, 1⟩ .busy)) = some (_, _) from rfl),
    rfl, rfl, rfl, _, _, _, rfl, rfl, rfl⟩

/-- The order of that subscription's reads, and the owner of its channel. -/
theorem delivery_order_crowded : ∃ trace state, feedMachine.Run (idleFeed 0) trace state ∧
    ReadsInOrder trace 0 ∧ ∃ playing : List Uuid,
      playing.Sublist (openedOn trace ⟨"key", 1, 1⟩) ∧
        state.feed.owner ⟨"key", 1, 1⟩ = playing.getLast? := by
  obtain ⟨trace, state, subscription, held, hrun, hopened, -⟩ := crowded_run
  obtain ⟨hreads, -, -, -, hstreams⟩ := delivery_order hrun
  obtain ⟨playing, hsublist, -, howner⟩ := (hstreams (by simp [hopened])).1 ⟨"key", 1, 1⟩
  exact ⟨trace, state, hrun, hreads 0, playing, hsublist, howner⟩

/-- A refusal may drop the waiting title. -/
theorem delivery_order_disconnects :
    ¬ ∀ (trace : List (FeedAction × FeedReply)) (state : FeedState),
      feedMachine.Run (idleFeed 0) trace state →
      ∀ key kind next reply, feedMachine.step state (.refused key kind) = some (next, reply) →
        ∀ (id : Nat) subscription after title,
          state.feed.subscriptions[id]? = some subscription →
          next.feed.subscriptions[id]? = some after →
          .nowPlaying title ∈ subscription.mailbox.unread →
          .nowPlaying title ∈ after.mailbox.unread := by
  intro hclaim
  obtain ⟨trace, state, subscription, held, hrun, -, hsubscription, hheld, next, reply, after,
    hstep, hafter, hnone⟩ := crowded_run
  have hkept := hclaim trace state hrun _ _ next reply hstep 0 subscription after held.title
    hsubscription hafter (by simp [Mailbox.unread, hheld])
  simp [hnone] at hkept

end RetroStation.Streaming
