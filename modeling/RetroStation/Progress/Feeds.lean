import RetroStation.Progress.FeedRuns

/-! # What the progress feed promises

What each client takes is fresh and newest, and taken once; no poll begins for nobody; and
no client that just joined waits out an interval.
-/

namespace RetroStation.Progress

open Transition

variable {Frame : Type}

/-- A client joins once, so what was said since is settled. -/
theorem joins_once {trace before since before' since' : List (Entry Frame)} {id joined : Nat}
    (hnamed : clients trace = List.range joined)
    (hsplit : trace = before ++ (.joins, .joined id) :: since)
    (hother : trace = before' ++ (.joins, .joined id) :: since') :
    before = before' ∧ since = since' := by
  have hnodup : (clients trace).Nodup := hnamed ▸ List.nodup_range
  rw [hother] at hnodup
  simp only [clients, List.filterMap_append, List.filterMap_cons, Said.joined?,
    List.nodup_append, List.nodup_cons] at hnodup
  obtain ⟨-, ⟨hlater, -⟩, hearlier⟩ := hnodup
  have hbefore : (.joins, .joined id) ∉ before' := fun hmem =>
    hearlier id (List.mem_filterMap.mpr ⟨_, hmem, rfl⟩) id (List.mem_cons_self ..) rfl
  have hsince : (.joins, .joined id) ∉ since' := fun hmem =>
    hlater (List.mem_filterMap.mpr ⟨_, hmem, rfl⟩)
  obtain ⟨rfl, -, rfl⟩ := (List.append_cons_inj_of_notMem hbefore hsince).mp
    (hother.symm.trans hsplit)
  exact ⟨rfl, rfl⟩

/-- What the feed promises of a run from its start. -/
structure Feeds (trace : List (Entry Frame)) (feed : ProgressFeed Frame) : Prop where
  /-- What a client takes is the newest item of a poll begun after it joined, and it takes it
  once. -/
  taken : ∀ before id item after, trace = before ++ (.takes id, .took item) :: after →
    Fresh before id item
  /-- A client that was closed takes nothing more. -/
  closed : ∀ before id closed after,
    trace = before ++ (.takes id, .took (.closed closed)) :: after →
      ∀ said, (.takes id, said) ∉ after
  /-- A client's queue is full exactly while there is an item it has yet to see. -/
  held : ∀ subscriber ∈ feed.subscribers, ∀ item,
    subscriber.items = some item ↔ Fresh trace subscriber.id item
  /-- One poll serves all: it begins because an interval ran out while someone listened, or
  because someone joined since the last one. -/
  polled : ∀ before action pollNumber after,
    trace = before ++ (action, .began pollNumber) :: after →
    pollNumber = (polls before).length + 1 ∧
      (JoinedSince before ∨ action = .timesOut ∧ ∃ earlier : ProgressFeed Frame,
        ProgressFeed.machine.Run {} before earlier ∧ earlier.subscribers ≠ [])
  /-- A client no poll has begun for waits for one in flight, or the next can begin at once. -/
  prompt : ∀ subscriber ∈ feed.subscribers, feed.task ≠ .ended →
    ∀ before since, trace = before ++ (.joins, .joined subscriber.id) :: since →
      polls since = [] → feed.task = .polling feed.pollsStarted ∨
        ∃ action ∈ [Action.starts, .wakes], feed.step action = some feed.beginPoll
  /-- The task parks only while nobody listens, or on its way out of it. -/
  parked : feed.task = .parked → feed.subscribers ≠ [] → feed.step .wakes = some feed.beginPoll
  /-- Only a stop, or an error that no poll is expected to raise, ends the feed. -/
  alive : feed.task = .ended → ∃ entry ∈ trace, entry.1 = .stop ∨ entry.1 = .returns .bug

section Feeds

variable {trace before after : List (Entry Frame)} {feed state : ProgressFeed Frame}

/-- Taking an item shows that it was fresh, and that the client was not yet closed. -/
theorem FeedRunOk.takes_fresh (hok : FeedRunOk before feed) {next : ProgressFeed Frame} {id : Nat}
    {said : Said Frame} (hstep : feed.Step (.takes id) next said) :
    (∀ item, said = .took item → Fresh before id item) ∧
      ∀ closed, (.takes id, .took (.closed closed)) ∉ before := by
  cases hstep with
  | parks hresumes | begins hresumes => cases hresumes
  | takes hfind hitem hgetting =>
      obtain ⟨hmem, rfl⟩ := ProgressFeed.find?_mem hfind
      obtain ⟨earlier, since, hsplit, -, hitems⟩ := hok.heard _ hmem
      refine ⟨?_, hok.unclosed _ hmem (by rw [hgetting]; exact nofun)⟩
      rintro item hsaid
      obtain rfl := Said.took.inj hsaid
      exact ⟨earlier, since, hsplit, (hitems _).mp hitem⟩

theorem FeedRunOk.begins_for (hok : FeedRunOk trace feed) {next : ProgressFeed Frame}
    {action : Action Frame} {pollNumber : Nat} (hstep : feed.Step action next (.began pollNumber)) :
    pollNumber = (polls trace).length + 1 ∧
      (JoinedSince trace ∨ action = .timesOut ∧ feed.subscribers ≠ []) := by
  generalize hsaid : Said.began pollNumber = said at hstep
  cases hstep with
  | begins hresumes hcause =>
      obtain rfl := Said.began.inj hsaid
      refine ⟨by rw [hok.numbered, List.length_range'], ?_⟩
      rcases hcause with hwake | ⟨hsome, hcreated | htimesOut⟩
      · exact .inl (hok.wake hwake)
      · obtain ⟨subscriber, hmem⟩ := List.exists_mem_of_ne_nil _ hsome
        obtain ⟨earlier, since, -, hfirst, -⟩ := hok.heard subscriber hmem
        have hunpolled : feed.pollsStarted < subscriber.firstPoll := by
          rw [hok.created hcreated, hfirst]
          exact Nat.succ_pos _
        exact .inl (hok.wake (hok.prompt subscriber hmem hunpolled))
      · exact .inr ⟨htimesOut, hsome⟩
  | parks | offers | crashes | stops | joins | takes | sends | leaves => cases hsaid

/-- Once the event is set, the task can begin a poll without waiting for the interval. -/
theorem ProgressFeed.begins_at_once (hwake : feed.wake = true) (hended : feed.task ≠ .ended)
    (hpolling : ∀ pollNumber, feed.task ≠ .polling pollNumber) :
    ∃ action ∈ [Action.starts, .wakes], feed.step action = some feed.beginPoll := by
  have hturn : feed.turn = feed.beginPoll := by simp [ProgressFeed.turn, hwake]
  cases htask : feed.task with
  | created => exact ⟨.starts, by simp, by simp [ProgressFeed.step, htask, hturn]⟩
  | parked => exact ⟨.wakes, by simp, by simp [ProgressFeed.step, htask, hwake]⟩
  | sleeping => exact ⟨.wakes, by simp, by simp [ProgressFeed.step, htask, hwake, hturn]⟩
  | polling pollNumber => exact absurd htask (hpolling pollNumber)
  | ended => exact absurd htask hended

/-- The feed keeps its promises on every run. -/
theorem feeds (hrun : ProgressFeed.machine.Run ({} : ProgressFeed Frame) trace feed) :
    Feeds trace feed where
  taken before id item after htrace := by
    rw [htrace] at hrun
    obtain ⟨state, next, hbefore, hstep, -⟩ := hrun.split
    exact ((FeedRunOk.run hbefore).takes_fresh (ProgressFeed.step_cases hstep)).1 item rfl
  closed before id closed after htrace said hlater := by
    obtain ⟨between, rest, rfl⟩ := List.append_of_mem hlater
    rw [htrace, ← List.cons_append, ← List.append_assoc] at hrun
    obtain ⟨state, next, hbefore, hstep, -⟩ := hrun.split
    exact ((FeedRunOk.run hbefore).takes_fresh (ProgressFeed.step_cases hstep)).2 closed
      (by simp)
  held subscriber hmem item := by
    have hok := FeedRunOk.run hrun
    obtain ⟨before, since, hsplit, -, hitems⟩ := hok.heard subscriber hmem
    rw [hitems item]
    constructor
    · exact fun hfresh => ⟨before, since, hsplit, hfresh⟩
    · rintro ⟨before', since', hother, hfresh⟩
      obtain ⟨-, rfl⟩ := joins_once hok.named hsplit hother
      exact hfresh
  polled before action pollNumber after htrace := by
    rw [htrace] at hrun
    obtain ⟨state, next, hbefore, hstep, -⟩ := hrun.split
    obtain ⟨hnumber, hcause⟩ := (FeedRunOk.run hbefore).begins_for (ProgressFeed.step_cases hstep)
    exact ⟨hnumber, hcause.imp_right fun hboth => ⟨hboth.1, state, hbefore, hboth.2⟩⟩
  -- No poll began since the client joined, so one is under way or the next step begins one.
  prompt subscriber hmem hended before since htrace hsince := by
    have hok := FeedRunOk.run hrun
    obtain ⟨before', since', hsplit, hfirst, -⟩ := hok.heard subscriber hmem
    obtain ⟨rfl, rfl⟩ := joins_once hok.named htrace hsplit
    have hunpolled : feed.pollsStarted < subscriber.firstPoll := by
      have hall : (polls trace).length = (polls before).length := by
        rw [htrace, polls_joined, hsince, List.append_nil]
      rw [hok.numbered, List.length_range'] at hall
      omega
    by_cases hpolling : ∃ pollNumber, feed.task = .polling pollNumber
    · obtain ⟨pollNumber, htask⟩ := hpolling
      obtain rfl := hok.polling pollNumber htask
      exact .inl htask
    · exact .inr (ProgressFeed.begins_at_once (hok.prompt subscriber hmem hunpolled) hended
        fun pollNumber htask => hpolling ⟨pollNumber, htask⟩)
  parked hparked hsome := by
    simp [ProgressFeed.step, hparked, (FeedRunOk.run hrun).parked hparked hsome]
  alive := (FeedRunOk.run hrun).alive

/-- A client joins the parked feed, and takes the frame of the poll it woke. -/
theorem feeds_first_frame : Feeds
    [(.starts, .parked), (.joins, .joined 0), (.wakes, .began 1),
      (.returns (.frame 7), .offered 1 (.frame 7)), (.takes 0, .took (.frame 7))]
    { subscribers := [{ id := 0, firstPoll := 1, endpoint := .sending }], pollsStarted := 1,
      task := .sleeping, joined := 1 } :=
  feeds (Machine.run_of_exec
    (show ProgressFeed.machine.exec ({} : ProgressFeed Nat)
      [.starts, .joins, .wakes, .returns (.frame 7), .takes 0] = some (_, _) from rfl))

end Feeds

end RetroStation.Progress
