import RetroStation.Progress.Feed

/-! # Runs of the progress feed

A run is read through what its steps said. A client holds an item exactly when that item
is the last one a poll brought, the poll began after the client joined, and the client has
not taken it. Every step keeps this, with what the wake event stands for.
-/

namespace RetroStation.Progress

open Transition

variable {Frame : Type}

abbrev Entry (Frame : Type) := Action Frame × Said Frame

namespace Said

def began? : Said Frame → Option Nat
  | .began pollNumber => some pollNumber
  | _ => none

def joined? : Said Frame → Option Nat
  | .joined id => some id
  | _ => none

def offered? : Said Frame → Option (Nat × FeedItem Frame)
  | .offered pollNumber item => some (pollNumber, item)
  | _ => none

end Said

def polls (trace : List (Entry Frame)) : List Nat := trace.filterMap (·.2.began?)

theorem polls_joined (before since : List (Entry Frame)) (id : Nat) :
    polls (before ++ (.joins, .joined id) :: since) = polls before ++ polls since := by
  simp [polls, Said.began?]

def clients (trace : List (Entry Frame)) : List Nat := trace.filterMap (·.2.joined?)

/-- In what was said since a client joined, the item is the last one a poll brought, the
poll began there too, and the client has taken nothing since. -/
def FreshSince (id : Nat) (since : List (Entry Frame)) (item : FeedItem Frame) : Prop :=
  ∃ earlier later result pollNumber action,
    since = earlier ++ (.returns result, .offered pollNumber item) :: later ∧
    (action, .began pollNumber) ∈ earlier ∧
    (∀ entry ∈ later, entry.2.offered? = none) ∧ ∀ said, (.takes id, said) ∉ later

/-- The item is the newest that the client may see, and it has not been taken. -/
def Fresh (trace : List (Entry Frame)) (id : Nat) (item : FeedItem Frame) : Prop :=
  ∃ before since, trace = before ++ (.joins, .joined id) :: since ∧ FreshSince id since item

/-- A client has joined since a poll last began. -/
def JoinedSince (trace : List (Entry Frame)) : Prop :=
  ∃ before id since, trace = before ++ (.joins, .joined id) :: since ∧ polls since = []

theorem JoinedSince.snoc {trace : List (Entry Frame)} {entry : Entry Frame}
    (hjoined : JoinedSince trace) (hentry : entry.2.began? = none) :
    JoinedSince (trace ++ [entry]) := by
  obtain ⟨before, id, since, rfl, hsince⟩ := hjoined
  refine ⟨before, id, since ++ [entry], by simp, ?_⟩
  rw [polls, List.filterMap_append]
  simpa [polls, hentry, List.filterMap_cons] using hsince

section FreshSince

variable {id : Nat} {since : List (Entry Frame)} {entry : Entry Frame} {item : FeedItem Frame}

theorem freshSince_other (hoffer : entry.2.offered? = none) (htake : entry.1 ≠ .takes id) :
    FreshSince id (since ++ [entry]) item ↔ FreshSince id since item := by
  constructor
  · rintro ⟨earlier, later, result, pollNumber, action, hsplit, hbegan, hquiet, hkept⟩
    rcases List.eq_nil_or_concat later with rfl | ⟨middle, last, rfl⟩
    · obtain ⟨-, hlast⟩ := List.append_inj' hsplit rfl
      obtain rfl := List.singleton_inj.mp hlast
      cases hoffer
    · rw [List.concat_eq_append, ← List.cons_append, ← List.append_assoc] at hsplit
      obtain ⟨hsame, -⟩ := List.append_inj' hsplit rfl
      refine ⟨earlier, middle, result, pollNumber, action, hsame, hbegan,
        fun entry hentry => hquiet entry (by simp [hentry]),
        fun said hsaid => hkept said (by simp [hsaid])⟩
  · rintro ⟨earlier, later, result, pollNumber, action, rfl, hbegan, hquiet, hkept⟩
    refine ⟨earlier, later ++ [entry], result, pollNumber, action, by simp, hbegan, ?_, ?_⟩
    · intro other hother
      rcases List.mem_append.mp hother with hother | hother
      · exact hquiet other hother
      · obtain rfl := List.mem_singleton.mp hother
        exact hoffer
    · intro said hsaid
      rcases List.mem_append.mp hsaid with hsaid | hsaid
      · exact hkept said hsaid
      · exact htake (List.mem_singleton.mp hsaid ▸ rfl)

theorem not_freshSince_taken {said : Said Frame} :
    ¬ FreshSince id (since ++ [(.takes id, said)]) item := by
  rintro ⟨earlier, later, result, pollNumber, action, hsplit, -, -, hkept⟩
  rcases List.eq_nil_or_concat later with rfl | ⟨middle, last, rfl⟩
  · obtain ⟨-, hlast⟩ := List.append_inj' hsplit rfl
    cases List.singleton_inj.mp hlast
  · rw [List.concat_eq_append, ← List.cons_append, ← List.append_assoc] at hsplit
    obtain ⟨-, hlast⟩ := List.append_inj' hsplit rfl
    exact hkept said (by simp [List.singleton_inj.mp hlast])

theorem freshSince_offered {result : PollResult Frame} {pollNumber : Nat}
    {newest : FeedItem Frame} :
    FreshSince id (since ++ [(.returns result, .offered pollNumber newest)]) item ↔
      item = newest ∧ ∃ action, (action, .began pollNumber) ∈ since := by
  constructor
  · rintro ⟨earlier, later, result', pollNumber', action, hsplit, hbegan, hquiet, -⟩
    rcases List.eq_nil_or_concat later with rfl | ⟨middle, last, rfl⟩
    · obtain ⟨rfl, hlast⟩ := List.append_inj' hsplit rfl
      cases List.singleton_inj.mp hlast
      exact ⟨rfl, action, hbegan⟩
    · rw [List.concat_eq_append, ← List.cons_append, ← List.append_assoc] at hsplit
      obtain ⟨-, hlast⟩ := List.append_inj' hsplit rfl
      have hnone := hquiet last (by simp)
      rw [← List.singleton_inj.mp hlast] at hnone
      cases hnone
  · rintro ⟨rfl, action, hbegan⟩
    exact ⟨since, [], result, pollNumber, action, rfl, hbegan, by simp, by simp⟩

end FreshSince

/-- What a run so far says of one client: when it joined, and what its queue holds. -/
def Heard (trace : List (Entry Frame)) (subscriber : Subscriber Frame) : Prop :=
  ∃ before since, trace = before ++ (.joins, .joined subscriber.id) :: since ∧
    subscriber.firstPoll = (polls before).length + 1 ∧
    ∀ item, subscriber.items = some item ↔ FreshSince subscriber.id since item

section Heard

variable {trace : List (Entry Frame)} {entry : Entry Frame} {subscriber : Subscriber Frame}

theorem Heard.congr {changed : Subscriber Frame} (hheard : Heard trace subscriber)
    (hid : changed.id = subscriber.id) (hfirst : changed.firstPoll = subscriber.firstPoll)
    (hitems : changed.items = subscriber.items) : Heard trace changed := by
  rwa [Heard, hid, hfirst, hitems]

theorem Heard.other (hheard : Heard trace subscriber) (hoffer : entry.2.offered? = none)
    (htake : entry.1 ≠ .takes subscriber.id) : Heard (trace ++ [entry]) subscriber := by
  obtain ⟨before, since, rfl, hfirst, hitems⟩ := hheard
  refine ⟨before, since ++ [entry], by simp, hfirst, fun item => ?_⟩
  rw [freshSince_other hoffer htake, hitems item]

theorem Heard.taken (hheard : Heard trace subscriber) (item : FeedItem Frame)
    (said : Said Frame) :
    Heard (trace ++ [(.takes subscriber.id, said)]) (subscriber.take item) := by
  obtain ⟨before, since, rfl, hfirst, -⟩ := hheard
  refine ⟨before, since ++ [(.takes subscriber.id, said)], by simp [Subscriber.take], hfirst,
    fun other => ?_⟩
  exact iff_of_false (fun hnone => Option.some_ne_none other hnone.symm) not_freshSince_taken

/-- The polls begun since a client joined are those from its first on. -/
theorem mem_polls_since {before since : List (Entry Frame)} {pollsStarted firstPoll id : Nat}
    (hpolls : polls (before ++ (.joins, .joined id) :: since) = List.range' 1 pollsStarted)
    (hfirst : firstPoll = (polls before).length + 1) (pollNumber : Nat) :
    (∃ action, (action, .began pollNumber) ∈ since) ↔
      firstPoll ≤ pollNumber ∧ pollNumber ≤ pollsStarted := by
  have hsplit : polls before ++ polls since = List.range' 1 pollsStarted := by
    rw [← hpolls, polls_joined]
  have hsince : polls since = List.range' firstPoll (pollsStarted - (polls before).length) := by
    have hdrop := congrArg (List.drop (polls before).length) hsplit
    rw [List.drop_left, List.drop_range'] at hdrop
    rw [hdrop, hfirst, Nat.mul_one, Nat.add_comm]
  have hlength : (polls before).length ≤ pollsStarted := by
    have hsum := congrArg List.length hsplit
    rw [List.length_append, List.length_range'] at hsum
    omega
  have hmem : (∃ action, (action, .began pollNumber) ∈ since) ↔ pollNumber ∈ polls since := by
    constructor
    · rintro ⟨action, hbegan⟩
      exact List.mem_filterMap.mpr ⟨_, hbegan, rfl⟩
    · intro hpoll
      obtain ⟨⟨action, said⟩, hentry, hsaid⟩ := List.mem_filterMap.mp hpoll
      cases said <;> cases hsaid
      exact ⟨action, hentry⟩
  rw [hmem, hsince, List.mem_range'_1]
  omega

theorem Heard.offered {pollsStarted : Nat} (hheard : Heard trace subscriber)
    (hpolls : polls trace = List.range' 1 pollsStarted) (result : PollResult Frame)
    (newest : FeedItem Frame) :
    Heard (trace ++ [(.returns result, .offered pollsStarted newest)])
      (subscriber.offerPoll pollsStarted newest) := by
  obtain ⟨before, since, rfl, hfirst, hitems⟩ := hheard
  have hbegun := mem_polls_since hpolls hfirst
  refine ⟨before, since ++ [(.returns result, .offered pollsStarted newest)], by simp,
    by simpa using hfirst, fun item => ?_⟩
  rw [Subscriber.offerPoll_id, freshSince_offered, hbegun pollsStarted, Subscriber.offerPoll]
  split
  next hmay =>
    simp only [Subscriber.offer, Option.some.injEq, Nat.le_refl, and_true]
    exact ⟨fun hsame => ⟨hsame.symm, hmay⟩, fun hboth => hboth.1.symm⟩
  next hearly =>
    -- no poll has begun since this client joined, so its queue has never been filled
    refine iff_of_false (fun hsome => ?_) (fun hboth => hearly hboth.2.1)
    obtain ⟨earlier, later, _, pollNumber, action, rfl, hbegan, -⟩ := (hitems item).mp hsome
    obtain ⟨hfrom, hto⟩ := (hbegun pollNumber).mp ⟨action, by simp [hbegan]⟩
    omega

end Heard

/-- What a run so far says of the feed. -/
structure FeedRunOk (trace : List (Entry Frame)) (feed : ProgressFeed Frame) : Prop where
  numbered : polls trace = List.range' 1 feed.pollsStarted
  named : clients trace = List.range feed.joined
  polling : ∀ pollNumber, feed.task = .polling pollNumber → pollNumber = feed.pollsStarted
  created : feed.task = .created → feed.pollsStarted = 0
  ids : (feed.subscribers.map Subscriber.id).Nodup
  heard : ∀ subscriber ∈ feed.subscribers, Heard trace subscriber
  wake : feed.wake = true → JoinedSince trace
  prompt : ∀ subscriber ∈ feed.subscribers, feed.pollsStarted < subscriber.firstPoll →
    feed.wake = true
  parked : feed.task = .parked → feed.subscribers ≠ [] → feed.wake = true
  takers : ∀ id said, (.takes id, said) ∈ trace → id < feed.joined
  unclosed : ∀ subscriber ∈ feed.subscribers, subscriber.endpoint ≠ .closing →
    ∀ closed, (.takes subscriber.id, .took (.closed closed)) ∉ trace
  alive : feed.task = .ended → ∃ entry ∈ trace, entry.1 = .stop ∨ entry.1 = .returns .bug

namespace FeedRunOk

variable {trace : List (Entry Frame)} {feed next : ProgressFeed Frame}
  {action : Action Frame} {said : Said Frame}

theorem start : FeedRunOk [] ({} : ProgressFeed Frame) where
  numbered := rfl
  named := rfl
  polling := nofun
  created _ := rfl
  ids := List.nodup_nil
  heard := nofun
  wake := nofun
  prompt := nofun
  parked := nofun
  takers := nofun
  unclosed := nofun
  alive := nofun

theorem firstPoll_le (hok : FeedRunOk trace feed) {subscriber : Subscriber Frame}
    (hmem : subscriber ∈ feed.subscribers) : subscriber.firstPoll ≤ feed.pollsStarted + 1 := by
  obtain ⟨before, since, rfl, hfirst, -⟩ := hok.heard subscriber hmem
  have hlength := congrArg List.length hok.numbered
  rw [polls, List.filterMap_append, List.length_append,
    List.length_range'] at hlength
  rw [hfirst, polls]
  omega

theorem id_lt (hok : FeedRunOk trace feed) {subscriber : Subscriber Frame}
    (hmem : subscriber ∈ feed.subscribers) : subscriber.id < feed.joined := by
  obtain ⟨before, since, rfl, -⟩ := hok.heard subscriber hmem
  rw [← List.mem_range, ← hok.named]
  exact List.mem_filterMap.mpr ⟨(.joins, .joined subscriber.id), by simp, rfl⟩

/-- A step that begins no poll, brings no item, and neither lets a client in nor gives it
anything. -/
theorem quiet (hok : FeedRunOk trace feed) (hbegan : said.began? = none)
    (hoffered : said.offered? = none) (hjoined : said.joined? = none)
    (htakes : ∀ id, action ≠ .takes id) (hpolls : next.pollsStarted = feed.pollsStarted)
    (hwake : next.wake = feed.wake) (hnext : next.joined = feed.joined)
    (hids : (next.subscribers.map Subscriber.id).Nodup)
    (hsubscribers : ∀ subscriber ∈ next.subscribers, ∃ earlier ∈ feed.subscribers,
      subscriber.id = earlier.id ∧ subscriber.firstPoll = earlier.firstPoll ∧
      subscriber.items = earlier.items ∧
      (subscriber.endpoint ≠ .closing → earlier.endpoint ≠ .closing))
    (htask : next.task = feed.task ∨ next.task = .parked ∧ feed.subscribers = [] ∨
      next.task = .ended ∧ (action = .stop ∨ action = .returns .bug)) :
    FeedRunOk (trace ++ [(action, said)]) next where
  numbered := by
    rw [polls, List.filterMap_append, hpolls, ← hok.numbered]
    simp [polls, hbegan]
  named := by
    rw [clients, List.filterMap_append, hnext, ← hok.named]
    simp [clients, hjoined]
  polling pollNumber hpolling := by
    rcases htask with hsame | ⟨hparked, -⟩ | ⟨hended, -⟩
    · rw [hpolls]
      exact hok.polling pollNumber (hsame ▸ hpolling)
    · rw [hparked] at hpolling
      cases hpolling
    · rw [hended] at hpolling
      cases hpolling
  created hcreated := by
    rcases htask with hsame | ⟨hparked, -⟩ | ⟨hended, -⟩
    · rw [hpolls]
      exact hok.created (hsame ▸ hcreated)
    · rw [hparked] at hcreated
      cases hcreated
    · rw [hended] at hcreated
      cases hcreated
  ids := hids
  heard subscriber hmem := by
    obtain ⟨earlier, hearlier, hid, hfirst, hitems, -⟩ := hsubscribers subscriber hmem
    exact ((hok.heard earlier hearlier).other hoffered (htakes earlier.id)).congr hid hfirst
      hitems
  wake hset := (hok.wake (hwake ▸ hset)).snoc hbegan
  prompt subscriber hmem hearly := by
    obtain ⟨earlier, hearlier, -, hfirst, -, -⟩ := hsubscribers subscriber hmem
    rw [hwake]
    exact hok.prompt earlier hearlier (by rwa [hpolls, hfirst] at hearly)
  parked hparked hsome := by
    obtain ⟨subscriber, hmem⟩ := List.exists_mem_of_ne_nil _ hsome
    obtain ⟨earlier, hearlier, -⟩ := hsubscribers subscriber hmem
    have hbefore : feed.subscribers ≠ [] := List.ne_nil_of_mem hearlier
    rcases htask with hsame | ⟨-, hnobody⟩ | ⟨hended, -⟩
    · rw [hwake]
      exact hok.parked (hsame ▸ hparked) hbefore
    · exact absurd hnobody hbefore
    · rw [hended] at hparked
      cases hparked
  takers id took htook := by
    rw [hnext]
    rcases List.mem_append.mp htook with htook | htook
    · exact hok.takers id took htook
    · exact absurd (congrArg Prod.fst (List.mem_singleton.mp htook)).symm (htakes id)
  unclosed subscriber hmem hopen closed htook := by
    obtain ⟨earlier, hearlier, hid, -, -, hendpoint⟩ := hsubscribers subscriber hmem
    rcases List.mem_append.mp htook with htook | htook
    · exact hok.unclosed earlier hearlier (hendpoint hopen) closed (hid ▸ htook)
    · exact absurd (congrArg Prod.fst (List.mem_singleton.mp htook)).symm (htakes _)
  alive hended := by
    rcases htask with hsame | ⟨hparked, -⟩ | ⟨-, hcause⟩
    · obtain ⟨entry, hentry, hcause⟩ := hok.alive (hsame ▸ hended)
      exact ⟨entry, List.mem_append_left _ hentry, hcause⟩
    · rw [hparked] at hended
      cases hended
    · exact ⟨(action, said), by simp, hcause⟩

/-- The poll that begins will be seen by everyone who listens. -/
theorem begun (hok : FeedRunOk trace feed) (hresumes : action.resumes) :
    FeedRunOk (trace ++ [(action, feed.beginPoll.2)]) feed.beginPoll.1 := by
  have htakes : ∀ id, action ≠ .takes id := by
    rintro id rfl
    cases hresumes
  exact
    { numbered := by
        rw [polls, List.filterMap_append, ← polls, hok.numbered]
        simp [ProgressFeed.beginPoll, Said.began?, List.range'_1_concat, Nat.add_comm]
      named := by
        rw [clients, List.filterMap_append, ← clients, hok.named]
        simp [ProgressFeed.beginPoll, Said.joined?]
      polling := fun _ hpolling => (Poller.polling.inj hpolling).symm
      created := nofun
      ids := hok.ids
      heard := fun subscriber hmem => (hok.heard subscriber hmem).other rfl (htakes _)
      wake := nofun
      prompt := fun _ hmem hearly =>
        absurd (hok.firstPoll_le hmem) (Nat.not_le.mpr hearly)
      parked := nofun
      takers := fun id took htook => by
        rcases List.mem_append.mp htook with htook | htook
        · exact hok.takers id took htook
        · exact absurd (congrArg Prod.fst (List.mem_singleton.mp htook)).symm (htakes id)
      unclosed := fun subscriber hmem hopen closed htook => by
        rcases List.mem_append.mp htook with htook | htook
        · exact hok.unclosed subscriber hmem hopen closed htook
        · exact absurd (congrArg Prod.fst (List.mem_singleton.mp htook)).symm (htakes _)
      alive := nofun }

theorem offered (hok : FeedRunOk trace feed) {pollNumber : Nat} {item : FeedItem Frame}
    {result : PollResult Frame} (htask : feed.task = .polling pollNumber) :
    FeedRunOk (trace ++ [(.returns result, .offered pollNumber item)])
      { feed with
        subscribers := feed.subscribers.map (Subscriber.offerPoll pollNumber item)
        task := .sleeping } where
  numbered := by
    rw [polls, List.filterMap_append, ← polls, hok.numbered]
    simp [Said.began?]
  named := by
    rw [clients, List.filterMap_append, ← clients, hok.named]
    simp [Said.joined?]
  polling := nofun
  created := nofun
  ids := by
    rw [List.map_map, show Subscriber.id ∘ Subscriber.offerPoll pollNumber item = Subscriber.id
      from funext (Subscriber.offerPoll_id pollNumber item)]
    exact hok.ids
  heard subscriber hmem := by
    obtain ⟨earlier, hearlier, rfl⟩ := List.mem_map.mp hmem
    obtain rfl := hok.polling pollNumber htask
    exact (hok.heard earlier hearlier).offered hok.numbered result item
  wake hset := (hok.wake hset).snoc rfl
  prompt subscriber hmem hearly := by
    obtain ⟨earlier, hearlier, rfl⟩ := List.mem_map.mp hmem
    exact hok.prompt earlier hearlier (by simpa using hearly)
  parked := nofun
  takers id took htook := hok.takers id took (by simpa using htook)
  unclosed subscriber hmem hopen closed htook := by
    obtain ⟨earlier, hearlier, rfl⟩ := List.mem_map.mp hmem
    exact hok.unclosed earlier hearlier (by simpa using hopen) closed (by simpa using htook)
  alive := nofun

theorem joins (hok : FeedRunOk trace feed) :
    FeedRunOk (trace ++ [(.joins, feed.subscribe.2)]) feed.subscribe.1 where
  numbered := by
    rw [polls, List.filterMap_append, ← polls, hok.numbered]
    simp [ProgressFeed.subscribe, Said.began?]
  named := by
    rw [clients, List.filterMap_append, ← clients, hok.named]
    simp [ProgressFeed.subscribe, Said.joined?, List.range_succ]
  polling := hok.polling
  created := hok.created
  ids := by
    simp only [ProgressFeed.subscribe, List.map_append, List.map_cons, List.map_nil]
    refine List.nodup_append.mpr ⟨hok.ids, List.nodup_singleton _, ?_⟩
    rintro id hid _ hnew rfl
    obtain ⟨subscriber, hmem, rfl⟩ := List.mem_map.mp hid
    exact absurd (List.mem_singleton.mp hnew) (Nat.ne_of_lt (hok.id_lt hmem))
  heard subscriber hmem := by
    rcases List.mem_append.mp hmem with hmem | hmem
    · exact (hok.heard subscriber hmem).other rfl nofun
    · obtain rfl := List.mem_singleton.mp hmem
      refine ⟨trace, [], rfl, ?_, fun item => iff_of_false nofun ?_⟩
      · rw [hok.numbered, List.length_range']
      · rintro ⟨earlier, later, result, pollNumber, action, hsplit, -⟩
        simp at hsplit
  wake _ := ⟨trace, feed.joined, [], by simp [ProgressFeed.subscribe], rfl⟩
  prompt _ _ _ := rfl
  parked _ _ := rfl
  takers id took htook := Nat.lt_succ_of_lt (hok.takers id took (by simpa using htook))
  unclosed subscriber hmem hopen closed htook := by
    have htook : (.takes subscriber.id, .took (.closed closed)) ∈ trace := by simpa using htook
    rcases List.mem_append.mp hmem with hmem | hmem
    · exact hok.unclosed subscriber hmem hopen closed htook
    · obtain rfl := List.mem_singleton.mp hmem
      exact absurd (hok.takers _ _ htook) (Nat.lt_irrefl _)
  alive hended := by
    obtain ⟨entry, hentry, hcause⟩ := hok.alive hended
    exact ⟨entry, List.mem_append_left _ hentry, hcause⟩

theorem taken (hok : FeedRunOk trace feed) {id : Nat} {subscriber : Subscriber Frame}
    {item : FeedItem Frame} (hfind : feed.find? id = some subscriber)
    (hgetting : subscriber.endpoint = .getting) :
    FeedRunOk (trace ++ [(.takes id, .took item)]) (feed.update id (Subscriber.take item)) := by
  obtain ⟨hmem, rfl⟩ := ProgressFeed.find?_mem hfind
  have hupdated : ∀ other ∈ (feed.update subscriber.id (Subscriber.take item)).subscribers,
      other = subscriber.take item ∨ other ∈ feed.subscribers ∧ other.id ≠ subscriber.id := by
    intro other hother
    obtain ⟨earlier, hearlier, rfl⟩ := List.mem_map.mp hother
    split
    next hid =>
      -- the identities are distinct, so only the one who takes is changed
      exact .inl (congrArg _ (List.inj_on_of_nodup_map hok.ids hearlier hmem hid))
    next hid => exact .inr ⟨hearlier, hid⟩
  exact
    { numbered := by
        rw [polls, List.filterMap_append, ← polls, hok.numbered]
        simp [Said.began?, ProgressFeed.update]
      named := by
        rw [clients, List.filterMap_append, ← clients, hok.named]
        simp [Said.joined?, ProgressFeed.update]
      polling := hok.polling
      created := hok.created
      ids := by
        have hsame := feed.map_id_update subscriber.id (Subscriber.take item) fun _ => rfl
        rw [hsame]
        exact hok.ids
      heard := fun other hother => by
        rcases hupdated other hother with rfl | ⟨hother, hne⟩
        · exact (hok.heard subscriber hmem).taken item (.took item)
        · exact (hok.heard other hother).other rfl fun hsame => hne (Action.takes.inj hsame).symm
      wake := fun hset => (hok.wake hset).snoc rfl
      prompt := fun other hother hearly => by
        rcases hupdated other hother with rfl | ⟨hother, -⟩
        · exact hok.prompt subscriber hmem hearly
        · exact hok.prompt other hother hearly
      parked := fun hparked _ => hok.parked hparked (List.ne_nil_of_mem hmem)
      takers := fun other took htook => by
        rcases List.mem_append.mp htook with htook | htook
        · exact hok.takers other took htook
        · cases List.mem_singleton.mp htook
          exact hok.id_lt hmem
      unclosed := fun other hother hopen closed htook => by
        rcases hupdated other hother with rfl | ⟨hother, hne⟩
        · rcases List.mem_append.mp htook with htook | htook
          · exact hok.unclosed subscriber hmem (by simp [hgetting]) closed htook
          · cases List.mem_singleton.mp htook
            exact hopen rfl
        · rcases List.mem_append.mp htook with htook | htook
          · exact hok.unclosed other hother hopen closed htook
          · exact hne (Action.takes.inj (congrArg Prod.fst (List.mem_singleton.mp htook)))
      alive := fun hended => by
        obtain ⟨entry, hentry, hcause⟩ := hok.alive hended
        exact ⟨entry, List.mem_append_left _ hentry, hcause⟩ }

theorem step (hok : FeedRunOk trace feed) (hstep : feed.Step action next said) :
    FeedRunOk (trace ++ [(action, said)]) next := by
  cases hstep with
  | parks hresumes hnobody =>
      refine hok.quiet rfl rfl rfl ?_ rfl rfl rfl hok.ids
        (fun subscriber hmem => ⟨subscriber, hmem, rfl, rfl, rfl, id⟩) (.inr (.inl ⟨rfl, hnobody⟩))
      rintro id rfl
      cases hresumes
  | begins hresumes => exact hok.begun hresumes
  | offers htask => exact hok.offered htask
  | crashes =>
      exact hok.quiet rfl rfl rfl nofun rfl rfl rfl hok.ids
        (fun subscriber hmem => ⟨subscriber, hmem, rfl, rfl, rfl, id⟩)
        (.inr (.inr ⟨rfl, .inr rfl⟩))
  | stops =>
      exact hok.quiet rfl rfl rfl nofun rfl rfl rfl hok.ids
        (fun subscriber hmem => ⟨subscriber, hmem, rfl, rfl, rfl, id⟩)
        (.inr (.inr ⟨rfl, .inl rfl⟩))
  | joins => exact hok.joins
  | takes hfind _ hgetting => exact hok.taken hfind hgetting
  | @sends id subscriber hfind hsending =>
      obtain ⟨hmem, rfl⟩ := ProgressFeed.find?_mem hfind
      refine hok.quiet rfl rfl rfl nofun rfl rfl rfl ?_ (fun other hother => ?_) (.inl rfl)
      · have hsame := feed.map_id_update subscriber.id ({ · with endpoint := .getting })
          fun _ => rfl
        rw [hsame]
        exact hok.ids
      · obtain ⟨earlier, hearlier, rfl⟩ := List.mem_map.mp hother
        refine ⟨earlier, hearlier, ?_⟩
        split
        next hid =>
          obtain rfl := List.inj_on_of_nodup_map hok.ids hearlier hmem hid
          exact ⟨rfl, rfl, rfl, fun _ => by rw [hsending]; exact nofun⟩
        next => exact ⟨rfl, rfl, rfl, id⟩
  | leaves =>
      refine hok.quiet rfl rfl rfl nofun rfl rfl rfl ?_ (fun other hother => ?_) (.inl rfl)
      · exact hok.ids.sublist (List.filter_sublist.map _)
      · exact ⟨other, List.mem_of_mem_filter hother, rfl, rfl, rfl, id⟩

theorem run (hrun : ProgressFeed.machine.Run ({} : ProgressFeed Frame) trace feed) :
    FeedRunOk trace feed := by
  induction hrun with
  | nil => exact start
  | snoc _ hstep ih => exact ih.step (ProgressFeed.step_cases hstep)

end FeedRunOk

end RetroStation.Progress
