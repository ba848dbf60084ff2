import Mathlib.Tactic.Linarith
import RetroStation.Playout.SessionScript

/-! # Whose turn it is in a session

At every moment between callbacks the session waits for exactly one thing: to be
booted, for an item, for a deck, for a push to start or for the newest track to reach
its start-next point. Whatever comes ends that wait and starts the next one, so no push
is made while another is awaited; every item fetched is pushed once, in order, and
reported once, started or failed.
-/

namespace RetroStation.Playout.SessionScript

open Transition

variable {config : SessionConfig} {state next : SessionState}

/-- What a session waits for. -/
inductive Waiting
  | boot
  | items
  | deck
  | start
  | startNext
deriving DecidableEq

def SessionState.WaitsFor (state : SessionState) : Waiting → Prop
  | .boot => state.booted = false
  | .items => state.starved = true
  | .deck => 0 < state.deckWaitUntil
  | .start => state.awaiting.isSome
  | .startNext => ∃ deck, state.newest = some deck ∧ (state.decks deck).fired = false

/-! ## One push -/

/-- What pushing takes as it is: the decks, the requests ahead and the reports. -/
structure DecksOk (state : SessionState) : Prop where
  newest : ∀ deck, (state.decks deck).started → (state.decks deck).fired = false →
    state.newest = some deck
  ahead : ∀ entry ∈ state.prefetched, entry.2.annotations.itemSeq = some entry.1
  reported : state.log.pushed =
    state.log.reports.map Report.seq ++ (state.awaiting.map Awaiting.seq).toList
  alone : state.log.clashes = 0

/-- The session waits for one thing, and a deck holds no request but the one awaited. -/
structure TurnOk (state : SessionState) : Prop where
  decks : DecksOk state
  one : ∃ waiting, ∀ what, state.WaitsFor what ↔ what = waiting
  queued : ∀ deck, (state.decks deck).queue = [] ∨
    ∃ pushed, state.awaiting = some pushed ∧ pushed.deck = deck ∧
      (state.decks deck).queue = [pushed.request]
  annotated : ∀ pushed, state.awaiting = some pushed →
    pushed.request.annotations.itemSeq = some pushed.seq

/-- A session that may push: nothing is awaited, and the newest track has handed over. -/
structure Ready (state : SessionState) : Prop where
  decks : DecksOk state
  booted : state.booted = true
  awaiting : state.awaiting = none
  spent : ∀ deck, state.newest = some deck → (state.decks deck).fired = true
  queued : ∀ deck, (state.decks deck).queue = []

namespace TurnOk

/-- What the session waits for is all it waits for. -/
theorem only (hturn : TurnOk state) {waiting what : Waiting} (hwaits : state.WaitsFor waiting)
    (hne : what ≠ waiting) : ¬state.WaitsFor what := by
  obtain ⟨one, hone⟩ := hturn.one
  rintro hother
  exact hne (((hone what).mp hother).trans ((hone waiting).mp hwaits).symm)

theorem booted (hturn : TurnOk state) {waiting : Waiting} (hwaits : state.WaitsFor waiting)
    (hne : waiting ≠ .boot) : state.booted = true := by
  have hboot := hturn.only hwaits hne.symm
  simpa [SessionState.WaitsFor] using hboot

theorem awaiting (hturn : TurnOk state) {waiting : Waiting} (hwaits : state.WaitsFor waiting)
    (hne : waiting ≠ .start) : state.awaiting = none := by
  have hstart := hturn.only hwaits hne.symm
  simpa [SessionState.WaitsFor] using hstart

theorem spent (hturn : TurnOk state) {waiting : Waiting} (hwaits : state.WaitsFor waiting)
    (hne : waiting ≠ .startNext) {deck : Fin 3} (hnewest : state.newest = some deck) :
    (state.decks deck).fired = true := by
  have hnext := hturn.only hwaits hne.symm
  by_contra hfired
  exact hnext ⟨deck, hnewest, by simpa using hfired⟩

theorem empty (hturn : TurnOk state) (hawaiting : state.awaiting = none) (deck : Fin 3) :
    (state.decks deck).queue = [] := by
  rcases hturn.queued deck with hempty | ⟨pushed, hpushed, -⟩
  · exact hempty
  · rw [hawaiting] at hpushed
    cases hpushed

/-- A booted session that waits for an item or a deck may push. -/
theorem ready (hturn : TurnOk state) {waiting : Waiting} (hwaits : state.WaitsFor waiting)
    (hbooted : state.booted = true) (hstart : waiting ≠ .start) (hnext : waiting ≠ .startNext) :
    Ready state where
  decks := hturn.decks
  booted := hbooted
  awaiting := hturn.awaiting hwaits hstart
  spent _ := hturn.spent hwaits hnext
  queued := hturn.empty (hturn.awaiting hwaits hstart)

end TurnOk

/-- Without a free deck, every deck is busy for some time. -/
theorem busy_of_freeDeck {clock : PushClock} (hawaiting : state.awaiting = none)
    (hbusy : state.freeDeck clock = none) (deck : Fin 3) : 0 < (state.decks deck).freeAt := by
  have hmem : deck ∈ [state.nextDeck, state.nextDeck + 1, state.nextDeck + 2] := by
    generalize state.nextDeck = first
    revert deck first
    decide
  have hfree := List.find?_eq_none.mp hbusy deck hmem
  simp only [SessionState.deckIsFree, hawaiting, Option.any_none, Bool.not_false, Bool.true_and,
    decide_eq_true_eq, not_le] at hfree
  exact lt_of_le_of_lt (clock.deck deck).property hfree

theorem decks_onDeck {deck other : Fin 3} {change : Deck → Deck} :
    (state.onDeck deck change).decks other =
      if other = deck then change (state.decks deck) else state.decks other :=
  Function.update_apply ..

/-- What a change of a deck's queue keeps of every deck. -/
theorem onDeck_keeps {deck other : Fin 3} {change : Deck → Deck}
    (hstarted : (change (state.decks deck)).started = (state.decks deck).started)
    (hfired : (change (state.decks deck)).fired = (state.decks deck).fired) :
    ((state.onDeck deck change).decks other).started = (state.decks other).started ∧
      ((state.onDeck deck change).decks other).fired = (state.decks other).fired := by
  rw [decks_onDeck]
  split
  next hsame =>
    subst hsame
    exact ⟨hstarted, hfired⟩
  · exact ⟨rfl, rfl⟩

theorem pushTo_ok {deck : Fin 3} {now : Time} {seq : Nat} {request : Request}
    {rest : List (Nat × Request)} (hready : Ready state)
    (hahead : state.prefetched = (seq, request) :: rest) :
    TurnOk (state.pushTo deck now seq request rest) := by
  have hkeeps (other : Fin 3) := @onDeck_keeps state deck other (.push request) rfl rfl
  refine ⟨⟨fun other hstarted hfired => ?_, fun entry hentry => ?_, ?_, hready.decks.alone⟩,
    ⟨.start, fun what => ?_⟩, fun other => ?_, ?_⟩
  · exact hready.decks.newest other ((hkeeps other).1 ▸ hstarted) ((hkeeps other).2 ▸ hfired)
  · exact hready.decks.ahead entry (hahead ▸ List.mem_cons_of_mem _ hentry)
  · have hreported := hready.decks.reported
    rw [hready.awaiting, Option.map_none, Option.toList_none, List.append_nil] at hreported
    change state.log.pushed ++ [seq] = _ ++ [seq]
    rw [hreported]
    rfl
  · cases what with
    | boot => exact iff_of_false (by simp [SessionState.WaitsFor, SessionState.pushTo,
        SessionState.onDeck, hready.booted]) nofun
    | items => exact iff_of_false (by simp [SessionState.WaitsFor, SessionState.pushTo]) nofun
    | deck => exact iff_of_false (by simp [SessionState.WaitsFor, SessionState.pushTo]) nofun
    | start => exact iff_of_true rfl rfl
    | startNext =>
        refine iff_of_false ?_ nofun
        rintro ⟨other, hnewest, hfired⟩
        have hspent := hready.spent other hnewest
        rw [← (hkeeps other).2] at hspent
        exact Bool.noConfusion (hspent.symm.trans hfired)
  · have hdecks : (state.pushTo deck now seq request rest).decks =
        (state.onDeck deck (.push request)).decks := rfl
    rw [hdecks, decks_onDeck]
    split
    next hsame =>
      refine .inr ⟨_, rfl, hsame.symm, ?_⟩
      rw [Deck.push, hready.queued deck]
      rfl
    · exact .inl (hready.queued other)
  · rintro pushed hpushed
    obtain rfl := Option.some.inj hpushed
    exact hready.decks.ahead (seq, request) (hahead ▸ List.mem_cons_self)

/-- A push ends with the session waiting for an item, a deck or the push. -/
theorem pushNext_ok (clock : PushClock) (hready : Ready state) :
    TurnOk (state.pushNext clock) := by
  have hnext {other : SessionState} (hnewest : other.newest = state.newest)
      (hdecks : other.decks = state.decks) : ¬other.WaitsFor .startNext := by
    rintro ⟨deck, hdeck, hfired⟩
    rw [hdecks, hready.spent deck (hnewest ▸ hdeck)] at hfired
    cases hfired
  have hlog : state.log.clashes + (if state.awaiting.isSome then 1 else 0) =
      state.log.clashes := by simp [hready.awaiting]
  unfold SessionState.pushNext
  rw [hlog]
  dsimp only
  split
  next hahead =>
    refine ⟨⟨hready.decks.newest, hready.decks.ahead, hready.decks.reported, hready.decks.alone⟩,
      ⟨.items, fun what => ?_⟩, fun deck => .inl (hready.queued deck), ?_⟩
    · cases what with
      | boot => exact iff_of_false (by simp [SessionState.WaitsFor, hready.booted]) nofun
      | items => exact iff_of_true rfl rfl
      | deck => exact iff_of_false (by simp [SessionState.WaitsFor]) nofun
      | start => exact iff_of_false (by simp [SessionState.WaitsFor, hready.awaiting]) nofun
      | startNext => exact iff_of_false (hnext rfl rfl) nofun
    · simp [hready.awaiting]
  next entry rest hahead hbusy =>
    have hwait : 0 < min (min (state.decks 0).freeAt (state.decks 1).freeAt)
        (state.decks 2).freeAt :=
      lt_min (lt_min (busy_of_freeDeck hready.awaiting hbusy 0)
        (busy_of_freeDeck hready.awaiting hbusy 1)) (busy_of_freeDeck hready.awaiting hbusy 2)
    refine ⟨⟨hready.decks.newest, hready.decks.ahead, hready.decks.reported, hready.decks.alone⟩,
      ⟨.deck, fun what => ?_⟩, fun deck => .inl (hready.queued deck), ?_⟩
    · cases what with
      | boot => exact iff_of_false (by
          simp [SessionState.WaitsFor, SessionState.waitForAFreeDeck, hready.booted]) nofun
      | items => exact iff_of_false (by
          simp [SessionState.WaitsFor, SessionState.waitForAFreeDeck]) nofun
      | deck => exact iff_of_true hwait rfl
      | start => exact iff_of_false (by
          simp [SessionState.WaitsFor, SessionState.waitForAFreeDeck, hready.awaiting]) nofun
      | startNext => exact iff_of_false (hnext rfl rfl) nofun
    · simp [SessionState.waitForAFreeDeck, hready.awaiting]
  next seq request rest deck hahead hfree =>
    exact pushTo_ok ⟨⟨hready.decks.newest, hready.decks.ahead, hready.decks.reported,
      hready.decks.alone⟩, hready.booted, hready.awaiting, hready.spent, hready.queued⟩ hahead

/-! ## The decision point -/

theorem boot_ok (clock : PushClock) (hturn : TurnOk state) : TurnOk (state.boot clock) := by
  unfold SessionState.boot
  split
  · exact hturn
  next hbooted =>
    have hboot : state.WaitsFor .boot := by simpa [SessionState.WaitsFor] using hbooted
    have hawaiting := hturn.awaiting hboot (by decide)
    exact pushNext_ok clock
      ⟨⟨hturn.decks.newest, hturn.decks.ahead, hturn.decks.reported, hturn.decks.alone⟩, rfl,
        hawaiting, fun _ => hturn.spent hboot (by decide), hturn.empty hawaiting⟩

theorem bootUnlessIntroPlays_ok (clock : SettleClock) (hturn : TurnOk state) :
    TurnOk (state.bootUnlessIntroPlays config clock) := by
  unfold SessionState.bootUnlessIntroPlays
  split
  · exact hturn
  · split
    · exact boot_ok _ hturn
    · split
      · exact boot_ok _ hturn
      · split
        · split
          · exact boot_ok _ hturn
          · exact hturn
        · exact hturn

/-- No deck holds a request once the awaited one is gone from its deck. -/
theorem queues_empty {pushed : Awaiting} {change : Deck → Deck} (hturn : TurnOk state)
    (hpushed : state.awaiting = some pushed)
    (hgone : (state.decks pushed.deck).queue = [] ∨
      (state.decks pushed.deck).queue = [pushed.request] →
      (change (state.decks pushed.deck)).queue = []) (other : Fin 3) :
    ((state.onDeck pushed.deck change).decks other).queue = [] := by
  rw [decks_onDeck]
  split
  · refine hgone ?_
    rcases hturn.queued pushed.deck with hempty | ⟨awaited, hawaited, -, hqueue⟩
    · exact .inl hempty
    · obtain rfl := Option.some.inj (hpushed.symm.trans hawaited)
      exact .inr hqueue
  next hother =>
    rcases hturn.queued other with hempty | ⟨awaited, hawaited, hdeck, -⟩
    · exact hempty
    · obtain rfl := Option.some.inj (hpushed.symm.trans hawaited)
      exact absurd hdeck.symm hother

theorem failPushThatNeverStarted_ok (clock : SettleClock) (hturn : TurnOk state) :
    TurnOk (state.failPushThatNeverStarted clock) := by
  unfold SessionState.failPushThatNeverStarted
  split
  next pushed hpushed =>
    split
    · have hstart : state.WaitsFor .start := by simp [SessionState.WaitsFor, hpushed]
      have hkeeps (other : Fin 3) := @onDeck_keeps state pushed.deck other
        (.remove pushed.request) rfl rfl
      refine pushNext_ok _ ⟨⟨fun other hstarted hfired => ?_, hturn.decks.ahead, ?_,
        hturn.decks.alone⟩, hturn.booted hstart (by decide), rfl, fun other hnewest => ?_,
        fun other => ?_⟩
      · exact hturn.decks.newest other ((hkeeps other).1 ▸ hstarted) ((hkeeps other).2 ▸ hfired)
      · have hreported := hturn.decks.reported
        rw [hpushed] at hreported
        simpa [SessionState.report, SessionState.onDeck, Report.seq] using hreported
      · exact (hkeeps other).2.trans (hturn.spent hstart (by decide) hnewest)
      · refine @queues_empty state pushed (.remove pushed.request) hturn hpushed (fun hqueue => ?_)
          other
        rcases hqueue with hqueue | hqueue <;> simp [Deck.remove, hqueue]
    · exact hturn
  · exact hturn

theorem pushWhenADeckFrees_ok (clock : SettleClock) (hturn : TurnOk state) :
    TurnOk (state.pushWhenADeckFrees clock) := by
  unfold SessionState.pushWhenADeckFrees
  split
  next hwait =>
    have hdeck : state.WaitsFor .deck := hwait.1
    exact pushNext_ok _ (hturn.ready hdeck (hturn.booted hdeck (by decide)) (by decide) (by decide))
  · exact hturn

theorem resume_ok (clock : SettleClock) (hturn : TurnOk state) : TurnOk (state.resume clock) := by
  unfold SessionState.resume
  split
  next hresume =>
    have hitems : state.WaitsFor .items := hresume.2.1
    exact pushNext_ok _ (hturn.ready hitems hresume.1 (by decide) (by decide))
  · exact hturn

theorem fetchMore_ok (hturn : TurnOk state) : TurnOk state.fetchMore := by
  unfold SessionState.fetchMore
  split
  · exact ⟨⟨hturn.decks.newest, hturn.decks.ahead, hturn.decks.reported, hturn.decks.alone⟩,
      hturn.one, hturn.queued, hturn.annotated⟩
  · exact hturn

theorem absorbFetchResult_ok (hturn : TurnOk state)
    (hannotated : state.absorbedTicket < state.fetchResult.ticket →
      state.fetchResult.outcome.annotated state.fetchResult.seq) :
    TurnOk state.absorbFetchResult := by
  unfold SessionState.absorbFetchResult
  generalize state.fetchResult = result at hannotated
  obtain ⟨ticket, seq, outcome⟩ := result
  dsimp only at hannotated ⊢
  split
  next hnew =>
    cases outcome with
    | item request =>
        have hrequest : request.annotations.itemSeq = some seq := by
          simpa [FetchOutcome.annotated] using hannotated hnew
        refine ⟨⟨hturn.decks.newest, fun entry hentry => ?_, hturn.decks.reported,
          hturn.decks.alone⟩, hturn.one, hturn.queued, hturn.annotated⟩
        rcases List.mem_append.mp hentry with hentry | hentry
        · exact hturn.decks.ahead entry hentry
        · obtain rfl := List.mem_singleton.mp hentry
          exact hrequest
    | skip | ended | retry =>
        exact ⟨⟨hturn.decks.newest, hturn.decks.ahead, hturn.decks.reported, hturn.decks.alone⟩,
          hturn.one, hturn.queued, hturn.annotated⟩
  · exact hturn

/-! ## The decks' callbacks -/

/-- The deck starts the request that is awaited. -/
theorem trackStarted_ok {deck : Fin 3} {request : Request} {rest : List Request} (now : Time)
    (remaining : Rat) (hturn : TurnOk state)
    (hqueue : (state.decks deck).queue = request :: rest) :
    TurnOk ((state.onDeck deck .take).trackStarted deck now remaining request.annotations) := by
  obtain ⟨pushed, hpushed, hdeck, halone⟩ :=
    (hturn.queued deck).resolve_left (by rw [hqueue]; exact List.cons_ne_nil _ _)
  obtain ⟨rfl, rfl⟩ := List.cons.inj (hqueue.symm.trans halone)
  subst hdeck
  have hseq := hturn.annotated pushed hpushed
  -- A track is awaited, so of the things a session waits for it is the only one.
  have hstart : state.WaitsFor .start := by simp [SessionState.WaitsFor, hpushed]
  have hbooted := hturn.booted hstart (by decide)
  have hitems : state.starved = false := by
    simpa [SessionState.WaitsFor] using @TurnOk.only state hturn .start .items hstart (by decide)
  have hwait : ¬0 < state.deckWaitUntil := @TurnOk.only state hturn .start .deck hstart (by decide)
  have hempty (other : Fin 3) := @queues_empty state pushed .take hturn hpushed
    (fun hcases => by rcases hcases with h | h <;> simp [Deck.take, h]) other
  have hcleared : (state.awaiting.filter fun awaited =>
      (some pushed.seq).any fun itemSeq => itemSeq ≠ awaited.seq) = none := by
    simp [hpushed, Option.filter_some]
  unfold SessionState.trackStarted
  rw [hseq]
  generalize now.val + SessionState.trackSpan pushed.request.annotations remaining = freeAt
  generalize pushed.request.annotations.snRem.getD 0 = snRem
  have hdecks (other : Fin 3) :
      (((state.onDeck pushed.deck .take).onDeck pushed.deck (.start snRem freeAt)).decks other) =
        if other = pushed.deck then ((state.decks pushed.deck).take).start snRem freeAt
        else state.decks other := by
    rw [decks_onDeck, decks_onDeck, if_pos rfl]
    split
    · rfl
    next hother => rw [decks_onDeck, if_neg hother]
  dsimp only
  refine ⟨⟨fun other hstarted hfired => ?_, hturn.decks.ahead, ?_, hturn.decks.alone⟩,
    ⟨.startNext, fun what => ?_⟩, fun other => .inl ?_, fun awaited hawaited => ?_⟩
  · change ((SessionState.onDeck _ _ _).decks other).fired = false at hfired
    change ((SessionState.onDeck _ _ _).decks other).started = true at hstarted
    rw [hdecks] at hfired hstarted
    by_cases hother : other = pushed.deck
    · exact congrArg some hother.symm
    · rw [if_neg hother] at hfired hstarted
      have hnewest := hturn.decks.newest other hstarted hfired
      exact absurd (hturn.spent hstart (by decide) hnewest) (by simp [hfired])
  · have hreported := hturn.decks.reported
    rw [hpushed] at hreported
    simpa [SessionState.report, SessionState.onDeck, Report.seq, hpushed, Option.filter_some]
      using hreported
  · cases what with
    | boot => exact iff_of_false (by simp [SessionState.WaitsFor, SessionState.report,
        SessionState.onDeck, hbooted]) nofun
    | items => exact iff_of_false (by simp [SessionState.WaitsFor, SessionState.report,
        SessionState.onDeck, hitems]) nofun
    | deck => exact iff_of_false hwait nofun
    | start => exact iff_of_false (by simp [SessionState.WaitsFor, SessionState.report,
        SessionState.onDeck, hpushed, Option.filter_some]) nofun
    | startNext =>
        refine iff_of_true ⟨pushed.deck, rfl, ?_⟩ rfl
        change ((SessionState.onDeck _ _ _).decks pushed.deck).fired = false
        rw [hdecks, if_pos rfl]
        rfl
  · change ((SessionState.onDeck _ _ _).decks other).queue = []
    have hother := hempty other
    rw [decks_onDeck] at hother
    rw [hdecks]
    split
    next hsame =>
      rw [if_pos hsame] at hother
      exact hother
    next hne =>
      rw [if_neg hne] at hother
      exact hother
  · cases hcleared.symm.trans hawaited

/-- A deck drops the request that is awaited: the push is still to fail. -/
theorem deckDrops_ok {deck : Fin 3} (hturn : TurnOk state) : TurnOk (state.onDeck deck .take) := by
  have hkeeps (other : Fin 3) := @onDeck_keeps state deck other .take rfl rfl
  refine ⟨⟨fun other hstarted hfired => ?_, hturn.decks.ahead, hturn.decks.reported,
    hturn.decks.alone⟩, ?_, fun other => ?_, hturn.annotated⟩
  · exact hturn.decks.newest other ((hkeeps other).1 ▸ hstarted) ((hkeeps other).2 ▸ hfired)
  · obtain ⟨waiting, hone⟩ := hturn.one
    refine ⟨waiting, fun what => Iff.trans ?_ (hone what)⟩
    cases what with
    | boot | items | deck | start => exact Iff.rfl
    | startNext =>
        refine exists_congr fun other => and_congr_right fun _ => ?_
        rw [(hkeeps other).2]
  · rw [decks_onDeck]
    split
    next hsame =>
      subst hsame
      rcases hturn.queued other with hempty | ⟨pushed, -, -, hqueue⟩
      · exact .inl (by simp [Deck.take, hempty])
      · exact .inl (by simp [Deck.take, hqueue])
    · exact hturn.queued other

theorem startNext_ok {deck : Fin 3} (clock : PushClock) (hturn : TurnOk state)
    (hstarted : (state.decks deck).started) (hfired : (state.decks deck).fired = false) :
    TurnOk ((state.onDeck deck .handOver).pushNext clock) := by
  have hnewest := hturn.decks.newest deck hstarted hfired
  have hnext : state.WaitsFor .startNext := ⟨deck, hnewest, hfired⟩
  have hawaiting := hturn.awaiting hnext (by decide)
  refine pushNext_ok clock ⟨⟨fun other hon hoff => ?_, hturn.decks.ahead, hturn.decks.reported,
    hturn.decks.alone⟩, hturn.booted hnext (by decide), hawaiting, fun other hother => ?_,
    fun other => ?_⟩
  · rw [decks_onDeck] at hon hoff
    split at hoff
    · cases hoff
    next hne =>
      rw [if_neg hne] at hon
      exact hturn.decks.newest other hon hoff
  · obtain rfl := Option.some.inj (hnewest.symm.trans hother)
    rw [decks_onDeck, if_pos rfl]
    rfl
  · rw [decks_onDeck]
    split
    · exact hturn.empty hawaiting deck
    · exact hturn.empty hawaiting other

end RetroStation.Playout.SessionScript
