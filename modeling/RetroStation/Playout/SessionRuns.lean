import RetroStation.Playout.SessionTurns

/-! # What a session has fetched, pushed and reported

One fetch is in flight at a time, and what it answers is taken in before the next one
starts: the items come in order, each is pushed once, in that order, and each push is
reported once before the next is made.
-/

namespace RetroStation.Playout.SessionScript

open Transition

variable {config : SessionConfig} {state next : SessionState}

/-! ## The fetches -/

/-- What fetching reads and changes. -/
structure Fetching where
  fetchTicket : Nat
  absorbedTicket : Nat
  inFlight : List (Nat × Nat)
  result : FetchResult
  nextSeq : Nat
  prefetched : List (Nat × Request)
  answered : List (Nat × FetchOutcome)
  absorbed : List (Nat × FetchOutcome)
  pushed : List Nat

def SessionState.fetching (state : SessionState) : Fetching where
  fetchTicket := state.fetchTicket
  absorbedTicket := state.absorbedTicket
  inFlight := state.inFlight
  result := state.fetchResult
  nextSeq := state.nextSeq
  prefetched := state.prefetched
  answered := state.log.answered
  absorbed := state.log.absorbed
  pushed := state.log.pushed

/-- The request of a resolved item. -/
def FetchOutcome.request? : FetchOutcome → Option Request
  | .item request => some request
  | _ => none

namespace Fetching

/-- The result a worker has written and the session has not taken in. -/
def unabsorbed (fetching : Fetching) : List (Nat × FetchOutcome) :=
  if fetching.absorbedTicket < fetching.result.ticket then
    [(fetching.result.seq, fetching.result.outcome)]
  else []

/-- No fetch, one in flight, or one answered. -/
inductive Flight (fetching : Fetching) : Prop
  | idle (hticket : fetching.fetchTicket = fetching.absorbedTicket)
      (hflight : fetching.inFlight = [])
      (hresult : fetching.result.ticket ≤ fetching.absorbedTicket)
  | flying (hticket : fetching.fetchTicket = fetching.absorbedTicket + 1)
      (hflight : fetching.inFlight = [(fetching.fetchTicket, fetching.nextSeq)])
      (hresult : fetching.result.ticket ≤ fetching.absorbedTicket)
  | answered (hticket : fetching.fetchTicket = fetching.absorbedTicket + 1)
      (hflight : fetching.inFlight = [])
      (hresult : fetching.result.ticket = fetching.absorbedTicket + 1)
      (hseq : fetching.result.seq = fetching.nextSeq)

structure Ok (fetching : Fetching) : Prop where
  flight : fetching.Flight
  room : fetching.prefetched.length + (fetching.fetchTicket - fetching.absorbedTicket) ≤ 2
  lost : fetching.answered = fetching.absorbed ++ fetching.unabsorbed
  annotated : fetching.absorbedTicket < fetching.result.ticket →
    fetching.result.outcome.annotated fetching.result.seq
  passed : (fetching.absorbed.filter (·.2.passes)).map Prod.fst = List.range fetching.nextSeq
  items : (fetching.absorbed.filter (·.2.isItem)).map Prod.fst =
    fetching.pushed ++ fetching.prefetched.map Prod.fst

/-- Some of the oldest prefetched items are pushed. -/
inductive Pushes : Fetching → Fetching → Prop
  | none (fetching : Fetching) : Pushes fetching fetching
  | push {fetching last : Fetching} {seq : Nat} {request : Request} {rest : List (Nat × Request)}
      (hahead : fetching.prefetched = (seq, request) :: rest)
      (hmore : Pushes { fetching with prefetched := rest, pushed := fetching.pushed ++ [seq] }
        last) :
      Pushes fetching last

namespace Pushes

variable {first second third : Fetching}

theorem trans (hfirst : Pushes first second) (hsecond : Pushes second third) :
    Pushes first third := by
  induction hfirst with
  | none => exact hsecond
  | push hahead _ ih => exact .push hahead (ih hsecond)

theorem ok (hpushes : Pushes first second) (hok : first.Ok) : second.Ok := by
  induction hpushes with
  | none => exact hok
  | @push fetching last seq request rest hahead _ ih =>
      refine ih ⟨?_, ?_, hok.lost, hok.annotated, hok.passed, ?_⟩
      · cases hok.flight with
        | idle hticket hflight hresult => exact .idle hticket hflight hresult
        | flying hticket hflight hresult => exact .flying hticket hflight hresult
        | answered hticket hflight hresult hseq => exact .answered hticket hflight hresult hseq
      · have hroom := hok.room
        rw [hahead, List.length_cons] at hroom
        dsimp only
        omega
      · rw [hok.items, hahead]
        simp

/-- Pushing takes nothing in. -/
theorem keeps (hpushes : Pushes first second) :
    second.nextSeq = first.nextSeq ∧ second.absorbed = first.absorbed := by
  induction hpushes with
  | none => exact ⟨rfl, rfl⟩
  | push _ _ ih => exact ih

end Pushes

end Fetching

theorem pushNext_pushes (clock : PushClock) :
    Fetching.Pushes state.fetching (state.pushNext clock).fetching := by
  unfold SessionState.pushNext
  dsimp only
  split
  · exact .none _
  · exact .none _
  next seq request rest deck hahead hfree =>
    exact @Fetching.Pushes.push state.fetching _ _ _ _ hahead (.none _)

theorem boot_pushes (clock : PushClock) :
    Fetching.Pushes state.fetching (state.boot clock).fetching := by
  unfold SessionState.boot
  split
  · exact .none _
  · exact @pushNext_pushes { state with booted := true } clock

theorem bootUnlessIntroPlays_pushes (clock : SettleClock) :
    Fetching.Pushes state.fetching (state.bootUnlessIntroPlays config clock).fetching := by
  unfold SessionState.bootUnlessIntroPlays
  split
  · exact .none _
  · split
    · exact boot_pushes _
    · split
      · exact boot_pushes _
      · split
        · split
          · exact boot_pushes _
          · exact .none _
        · exact .none _

theorem failPushThatNeverStarted_pushes (clock : SettleClock) :
    Fetching.Pushes state.fetching (state.failPushThatNeverStarted clock).fetching := by
  unfold SessionState.failPushThatNeverStarted
  split
  next pushed _ =>
    split
    · let failed := ({ state with awaiting := none }.onDeck pushed.deck
        (.remove pushed.request)).report (.failed pushed.seq)
      exact @pushNext_pushes failed clock.failed
    · exact .none _
  · exact .none _

theorem pushWhenADeckFrees_pushes (clock : SettleClock) :
    Fetching.Pushes state.fetching (state.pushWhenADeckFrees clock).fetching := by
  unfold SessionState.pushWhenADeckFrees
  split
  · exact pushNext_pushes _
  · exact .none _

theorem resume_pushes (clock : SettleClock) :
    Fetching.Pushes state.fetching (state.resume clock).fetching := by
  unfold SessionState.resume
  split
  · exact pushNext_pushes _
  · exact .none _

/-- Between what is taken in and the next fetch, the decision point only pushes. -/
theorem settle_pushes (clock : SettleClock) :
    ∃ middle : SessionState, state.settle config clock = middle.fetchMore ∧
      Fetching.Pushes state.absorbFetchResult.fetching middle.fetching :=
  ⟨_, rfl, (bootUnlessIntroPlays_pushes clock).trans
    ((failPushThatNeverStarted_pushes clock).trans
      ((pushWhenADeckFrees_pushes clock).trans (resume_pushes clock)))⟩

theorem trackStarted_fetching (deck : Fin 3) (now : Time) (remaining : Rat)
    (annotations : Annotations) :
    (state.trackStarted deck now remaining annotations).fetching = state.fetching := by
  unfold SessionState.trackStarted
  dsimp only
  split <;> rfl

namespace Fetching

variable {first second third : Fetching}

/-- The next seq stays, or moves by one past an item or a skip taken in. -/
def MovesOn (first second : Fetching) : Prop :=
  second.nextSeq = first.nextSeq ∨
    second.nextSeq = first.nextSeq + 1 ∧ ∃ outcome : FetchOutcome, outcome.passes ∧
      second.absorbed = first.absorbed ++ [(first.nextSeq, outcome)]

theorem MovesOn.pushes (hmoves : MovesOn first second) (hpushes : Pushes second third) :
    MovesOn first third := by
  unfold MovesOn
  rw [hpushes.keeps.1, hpushes.keeps.2]
  exact hmoves

end Fetching

theorem fetchMore_movesOn {first : Fetching} (hmoves : first.MovesOn state.fetching) :
    first.MovesOn state.fetchMore.fetching := by
  unfold SessionState.fetchMore
  split
  · exact hmoves
  · exact hmoves

theorem fetchMore_fetching_ok (hok : state.fetching.Ok) : state.fetchMore.fetching.Ok := by
  unfold SessionState.fetchMore
  split
  next hfetch =>
    obtain ⟨hticket, -, -, hroom⟩ := hfetch
    have hidle : state.inFlight = [] ∧ state.fetchResult.ticket ≤ state.absorbedTicket := by
      cases hok.flight with
      | idle _ hflight hresult => exact ⟨hflight, hresult⟩
      | flying hbusy _ _ =>
          exact absurd (hticket.symm.trans hbusy) (Nat.ne_of_lt (Nat.lt_succ_self _))
      | answered hbusy _ _ _ =>
          exact absurd (hticket.symm.trans hbusy) (Nat.ne_of_lt (Nat.lt_succ_self _))
    refine ⟨.flying (congrArg (· + 1) hticket) ?_ hidle.2, ?_, hok.lost, hok.annotated,
      hok.passed, hok.items⟩
    · change state.inFlight ++ [(state.fetchTicket + 1, state.nextSeq)] = _
      rw [hidle.1]
      rfl
    · change state.prefetched.length + (state.fetchTicket + 1 - state.absorbedTicket) ≤ 2
      omega
  · exact hok

namespace Fetching

variable {fetching : Fetching}

/-- What is left once the answer is taken in. -/
def takeIn (fetching : Fetching) : Fetching :=
  let result := fetching.result
  { fetching with
    absorbedTicket := result.ticket
    absorbed := fetching.absorbed ++ [(result.seq, result.outcome)]
    nextSeq := if result.outcome.passes then result.seq + 1 else fetching.nextSeq
    prefetched := fetching.prefetched ++ (result.outcome.request?.map (result.seq, ·)).toList }

theorem Ok.answered (hok : fetching.Ok) (hnew : fetching.absorbedTicket < fetching.result.ticket) :
    fetching.fetchTicket = fetching.absorbedTicket + 1 ∧ fetching.inFlight = [] ∧
      fetching.result.ticket = fetching.absorbedTicket + 1 ∧
      fetching.result.seq = fetching.nextSeq := by
  cases hok.flight with
  | idle _ _ hold => exact absurd hnew (Nat.not_lt.mpr hold)
  | flying _ _ hold => exact absurd hnew (Nat.not_lt.mpr hold)
  | answered hticket hflight hresult hseq => exact ⟨hticket, hflight, hresult, hseq⟩

theorem takeIn_movesOn (hok : fetching.Ok)
    (hnew : fetching.absorbedTicket < fetching.result.ticket) :
    fetching.MovesOn fetching.takeIn := by
  obtain ⟨-, -, -, hseq⟩ := hok.answered hnew
  by_cases hpasses : fetching.result.outcome.passes
  · refine .inr ⟨?_, fetching.result.outcome, hpasses, ?_⟩
    · simp [takeIn, hpasses, hseq]
    · simp [takeIn, hseq]
  · exact .inl (by simp [takeIn, hpasses])

/-- What is taken in is the answer for the next seq, and nothing of it is lost. -/
theorem takeIn_ok (hok : fetching.Ok) (hnew : fetching.absorbedTicket < fetching.result.ticket) :
    fetching.takeIn.Ok := by
  obtain ⟨hticket, hflight, hresult, hseq⟩ := hok.answered hnew
  obtain ⟨-, hroom, hlost, -, hpassed, hitems⟩ := hok
  have htaken : fetching.takeIn.unabsorbed = [] := if_neg (Nat.lt_irrefl _)
  refine ⟨.idle (hticket.trans hresult.symm) hflight (Nat.le_refl _), ?_, ?_,
    fun hnone => absurd hnone (Nat.lt_irrefl _), ?_, ?_⟩
  · have hone : (fetching.result.outcome.request?.map (fetching.result.seq, ·)).toList.length ≤ 1 :=
      Option.length_toList_le
    simp only [takeIn, List.length_append, hresult]
    omega
  · rw [htaken, List.append_nil]
    exact hlost.trans (congrArg _ (if_pos hnew))
  · simp only [takeIn, List.filter_append, List.map_append, hpassed, hseq]
    cases houtcome : fetching.result.outcome <;>
      simp [FetchOutcome.passes, List.range_succ]
  · simp only [takeIn, List.filter_append, List.map_append, hitems]
    cases houtcome : fetching.result.outcome <;>
      simp [FetchOutcome.isItem, FetchOutcome.request?]

end Fetching

theorem absorbFetchResult_eq :
    state.absorbFetchResult.fetching =
      if state.absorbedTicket < state.fetchResult.ticket then state.fetching.takeIn
      else state.fetching := by
  unfold SessionState.absorbFetchResult
  generalize hresult : state.fetchResult = result
  obtain ⟨ticket, seq, outcome⟩ := result
  dsimp only
  split
  · cases outcome <;>
      simp [SessionState.fetching, Fetching.takeIn, hresult, FetchOutcome.passes,
        FetchOutcome.request?]
  · rfl

theorem absorbFetchResult_fetching (hok : state.fetching.Ok) :
    state.absorbFetchResult.fetching.Ok ∧
      state.fetching.MovesOn state.absorbFetchResult.fetching := by
  rw [absorbFetchResult_eq]
  split
  next hnew => exact ⟨Fetching.takeIn_ok hok hnew, Fetching.takeIn_movesOn hok hnew⟩
  · exact ⟨hok, .inl rfl⟩

/-- The one fetch in flight is for the next seq, and nothing waits to be taken in. -/
theorem Fetching.Ok.flying {fetching : Fetching} {ticket seq : Nat} {rest : List (Nat × Nat)}
    (hok : fetching.Ok) (hflight : fetching.inFlight = (ticket, seq) :: rest) :
    rest = [] ∧ seq = fetching.nextSeq ∧ ticket = fetching.absorbedTicket + 1 ∧
      fetching.fetchTicket = fetching.absorbedTicket + 1 ∧ fetching.unabsorbed = [] := by
  have hnone (hnew : fetching.inFlight = []) : False := by
    rw [hflight] at hnew
    cases hnew
  cases hok.flight with
  | idle _ hempty _ => exact (hnone hempty).elim
  | answered _ hempty _ _ => exact (hnone hempty).elim
  | flying hticket hone hresult =>
      obtain ⟨hentry, hrest⟩ := List.cons.inj (hflight.symm.trans hone)
      obtain ⟨hfetch, hseq⟩ := Prod.mk.inj hentry
      exact ⟨hrest, hseq, hfetch.trans hticket, hticket, if_neg (Nat.not_lt.mpr hresult)⟩

/-! ## One step -/

structure SessionOk (state : SessionState) : Prop where
  turn : TurnOk state
  fetching : state.fetching.Ok

/-- A good session goes on as one. -/
structure GoesOn (state next : SessionState) : Prop where
  ok : SessionOk next
  moves : state.fetching.MovesOn next.fetching

/-- What a step that only pushes does. -/
theorem GoesOn.of_pushes (hok : SessionOk state) (hturn : TurnOk next)
    (hpushes : Fetching.Pushes state.fetching next.fetching) : GoesOn state next :=
  ⟨⟨hturn, hpushes.ok hok.fetching⟩,
    @Fetching.MovesOn.pushes state.fetching state.fetching _ (.inl rfl) hpushes⟩

/-- Whose turn it is does not read what the workers write. -/
theorem TurnOk.aside (hturn : TurnOk state) (fetchHeld closed introUnavailable : Bool)
    (introPushedAt : Option Rat) (inFlight : List (Nat × Nat)) (fetchResult : FetchResult)
    (answered : List (Nat × FetchOutcome)) :
    TurnOk { state with
      fetchHeld := fetchHeld
      closed := closed
      introUnavailable := introUnavailable
      introPushedAt := introPushedAt
      inFlight := inFlight
      fetchResult := fetchResult
      log := { state.log with answered := answered } } :=
  ⟨⟨hturn.decks.newest, hturn.decks.ahead, hturn.decks.reported, hturn.decks.alone⟩, hturn.one,
    hturn.queued, hturn.annotated⟩

theorem settle_goesOn (clock : SettleClock) (hok : SessionOk state) :
    GoesOn state (state.settle config clock) := by
  have habsorbed := absorbFetchResult_ok hok.turn hok.fetching.annotated
  obtain ⟨hfetching, hmoves⟩ := absorbFetchResult_fetching hok.fetching
  have hturn := fetchMore_ok (resume_ok clock (pushWhenADeckFrees_ok clock
    (failPushThatNeverStarted_ok clock (@bootUnlessIntroPlays_ok config _ clock habsorbed))))
  obtain ⟨middle, hmiddle, hpushes⟩ := @settle_pushes config state clock
  refine ⟨⟨hturn, ?_⟩, ?_⟩
  · rw [hmiddle]
    exact fetchMore_fetching_ok (hpushes.ok hfetching)
  · rw [hmiddle]
    exact fetchMore_movesOn (hmoves.pushes hpushes)

theorem retryFetch_goesOn (clock : SettleClock) (hok : SessionOk state) :
    GoesOn state (state.retryFetch config clock) := by
  obtain ⟨hnext, hmoves⟩ := @settle_goesOn config { state with fetchHeld := false } clock
    ⟨hok.turn.aside _ _ _ _ _ _ _, hok.fetching⟩
  exact ⟨hnext, hmoves⟩

theorem deckStarts_goesOn {deck : Fin 3} {request : Request} {rest : List Request} (now : Time)
    (remaining : Rat) (clock : SettleClock) (hok : SessionOk state)
    (hqueue : (state.decks deck).queue = request :: rest) :
    GoesOn state (((state.onDeck deck .take).trackStarted deck now remaining
      request.annotations).retryFetch config clock) := by
  have hsame : ((state.onDeck deck .take).trackStarted deck now remaining
      request.annotations).fetching = state.fetching := trackStarted_fetching ..
  obtain ⟨hnext, hmoves⟩ := @retryFetch_goesOn config _ clock
    ⟨trackStarted_ok now remaining hok.turn hqueue, hsame ▸ hok.fetching⟩
  exact ⟨hnext, hsame ▸ hmoves⟩

theorem startNext_goesOn {deck : Fin 3} (clock : PushClock) (hok : SessionOk state)
    (hstarted : (state.decks deck).started) (hfired : (state.decks deck).fired = false) :
    GoesOn state ((state.onDeck deck .handOver).pushNext clock) :=
  .of_pushes hok (startNext_ok clock hok.turn hstarted hfired)
    (@pushNext_pushes (state.onDeck deck .handOver) clock)

theorem answers_goesOn {ticket seq : Nat} {rest : List (Nat × Nat)} {outcome : FetchOutcome}
    (hok : SessionOk state) (hflight : state.inFlight = (ticket, seq) :: rest)
    (hannotated : outcome.annotated seq) :
    GoesOn state { state with
      inFlight := rest
      fetchResult := ⟨ticket, seq, outcome⟩
      log := { state.log with answered := state.log.answered ++ [(seq, outcome)] } } := by
  obtain ⟨rfl, rfl, rfl, hticket, hnone⟩ := hok.fetching.flying hflight
  refine ⟨⟨hok.turn.aside _ _ _ _ _ _ _, ⟨.answered hticket rfl rfl rfl, hok.fetching.room, ?_,
    fun _ => hannotated, hok.fetching.passed, hok.fetching.items⟩⟩, .inl rfl⟩
  have hlost := hok.fetching.lost
  rw [hnone, List.append_nil] at hlost
  change state.log.answered ++ [(state.nextSeq, outcome)] = state.log.absorbed ++ _
  rw [show state.log.answered = state.log.absorbed from hlost]
  exact congrArg _ (if_pos (Nat.lt_succ_self _)).symm

theorem step_goesOn {action : SessionAction} {output : Unit} (hok : SessionOk state)
    (hstep : (sessionMachine config).step state action = some (next, output)) :
    GoesOn state next := by
  change sessionStep config state action = some (next, output) at hstep
  -- Each callback either pushes on the session's own turn or has a lemma of its own.
  cases action with
  | bell clock =>
      obtain ⟨rfl, -⟩ := Prod.mk.inj (Option.some.inj hstep)
      exact settle_goesOn clock hok
  | deckStarts deck now remaining clock =>
      simp only [sessionStep] at hstep
      split at hstep
      next request rest hqueue =>
        obtain ⟨rfl, -⟩ := Prod.mk.inj (Option.some.inj hstep)
        exact deckStarts_goesOn now remaining clock hok hqueue
      · cases hstep
  | deckDrops deck =>
      simp only [sessionStep] at hstep
      split at hstep
      · obtain ⟨rfl, -⟩ := Prod.mk.inj (Option.some.inj hstep)
        exact .of_pushes hok (deckDrops_ok hok.turn) (.none _)
      · cases hstep
  | startNext deck clock =>
      simp only [sessionStep] at hstep
      split at hstep
      next hstarted =>
        split at hstep
        · obtain ⟨rfl, -⟩ := Prod.mk.inj (Option.some.inj hstep)
          exact .of_pushes hok hok.turn (.none _)
        next hfired =>
          obtain ⟨rfl, -⟩ := Prod.mk.inj (Option.some.inj hstep)
          exact startNext_goesOn clock hok hstarted (Bool.eq_false_iff.mpr hfired)
      · cases hstep
  | fillerBoundary clock =>
      simp only [sessionStep] at hstep
      split at hstep
      · obtain ⟨rfl, -⟩ := Prod.mk.inj (Option.some.inj hstep)
        exact .of_pushes hok (hok.turn.aside _ _ _ _ _ _ _) (.none _)
      · obtain ⟨rfl, -⟩ := Prod.mk.inj (Option.some.inj hstep)
        exact retryFetch_goesOn clock hok
  | introPushed now =>
      obtain ⟨rfl, -⟩ := Prod.mk.inj (Option.some.inj hstep)
      exact .of_pushes hok (hok.turn.aside _ _ _ _ _ _ _) (.none _)
  | introUnavailable =>
      obtain ⟨rfl, -⟩ := Prod.mk.inj (Option.some.inj hstep)
      exact .of_pushes hok (hok.turn.aside _ _ _ _ _ _ _) (.none _)
  | introPosition clock =>
      obtain ⟨rfl, -⟩ := Prod.mk.inj (Option.some.inj hstep)
      exact .of_pushes hok (boot_ok clock hok.turn) (boot_pushes clock)
  | answers outcome =>
      simp only [sessionStep] at hstep
      split at hstep
      next ticket seq rest hflight =>
        split at hstep
        next hannotated =>
          obtain ⟨rfl, -⟩ := Prod.mk.inj (Option.some.inj hstep)
          exact answers_goesOn hok hflight hannotated
        · cases hstep
      · cases hstep

/-! ## Whole sessions -/

theorem start_ok : SessionOk {} where
  turn :=
    { decks := ⟨nofun, nofun, rfl, rfl⟩
      one := by
        refine ⟨.boot, fun what => ?_⟩
        cases what with
        | boot => exact iff_of_true rfl rfl
        | items => exact iff_of_false nofun nofun
        | deck => exact iff_of_false (lt_irrefl (0 : Rat)) nofun
        | start => exact iff_of_false nofun nofun
        | startNext =>
            refine iff_of_false ?_ nofun
            rintro ⟨deck, hdeck, -⟩
            cases hdeck
      queued := fun _ => .inl rfl
      annotated := nofun }
  fetching := ⟨.idle rfl rfl (Nat.le_refl _), Nat.zero_le _, rfl, nofun, rfl, rfl⟩

theorem run_ok {trace : List (SessionAction × Unit)}
    (hrun : (sessionMachine config).Run {} trace state) : SessionOk state :=
  hrun.invariant (fun _ _ _ _ hok hstep => (step_goesOn hok hstep).ok) start_ok

/-- What a listener's session keeps to. -/
structure PlaysInTurn (state : SessionState) : Prop where
  oneFetch : state.inFlight.length ≤ 1
  kept : state.log.answered = state.log.absorbed ++ state.fetching.unabsorbed
  /-- Every seq below the next one was passed once, in order. -/
  passed : (state.log.absorbed.filter (·.2.passes)).map Prod.fst = List.range state.nextSeq
  /-- Every item is prefetched or was pushed. -/
  items : (state.log.absorbed.filter (·.2.isItem)).map Prod.fst =
    state.log.pushed ++ state.prefetched.map Prod.fst
  increasing : (state.log.pushed ++ state.prefetched.map Prod.fst).Pairwise (· < ·)
  ahead : state.prefetched.length ≤ 2
  one : ∃! waiting, state.WaitsFor waiting
  /-- No push was made while another was awaited. -/
  alone : state.log.clashes = 0
  /-- Every push but the awaited one was reported once, started or failed. -/
  reported : state.log.pushed =
    state.log.reports.map Report.seq ++ (state.awaiting.map Awaiting.seq).toList

/-- An item is among the answers that move on. -/
theorem items_sublist (answers : List (Nat × FetchOutcome)) :
    (answers.filter (·.2.isItem)).Sublist (answers.filter (·.2.passes)) := by
  refine List.monotone_filter_right _ fun answer hitem => ?_
  cases houtcome : answer.2 with
  | item | skip => rfl
  | ended | retry =>
      rw [houtcome] at hitem
      cases hitem

theorem SessionOk.playsInTurn (hok : SessionOk state) : PlaysInTurn state where
  oneFetch := by
    cases hok.fetching.flight with
    | idle _ hflight _ | answered _ hflight _ _ =>
        exact (congrArg List.length hflight).trans_le (Nat.zero_le _)
    | flying _ hflight _ => exact (congrArg List.length hflight).le
  kept := hok.fetching.lost
  passed := hok.fetching.passed
  items := hok.fetching.items
  increasing := by
    have hsublist := (items_sublist state.log.absorbed).map Prod.fst
    have hpassed : (state.log.absorbed.filter (·.2.passes)).map Prod.fst =
        List.range state.nextSeq := hok.fetching.passed
    have hitems : (state.log.absorbed.filter (·.2.isItem)).map Prod.fst =
        state.log.pushed ++ state.prefetched.map Prod.fst := hok.fetching.items
    rw [hpassed, hitems] at hsublist
    exact List.pairwise_lt_range.sublist hsublist
  ahead := (Nat.le_add_right _ _).trans hok.fetching.room
  one := by
    obtain ⟨waiting, hone⟩ := hok.turn.one
    exact ⟨waiting, (hone waiting).mpr rfl, fun other => (hone other).mp⟩
  alone := hok.turn.decks.alone
  reported := hok.turn.decks.reported

/-- Whatever comes in whatever order, the session plays every item once, one at a time, and
its next seq moves by one, past an item or a skip. -/
theorem session_playsInTurn {trace : List (SessionAction × Unit)}
    (hrun : (sessionMachine config).Run {} trace state) :
    PlaysInTurn state ∧ ∀ action next output,
      (sessionMachine config).step state action = some (next, output) →
      state.fetching.MovesOn next.fetching :=
  ⟨(run_ok hrun).playsInTurn, fun _ _ _ hstep => (step_goesOn (run_ok hrun) hstep).moves⟩

theorem session_playsInTurn_twoSongs :
    ∃ trace state, (sessionMachine ⟨false, 0⟩).Run {} trace state ∧
      state.log.pushed = [0, 1, 3] ∧
      state.log.reports = [.started 0, .failed 1, .started 3] ∧ PlaysInTurn state := by
  have hplayed : ((sessionMachine ⟨false, 0⟩).exec {} twoSongs).map
      (fun played => (played.2.log.pushed, played.2.log.reports)) =
      some ([0, 1, 3], [.started 0, .failed 1, .started 3]) := by decide +kernel
  obtain ⟨⟨trace, state⟩, hexec, heq⟩ := Option.map_eq_some_iff.mp hplayed
  obtain ⟨hpushed, hreports⟩ := Prod.mk.inj heq
  have hrun := Machine.run_of_exec hexec
  exact ⟨trace, state, hrun, hpushed, hreports, (session_playsInTurn hrun).1⟩

end RetroStation.Playout.SessionScript
