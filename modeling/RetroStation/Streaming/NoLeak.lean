import Mathlib.Data.List.Perm.Subperm
import RetroStation.Streaming.DeliveryOrder
import RetroStation.Streaming.Lives

/-! # No leaked engine, upstream or slot

An engine belongs to its pending start, then to its session, and whoever drops
it last halts it. What the table holds is what the listener feed still plays.
-/

namespace RetroStation.Streaming

/-! ## Lives -/

/-- What has been done to the engine a session of the table keeps. -/
structure HeldLog (session : ListenerSession) (log : EngineLog) : Prop where
  stops : log.stops = if session.stopped then 1 else 0
  closes : log.closes = if log.closed then 1 else 0
  closed : session.stopped → log.closed

/-- The lives a session id can have. -/
inductive LifeOk (id : Uuid) : Life → Prop
  | unissued : LifeOk id {}
  | opening (opening : Opening) (session : Option ListenerSession)
      (hsession : ∀ found, session = some found → found.engine = none ∧ found.stopped = false ∧
        found.session.bookmarkKey = opening.key) :
      LifeOk id {
        opening := some opening
        session := session
        engine := if opening.start = some .started then some {} else none
        issued := true }
  | abandoned (start : Option StartResult) :
      LifeOk id {
        abandoned := some start
        engine := if start = some .started then some {} else none
        issued := true }
  | kept (session : ListenerSession) (log : EngineLog) (hengine : session.engine = some id)
      (hlog : HeldLog session log) :
      LifeOk id { session := some session, engine := some log, relayed := true, issued := true }
  | spent (engine : Option EngineLog) (relayed : Bool)
      (hlog : ∀ log, engine = some log →
        log.stops = 1 ∧ log.closes = 1 ∧ (relayed → log.closed)) :
      LifeOk id { engine := engine, relayed := relayed, issued := true }

theorem HeldLog.haltKept {session : ListenerSession} {log : EngineLog}
    (hlog : HeldLog session log) (hstopped : session.stopped = false) :
    log.haltKept.stops = 1 ∧ log.haltKept.closes = 1 ∧ log.haltKept.closed := by
  obtain ⟨hstops, hcloses, -⟩ := hlog
  cases hclosed : log.closed <;>
    simp_all [EngineLog.haltKept, EngineLog.closeOnce, EngineLog.stop, EngineLog.close]

theorem HeldLog.closeOnce {session : ListenerSession} {log : EngineLog}
    (hlog : HeldLog session log) : HeldLog session log.closeOnce := by
  obtain ⟨hstops, hcloses, hclosed⟩ := hlog
  unfold EngineLog.closeOnce
  split
  · exact ⟨hstops, hcloses, hclosed⟩
  next hopen => exact ⟨hstops, by simp [EngineLog.close, hcloses, hopen], fun _ => rfl⟩

theorem Life.close_idle {life : Life}
    (hidle : ∀ session, life.session = some session → session.engine = none) :
    life.close = { life with session := none } := by
  obtain ⟨opening, abandoned, session, engine, relayed, issued⟩ := life
  cases session with
  | none => rfl
  | some session =>
      have hruns : session.runs = false := by simp [ListenerSession.runs, hidle session rfl]
      simp [Life.close, hruns]

theorem lifeOk_close {id : Uuid} {life : Life} (hok : LifeOk id life) : LifeOk id life.close := by
  cases hok with
  | unissued => exact .unissued
  | opening opening session hsession =>
      cases session with
      | none => exact .opening opening none (by simp)
      | some found =>
          have hruns : found.runs = false := by
            simp [ListenerSession.runs, (hsession found rfl).1]
          simp only [Life.close, hruns]
          exact .opening opening none (by simp)
  | abandoned start => exact .abandoned start
  | kept session log hengine hlog =>
      simp only [Life.close, ListenerSession.runs, hengine, Option.isSome_some, Bool.true_and]
      cases hstopped : session.stopped with
      | true =>
          refine .spent (some log) true fun found hfound => ?_
          obtain rfl := Option.some.inj hfound
          have hclosed := hlog.closed hstopped
          exact ⟨by rw [hlog.stops, hstopped]; rfl, by rw [hlog.closes, hclosed]; rfl,
            fun _ => hclosed⟩
      | false =>
          refine .spent (some log.haltKept) true fun found hfound => ?_
          obtain rfl := Option.some.inj hfound
          obtain ⟨hstops, hcloses, hclosed⟩ := hlog.haltKept hstopped
          exact ⟨hstops, hcloses, fun _ => hclosed⟩
  | spent engine relayed hlog => exact .spent engine relayed hlog

theorem lifeOk_step {id : Uuid} {life after : Life} (hok : LifeOk id life)
    (hstep : LifeStep id life after) : LifeOk id after := by
  cases hstep with
  | nothing => exact hok
  | admits session hfresh =>
      cases hok with
      | unissued =>
          exact .opening { key := session.bookmarkKey } (some ⟨session, none, false⟩) (by simp)
      | _ => cases hfresh
  | refusesPort hfresh =>
      cases hok with
      | unissued => exact .spent none false (by simp)
      | _ => cases hfresh
  | waits opening changed hopening hkey hstart =>
      cases hok with
      | opening found session hsession =>
          obtain rfl := Option.some.inj hopening
          rw [← hstart]
          exact .opening changed session fun one hone => by rw [hkey]; exact hsession one hone
      | _ => cases hopening
  | startEnds opening result hopening hstart =>
      cases hok with
      | opening found session hsession =>
          obtain rfl := Option.some.inj hopening
          rw [hstart, if_neg (by simp)]
          by_cases hresult : result = .started
          · subst hresult
            exact .opening { found with start := some .started } session hsession
          · rw [if_neg hresult]
            have hengine : (none : Option EngineLog) =
                if some result = some StartResult.started then some {} else none := by
              simp [hresult]
            rw [hengine]
            exact .opening { found with start := some result } session hsession
      | _ => cases hopening
  | abandonedEnds result hopening habandoned =>
      cases hok with
      | abandoned start =>
          obtain rfl := Option.some.inj habandoned
          by_cases hresult : result = .started
          · subst hresult
            exact .abandoned (some .started)
          · rw [if_neg hresult, if_neg (by simp)]
            have hengine : (none : Option EngineLog) =
                if some result = some StartResult.started then some {} else none := by
              simp [hresult]
            rw [hengine]
            exact .abandoned (some result)
      | _ => cases habandoned
  | callback result habandoned =>
      cases hok with
      | abandoned start =>
          obtain rfl := Option.some.inj habandoned
          cases result with
          | started => exact .spent (some (EngineLog.halt {})) false (by simp [EngineLog.halt,
              EngineLog.stop, EngineLog.close])
          | startError | failed | cancelled => exact .spent none false (by simp)
      | _ => cases habandoned
  -- What close finds of an abandoned start decides whether an engine is left to halt.
  | abandons opening hopening =>
      cases hok with
      | opening found session hsession =>
          obtain rfl := Option.some.inj hopening
          rw [Life.close_idle fun held hheld =>
            (hsession held ((Life.abandonStart_session _ _).symm.trans hheld)).1]
          rcases hstart : found.start with _ | (_ | _ | _ | _)
          · exact .abandoned none
          · exact .spent (some (EngineLog.halt {})) false (by simp [EngineLog.halt,
              EngineLog.stop, EngineLog.close])
          all_goals exact .spent none false (by simp)
      | _ => cases hopening
  -- The one step by which a session comes to hold a started engine.
  | keeps opening session hopening hstart hsession =>
      cases hok with
      | opening found held hfound =>
          obtain rfl := Option.some.inj hopening
          obtain ⟨-, hstopped, -⟩ := hfound session hsession
          rw [if_pos hstart]
          exact .kept { session with engine := some id } {} rfl
            ⟨by rw [hstopped]; rfl, rfl, by simp [hstopped]⟩
      | _ => cases hopening
  -- A session whose relay fails stops the engine it was about to keep.
  | relayFails opening session hopening hstart hsession =>
      cases hok with
      | opening found held hfound =>
          obtain rfl := Option.some.inj hopening
          obtain ⟨-, hstopped, -⟩ := hfound session hsession
          have hruns : ListenerSession.runs { session with engine := some id } := by
            simp [ListenerSession.runs, hstopped]
          simp only [Life.close, hstart, hruns, if_true]
          exact .spent (some (EngineLog.haltKept {})) false (by simp [EngineLog.haltKept,
            EngineLog.closeOnce, EngineLog.stop, EngineLog.close])
      | _ => cases hopening
  | closes => exact lifeOk_close hok
  -- Stopping a frozen session halts its engine but leaves the session in the table.
  | stops =>
      cases hok with
      | unissued => exact .unissued
      | opening opening session hsession =>
          cases session with
          | none => exact .opening opening none (by simp)
          | some found =>
              have hruns : found.runs = false := by
                simp [ListenerSession.runs, (hsession found rfl).1]
              simp only [Life.stopSession, hruns, Bool.false_eq_true, if_false]
              exact .opening opening (some found) hsession
      | abandoned start => exact .abandoned start
      | kept session log hengine hlog =>
          cases hstopped : session.stopped with
          | true =>
              have hruns : session.runs = false := by simp [ListenerSession.runs, hstopped]
              simp only [Life.stopSession, hruns, Bool.false_eq_true, if_false]
              exact .kept session log hengine hlog
          | false =>
              have hruns : session.runs = true := by
                simp [ListenerSession.runs, hstopped, hengine]
              obtain ⟨hstops, hcloses, hclosed⟩ := hlog.haltKept hstopped
              simp only [Life.stopSession, hruns, if_true]
              exact .kept { session with stopped := true } log.haltKept hengine
                ⟨hstops, by rw [hcloses, hclosed]; rfl, fun _ => hclosed⟩
      | spent engine relayed hlog => exact .spent engine relayed hlog
  | relayCloses hrelayed =>
      cases hok with
      | kept session log hengine hlog =>
          exact .kept session log.closeOnce hengine hlog.closeOnce
      | spent engine relayed hlog =>
          refine .spent _ relayed fun log hmapped => ?_
          obtain ⟨before, hbefore, rfl⟩ := Option.map_eq_some_iff.mp hmapped
          obtain ⟨hstops, hcloses, hclosed⟩ := hlog before hbefore
          simpa [EngineLog.closeOnce, hclosed hrelayed] using ⟨hstops, hcloses⟩
      | _ => cases hrelayed
  | changes found session hfound hkey =>
      cases hok with
      | opening opening held hheld =>
          obtain ⟨hengine, hstopped, hsame⟩ := hheld found hfound
          refine .opening opening (some { found with session := session }) fun one hone => ?_
          obtain rfl := Option.some.inj hone
          exact ⟨hengine, hstopped, hkey.trans hsame⟩
      | kept held log hengine hlog =>
          obtain rfl := Option.some.inj hfound
          exact .kept { held with session := session } log hengine
            ⟨hlog.stops, hlog.closes, hlog.closed⟩
      | _ => cases hfound

/-! ## The table and the feed -/

/-- The keyed sessions of the table on a channel, in the order admitted. -/
def ServiceState.playing (state : ServiceState) (key : BookmarkKey) : List Uuid :=
  state.sessions.keysWhere fun found => found.session.bookmarkKey = some key

/-- The feed plays what the table holds, and no more than the last admitted open
allowed. -/
structure TableOk (state : ServiceState) : Prop where
  feed : FeedOk state.feed.feed
  streams : ∀ key, (state.feed.feed.channelOf key).stillPlaying = state.playing key
  limit : state.sessions.size ≤ state.limit

namespace TableOk

variable {state next : ServiceState}

theorem of_eq (htable : TableOk state) (hsessions : next.sessions = state.sessions)
    (hfeed : next.feed = state.feed) (hlimit : next.limit = state.limit) : TableOk next where
  feed := hfeed ▸ htable.feed
  streams key := by rw [hfeed, htable.streams, ServiceState.playing,
    ServiceState.playing, hsessions]
  limit := by rw [hsessions, hlimit]; exact htable.limit

theorem onEngine (htable : TableOk state) (engine : Uuid) (change : EngineLog → EngineLog) :
    TableOk (state.onEngine engine change) := by
  unfold ServiceState.onEngine
  split <;> exact htable.of_eq rfl rfl rfl

theorem stop (htable : TableOk state) (session : ListenerSession) :
    TableOk (state.stop session) := by
  unfold ServiceState.stop
  split
  · split
    · exact htable
    · exact htable.onEngine _ _
  · exact htable

theorem abandonStart (htable : TableOk state) (id : Uuid) (start : Option StartResult) :
    TableOk (state.abandonStart id start) := by
  unfold ServiceState.abandonStart
  split
  · exact htable.of_eq rfl rfl rfl
  · exact htable.onEngine _ _
  · exact htable

/-- A session's record may change, but not its channel. -/
theorem setSession (htable : TableOk state) {id : Uuid} {found changed : ListenerSession}
    (hfound : state.sessions.get? id = some found)
    (hkey : changed.session.bookmarkKey = found.session.bookmarkKey) :
    TableOk { state with sessions := state.sessions.set id changed } where
  feed := htable.feed
  streams key := by
    rw [htable.streams]
    exact (Dict.keysWhere_set_of_get? hfound (by simp [hkey])).symm
  limit := (Dict.size_set_of_get? hfound changed).trans_le htable.limit

end TableOk

section

variable {state : ServiceState}

/-- A call of the feed from the service always goes through; the others leave
the streams alone. -/
theorem callFeed_plays (hok : FeedOk state.feed.feed) (action : FeedAction) :
    FeedOk (state.callFeed action).feed.feed ∧
      ∀ key, ((state.callFeed action).feed.feed.channelOf key).stillPlaying =
        action.plays key (state.feed.feed.channelOf key).stillPlaying := by
  unfold ServiceState.callFeed
  split
  next feed reply hstep => exact ⟨feedOk_preserved hok hstep, step_plays hok hstep⟩
  next hnone =>
    refine ⟨hok, fun key => ?_⟩
    cases action with
    | «opened» | ended => simp [feedMachine] at hnone
    | _ => rfl

theorem callFeed_sessions (state : ServiceState) (action : FeedAction) :
    (state.callFeed action).sessions = state.sessions ∧
      (state.callFeed action).limit = state.limit := by
  unfold ServiceState.callFeed
  split <;> exact ⟨rfl, rfl⟩

/-- A call that neither opens nor ends a stream. -/
theorem TableOk.callFeed (htable : TableOk state) {action : FeedAction}
    (hplays : ∀ key playing, action.plays key playing = playing) :
    TableOk (state.callFeed action) where
  feed := (callFeed_plays htable.feed action).1
  streams key := by
    rw [(callFeed_plays htable.feed action).2, hplays, htable.streams]
    simp [ServiceState.playing, (callFeed_sessions state action).1]
  limit := by
    rw [(callFeed_sessions state action).1, (callFeed_sessions state action).2]
    exact htable.limit

theorem TableOk.refuse (htable : TableOk state) (key : Option BookmarkKey) (kind : StatusKind) :
    TableOk (state.refuse key kind) := by
  cases key with
  | none => exact htable
  | some key => exact @TableOk.callFeed state htable (.refused key kind) fun _ _ => rfl

/-- A session leaves the table and its channel together. -/
theorem TableOk.leaves (htable : TableOk state) {id : Uuid} {key : Option BookmarkKey}
    (hkey : ∀ found, state.sessions.get? id = some found → found.session.bookmarkKey = key)
    (kind : StatusKind) :
    TableOk ({ state with sessions := state.sessions.erase id }.tellEnded key id kind) := by
  have hlimit : (state.sessions.erase id).size ≤ state.limit :=
    (state.sessions.size_erase_le id).trans htable.limit
  have hstreams : ∀ other, ServiceState.playing
      { state with sessions := state.sessions.erase id } other = (state.playing other).erase id :=
    fun other => state.sessions.keysWhere_erase id _
  have hother : ∀ other, key ≠ some other →
    (state.playing other).erase id = state.playing other := by
    intro other hne
    refine List.erase_of_not_mem fun hmem => ?_
    obtain ⟨found, hfound, hplays⟩ := Dict.mem_keysWhere.mp hmem
    exact hne ((hkey found hfound).symm.trans (by simpa using hplays))
  cases key with
  | none =>
      refine ⟨htable.feed, fun other => ?_, hlimit⟩
      change (state.feed.feed.channelOf other).stillPlaying = ServiceState.playing
        { state with sessions := state.sessions.erase id } other
      rw [hstreams, hother other (by simp), htable.streams]
  | some key =>
      have hcall := @callFeed_plays { state with sessions := state.sessions.erase id }
        htable.feed (.ended key id kind)
      have hsame := callFeed_sessions { state with sessions := state.sessions.erase id }
        (.ended key id kind)
      refine ⟨hcall.1, fun other => ?_, ?_⟩
      · have hplaying : ServiceState.playing (ServiceState.callFeed
            { state with sessions := state.sessions.erase id } (.ended key id kind)) other =
            (state.playing other).erase id := by
          rw [ServiceState.playing, hsame.1]
          exact hstreams other
        rw [ServiceState.tellEnded, hcall.2, hplaying, htable.streams, FeedAction.plays]
        split
        · rfl
        next hne => exact (hother other (by simpa using hne)).symm
      · rw [ServiceState.tellEnded, hsame.1, hsame.2]
        exact hlimit

theorem TableOk.close (htable : TableOk state) (id : Uuid) : TableOk (state.close id) := by
  unfold ServiceState.close
  split
  · exact htable
  next found hfound =>
    exact (htable.leaves (fun other hother => by
      rw [Option.some.inj (hother.symm.trans hfound)]) _).stop found

theorem TableOk.abandonOpen (htable : TableOk state) {id : Uuid} {key : Option BookmarkKey}
    (hkey : ∀ found, state.sessions.get? id = some found → found.session.bookmarkKey = key)
    (failure : StatusKind) : TableOk (state.abandonOpen id key failure) := by
  unfold ServiceState.abandonOpen
  dsimp only
  split
  · exact (htable.leaves hkey failure).stop _
  · exact htable.leaves hkey failure

theorem TableOk.stopSession (htable : TableOk state) (id : Uuid) :
    TableOk (state.stopSession id) := by
  unfold ServiceState.stopSession
  split
  next found hfound =>
    split
    · exact TableOk.stop (@setSession state htable id found { found with stopped := true } hfound
        rfl) found
    · exact htable
  · exact htable

theorem TableOk.foldl (htable : TableOk state) {change : ServiceState → Uuid → ServiceState}
    (hkeep : ∀ {state}, TableOk state → ∀ id, TableOk (change state id)) (ids : List Uuid) :
    TableOk (ids.foldl change state) := by
  induction ids generalizing state with
  | nil => exact htable
  | cons id rest ih => exact ih (hkeep htable id)

/-- A new session takes its slot and its channel together. -/
theorem TableOk.admitted (htable : TableOk state) {key : Option BookmarkKey} {limit : Nat}
    {id : Uuid} (hroom : state.sessions.size < limit) (hnew : state.sessions.get? id = none)
    (session : StreamSession) :
    TableOk ((state.admitted key limit id session).tellOpened key id) := by
  have habsent : id ∉ state.sessions.keys := Dict.get?_eq_none_iff.mp hnew
  have hlimit : (state.sessions.set id ⟨{ session with bookmarkKey := key }, none, false⟩).size ≤
      limit := by
    rw [Dict.size_set_of_not_mem habsent]
    exact hroom
  have hstreams : ∀ other, (state.admitted key limit id session).playing other =
      state.playing other ++ if key = some other then [id] else [] := by
    intro other
    rw [ServiceState.playing, ServiceState.admitted, Dict.keysWhere_set_of_not_mem habsent]
    simp [ServiceState.playing]
  cases key with
  | none =>
      refine ⟨htable.feed, fun other => ?_, hlimit⟩
      change (state.feed.feed.channelOf other).stillPlaying =
        (state.admitted none limit id session).playing other
      rw [hstreams, htable.streams]
      simp
  | some key =>
      have hcall := @callFeed_plays (state.admitted (some key) limit id session) htable.feed
        (.opened key id)
      have hsame := callFeed_sessions (state.admitted (some key) limit id session)
        (.opened key id)
      refine ⟨hcall.1, fun other => ?_, ?_⟩
      · have hplaying : ServiceState.playing ((state.admitted (some key) limit id
            session).callFeed (.opened key id)) other =
            state.playing other ++ if some key = some other then [id] else [] := by
          rw [ServiceState.playing, hsame.1]
          exact hstreams other
        rw [ServiceState.tellOpened, hcall.2, hplaying, FeedAction.plays]
        change (if key = other then (state.feed.feed.channelOf other).stillPlaying ++ [id]
          else (state.feed.feed.channelOf other).stillPlaying) = _
        rw [htable.streams]
        by_cases hother : key = other <;> simp [hother]
      · rw [ServiceState.tellOpened, hsame.1, hsame.2]
        exact hlimit

/-! ## The service -/

/-- Every session's life is one it can have, and the table agrees with the feed. -/
structure ServiceOk (state : ServiceState) : Prop where
  lives : ∀ id, LifeOk id (state.life id)
  table : TableOk state

theorem LifeOk.engine_eq {id engine : Uuid} {life : Life} (hok : LifeOk id life)
    {session : ListenerSession} (hsession : life.session = some session)
    (hengine : session.engine = some engine) : engine = id := by
  cases hok with
  | opening opening found hfound =>
      rw [(hfound session hsession).1] at hengine
      cases hengine
  | kept kept log hkept hlog =>
      obtain rfl := Option.some.inj hsession
      exact Option.some.inj (hengine.symm.trans hkept)
  | _ => cases hsession

theorem LifeOk.session_key {id : Uuid} {life : Life} (hok : LifeOk id life)
    {opening : Opening} {session : ListenerSession} (hopening : life.opening = some opening)
    (hsession : life.session = some session) : session.session.bookmarkKey = opening.key := by
  cases hok with
  | opening found held hfound =>
      obtain rfl := Option.some.inj hopening
      exact (hfound session hsession).2.2
  | _ => cases hopening

theorem LifeOk.unissued_session {id : Uuid} {life : Life} (hok : LifeOk id life)
    (hissued : life.issued = false) : life.session = none := by
  cases hok with
  | unissued => rfl
  | _ => cases hissued

theorem ServiceOk.own (hok : ServiceOk state) : OwnEngines state :=
  fun id _ _ hsession hengine => (hok.lives id).engine_eq hsession hengine

theorem ServiceOk.new (hok : ServiceOk state) {id : Uuid} (hfresh : id ∉ state.issued) :
    state.sessions.get? id = none :=
  (hok.lives id).unissued_session (by simpa [ServiceState.life] using hfresh)

theorem tableOk_admit (htable : TableOk state) {request : ListenRequest} {station : Uuid}
    {limit : Option Nat} {id : Uuid} (hnew : state.sessions.get? id = none)
    (session : StreamSession) (portFree : Bool) :
    TableOk (state.admitSession request station limit id session portFree) := by
  unfold ServiceState.admitSession
  generalize request.channel station = key
  cases limit with
  | none => exact htable.refuse key _
  | some limit =>
      dsimp only
      split
      · exact htable.refuse key _
      next hroom =>
        have htold := @TableOk.admitted _ htable key _ _ (Nat.not_le.mp hroom) hnew session
        split
        · exact htold.of_eq rfl rfl rfl
        · refine htold.abandonOpen (fun found hfound => ?_) _
          have htoldSession : ((state.admitted key limit id session).tellOpened key id).life id =
              (state.admitted key limit id session).life id := ServiceState.life_tellOpened ..
          have hadmitted := (congrArg Life.session htoldSession).symm.trans hfound
          simp only [ServiceState.life, ServiceState.admitted, Dict.get?_set_self,
            Option.some.injEq] at hadmitted
          rw [← hadmitted]

theorem tableOk_settle (hok : ServiceOk state) {next : ServiceState} {id : Uuid}
    {relayFails : Bool} (hsettle : state.settle id relayFails = some next) : TableOk next := by
  unfold ServiceState.settle at hsettle
  split at hsettle
  · cases hsettle
  next opening hopening =>
    have hkey : ∀ found, state.sessions.get? id = some found →
        found.session.bookmarkKey = opening.key :=
      fun found hfound => (hok.lives id).session_key hopening hfound
    have hresumed : TableOk { state with opening := state.opening.erase id } :=
      hok.table.of_eq rfl rfl rfl
    dsimp only at hsettle
    split at hsettle
    · cases hsettle
    · cases hsettle
      refine (hresumed.abandonStart id opening.start).abandonOpen (fun found hfound => ?_) _
      refine hkey found ?_
      have hlife := congrArg Life.session (ServiceState.life_abandonStart
        { state with opening := state.opening.erase id } id opening.start id)
      rw [if_pos rfl, Life.abandonStart_session] at hlife
      exact hlife.symm.trans hfound
    next session _ hsession =>
      have hkept := @TableOk.setSession _ hresumed id session
        { session with engine := some id } hsession rfl
      split at hsettle
      · cases hsettle
        refine hkept.abandonOpen (fun found hfound => ?_) _
        simp only [Dict.get?_set_self, Option.some.injEq] at hfound
        rw [← hfound]
        exact hkey session hsession
      · cases hsettle
        exact hkept.of_eq rfl rfl rfl
    · cases hsettle

theorem tableOk_step (hok : ServiceOk state) {next : ServiceState} {action : ServiceAction}
    (hstep : serviceMachine.step state action = some (next, ())) : TableOk next := by
  obtain ⟨after, hafter, heq⟩ := Option.map_eq_some_iff.mp hstep
  obtain rfl := congrArg Prod.fst heq
  have htable := hok.table
  -- Most actions leave the table; those that admit, keep or end a session have lemmas of their own.
  cases action with
  | «open» call request =>
      dsimp only at hafter
      split at hafter
      · cases hafter
      · cases hafter
        exact htable.of_eq rfl rfl rfl
  | cancelReading call =>
      cases hafter
      exact htable.of_eq rfl rfl rfl
  | read call station limit issued session portFree =>
      dsimp only at hafter
      have hanswered : TableOk { state with reading := state.reading.erase call } :=
        htable.of_eq rfl rfl rfl
      split at hafter
      · cases hafter
      · split at hafter
        · cases hafter
          exact hanswered
        · split at hafter
          · cases hafter
          next hfresh =>
            cases hafter
            exact tableOk_admit hanswered (hok.new hfresh) session portFree
  | cancel cancelled =>
      obtain ⟨opening, -, rfl⟩ := Option.map_eq_some_iff.mp hafter
      exact htable.of_eq rfl rfl rfl
  | placingEnds placed result =>
      dsimp only at hafter
      split at hafter
      · cases hafter
      · split at hafter
        · cases hafter
        · cases hafter
          exact htable.of_eq rfl rfl rfl
  | startEnds started result =>
      simp only [ServiceState.startEnds] at hafter
      split at hafter
      · split at hafter
        · cases hafter
        · cases hafter
          exact htable.of_eq rfl rfl rfl
      · cases hafter
        exact htable.of_eq rfl rfl rfl
      · cases hafter
  | settle settled relayFails => exact tableOk_settle hok hafter
  | startCallback abandoned =>
      simp only [ServiceState.startCallback] at hafter
      split at hafter
      · cases hafter
        refine TableOk.abandonStart ?_ abandoned _
        exact htable.of_eq rfl rfl rfl
      · cases hafter
  | relayCloses relayed =>
      dsimp only at hafter
      split at hafter
      · cases hafter
        exact htable.onEngine _ _
      · cases hafter
  | relayEnds relayed =>
      dsimp only at hafter
      split at hafter
      · cases hafter
        exact htable.close relayed
      · cases hafter
  | close closed =>
      cases hafter
      exact htable.close closed
  | closeAll =>
      cases hafter
      exact htable.foldl (fun hkept => hkept.close) _
  | stopFrozen overdue =>
      cases hafter
      exact htable.foldl (fun hkept => hkept.stopSession) _
  | changes changed session =>
      dsimp only at hafter
      split at hafter
      · cases hafter
      next found hfound =>
        split at hafter
        next hkey =>
          cases hafter
          exact @TableOk.setSession _ htable changed found { found with session := session }
            hfound hkey
        · cases hafter
  | title titled artist text showsAt =>
      dsimp only at hafter
      split at hafter
      · cases hafter
      next key _ =>
        cases hafter
        exact @TableOk.callFeed _ htable (.title key titled artist text showsAt) fun _ _ => rfl
  | feed action =>
      dsimp only at hafter
      split at hafter
      next hlisteners =>
        cases hafter
        refine @TableOk.callFeed _ htable action fun key playing => ?_
        cases action with
        | advance | subscribe | aclose | reader => rfl
        | _ => cases hlisteners
      · cases hafter

/-! ## Leaving the table -/

/-- Only a new session enters the table. -/
theorem LifeStep.enters {id : Uuid} {life after : Life} (hstep : LifeStep id life after)
    (hout : life.session = none) (hin : after.session ≠ none) :
    life.issued = false ∧ after.issued = true := by
  cases hstep with
  | admits session hfresh => exact ⟨hfresh, rfl⟩
  | refusesPort hfresh => exact absurd rfl hin
  | keeps opening session hopening hstart hsession => simp [hout] at hsession
  | changes found session hfound hkey => simp [hout] at hfound
  | stops => simp [Life.stopSession_none hout, hout] at hin
  | _ => simp [hout] at hin

theorem LifeStep.issued {id : Uuid} {life after : Life} (hstep : LifeStep id life after)
    (hissued : life.issued = true) : after.issued = true := by
  cases hstep <;> simp_all

theorem LifeStep.engine_isSome {id : Uuid} {life after : Life} (hstep : LifeStep id life after)
    (hengine : life.engine.isSome) : after.engine.isSome := by
  cases hstep with
  | startEnds | abandonedEnds => dsimp only; split <;> simp [hengine]
  | _ => simpa using hengine

/-! ### Ids given out -/

@[simp] theorem issued_onEngine (state : ServiceState) (engine : Uuid)
    (change : EngineLog → EngineLog) : (state.onEngine engine change).issued = state.issued := by
  unfold ServiceState.onEngine
  split <;> rfl

@[simp] theorem issued_callFeed (state : ServiceState) (action : FeedAction) :
    (state.callFeed action).issued = state.issued := by
  unfold ServiceState.callFeed
  split <;> rfl

@[simp] theorem issued_tellEnded (state : ServiceState) (key : Option BookmarkKey) (id : Uuid)
    (kind : StatusKind) : (state.tellEnded key id kind).issued = state.issued := by
  cases key <;> simp [ServiceState.tellEnded]

@[simp] theorem issued_stop (state : ServiceState) (session : ListenerSession) :
    (state.stop session).issued = state.issued := by
  unfold ServiceState.stop
  split
  · split <;> simp
  · rfl

@[simp] theorem issued_close (state : ServiceState) (id : Uuid) :
    (state.close id).issued = state.issued := by
  unfold ServiceState.close
  split
  · rfl
  · simp

@[simp] theorem issued_stopSession (state : ServiceState) (id : Uuid) :
    (state.stopSession id).issued = state.issued := by
  unfold ServiceState.stopSession
  split
  · split <;> simp
  · rfl

@[simp] theorem issued_abandonOpen (state : ServiceState) (id : Uuid) (key : Option BookmarkKey)
    (failure : StatusKind) : (state.abandonOpen id key failure).issued = state.issued := by
  unfold ServiceState.abandonOpen
  dsimp only
  split <;> simp

@[simp] theorem issued_abandonStart (state : ServiceState) (id : Uuid)
    (start : Option StartResult) : (state.abandonStart id start).issued = state.issued := by
  unfold ServiceState.abandonStart
  split <;> simp

theorem issued_foldl {change : ServiceState → Uuid → ServiceState}
    (hchange : ∀ state id, (change state id).issued = state.issued) (ids : List Uuid) :
    (ids.foldl change state).issued = state.issued := by
  induction ids generalizing state with
  | nil => rfl
  | cons id rest ih => rw [List.foldl_cons, ih, hchange]

/-- A step either issues no id, or takes no session out of the table. -/
theorem step_issued {next : ServiceState} {action : ServiceAction} (hok : ServiceOk state)
    (hstep : serviceMachine.step state action = some (next, ())) :
    next.issued = state.issued ∨ state.sessions.keys ⊆ next.sessions.keys := by
  obtain ⟨after, hafter, heq⟩ := Option.map_eq_some_iff.mp hstep
  obtain rfl := congrArg Prod.fst heq
  cases action with
  | read call station limit issued session portFree =>
      dsimp only at hafter
      split at hafter
      · cases hafter
      · split at hafter
        · cases hafter
          exact .inl rfl
        next station =>
          split at hafter
          · cases hafter
          next hfresh =>
            cases hafter
            refine .inr fun id hid => ?_
            obtain ⟨found, hfound⟩ := Dict.mem_keys_iff.mp hid
            have hother : id ≠ issued := by
              rintro rfl
              rw [hok.new hfresh] at hfound
              cases hfound
            have hownAnswered : OwnEngines { state with reading := state.reading.erase call } :=
              hok.own
            refine Dict.mem_keys_iff.mpr ⟨found, Eq.trans ?_ hfound⟩
            exact congrArg Life.session (admit_other hownAnswered hother)
  | closeAll =>
      cases hafter
      exact .inl (issued_foldl issued_close _)
  | stopFrozen overdue =>
      cases hafter
      exact .inl (issued_foldl issued_stopSession _)
  | cancel cancelled =>
      obtain ⟨opening, -, rfl⟩ := Option.map_eq_some_iff.mp hafter
      exact .inl rfl
  | settle settled relayFails =>
      left
      simp only [ServiceState.settle] at hafter
      repeat' split at hafter
      all_goals first | cases hafter; done | (cases hafter; simp)
  | startEnds =>
      left
      simp only [ServiceState.startEnds] at hafter
      repeat' split at hafter
      all_goals first | cases hafter; done | (cases hafter; simp)
  | startCallback =>
      left
      simp only [ServiceState.startCallback] at hafter
      repeat' split at hafter
      all_goals first | cases hafter; done | (cases hafter; simp)
  | _ =>
      left
      dsimp only at hafter
      repeat' split at hafter
      all_goals first | cases hafter; done | (cases hafter; simp)

/-- A session that leaves the table gives up its slot. -/
theorem leaves_slot {next : ServiceState} {action : ServiceAction} (hok : ServiceOk state)
    (hstep : serviceMachine.step state action = some (next, ())) {gone : Uuid}
    (hin : gone ∈ state.sessions.keys) (hout : gone ∉ next.sessions.keys) :
    next.sessions.size < state.sessions.size := by
  have hsubset : gone :: next.sessions.keys ⊆ state.sessions.keys := by
    refine List.cons_subset.mpr ⟨hin, fun id hid => ?_⟩
    rcases step_issued hok hstep with hissued | hkept
    · by_contra habsent
      have hlife := step_life hok.own hstep id
      obtain ⟨found, hfound⟩ := Dict.mem_keys_iff.mp hid
      obtain ⟨hbefore, hafter⟩ := hlife.enters (Dict.get?_eq_none_iff.mpr habsent)
        (by simp [ServiceState.life, hfound])
      simp only [ServiceState.life, hissued] at hbefore hafter
      simp [hafter] at hbefore
    · exact absurd (hkept hin) hout
  have hlength := (List.Nodup.subperm (List.nodup_cons.mpr ⟨hout, next.sessions.nodup⟩)
    hsubset).length_le
  rw [List.length_cons, Dict.length_keys, Dict.length_keys] at hlength
  exact Nat.lt_of_succ_le hlength

/-! ## Every run -/

theorem serviceOk_idle (elapsedNow : Int) : ServiceOk (idleService elapsedNow) where
  lives _ := .unissued
  table := ⟨(@feedRunOk elapsedNow [] _ .nil).ok, fun _ => rfl, Nat.le_refl 0⟩

theorem serviceOk_preserved : serviceMachine.Preserves ServiceOk := by
  intro state next action output hok hstep
  exact ⟨fun id => lifeOk_step (hok.lives id) (step_life hok.own hstep id),
    tableOk_step hok hstep⟩

theorem serviceRunOk {elapsedNow : Int} {trace : List (ServiceAction × Unit)}
    (hrun : serviceMachine.Run (idleService elapsedNow) trace state) : ServiceOk state :=
  hrun.invariant serviceOk_preserved (serviceOk_idle elapsedNow)

/-- An issued session that is out of the table stays out. -/
theorem stays_out {trace : List (ServiceAction × Unit)} {later : ServiceState}
    (hok : ServiceOk state) (hrun : serviceMachine.Run state trace later) {id : Uuid}
    (hissued : id ∈ state.issued) (hout : state.sessions.get? id = none) :
    later.sessions.get? id = none := by
  suffices hboth : id ∈ later.issued ∧ later.sessions.get? id = none from hboth.2
  induction hrun with
  | nil => exact ⟨hissued, hout⟩
  | snoc hrun hstep ih =>
      have hlife := step_life (hrun.invariant serviceOk_preserved hok).own hstep id
      have hbefore : (ServiceState.life _ id).issued = true := decide_eq_true ih.1
      refine ⟨of_decide_eq_true (hlife.issued hbefore), ?_⟩
      by_contra hin
      have hentered := hlife.enters ih.2 hin
      simp [hbefore] at hentered

theorem startEnds_log {next : ServiceState} {id : Uuid}
    (hstep : serviceMachine.step state (.startEnds id .started) = some (next, ())) :
    (next.engines.get? id).isSome := by
  obtain ⟨after, hafter, heq⟩ := Option.map_eq_some_iff.mp hstep
  obtain rfl := congrArg Prod.fst heq
  simp only [ServiceState.startEnds, if_true] at hafter
  split at hafter
  · split at hafter
    · cases hafter
    · cases hafter
      simp
  · cases hafter
    simp
  · cases hafter

/-- Every engine a start returned has its log. -/
theorem started_log {elapsedNow : Int} {trace : List (ServiceAction × Unit)}
    (hrun : serviceMachine.Run (idleService elapsedNow) trace state) {id : Uuid}
    (hstarted : (.startEnds id .started, ()) ∈ trace) : (state.engines.get? id).isSome := by
  induction hrun with
  | nil => cases hstarted
  | snoc hrun hstep ih =>
      have hlife := step_life (serviceRunOk hrun).own hstep id
      rcases List.mem_append.mp hstarted with hearlier | hnow
      · exact hlife.engine_isSome (ih hearlier)
      · obtain ⟨rfl, -⟩ := Prod.mk.inj (List.mem_singleton.mp hnow)
        exact startEnds_log hstep

/-! ### The engines of a good state -/

/-- A kept engine is held by its own session and by no other. -/
theorem ServiceOk.held_once (hok : ServiceOk state) {id : Uuid} {session : ListenerSession}
    (hsession : state.sessions.get? id = some session) (hengine : session.engine = some id) :
    ∃! holder, ∃ session, state.sessions.get? holder = some session ∧ session.engine = some id :=
  ⟨id, ⟨session, hsession, hengine⟩, fun holder ⟨other, hother, hheld⟩ =>
    (hok.own holder other id hother hheld).symm⟩

theorem ServiceOk.halted_once (hok : ServiceOk state) {id : Uuid} {log : EngineLog}
    (hlog : state.engines.get? id = some log) : log.stops ≤ 1 ∧ log.closes ≤ 1 := by
  have hlife := hok.lives id
  have hengine : (state.life id).engine = some log := hlog
  generalize state.life id = life at hlife hengine
  cases hlife with
  | unissued => cases hengine
  | opening | abandoned =>
      dsimp only at hengine
      split at hengine
      · cases hengine
        exact ⟨Nat.zero_le 1, Nat.zero_le 1⟩
      · cases hengine
  | kept session kept hkept hheld =>
      cases hengine
      rw [hheld.stops, hheld.closes]
      constructor <;> split <;> decide
  | spent engine relayed hover =>
      obtain ⟨hstops, hcloses, -⟩ := hover log hengine
      exact ⟨hstops.le, hcloses.le⟩

/-- An engine is with its open, with its abandoned start, held, or halted. -/
theorem ServiceOk.settled (hok : ServiceOk state) {id : Uuid} {log : EngineLog}
    (hlog : state.engines.get? id = some log) (hopening : state.opening.get? id = none)
    (habandoned : state.abandoned.get? id = none) :
    (∃ session, state.sessions.get? id = some session ∧ session.engine = some id) ∨
      (log.stops = 1 ∧ log.closes = 1) := by
  have hlife := hok.lives id
  have hsome : (state.life id).engine = some log := hlog
  have hclosed : (state.life id).opening = none := hopening
  have hnone : (state.life id).abandoned = none := habandoned
  have hsession : (state.life id).session = state.sessions.get? id := rfl
  generalize state.life id = life at hlife hsome hclosed hnone hsession
  cases hlife with
  | unissued => cases hsome
  | opening => cases hclosed
  | abandoned => cases hnone
  | kept session kept hkept hheld => exact .inl ⟨session, hsession.symm, hkept⟩
  | spent engine relayed hover =>
      obtain ⟨hstops, hcloses, -⟩ := hover log hsome
      exact .inr ⟨hstops, hcloses⟩

/-- The callback of an abandoned start halts the engine it returned. -/
theorem ServiceOk.callback (hok : ServiceOk state) {id : Uuid}
    (habandoned : state.abandoned.get? id = some (some .started)) :
    ∃ next log, serviceMachine.step state (.startCallback id) = some (next, ()) ∧
      next.abandoned.get? id = none ∧ next.engines.get? id = some log ∧
      log.stops = 1 ∧ log.closes = 1 := by
  have hlife := hok.lives id
  have hstart : (state.life id).abandoned = some (some .started) := habandoned
  have hengine : (state.life id).engine = state.engines.get? id := rfl
  generalize state.life id = life at hlife hstart hengine
  cases hlife with
  | abandoned start =>
      obtain rfl := Option.some.inj hstart
      have hlog : state.engines.get? id = some {} := hengine.symm
      refine ⟨{ state with abandoned := state.abandoned.erase id }.abandonStart id (some .started),
        EngineLog.halt {}, ?_, ?_, ?_, rfl, rfl⟩
      · simp [serviceMachine, ServiceState.startCallback, habandoned]
      all_goals simp [ServiceState.abandonStart, ServiceState.onEngine, hlog]
  | _ => cases hstart

end

/-- Along every run of the service, whatever its opens, closes, relays and
watchdog do in whatever order: an engine that a start returned is, once neither
its open nor its abandoned start is pending, held by exactly one session of the
table or stopped once and closed once, and no halt ever repeats; a session that
leaves the table frees its slot and never returns; and the table stays within
the limit last read and holds, channel by channel, what the feed still plays. -/
theorem no_leak {elapsedNow : Int} {trace : List (ServiceAction × Unit)} {state : ServiceState}
    (hrun : serviceMachine.Run (idleService elapsedNow) trace state) :
    (∀ id, (.startEnds id .started, ()) ∈ trace → ∃ log, state.engines.get? id = some log ∧
      log.stops ≤ 1 ∧ log.closes ≤ 1 ∧
      (state.opening.get? id = none → state.abandoned.get? id = none →
        (∃! holder, ∃ session, state.sessions.get? holder = some session ∧
          session.engine = some id) ∨ (log.stops = 1 ∧ log.closes = 1))) ∧
    (∀ id, state.abandoned.get? id = some (some .started) →
      ∃ next log, serviceMachine.step state (.startCallback id) = some (next, ()) ∧
        next.abandoned.get? id = none ∧ next.engines.get? id = some log ∧
        log.stops = 1 ∧ log.closes = 1) ∧
    (∀ action next gone, serviceMachine.step state action = some (next, ()) →
      gone ∈ state.sessions.keys → gone ∉ next.sessions.keys →
      next.sessions.size < state.sessions.size ∧
      ∀ more later, serviceMachine.Run next more later → gone ∉ later.sessions.keys) ∧
    state.sessions.size ≤ state.limit ∧
    ∀ key, (state.feed.feed.channelOf key).stillPlaying = state.playing key := by
  have hok := serviceRunOk hrun
  refine ⟨fun id hstarted => ?_, fun id habandoned => hok.callback habandoned,
    fun action next gone hstep hin hout => ?_, hok.table.limit, hok.table.streams⟩
  · obtain ⟨log, hlog⟩ := Option.isSome_iff_exists.mp (started_log hrun hstarted)
    obtain ⟨hstops, hcloses⟩ := hok.halted_once hlog
    refine ⟨log, hlog, hstops, hcloses, fun hopening habandoned => ?_⟩
    rcases hok.settled hlog hopening habandoned with ⟨session, hsession, hengine⟩ | hhalted
    · exact .inl (hok.held_once hsession hengine)
    · exact .inr hhalted
  · refine ⟨leaves_slot hok hstep hin hout, fun more later hlater => ?_⟩
    obtain ⟨found, hfound⟩ := Dict.mem_keys_iff.mp hin
    -- A session in the table has an issued id, and ids are not issued twice.
    have hissued : (state.life gone).issued = true := by
      by_contra hfresh
      have hnone := (hok.lives gone).unissued_session (by simpa using hfresh)
      rw [show (state.life gone).session = some found from hfound] at hnone
      cases hnone
    have hnext := (step_life hok.own hstep gone).issued hissued
    exact Dict.get?_eq_none_iff.mp (stays_out (serviceOk_preserved hok hstep) hlater
      (of_decide_eq_true hnext) (Dict.get?_eq_none_iff.mpr hout))

/-- Two listeners of one channel: 7 stays, and 8 goes before its engine starts. -/
def twoOpens : List ServiceAction :=
  let session : StreamSession := ⟨0, none, "token", none, none, none, none, false, .empty, none,
    none, false, none, {}⟩
  [.open 0 ⟨1999, some "key"⟩, .open 1 ⟨1999, some "key"⟩,
    .read 0 (some 1) (some 2) 7 session true, .read 1 (some 1) (some 2) 8 session true,
    .startEnds 7 .started, .placingEnds 7 .placed, .settle 7 false, .cancel 8, .settle 8 false,
    .startEnds 8 .started, .startCallback 8]

theorem twoOpens_run : ∃ trace state, serviceMachine.Run (idleService 0) trace state ∧
    (.startEnds 7 .started, ()) ∈ trace ∧ (.startEnds 8 .started, ()) ∈ trace ∧
    state.opening.keys = [] ∧ state.abandoned.keys = [] ∧ state.engines.get? 7 = some {} ∧
    state.sessions.values.map ListenerSession.engine = [some 7] := by
  refine ⟨_, _, @Transition.Machine.run_of_exec _ _ _ serviceMachine (idleService 0) _ twoOpens _
    rfl, ?_, ?_, rfl, rfl, rfl, rfl⟩ <;> simp

theorem no_leak_twoOpens : ∃ trace state log, serviceMachine.Run (idleService 0) trace state ∧
    (∃! holder, ∃ session, state.sessions.get? holder = some session ∧ session.engine = some 7) ∧
    state.engines.get? 8 = some log ∧ log.stops = 1 ∧ log.closes = 1 := by
  obtain ⟨trace, state, hrun, hseven, height, hopening, habandoned, hrunning, hengines⟩ :=
    twoOpens_run
  have hnotOpening : ∀ id, state.opening.get? id = none := fun id =>
    Dict.get?_eq_none_iff.mpr (by simp [hopening])
  have hnotAbandoned : ∀ id, state.abandoned.get? id = none := fun id =>
    Dict.get?_eq_none_iff.mpr (by simp [habandoned])
  obtain ⟨hstarted, -, -, -, -⟩ := no_leak hrun
  obtain ⟨log, hlog, -, -, hsettled⟩ := hstarted 8 height
  obtain ⟨kept, hkept, -, -, hheld⟩ := hstarted 7 hseven
  obtain rfl := Option.some.inj (hrunning.symm.trans hkept)
  refine ⟨trace, state, log, hrun, ?_, hlog, ?_⟩
  · rcases hheld (hnotOpening 7) (hnotAbandoned 7) with hheld | ⟨hstops, -⟩
    · exact hheld
    · cases hstops
  · rcases hsettled (hnotOpening 8) (hnotAbandoned 8) with ⟨holder,
      ⟨session, hsession, height⟩, -⟩ |
      hhalted
    · have hmem : session.engine ∈ state.sessions.values.map ListenerSession.engine :=
        List.mem_map.mpr ⟨session, List.mem_map.mpr ⟨_, Dict.get?_eq_some_iff.mp hsession, rfl⟩,
          rfl⟩
      simp [hengines, height] at hmem
    · exact hhalted

end RetroStation.Streaming
