import RetroStation.Streaming.Opens

/-! # The life of one session

Everything the service keeps under one session id, and what one step can do to
it. No step of one session touches another's engine, table entry or open.
-/

namespace RetroStation.Streaming

/-- What the service keeps under a session id. -/
structure Life where
  opening : Option Opening := none
  abandoned : Option (Option StartResult) := none
  session : Option ListenerSession := none
  engine : Option EngineLog := none
  relayed : Bool := false
  issued : Bool := false

/-- The life of one session id. -/
def ServiceState.life (state : ServiceState) (id : Uuid) : Life where
  opening := state.opening.get? id
  abandoned := state.abandoned.get? id
  session := state.sessions.get? id
  engine := state.engines.get? id
  relayed := decide (id ∈ state.relays)
  issued := decide (id ∈ state.issued)

namespace Life

/-- The session leaves the table, and its engine is halted if it runs. -/
def close (life : Life) : Life :=
  match life.session with
  | none => life
  | some session => { life with
      session := none
      engine := if session.runs then life.engine.map EngineLog.haltKept else life.engine }

def stopSession (life : Life) : Life :=
  match life.session with
  | none => life
  | some session =>
    if session.runs then { life with
      session := some { session with stopped := true }
      engine := life.engine.map EngineLog.haltKept }
    else life

def abandonStart (life : Life) : Option StartResult → Life
  | none => { life with abandoned := some none }
  | some .started => { life with engine := life.engine.map EngineLog.halt }
  | some _ => life

theorem close_close (life : Life) : life.close.close = life.close := by
  unfold close
  cases hsession : life.session <;> simp [hsession]

@[simp] theorem abandonStart_session (life : Life) (start : Option StartResult) :
    (life.abandonStart start).session = life.session := by
  unfold abandonStart
  split <;> rfl

@[simp] theorem abandonStart_issued (life : Life) (start : Option StartResult) :
    (life.abandonStart start).issued = life.issued := by
  unfold abandonStart
  split <;> rfl

@[simp] theorem abandonStart_engine_isSome (life : Life) (start : Option StartResult) :
    (life.abandonStart start).engine.isSome = life.engine.isSome := by
  unfold abandonStart
  split <;> simp

@[simp] theorem close_session (life : Life) : life.close.session = none := by
  unfold close
  split
  next hsession => exact hsession
  next => rfl

@[simp] theorem close_issued (life : Life) : life.close.issued = life.issued := by
  unfold close
  split <;> rfl

@[simp] theorem close_engine_isSome (life : Life) :
    life.close.engine.isSome = life.engine.isSome := by
  unfold close
  split
  · rfl
  · dsimp only
    split <;> simp

@[simp] theorem stopSession_issued (life : Life) : life.stopSession.issued = life.issued := by
  unfold stopSession
  repeat' split <;> try rfl

@[simp] theorem stopSession_engine_isSome (life : Life) :
    life.stopSession.engine.isSome = life.engine.isSome := by
  unfold stopSession
  split
  · rfl
  · split <;> simp

theorem stopSession_none {life : Life} (hsession : life.session = none) :
    life.stopSession = life := by
  rw [stopSession, hsession]

theorem stopSession_stopSession (life : Life) :
    life.stopSession.stopSession = life.stopSession := by
  unfold stopSession
  cases hsession : life.session with
  | none => simp [hsession]
  | some session =>
      by_cases hruns : session.runs
      · have hstopped : ListenerSession.runs { session with stopped := true } = false := by
          simp [ListenerSession.runs]
        simp [hruns, hstopped]
      · simp [hsession, hruns]

end Life

/-- A session's engine is the one started for it. -/
def OwnEngines (state : ServiceState) : Prop :=
  ∀ id session engine, state.sessions.get? id = some session → session.engine = some engine →
    engine = id

namespace ServiceState

variable {state : ServiceState}

theorem life_onEngine (state : ServiceState) (engine id : Uuid) (change : EngineLog → EngineLog) :
    (state.onEngine engine change).life id =
      if id = engine then { state.life id with engine := (state.life id).engine.map change }
      else state.life id := by
  unfold onEngine
  by_cases hid : id = engine
  · subst hid
    cases hlog : state.engines.get? id <;> simp [life, hlog]
  · cases hlog : state.engines.get? engine <;> simp [life, hid, Dict.get?_set]

@[simp] theorem life_callFeed (state : ServiceState) (action : FeedAction) (id : Uuid) :
    (state.callFeed action).life id = state.life id := by
  unfold callFeed
  split <;> rfl

@[simp] theorem life_tellEnded (state : ServiceState) (key : Option BookmarkKey) (told : Uuid)
    (kind : StatusKind) (id : Uuid) : (state.tellEnded key told kind).life id = state.life id := by
  cases key with
  | none => rfl
  | some key => exact state.life_callFeed _ id

@[simp] theorem life_tellOpened (state : ServiceState) (key : Option BookmarkKey)
    (told id : Uuid) : (state.tellOpened key told).life id = state.life id := by
  cases key with
  | none => rfl
  | some key => exact state.life_callFeed _ id

@[simp] theorem life_refuse (state : ServiceState) (key : Option BookmarkKey) (kind : StatusKind)
    (id : Uuid) : (state.refuse key kind).life id = state.life id := by
  cases key with
  | none => rfl
  | some key => exact state.life_callFeed _ id

theorem life_stop {session : ListenerSession} {own : Uuid}
    (hown : ∀ engine, session.engine = some engine → engine = own) (id : Uuid) :
    (state.stop session).life id =
      if id = own ∧ session.runs then
        { state.life id with engine := (state.life id).engine.map EngineLog.haltKept }
      else state.life id := by
  unfold stop ListenerSession.runs
  cases hengine : session.engine with
  | none => simp
  | some engine =>
      obtain rfl := hown engine hengine
      by_cases hstopped : session.stopped
      · simp [hstopped]
      · by_cases hid : id = engine <;> simp [hstopped, life_onEngine, hid]

theorem life_eraseSession (state : ServiceState) (gone id : Uuid) :
    ({ state with sessions := state.sessions.erase gone } : ServiceState).life id =
      if id = gone then { state.life id with session := none } else state.life id := by
  by_cases hid : id = gone
  · subst hid
    simp [life]
  · simp [life, hid, Dict.get?_erase]

theorem life_setSession (state : ServiceState) (changed id : Uuid) (session : ListenerSession) :
    ({ state with sessions := state.sessions.set changed session } : ServiceState).life id =
      if id = changed then { state.life id with session := some session }
      else state.life id := by
  by_cases hid : id = changed
  · subst hid
    simp [life]
  · simp [life, hid, Dict.get?_set]

theorem life_setOpening (state : ServiceState) (changed id : Uuid) (opening : Opening) :
    ({ state with opening := state.opening.set changed opening } : ServiceState).life id =
      if id = changed then { state.life id with opening := some opening }
      else state.life id := by
  by_cases hid : id = changed
  · subst hid
    simp [life]
  · simp [life, hid, Dict.get?_set]

theorem life_eraseOpening (state : ServiceState) (settled id : Uuid) :
    ({ state with opening := state.opening.erase settled } : ServiceState).life id =
      if id = settled then { state.life id with opening := none } else state.life id := by
  by_cases hid : id = settled
  · subst hid
    simp [life]
  · simp [life, hid, Dict.get?_erase]

/-- A session that leaves the table, whoever tells its channel. -/
theorem life_leaves (hown : OwnEngines state) {gone : Uuid} {session : ListenerSession}
    (hsession : state.sessions.get? gone = some session) (key : Option BookmarkKey)
    (kind : StatusKind) (id : Uuid) :
    (({ state with sessions := state.sessions.erase gone }.tellEnded key gone kind).stop
      session).life id = if id = gone then (state.life id).close else state.life id := by
  rw [life_stop (hown gone session · hsession), life_tellEnded, life_eraseSession]
  by_cases hid : id = gone
  · subst hid
    have hlife : (state.life id).session = some session := hsession
    by_cases hruns : session.runs <;> simp [Life.close, hlife, hruns]
  · simp [hid]

theorem life_close (hown : OwnEngines state) (gone id : Uuid) :
    (state.close gone).life id =
      if id = gone then (state.life id).close else state.life id := by
  unfold close
  split
  next hsession =>
    split
    next hid =>
      have hlife : (state.life id).session = none := hid ▸ hsession
      simp [Life.close, hlife]
    next => rfl
  next session hsession => exact life_leaves hown hsession _ _ id

theorem life_abandonOpen (hown : OwnEngines state) (gone : Uuid) (key : Option BookmarkKey)
    (failure : StatusKind) (id : Uuid) :
    (state.abandonOpen gone key failure).life id =
      if id = gone then (state.life id).close else state.life id := by
  unfold abandonOpen
  cases hsession : state.sessions.get? gone with
  | none =>
      simp only [life_tellEnded, life_eraseSession]
      split
      next hid =>
        have hlife : (state.life id).session = none := hid ▸ hsession
        generalize state.life id = life at hlife ⊢
        cases life
        subst hlife
        rfl
      next => rfl
  | some session => exact life_leaves hown hsession key failure id

theorem life_stopSession (hown : OwnEngines state) (stopped id : Uuid) :
    (state.stopSession stopped).life id =
      if id = stopped then (state.life id).stopSession else state.life id := by
  unfold stopSession
  split
  next session hsession =>
    have hlife : (state.life stopped).session = some session := hsession
    split
    next hruns =>
      rw [life_stop (hown stopped session · hsession), life_setSession]
      by_cases hid : id = stopped
      · subst hid
        simp [Life.stopSession, hlife, hruns]
      · simp [hid]
    next hruns =>
      split
      next hid => subst hid; simp [Life.stopSession, hlife, hruns]
      next => rfl
  next hsession =>
    split
    next hid =>
      have hlife : (state.life id).session = none := hid ▸ hsession
      simp [Life.stopSession, hlife]
    next => rfl

/-- A session that keeps its engine, or has none or its own, has no other's. -/
theorem ownEngines_of_life {next : ServiceState} (hown : OwnEngines state)
    (hlife : ∀ id session, (next.life id).session = some session →
      (∃ before, (state.life id).session = some before ∧ session.engine = before.engine) ∨
        session.engine = none ∨ session.engine = some id) : OwnEngines next := by
  intro id session engine hsession hengine
  rcases hlife id session hsession with ⟨before, hbefore, hsame⟩ | hnone | hself
  · exact hown id before engine hbefore (hsame ▸ hengine)
  · rw [hnone] at hengine
    cases hengine
  · exact (Option.some.inj (hself.symm.trans hengine)).symm

theorem ownEngines_close (hown : OwnEngines state) (gone : Uuid) :
    OwnEngines (state.close gone) := by
  refine ownEngines_of_life hown fun id session hsession => ?_
  rw [life_close hown] at hsession
  split at hsession
  · unfold Life.close at hsession
    split at hsession
    next hnone => rw [hnone] at hsession; cases hsession
    next => cases hsession
  · exact .inl ⟨session, hsession, rfl⟩

theorem ownEngines_stopSession (hown : OwnEngines state) (stopped : Uuid) :
    OwnEngines (state.stopSession stopped) := by
  refine ownEngines_of_life hown fun id session hsession => ?_
  rw [life_stopSession hown] at hsession
  split at hsession
  · unfold Life.stopSession at hsession
    split at hsession
    next hnone => rw [hnone] at hsession; cases hsession
    next before hbefore =>
      split at hsession
      · obtain rfl := Option.some.inj hsession
        exact .inl ⟨before, hbefore, rfl⟩
      · exact .inl ⟨session, hsession, rfl⟩
  · exact .inl ⟨session, hsession, rfl⟩

/-- The same change made to several sessions in turn. -/
theorem life_foldl {change : ServiceState → Uuid → ServiceState} {live : Life → Life}
    (hchange : ∀ {state : ServiceState}, OwnEngines state → ∀ changed id,
      (change state changed).life id = if id = changed then live (state.life id) else state.life id)
    (hkeep : ∀ {state : ServiceState}, OwnEngines state → ∀ changed,
      OwnEngines (change state changed))
    (hlive : ∀ life, live (live life) = live life) (ids : List Uuid)
    (hown : OwnEngines state) (id : Uuid) :
    (ids.foldl change state).life id =
      if id ∈ ids then live (state.life id) else state.life id := by
  induction ids generalizing state with
  | nil => simp
  | cons first rest ih =>
      rw [List.foldl_cons, ih (hkeep hown first), hchange hown]
      by_cases hid : id = first
      · by_cases hrest : id ∈ rest <;> simp_all
      · simp [hid]

theorem life_closeAll (hown : OwnEngines state) (id : Uuid) :
    state.closeAll.life id =
      if id ∈ state.sessions.keys then (state.life id).close else state.life id :=
  life_foldl (fun hown => life_close hown) (fun hown => ownEngines_close hown) Life.close_close _
    hown id

theorem life_stopFrozen (hown : OwnEngines state) (overdue : List Uuid) (id : Uuid) :
    (state.stopFrozen overdue).life id =
      if id ∈ state.frozenSessions overdue then (state.life id).stopSession else state.life id :=
  life_foldl (fun hown => life_stopSession hown) (fun hown => ownEngines_stopSession hown)
    Life.stopSession_stopSession _ hown id

theorem life_abandonStart (state : ServiceState) (abandoned : Uuid) (start : Option StartResult)
    (id : Uuid) : (state.abandonStart abandoned start).life id =
      if id = abandoned then (state.life id).abandonStart start else state.life id := by
  unfold abandonStart
  split
  · by_cases hid : id = abandoned
    · subst hid
      simp [life, Life.abandonStart]
    · simp [life, hid, Dict.get?_set]
  · exact state.life_onEngine abandoned id EngineLog.halt
  next hstart =>
    split
    · unfold Life.abandonStart
      split
      next heq => cases heq
      next heq => exact absurd (Option.some.inj heq) (by rintro rfl; exact hstart rfl)
      next => rfl
    · rfl

theorem ownEngines_abandonStart (hown : OwnEngines state) (abandoned : Uuid)
    (start : Option StartResult) : OwnEngines (state.abandonStart abandoned start) := by
  refine ownEngines_of_life hown fun id session hsession => .inl ⟨session, ?_, rfl⟩
  rw [life_abandonStart] at hsession
  split at hsession
  · exact (Life.abandonStart_session _ _).symm.trans hsession
  · exact hsession

end ServiceState

/-! ## One step -/

/-- What one step can do to the life of a session id. -/
inductive LifeStep (id : Uuid) (life : Life) : Life → Prop
  | nothing : LifeStep id life life
  | admits (session : StreamSession) (hfresh : life.issued = false) :
      LifeStep id life { life with
        opening := some { key := session.bookmarkKey }
        session := some ⟨session, none, false⟩
        issued := true }
  | refusesPort (hfresh : life.issued = false) :
      LifeStep id life { life with session := none, issued := true }
  | waits (opening changed : Opening) (hopening : life.opening = some opening)
      (hkey : changed.key = opening.key) (hstart : changed.start = opening.start) :
      LifeStep id life { life with opening := some changed }
  | startEnds (opening : Opening) (result : StartResult) (hopening : life.opening = some opening)
      (hstart : opening.start = none) :
      LifeStep id life { life with
        opening := some { opening with start := some result }
        engine := if result = .started then some {} else life.engine }
  | abandonedEnds (result : StartResult) (hopening : life.opening = none)
      (habandoned : life.abandoned = some none) :
      LifeStep id life { life with
        abandoned := some (some result)
        engine := if result = .started then some {} else life.engine }
  | callback (result : StartResult) (habandoned : life.abandoned = some (some result)) :
      LifeStep id life (Life.abandonStart { life with abandoned := none } (some result))
  | abandons (opening : Opening) (hopening : life.opening = some opening) :
      LifeStep id life (Life.abandonStart { life with opening := none } opening.start).close
  | keeps (opening : Opening) (session : ListenerSession) (hopening : life.opening = some opening)
      (hstart : opening.start = some .started) (hsession : life.session = some session) :
      LifeStep id life { life with
        opening := none
        session := some { session with engine := some id }
        relayed := true }
  | relayFails (opening : Opening) (session : ListenerSession)
      (hopening : life.opening = some opening) (hstart : opening.start = some .started)
      (hsession : life.session = some session) :
      LifeStep id life (Life.close { life with
        opening := none
        session := some { session with engine := some id } })
  | closes : LifeStep id life life.close
  | stops : LifeStep id life life.stopSession
  | relayCloses (hrelayed : life.relayed) :
      LifeStep id life { life with engine := life.engine.map EngineLog.closeOnce }
  | changes (found : ListenerSession) (session : StreamSession)
      (hfound : life.session = some found)
      (hkey : session.bookmarkKey = found.session.bookmarkKey) :
      LifeStep id life { life with session := some { found with session := session } }

section

variable {state next : ServiceState}

theorem LifeStep.to {id : Uuid} {life after last : Life} (hstep : LifeStep id life after)
    (hlast : last = after) : LifeStep id life last := hlast ▸ hstep

theorem LifeStep.of_life_eq {id : Uuid} {life last : Life} (hlast : last = life) :
    LifeStep id life last := LifeStep.nothing.to hlast

theorem life_told (state : ServiceState) (key : Option BookmarkKey) (limit : Nat) (issued : Uuid)
    (session : StreamSession) (id : Uuid) :
    ((state.admitted key limit issued session).tellOpened key issued).life id =
      if id = issued then { state.life id with
        session := some ⟨{ session with bookmarkKey := key }, none, false⟩
        issued := true }
      else state.life id := by
  rw [ServiceState.life_tellOpened, ServiceState.admitted]
  by_cases hid : id = issued
  · subst hid
    simp [ServiceState.life]
  · simp [ServiceState.life, hid, Dict.get?_set]

theorem ownEngines_told (hown : OwnEngines state) (key : Option BookmarkKey) (limit : Nat)
    (issued : Uuid) (session : StreamSession) :
    OwnEngines ((state.admitted key limit issued session).tellOpened key issued) :=
  ServiceState.ownEngines_of_life hown fun id found hfound => by
    rw [life_told] at hfound
    split at hfound
    · obtain rfl := Option.some.inj hfound
      exact .inr (.inl rfl)
    · exact .inl ⟨found, hfound, rfl⟩

/-- An open is the affair of its own session. -/
theorem admit_other (hown : OwnEngines state) {request : ListenRequest} {station : Uuid}
    {limit : Option Nat} {issued : Uuid} {session : StreamSession} {portFree : Bool} {id : Uuid}
    (hid : id ≠ issued) :
    (state.admitSession request station limit issued session portFree).life id = state.life id := by
  unfold ServiceState.admitSession
  generalize request.channel station = key
  cases limit with
  | none => exact state.life_refuse _ _ id
  | some limit =>
      dsimp only
      split
      · exact state.life_refuse _ _ id
      · split
        · rw [ServiceState.life_setOpening, life_told, if_neg hid, if_neg hid]
        · rw [ServiceState.life_abandonOpen (ownEngines_told hown _ _ _ _), life_told, if_neg hid,
            if_neg hid]

theorem admit_life (hown : OwnEngines state) {request : ListenRequest} {station : Uuid}
    {limit : Option Nat} {issued : Uuid} {session : StreamSession} {portFree : Bool}
    (hfresh : issued ∉ state.issued) (id : Uuid) :
    LifeStep id (state.life id)
      ((state.admitSession request station limit issued session portFree).life id) := by
  by_cases hid : id = issued
  · subst hid
    have hnotIssued : (state.life id).issued = false := by simpa [ServiceState.life] using hfresh
    unfold ServiceState.admitSession
    generalize request.channel station = key
    cases limit with
    | none => exact .of_life_eq (state.life_refuse _ _ id)
    | some limit =>
        dsimp only
        split
        · exact .of_life_eq (state.life_refuse _ _ id)
        · split
          · rw [ServiceState.life_setOpening, life_told, if_pos rfl, if_pos rfl]
            exact .admits { session with bookmarkKey := key } hnotIssued
          · rw [ServiceState.life_abandonOpen (ownEngines_told hown _ _ _ _), life_told, if_pos rfl,
              if_pos rfl]
            exact .refusesPort hnotIssued
  · exact .of_life_eq (admit_other hown hid)

/-- An open keeps its engine only once its start has returned one. -/
theorem Opening.failure_keeps {opening : Opening} {isOpen : Bool}
    (hkeeps : opening.failure isOpen = some none) : opening.start = some .started := by
  unfold Opening.failure at hkeeps
  split at hkeeps
  · cases hkeeps
  · split at hkeeps <;> first | assumption | cases hkeeps

theorem settle_life (hown : OwnEngines state) {settled : Uuid} {relayFails : Bool}
    (hsettle : state.settle settled relayFails = some next) (id : Uuid) :
    LifeStep id (state.life id) (next.life id) := by
  unfold ServiceState.settle at hsettle
  split at hsettle
  · cases hsettle
  next opening hopening =>
    dsimp only at hsettle
    have herased := state.life_eraseOpening settled id
    have hownErased : OwnEngines { state with opening := state.opening.erase settled } := hown
    split at hsettle
    · cases hsettle
    next failure _ =>
      cases hsettle
      have hstarted := ServiceState.ownEngines_abandonStart hownErased settled opening.start
      rw [ServiceState.life_abandonOpen hstarted, ServiceState.life_abandonStart, herased]
      by_cases hid : id = settled
      · subst hid
        simp only [if_true]
        exact .abandons opening hopening
      · simp only [hid, if_false]
        exact .nothing
    next session hkeeps hsession =>
      have hstart := Opening.failure_keeps hkeeps
      have hkept : ∀ other, ServiceState.life { state with
          opening := state.opening.erase settled
          sessions := state.sessions.set settled { session with engine := some settled } } other =
          if other = settled then { state.life other with
            opening := none
            session := some { session with engine := some settled } }
          else state.life other := by
        intro other
        by_cases hother : other = settled
        · subst hother
          simp [ServiceState.life]
        · simp [ServiceState.life, hother, Dict.get?_set, Dict.get?_erase]
      have hownKept : OwnEngines { state with
          opening := state.opening.erase settled
          sessions := state.sessions.set settled { session with engine := some settled } } := by
        refine ServiceState.ownEngines_of_life hown fun other found hfound => ?_
        rw [hkept] at hfound
        split at hfound
        next hother =>
          obtain rfl := Option.some.inj hfound
          exact .inr (.inr (by rw [hother]))
        next => exact .inl ⟨found, hfound, rfl⟩
      split at hsettle
      · cases hsettle
        rw [ServiceState.life_abandonOpen hownKept, hkept]
        by_cases hid : id = settled
        · subst hid
          simp only [if_true]
          exact .relayFails opening session hopening hstart hsession
        · simp only [hid, if_false]
          exact .nothing
      · cases hsettle
        by_cases hid : id = settled
        · subst hid
          refine (LifeStep.keeps opening session hopening hstart hsession).to ?_
          simp [ServiceState.life]
        · exact .of_life_eq (by simp [ServiceState.life, hid, Dict.get?_set, Dict.get?_erase])
    next => cases hsettle

theorem startEnds_life {started : Uuid} {result : StartResult}
    (hends : state.startEnds started result = some next) (id : Uuid) :
    LifeStep id (state.life id) (next.life id) := by
  unfold ServiceState.startEnds at hends
  dsimp only at hends
  by_cases hid : id = started
  · subst hid
    split at hends
    next opening hopening =>
      split at hends
      · cases hends
      next hstart =>
        cases hends
        have hlife : (state.life id).opening = some opening := hopening
        refine (LifeStep.startEnds opening result hlife (by simpa using hstart)).to ?_
        by_cases hresult : result = .started <;> simp [ServiceState.life, hresult]
    next hopening habandoned =>
      cases hends
      refine (LifeStep.abandonedEnds result hopening habandoned).to ?_
      by_cases hresult : result = .started <;> simp [ServiceState.life, hresult]
    next => cases hends
  · have hsame : next.life id = state.life id := by
      split at hends
      · split at hends
        · cases hends
        · cases hends
          by_cases hresult : result = .started <;>
            simp [ServiceState.life, hresult, hid, Dict.get?_set]
      · cases hends
        by_cases hresult : result = .started <;>
          simp [ServiceState.life, hresult, hid, Dict.get?_set]
      · cases hends
    exact .of_life_eq hsame

theorem startCallback_life {abandoned : Uuid}
    (hcallback : state.startCallback abandoned = some next) (id : Uuid) :
    LifeStep id (state.life id) (next.life id) := by
  unfold ServiceState.startCallback at hcallback
  split at hcallback
  next result hresult =>
    cases hcallback
    rw [ServiceState.life_abandonStart]
    by_cases hid : id = abandoned
    · subst hid
      have hlife : ({ state with abandoned := state.abandoned.erase id } : ServiceState).life id =
          { state.life id with abandoned := none } := by simp [ServiceState.life]
      rw [if_pos rfl, hlife]
      exact .callback result hresult
    · rw [if_neg hid]
      exact .of_life_eq (by simp [ServiceState.life, hid, Dict.get?_erase])
  next => cases hcallback

theorem step_life (hown : OwnEngines state) {action : ServiceAction}
    (hstep : serviceMachine.step state action = some (next, ())) (id : Uuid) :
    LifeStep id (state.life id) (next.life id) := by
  obtain ⟨after, hafter, heq⟩ := Option.map_eq_some_iff.mp hstep
  obtain rfl := congrArg Prod.fst heq
  -- One case an action: each is about one id, and leaves every other life as it was.
  cases action with
  | «open» call request =>
      dsimp only at hafter
      split at hafter
      · cases hafter
      · cases hafter
        exact .nothing
  | cancelReading call =>
      cases hafter
      exact .nothing
  | read call station limit issued session portFree =>
      dsimp only at hafter
      split at hafter
      · cases hafter
      next request hrequest =>
        split at hafter
        · cases hafter
          exact .nothing
        next station =>
          split at hafter
          · cases hafter
          next hfresh =>
            cases hafter
            have hownAnswered : OwnEngines { state with reading := state.reading.erase call } :=
              hown
            exact admit_life hownAnswered hfresh id
  | cancel cancelled =>
      obtain ⟨opening, hopening, rfl⟩ := Option.map_eq_some_iff.mp hafter
      rw [ServiceState.life_setOpening]
      split
      next hid => exact .waits opening _ (hid ▸ hopening) rfl rfl
      next => exact .nothing
  | placingEnds placed result =>
      dsimp only at hafter
      split at hafter
      · cases hafter
      next opening hopening =>
        split at hafter
        · cases hafter
        · cases hafter
          rw [ServiceState.life_setOpening]
          split
          next hid => exact .waits opening _ (hid ▸ hopening) rfl rfl
          next => exact .nothing
  | startEnds started result => exact startEnds_life hafter id
  | settle settled relayFails => exact settle_life hown hafter id
  | startCallback abandoned => exact startCallback_life hafter id
  | relayCloses relayed =>
      dsimp only at hafter
      split at hafter
      next hrelayed =>
        cases hafter
        rw [ServiceState.life_onEngine]
        split
        next hid => exact .relayCloses (by simp [ServiceState.life, hid, hrelayed])
        next => exact .nothing
      · cases hafter
  | relayEnds relayed =>
      dsimp only at hafter
      split at hafter
      · cases hafter
        rw [ServiceState.life_close hown]
        split
        · exact .closes
        · exact .nothing
      · cases hafter
  | close closed =>
      cases hafter
      rw [ServiceState.life_close hown]
      split
      · exact .closes
      · exact .nothing
  | closeAll =>
      cases hafter
      rw [ServiceState.life_closeAll hown]
      split
      · exact .closes
      · exact .nothing
  | stopFrozen overdue =>
      cases hafter
      rw [ServiceState.life_stopFrozen hown]
      split
      · exact .stops
      · exact .nothing
  | changes changed session =>
      dsimp only at hafter
      split at hafter
      · cases hafter
      next found hfound =>
        split at hafter
        next hkey =>
          cases hafter
          rw [ServiceState.life_setSession]
          split
          next hid => exact .changes found session (hid ▸ hfound) hkey
          next => exact .nothing
        · cases hafter
  | title titled artist text showsAt =>
      dsimp only at hafter
      split at hafter
      · cases hafter
      · cases hafter
        exact .of_life_eq (state.life_callFeed _ id)
  | feed action =>
      dsimp only at hafter
      split at hafter
      · cases hafter
        exact .of_life_eq (state.life_callFeed _ id)
      · cases hafter

end

end RetroStation.Streaming
