import RetroStation.Ingestion.IngestTask

/-! # An upload is ingested once or not at all

Whatever goes wrong, at most one transaction is committed, which ingested the whole upload. Only
what is committed is handed on, and what the progress row says is so.
-/

namespace RetroStation.Ingestion

open Effect

variable {world : Circumstances} {upload : Upload} {stationId : Option Uuid}
  {allowed : ProgressData → Prop} {Value : Type}

/-! ## What telling does -/

def ProgressData.IsRunning : ProgressData → Prop
  | .running _ _ => True
  | _ => False

def ProgressData.Completes (result : IngestionResult) : ProgressData → Prop
  | .completed told _ => told = result
  | _ => False

def ProgressData.Fails (error : TaskError) : ProgressData → Prop
  | .failed told code _ _ => told = error ∧ code = errorCode error
  | _ => False

/-- The rows after some that are allowed are written. -/
def Adds (allowed : ProgressData → Prop) (rows later : List ProgressData) : Prop :=
  ∃ more, (∀ row ∈ more, allowed row) ∧ later = rows ++ more

theorem Adds.refl (rows : List ProgressData) : Adds allowed rows rows :=
  ⟨[], nofun, (List.append_nil rows).symm⟩

theorem Adds.trans {first second third : List ProgressData} (hfirst : Adds allowed first second)
    (hsecond : Adds allowed second third) : Adds allowed first third := by
  obtain ⟨more, hmore, rfl⟩ := hfirst
  obtain ⟨rest, hrest, rfl⟩ := hsecond
  refine ⟨more ++ rest, fun row hrow => ?_, List.append_assoc _ _ _⟩
  exact (List.mem_append.mp hrow).elim (hmore row) (hrest row)

/-- The tables, the queue and the attempts stay, and only allowed rows are written. -/
structure Writes (allowed : ProgressData → Prop) (state next : TaskState) : Prop where
  store : next.store = state.store
  queued : next.queued = state.queued
  attempts : next.attempts = state.attempts
  rows : Adds allowed state.rows next.rows

instance : Std.Refl (Writes allowed) := ⟨fun _ => ⟨rfl, rfl, rfl, .refl _⟩⟩

instance : IsTrans TaskState (Writes allowed) where
  trans _ _ _ hfirst hsecond := ⟨hsecond.store.trans hfirst.store,
    hsecond.queued.trans hfirst.queued, hsecond.attempts.trans hfirst.attempts,
    hfirst.rows.trans hsecond.rows⟩

/-- How a statement on the task's own connection goes. -/
theorem outcome_ask (write : TaskState → TaskState) (state : TaskState) :
    outcome (ask world write) state =
      let counted := { state with statements := state.statements + 1 }
      match world.answer state.statements with
      | .done => (.ok (), write counted)
      | .lost => (.error (.progress true), counted)
      | .broken => (.error (.progress false), counted) := by
  unfold ask
  rw [outcome_bind, outcome_get]
  dsimp only
  cases world.answer state.statements <;> rfl

theorem upsertRow_writes {data : ProgressData} (hdata : allowed data) :
    Follows (Writes allowed) (upsertRow world data) := by
  intro state
  unfold upsertRow
  rw [outcome_ask]
  cases world.answer state.statements with
  | done => exact ⟨rfl, rfl, rfl, [data], by simpa using hdata, rfl⟩
  | lost => exact ⟨rfl, rfl, rfl, .refl _⟩
  | broken => exact ⟨rfl, rfl, rfl, .refl _⟩

theorem createLog_writes (log : LogMessage) :
    Follows (Writes allowed) (createLog world log) := by
  intro state
  unfold createLog
  rw [outcome_ask]
  cases world.answer state.statements <;> exact ⟨rfl, rfl, rfl, .refl _⟩

theorem warn_writes (warning : Warning) : Follows (Writes allowed) (warn warning) :=
  fun _ => ⟨rfl, rfl, rfl, .refl _⟩

theorem dropLost_writes {warning : Warning} {write : Task Unit}
    (hwrite : Follows (Writes allowed) write) :
    Follows (Writes allowed) (dropLost warning write) := by
  refine hwrite.tryCatch fun error => ?_
  split
  · exact warn_writes warning
  · exact Follows.throw error

theorem safeProgressUpsert_writes {data : ProgressData} (hdata : allowed data) :
    Follows (Writes allowed) (safeProgressUpsert world data) :=
  dropLost_writes (upsertRow_writes hdata)

theorem safeSystemLogCreate_writes (log : LogMessage) :
    Follows (Writes allowed) (safeSystemLogCreate world log) :=
  dropLost_writes (createLog_writes log)

variable (world) in
theorem tellAll_writes (told : List Nat) :
    Follows (Writes ProgressData.IsRunning) (tellAll world told) := by
  induction told with
  | nil => exact Follows.pure ()
  | cons rowsProcessed rest ih =>
    refine Follows.bind (Follows.bind (fun _ => ⟨rfl, rfl, rfl, .refl _⟩) fun _ => ?_) fun _ => ih
    refine Follows.get.bind fun state => ?_
    refine (upsertRow_writes trivial).tryCatch fun error => ?_
    split
    · exact fun _ => ⟨rfl, rfl, rfl, .refl _⟩
    · exact Follows.throw error

variable (world upload) in
theorem startTask_writes : Follows (Writes ProgressData.IsRunning) (startTask world upload) := by
  unfold startTask
  split
  · exact Follows.throw _
  · refine Follows.bind (fun _ => ⟨rfl, rfl, rfl, .refl _⟩) fun _ => ?_
    exact (upsertRow_writes trivial).bind fun _ => safeSystemLogCreate_writes _

/-- What was raised is raised again, whatever telling of it raises. -/
theorem failing_outcome (world : Circumstances) (error : TaskError) (state : TaskState) :
    ∃ last, outcome (failTask world error >>= fun _ => summarizeDrops >>= fun _ =>
        (throw error : Task Unit)) state = (.error error, last) ∧
      Writes (ProgressData.Fails error) state last := by
  have hraises : Raises (fun _ => False) (failTask world error) := by
    refine Raises.get_bind fun seen => ?_
    refine Raises.bind (Raises.tryCatch (fun _ _ _ => trivial) fun _ _ => Raises.change _)
      fun _ => ?_
    exact (Raises.tryCatch (fun _ _ _ => trivial) fun _ _ => Raises.change _).bind fun _ =>
      Raises.change _
  have hwrites : Follows (Writes (ProgressData.Fails error)) (failTask world error) := by
    refine Follows.get.bind fun seen => ?_
    refine Follows.bind ((safeProgressUpsert_writes ⟨rfl, rfl⟩).tryCatch fun _ => warn_writes _)
      fun _ => ?_
    exact Follows.bind ((safeSystemLogCreate_writes _).tryCatch fun _ => warn_writes _) fun _ =>
      warn_writes _
  have hlater := hwrites state
  have hreturns := hraises state
  rw [outcome_bind]
  generalize outcome (failTask world error) state = done at hlater hreturns
  obtain ⟨raised | _, later⟩ := done
  · exact (hreturns raised rfl).elim
  · exact ⟨_, rfl, hlater.store, hlater.queued, hlater.attempts, hlater.rows⟩

/-! ## One transaction -/

theorem upsertRow_raises (data : ProgressData) :
    Raises (fun error => ∃ lost, error = .progress lost) (upsertRow world data) := by
  intro state error herror
  unfold upsertRow at herror
  rw [outcome_ask] at herror
  split at herror
  · cases herror
  · cases herror
    exact ⟨true, rfl⟩
  · cases herror
    exact ⟨false, rfl⟩

variable (world) in
theorem tellAll_raises (told : List Nat) : Raises (· = .progress false) (tellAll world told) := by
  induction told with
  | nil => exact Raises.pure ()
  | cons rowsProcessed rest ih =>
    refine Raises.bind ((Raises.change _).bind fun _ => Raises.get_bind fun seen => ?_) fun _ => ih
    refine (upsertRow_raises _).tryCatch fun error hraised => ?_
    obtain ⟨_ | _, rfl⟩ := hraised
    · exact Raises.throw rfl
    · exact Raises.change _

variable (world upload stationId) in
/-- How a transaction goes. Only one that deadlocked raises a deadlock. -/
inductive Attempted (state : TaskState) : Except TaskError IngestionResult × TaskState → Prop
  | rolledBack {error : TaskError} {later : TaskState}
      (hwrites : Writes ProgressData.IsRunning state.onAttemptStart later)
      (hdeadlock : error = .deadlock →
        (world.attempt state.attempts).fault = some .deadlock) :
      Attempted state (.error error, later)
  | committed {ingest : Ingest} {later : TaskState}
      (hfault : (world.attempt state.attempts).fault = none)
      (hingest : ingestCsv (world.newId state.attempts) world.reading upload stationId
        state.store = .ok ingest)
      (hwrites : Writes ProgressData.IsRunning
        { state.onAttemptStart with store := ingest.store } later) :
      Attempted state (.ok ingest.result, later)

/-- What is told before an error, which is raised unless the telling raises one. -/
theorem told_then_raised (world : Circumstances) (told : List Nat) (error : TaskError)
    (state : TaskState) :
    ∃ raised later, outcome (tellAll world told >>= fun _ =>
        (throw error : Task IngestionResult)) state = (.error raised, later) ∧
      Writes ProgressData.IsRunning state later ∧ (raised = error ∨ raised = .progress false) := by
  have hwrites := tellAll_writes world told state
  have hraises := tellAll_raises world told state
  rw [outcome_bind]
  generalize outcome (tellAll world told) state = done at hwrites hraises
  obtain ⟨raised | _, later⟩ := done
  · exact ⟨raised, later, rfl, hwrites, .inr (hraises raised rfl)⟩
  · exact ⟨error, later, rfl, hwrites, .inl rfl⟩

variable (world upload stationId) in
theorem attempt_outcome (state : TaskState) : Attempted world upload stationId state
    (outcome (attemptIngest world upload stationId) state) := by
  unfold attemptIngest
  rw [outcome_bind, outcome_get]
  dsimp only
  rw [outcome_bind, outcome_set]
  dsimp only
  cases hfault : (world.attempt state.attempts).fault with
  | some fault =>
    dsimp only
    obtain ⟨raised, later, hraised, hlater, hwhich⟩ :=
      told_then_raised world (world.attempt state.attempts).told fault state.onAttemptStart
    rw [hraised]
    refine .rolledBack hlater fun hdeadlock => hfault.trans ?_
    obtain rfl | rfl := hwhich
    · rw [hdeadlock]
    · cases hdeadlock
  | none =>
    cases hingest : ingestCsv (world.newId state.attempts) world.reading upload stationId
        state.store with
    | error error =>
      dsimp only
      obtain ⟨raised, later, hraised, hlater, hwhich⟩ :=
        told_then_raised world (world.attempt state.attempts).told (.ingest error)
          state.onAttemptStart
      rw [hraised]
      refine .rolledBack hlater fun hdeadlock => ?_
      subst hdeadlock
      obtain hwhich | hwhich := hwhich <;> cases hwhich
    | ok ingest =>
      dsimp only
      have hlater := tellAll_writes world ingest.reported state.onAttemptStart
      have hraises := tellAll_raises world ingest.reported state.onAttemptStart
      rw [outcome_bind]
      generalize outcome (tellAll world ingest.reported) state.onAttemptStart = done
        at hlater hraises
      obtain ⟨raised | _, later⟩ := done
      -- telling raises no deadlock, so nothing that was ingested is tried again
      · refine .rolledBack hlater fun hdeadlock => ?_
        cases hdeadlock.symm.trans (hraises raised rfl)
      · exact .committed hfault hingest ⟨rfl, hlater.queued, hlater.attempts, hlater.rows⟩

/-! ## At most one commit -/

variable (world upload stationId) in
/-- The transaction that is committed: those before it deadlocked, and nothing goes wrong in it. -/
structure CommitsAt (store : Store) (first number : Nat) (ingest : Ingest) : Prop where
  since : first ≤ number
  deadlocked : ∀ earlier, first ≤ earlier → earlier < number →
    (world.attempt earlier).fault = some .deadlock
  unfaulted : (world.attempt number).fault = none
  ingested : ingestCsv (world.newId number) world.reading upload stationId store = .ok ingest

variable (world upload stationId) in
/-- What becomes of the transactions when there may be `left` of them. -/
inductive Retried (state : TaskState) (left : Nat) :
    Except TaskError IngestionResult × TaskState → Prop
  | refused {error : TaskError} {later : TaskState} (hstore : later.store = state.store)
      (hqueued : later.queued = state.queued)
      (hrows : Adds ProgressData.IsRunning state.rows later.rows) :
      Retried state left (.error error, later)
  | committed {number : Nat} {ingest : Ingest} {later : TaskState}
      (hcommits : CommitsAt world upload stationId state.store state.attempts number ingest)
      (hnumber : number < state.attempts + left) (hstore : later.store = ingest.store)
      (hqueued : later.queued = state.queued)
      (hrows : Adds ProgressData.IsRunning state.rows later.rows) :
      Retried state left (.ok ingest.result, later)

variable (world upload stationId) in
theorem retry_outcome (left : Nat) (state : TaskState) : Retried world upload stationId state left
    (outcome (retryOnDeadlock world upload stationId left) state) := by
  induction left generalizing state with
  | zero => exact .refused rfl rfl (.refl _)
  | succ left ih =>
    have hattempt := attempt_outcome world upload stationId state
    rw [retryOnDeadlock, outcome_tryCatch]
    generalize outcome (attemptIngest world upload stationId) state = done at hattempt
    cases hattempt with
    | committed hfault hingest hwrites =>
      exact .committed ⟨le_rfl, fun earlier _ _ => by omega, hfault, hingest⟩ (by omega)
        hwrites.store hwrites.queued hwrites.rows
    | @rolledBack error later hwrites hdeadlock =>
      have hstore : later.store = state.store := hwrites.store
      have hqueued : later.queued = state.queued := hwrites.queued
      have hattempts : later.attempts = state.attempts + 1 := hwrites.attempts
      have hrows : Adds ProgressData.IsRunning state.rows later.rows := hwrites.rows
      dsimp only
      split
      · -- a deadlock: the next transaction starts over from the same tables
        split
        · exact .refused hstore hqueued hrows
        · have hnext := ih later
          generalize outcome (retryOnDeadlock world upload stationId left) later = retried at hnext
          cases hnext with
          | refused hlater hlaterQueued hlaterRows =>
            exact .refused (hlater.trans hstore) (hlaterQueued.trans hqueued)
              (hrows.trans hlaterRows)
          | @committed number ingest last hcommits hnumber hlast hlastQueued hlastRows =>
            obtain ⟨hsince, hearlier, hfault, hingest⟩ := hcommits
            rw [hattempts] at hsince hearlier hnumber
            rw [hstore] at hingest
            refine .committed ⟨by omega, fun earlier hfrom hbefore => ?_, hfault, hingest⟩
              (by omega) hlast (hlastQueued.trans hqueued) (hrows.trans hlastRows)
            obtain rfl | hlt := Nat.eq_or_lt_of_le hfrom
            · exact hdeadlock rfl
            · exact hearlier earlier hlt hbefore
      · exact .refused hstore hqueued hrows

/-! ## What follows a commit -/

/-- What is queued after a commit, unless the queue refuses it. -/
def handOffs (result : IngestionResult) : List HandOff :=
  [.embedding result.playlistId, .artistMatching result.playlistId]

/-- The tables stay, and some of what is offered is queued, in order. -/
structure Queues (allowed : ProgressData → Prop) (offered : List HandOff)
    (state next : TaskState) : Prop where
  store : next.store = state.store
  queued : ∃ accepted, accepted.Sublist offered ∧ next.queued = state.queued ++ accepted
  rows : Adds allowed state.rows next.rows

theorem queues_of_writes {comp : Task Value} (hwrites : Follows (Writes allowed) comp) :
    Follows (Queues allowed []) comp :=
  fun state => ⟨(hwrites state).store,
    ⟨[], .refl _, (hwrites state).queued.trans (List.append_nil _).symm⟩, (hwrites state).rows⟩

theorem queues_bind {first second : List HandOff} {comp : Task Value} {Result : Type}
    {next : Value → Task Result} (hcomp : Follows (Queues allowed first) comp)
    (hnext : ∀ value, Follows (Queues allowed second) (next value)) :
    Follows (Queues allowed (first ++ second)) (comp >>= next) := by
  intro state
  rw [outcome_bind]
  obtain ⟨hstore, ⟨accepted, haccepted, hqueued⟩, hrows⟩ := hcomp state
  generalize outcome comp state = done at hstore hqueued hrows
  obtain ⟨error | value, later⟩ := done
  · exact ⟨hstore, ⟨accepted, haccepted.trans (List.sublist_append_left _ _), hqueued⟩, hrows⟩
  · obtain ⟨hlast, ⟨more, hmore, hlastQueued⟩, hlastRows⟩ := hnext value later
    refine ⟨hlast.trans hstore, ⟨accepted ++ more, haccepted.append hmore, ?_⟩,
      hrows.trans hlastRows⟩
    rw [hlastQueued, hqueued, List.append_assoc]

theorem enqueueOrLog_queues (handOff : HandOff) :
    Follows (Queues allowed [handOff]) (enqueueOrLog world handOff) := by
  intro state
  unfold enqueueOrLog
  cases world.enqueue handOff with
  | done => exact ⟨rfl, ⟨[handOff], .refl _, rfl⟩, .refl _⟩
  | lost =>
    -- the log may be lost too, which is warned of
    dsimp only [createLog]
    rw [outcome_tryCatch, outcome_ask]
    cases world.answer state.statements <;>
      exact ⟨rfl, ⟨[], List.nil_sublist _, (List.append_nil _).symm⟩, .refl _⟩
  | broken => exact ⟨rfl, ⟨[], List.nil_sublist _, (List.append_nil _).symm⟩, .refl _⟩

variable (world) in
theorem finishTask_queues (result : IngestionResult) :
    Follows (Queues (ProgressData.Completes result) (handOffs result))
      (finishTask world result) := by
  have hread : Follows (Writes (ProgressData.Completes result)) (get : Task TaskState) :=
    Follows.get
  rw [show handOffs result = [] ++ ([] ++ ([] ++ ([.embedding result.playlistId] ++
    [.artistMatching result.playlistId]))) from rfl]
  refine queues_bind (queues_of_writes hread) fun state => ?_
  refine queues_bind (queues_of_writes (safeProgressUpsert_writes rfl)) fun _ => ?_
  refine queues_bind (queues_of_writes (safeSystemLogCreate_writes _)) fun _ => ?_
  exact queues_bind (enqueueOrLog_queues _) fun _ => enqueueOrLog_queues _

/-! ## The task -/

/-- The progress row says that the task is running, then that it completed, then that it failed
with what it raised. -/
def RowsSay (completes : ProgressData → Prop) (answer : Except TaskError Unit)
    (rows : List ProgressData) : Prop :=
  ∃ running completed failed, rows = running ++ completed ++ failed ∧
    (∀ row ∈ running, row.IsRunning) ∧ (∀ row ∈ completed, completes row) ∧
    ∀ row ∈ failed, ∃ error, answer = .error error ∧ row.Fails error

section

variable {completes : ProgressData → Prop} {answer : Except TaskError Unit}

theorem RowsSay.completed {rows later : List ProgressData}
    (hrows : Adds ProgressData.IsRunning [] rows) (hlater : Adds completes rows later) :
    RowsSay completes answer later := by
  obtain ⟨running, hrunning, rfl⟩ := hrows
  obtain ⟨completed, hcompleted, rfl⟩ := hlater
  exact ⟨_, completed, [], by simp, hrunning, hcompleted, nofun⟩

theorem RowsSay.failing {error : TaskError} {rows later : List ProgressData}
    (hrows : RowsSay completes (.error error) rows)
    (hlater : Adds (ProgressData.Fails error) rows later) :
    RowsSay completes (.error error) later := by
  obtain ⟨running, completed, failed, rfl, hrunning, hcompleted, hfailed⟩ := hrows
  obtain ⟨more, hmore, rfl⟩ := hlater
  refine ⟨running, completed, failed ++ more, by simp, hrunning, hcompleted, fun row hrow => ?_⟩
  exact (List.mem_append.mp hrow).elim (hfailed row) fun hnew => ⟨error, rfl, hmore row hnew⟩

end

variable (world upload stationId) in
/-- How a task ends. -/
inductive Ended (store : Store) : Except TaskError Unit × TaskState → Prop
  | refused {error : TaskError} {later : TaskState} (hstore : later.store = store)
      (hqueued : later.queued = [])
      (hrows : RowsSay (fun _ => False) (.error error) later.rows) :
      Ended store (.error error, later)
  | committed {number : Nat} {ingest : Ingest} {answer : Except TaskError Unit}
      {later : TaskState}
      (hcommits : CommitsAt world upload stationId store 0 number ingest)
      (hnumber : number < MAX_ATTEMPTS) (hstore : later.store = ingest.store)
      (hqueued : later.queued.Sublist (handOffs ingest.result))
      (hrows : RowsSay (ProgressData.Completes ingest.result) answer later.rows) :
      Ended store (answer, later)

theorem Ended.failing {store : Store} {error : TaskError} {later last : TaskState}
    (hended : Ended world upload stationId store (.error error, later))
    (hwrites : Writes (ProgressData.Fails error) later last) :
    Ended world upload stationId store (.error error, last) := by
  cases hended with
  | refused hstore hqueued hrows =>
    exact .refused (hwrites.store.trans hstore) (hwrites.queued.trans hqueued)
      (hrows.failing hwrites.rows)
  | committed hcommits hnumber hstore hqueued hrows =>
    exact .committed hcommits hnumber (hwrites.store.trans hstore) (hwrites.queued ▸ hqueued)
      (hrows.failing hwrites.rows)

variable (world upload stationId) in
theorem run_ended (store : Store) : Ended world upload stationId store
    (outcome (runTask world upload stationId) { store := store }) := by
  have hstart := startTask_writes world upload { store := store }
  unfold runTask
  rw [outcome_bind]
  generalize outcome (startTask world upload) { store := store } = started at hstart
  obtain ⟨error | _, begun⟩ := started
  · exact .refused hstart.store hstart.queued (.completed hstart.rows (.refl _))
  have hbegunStore : begun.store = store := hstart.store
  have hbegunQueued : begun.queued = [] := hstart.queued
  have hbegunAttempts : begun.attempts = 0 := hstart.attempts
  have hretry := retry_outcome world upload stationId MAX_ATTEMPTS begun
  dsimp only
  rw [outcome_bind]
  generalize outcome (retryOnDeadlock world upload stationId MAX_ATTEMPTS) begun = retried at hretry
  cases hretry with
  | refused hstore hqueued hrows =>
    exact .refused (hstore.trans hbegunStore) (hqueued.trans hbegunQueued)
      (.completed (hstart.rows.trans hrows) (.refl _))
  | @committed number ingest later hcommits hnumber hstore hqueued hrows =>
    rw [hbegunStore, hbegunAttempts] at hcommits
    rw [hbegunAttempts, Nat.zero_add] at hnumber
    obtain ⟨hlast, ⟨accepted, haccepted, hlastQueued⟩, hlastRows⟩ :=
      finishTask_queues world ingest.result later
    dsimp only
    generalize outcome (finishTask world ingest.result) later = done at hlast hlastQueued hlastRows
    refine .committed hcommits hnumber (hlast.trans hstore) ?_
      (.completed (hstart.rows.trans hrows) hlastRows)
    rw [hlastQueued, hqueued, hbegunQueued]
    exact haccepted

end RetroStation.Ingestion
