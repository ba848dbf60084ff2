import RetroStation.Progress.Rows
import RetroStation.Table.Firsts

/-! # Pruning changes nothing that is read

The pruned table is the unpruned one without some rows that ended two weeks ago and are not
the latest of their type. Nothing that is read shows such a row, as long as no row is
written as updated after its end, no task is written again so long after its end and no
completed task is reopened.
-/

namespace RetroStation.Progress

open Transition

variable {TaskType Data : Type}

/-- The row ended longer ago than rows are kept. -/
def TaskProgress.Lapsed (now : Time) (row : TaskProgress TaskType Data) : Prop :=
  row.isRunning = false ∧ row.ended < now - PROGRESS_RETENTION

/-- A completed row is not updated after its end. -/
def TaskProgress.Timed (row : TaskProgress TaskType Data) : Prop :=
  ∀ completedAt, row.completedAt = some completedAt → row.updatedAt ≤ completedAt

/-- The writers keep to the tasks' lives: a row that is written ends no earlier than it was
updated, no task is written again two weeks after its end, and a completed task stays
completed. -/
def Settled (state : Tracking TaskType Data) (action : Time × Statement TaskType Data) : Prop :=
  match action.2 with
  | .upsert task => task.Timed ∧ ∀ row ∈ state.rows, row.taskId = task.taskId →
      ¬ row.Lapsed action.1 ∧ (row.status = .completed → task.status = .completed)
  | .touchRunning taskId _ => ∀ row ∈ state.rows, row.taskId = taskId →
      ¬ row.Lapsed action.1 ∧ row.status ≠ .completed
  | .matchingRun taskId _ _ => ∀ row ∈ state.rows, row.taskId = taskId →
      row.status = .completed ∨ ¬ row.Lapsed action.1
  | _ => True

/-- What is gone from a table that nothing was pruned from: rows that ended long ago, of which
the completed ones have a later one of their type left. -/
structure Gone (full : Tracking TaskType Data) (gone : String → Bool) : Prop where
  lapsed : ∀ row ∈ full.rows, gone row.taskId = true → row.Lapsed full.clock
  later : ∀ row ∈ full.rows, gone row.taskId = true → row.status = .completed →
    ∃ other ∈ full.rows, gone other.taskId = false ∧ other.status = .completed ∧
      other.taskType = row.taskType ∧ row.startedAt ≤ other.startedAt
  known : ∀ taskId, gone taskId = true → ∃ row ∈ full.rows, row.taskId = taskId

/-- The one table is the other, pruned. -/
structure Pruned (full small : Tracking TaskType Data) : Prop where
  clock : small.clock = full.clock
  unique : Table.UniqueBy TaskProgress.taskId full.rows
  timed : ∀ row ∈ full.rows, row.Timed
  gone : ∃ gone, Gone full gone ∧
    small.rows = full.rows.filter fun row => !gone row.taskId

theorem TaskProgress.Lapsed.mono {row : TaskProgress TaskType Data} {earlier now : Time}
    (hlapsed : row.Lapsed earlier) (hclock : earlier ≤ now) : row.Lapsed now :=
  ⟨hlapsed.1, Int.lt_of_lt_of_le hlapsed.2 (Int.sub_le_sub_right hclock _)⟩

theorem TaskProgress.Lapsed.not_shown {row : TaskProgress TaskType Data} {now : Time}
    (hlapsed : row.Lapsed now) : row.isShown now = false := by
  have hwindow : now - PROGRESS_RETENTION ≤ now - TERMINAL_GRACE :=
    Int.sub_le_sub_left (by decide) now
  have hended : ¬ row.ended > now - TERMINAL_GRACE :=
    not_lt.mpr (hlapsed.2.le.trans hwindow)
  simp [TaskProgress.isShown, hlapsed.1, hended]

theorem TaskProgress.Timed.updatedAt_le {row : TaskProgress TaskType Data} (htimed : row.Timed) :
    row.updatedAt ≤ row.ended := by
  unfold TaskProgress.ended
  cases hcompleted : row.completedAt with
  | none => exact le_rfl
  | some completedAt => exact htimed completedAt hcompleted

theorem TaskProgress.Lapsed.not_active {row : TaskProgress TaskType Data} {now : Time}
    (htimed : row.Timed) (hlapsed : row.Lapsed now) : row.isActive now = false := by
  have hwindow : now - PROGRESS_RETENTION ≤ now - ACTIVE_WINDOW :=
    Int.sub_le_sub_left (by decide) now
  have hupdated : ¬ row.updatedAt > now - ACTIVE_WINDOW :=
    not_lt.mpr (htimed.updatedAt_le.trans (hlapsed.2.le.trans hwindow))
  simp [TaskProgress.isActive, hlapsed.1, hupdated]

theorem TaskProgress.Lapsed.not_stale {row : TaskProgress TaskType Data} {now : Time}
    (hlapsed : row.Lapsed now) : row.isStale now = false := by
  simp [TaskProgress.isStale, hlapsed.1]

theorem not_completed_of_isStale {row : TaskProgress TaskType Data} {now : Time}
    (hstale : row.isStale now = true) : row.status ≠ .completed := by
  intro hcompleted
  simp [TaskProgress.isStale, TaskProgress.isRunning, hcompleted] at hstale

section

variable {full small : Tracking TaskType Data} {now : Time}

theorem Pruned.wait (hpruned : Pruned full small) (hclock : full.clock ≤ now) :
    Pruned { full with clock := now } { small with clock := now } where
  clock := rfl
  unique := hpruned.unique
  timed := hpruned.timed
  gone := by
    obtain ⟨gone, hgone, hrows⟩ := hpruned.gone
    exact ⟨gone, ⟨fun row hrow hrowg => (hgone.lapsed row hrow hrowg).mono hclock, hgone.later,
      hgone.known⟩, hrows⟩

/-- What changes only rows that are not gone, and none of what a row is known by. -/
theorem Pruned.update (hpruned : Pruned full small) (hclock : full.clock ≤ now)
    {p : TaskProgress TaskType Data → Bool}
    {change : TaskProgress TaskType Data → TaskProgress TaskType Data}
    (htaskId : ∀ row, (change row).taskId = row.taskId)
    (htaskType : ∀ row, (change row).taskType = row.taskType)
    (hstartedAt : ∀ row, (change row).startedAt = row.startedAt)
    (htimed : ∀ row ∈ full.rows, p row = true → (change row).Timed)
    (hlapsed : ∀ row ∈ full.rows, row.Lapsed now → p row = false)
    (hcompleted : ∀ row ∈ full.rows, p row = true → row.status = .completed →
      (change row).status = .completed) :
    Pruned { rows := Table.update full.rows p change, clock := now }
      { rows := Table.update small.rows p change, clock := now } where
  clock := rfl
  unique := hpruned.unique.update htaskId
  timed := Table.forall_mem_update hpruned.timed htimed
  gone := by
    obtain ⟨gone, hgone, hrows⟩ := hpruned.gone
    have hkept : ∀ row ∈ full.rows, gone row.taskId = true → p row = false := fun row hrow hrowg =>
      hlapsed row hrow ((hgone.lapsed row hrow hrowg).mono hclock)
    refine ⟨gone, ⟨?_, ?_, ?_⟩, ?_⟩
    · intro row hrow hrowg
      rcases Table.mem_update.mp hrow with ⟨old, hold, hp, rfl⟩ | ⟨hold, -⟩
      · rw [htaskId] at hrowg
        rw [hkept old hold hrowg] at hp
        cases hp
      · exact (hgone.lapsed row hold hrowg).mono hclock
    · intro row hrow hrowg hstatus
      rcases Table.mem_update.mp hrow with ⟨old, hold, hp, rfl⟩ | ⟨hold, -⟩
      · rw [htaskId] at hrowg
        rw [hkept old hold hrowg] at hp
        cases hp
      · obtain ⟨other, hother, hstays, hother', htype, hstarted⟩ :=
          hgone.later row hold hrowg hstatus
        cases hp : p other with
        | true =>
            refine ⟨change other, Table.mem_update.mpr (.inl ⟨other, hother, hp, rfl⟩), ?_⟩
            rw [htaskId, htaskType, hstartedAt]
            exact ⟨hstays, hcompleted other hother hp hother', htype, hstarted⟩
        | false =>
            exact ⟨other, Table.mem_update.mpr (.inr ⟨hother, hp⟩), hstays, hother', htype,
              hstarted⟩
    · intro taskId htask
      obtain ⟨row, hrow, rfl⟩ := hgone.known taskId htask
      cases hp : p row with
      | true => exact ⟨change row, Table.mem_update.mpr (.inl ⟨row, hrow, hp, rfl⟩), htaskId row⟩
      | false => exact ⟨row, Table.mem_update.mpr (.inr ⟨hrow, hp⟩), rfl⟩
    · rw [hrows]
      exact (Table.filter_update fun row _ => by rw [htaskId]).symm

/-- What shows no row that ended long ago shows the same of both tables. -/
theorem Pruned.filter_eq (hpruned : Pruned full small) (hclock : full.clock ≤ now)
    {shown : TaskProgress TaskType Data → Bool}
    (hshown : ∀ row, row.Timed → row.Lapsed now → shown row = false) :
    small.rows.filter shown = full.rows.filter shown := by
  obtain ⟨gone, hgone, hrows⟩ := hpruned.gone
  rw [hrows, List.filter_filter]
  refine List.filter_congr fun row hrow => ?_
  cases hrowg : gone row.taskId with
  | false => simp
  | true =>
      rw [hshown row (hpruned.timed row hrow) ((hgone.lapsed row hrow hrowg).mono hclock)]
      rfl

/-- The latest start of a completed task is not lost. -/
theorem Pruned.lastCompletedStartedAt_eq [DecidableEq TaskType] (hpruned : Pruned full small)
    (taskType : TaskType) :
    lastCompletedStartedAt small.rows taskType = lastCompletedStartedAt full.rows taskType := by
  obtain ⟨gone, hgone, hrows⟩ := hpruned.gone
  have hmem : ∀ time, time ∈ (small.rows.filter (TaskProgress.isCompleted taskType)).map
        TaskProgress.startedAt →
      time ∈ (full.rows.filter (TaskProgress.isCompleted taskType)).map
        TaskProgress.startedAt := by
    rw [hrows]
    exact fun time htime => (List.filter_sublist.filter _).map _ |>.subset htime
  have hreach : ∀ time, time ∈ (full.rows.filter (TaskProgress.isCompleted taskType)).map
        TaskProgress.startedAt →
      ∃ later ∈ (small.rows.filter (TaskProgress.isCompleted taskType)).map
        TaskProgress.startedAt, time ≤ later := by
    intro time htime
    obtain ⟨row, hrow, rfl⟩ := List.mem_map.mp htime
    obtain ⟨hrow, hcompleted⟩ := List.mem_filter.mp hrow
    obtain ⟨htype, hstatus⟩ : row.taskType = taskType ∧ row.status = .completed := by
      simpa [TaskProgress.isCompleted] using hcompleted
    cases hrowg : gone row.taskId with
    | false =>
        refine ⟨row.startedAt, List.mem_map_of_mem (List.mem_filter.mpr ⟨?_, hcompleted⟩), le_rfl⟩
        rw [hrows]
        exact List.mem_filter.mpr ⟨hrow, by rw [hrowg]; rfl⟩
    -- A pruned run has a later one of its type that was kept.
    | true =>
        obtain ⟨other, hother, hstays, hother', hsame, hle⟩ := hgone.later row hrow hrowg hstatus
        refine ⟨other.startedAt, List.mem_map_of_mem (List.mem_filter.mpr ⟨?_, ?_⟩), hle⟩
        · rw [hrows]
          exact List.mem_filter.mpr ⟨hother, by rw [hstays]; rfl⟩
        · simp [TaskProgress.isCompleted, hsame, htype, hother']
  unfold lastCompletedStartedAt
  cases hmax : ((full.rows.filter (TaskProgress.isCompleted taskType)).map
      TaskProgress.startedAt).max? with
  | none =>
      rw [List.max?_eq_none_iff] at hmax ⊢
      exact List.eq_nil_iff_forall_not_mem.mpr fun time htime => by
        have hthere := hmem time htime
        rw [hmax] at hthere
        cases hthere
  | some time =>
      rw [List.max?_eq_some_iff] at hmax ⊢
      obtain ⟨htime, hbound⟩ := hmax
      obtain ⟨later, hlater, hle⟩ := hreach time htime
      obtain rfl := le_antisymm hle (hbound later (hmem later hlater))
      exact ⟨hlater, fun other hother => hbound other (hmem other hother)⟩

/-- A completed row has a latest one of its type, which no prune takes. -/
theorem exists_latest (latest : LatestCompleted TaskType Data)
    {rows : List (TaskProgress TaskType Data)} {row : TaskProgress TaskType Data} (cutoff : Time)
    (hunique : Table.UniqueBy TaskProgress.taskId rows) (hrow : row ∈ rows)
    (hstatus : row.status = .completed) :
    ∃ other ∈ rows, isFinishedBefore rows latest cutoff other = false ∧
      other.status = .completed ∧ other.taskType = row.taskType ∧
      row.startedAt ≤ other.startedAt := by
  obtain ⟨other, hother, htype, hids⟩ := latest.each rows hunique row hrow hstatus
  obtain ⟨hcompleted, hlatest⟩ := latest.latest rows hunique other hother hids
  exact ⟨other, hother, by simp [isFinishedBefore, hids], hcompleted, htype,
    hlatest row hrow htype.symm hstatus⟩

/-- A prune takes rows that ended long ago, and leaves a latest one of each type. -/
theorem Pruned.prune (latest : LatestCompleted TaskType Data) (hpruned : Pruned full small)
    (hclock : full.clock ≤ now) :
    Pruned { rows := full.rows, clock := now }
      { rows := deleteFinishedBefore small.rows latest (now - PROGRESS_RETENTION)
        clock := now } where
  clock := rfl
  unique := hpruned.unique
  timed := hpruned.timed
  gone := by
    obtain ⟨gone, hgone, hrows⟩ := hpruned.gone
    let finished := isFinishedBefore small.rows latest (now - PROGRESS_RETENTION)
    let taken : String → Bool := fun taskId =>
      small.rows.any fun row => row.taskId = taskId && finished row
    have hkept : ∀ row ∈ full.rows, gone row.taskId = false → row ∈ small.rows := by
      intro row hrow hrowg
      rw [hrows]
      exact List.mem_filter.mpr ⟨hrow, by rw [hrowg]; rfl⟩
    have hsmall : ∀ row ∈ small.rows, row ∈ full.rows ∧ gone row.taskId = false := by
      intro row hrow
      rw [hrows] at hrow
      exact ⟨List.mem_of_mem_filter hrow, by simpa using (List.mem_filter.mp hrow).2⟩
    -- a task has one row, so it is taken if that row is
    have htaken : ∀ row ∈ small.rows, taken row.taskId = finished row := by
      intro row hrow
      refine Bool.eq_iff_iff.mpr ⟨fun hany => ?_, fun hfinished => ?_⟩
      · obtain ⟨other, hother, hsame⟩ := List.any_eq_true.mp hany
        obtain ⟨hid, hfinished⟩ := Bool.and_eq_true_iff.mp hsame
        obtain rfl := hpruned.unique.eq (hsmall other hother).1 (hsmall row hrow).1
          (of_decide_eq_true hid)
        exact hfinished
      · exact List.any_eq_true.mpr ⟨row, hrow, by simp [hfinished]⟩
    have hgoes : ∀ row ∈ full.rows, (gone row.taskId || taken row.taskId) = true →
        gone row.taskId = true ∨ row ∈ small.rows ∧ finished row = true := by
      intro row hrow hboth
      cases hrowg : gone row.taskId with
      | true => exact .inl rfl
      | false =>
          have hmem := hkept row hrow hrowg
          rw [hrowg, Bool.false_or, htaken row hmem] at hboth
          exact .inr ⟨hmem, hboth⟩
    -- What a reader looks for, the latest completed run of a type, is never among the rows taken.
    have hlatest : ∀ row ∈ small.rows, row.status = .completed →
        ∃ other ∈ full.rows, (gone other.taskId || taken other.taskId) = false ∧
          other.status = .completed ∧ other.taskType = row.taskType ∧
          row.startedAt ≤ other.startedAt := by
      intro row hrow hstatus
      have hunique : Table.UniqueBy TaskProgress.taskId small.rows := by
        rw [hrows]
        exact hpruned.unique.sublist (List.filter_sublist.map _)
      obtain ⟨other, hother, hstays, hrest⟩ := exists_latest latest (now - PROGRESS_RETENTION)
        hunique hrow hstatus
      exact ⟨other, (hsmall other hother).1,
        by rw [(hsmall other hother).2, Bool.false_or, htaken other hother]; exact hstays, hrest⟩
    refine ⟨fun taskId => gone taskId || taken taskId, ⟨?_, ?_, ?_⟩, ?_⟩
    · intro row hrow hboth
      rcases hgoes row hrow hboth with hrowg | ⟨-, hfinished⟩
      · exact (hgone.lapsed row hrow hrowg).mono hclock
      · simp only [finished, isFinishedBefore, Bool.and_eq_true, Bool.not_eq_true',
          decide_eq_true_eq] at hfinished
        exact ⟨hfinished.1.1, hfinished.1.2⟩
    · intro row hrow hboth hstatus
      rcases hgoes row hrow hboth with hrowg | ⟨hmem, -⟩
      · obtain ⟨other, hother, hstays, hcompleted, htype, hle⟩ :=
          hgone.later row hrow hrowg hstatus
        obtain ⟨last, hlast, hlastStays, hlastCompleted, hlastType, hlastLe⟩ :=
          hlatest other (hkept other hother hstays) hcompleted
        exact ⟨last, hlast, hlastStays, hlastCompleted, hlastType.trans htype,
          hle.trans hlastLe⟩
      · exact hlatest row hmem hstatus
    · intro taskId hboth
      rcases Bool.or_eq_true_iff.mp hboth with hgoneId | htakenId
      · exact hgone.known taskId hgoneId
      · obtain ⟨row, hrow, hsame⟩ := List.any_eq_true.mp htakenId
        exact ⟨row, (hsmall row hrow).1, by simpa using (Bool.and_eq_true_iff.mp hsame).1⟩
    · rw [deleteFinishedBefore, Table.delete, hrows, List.filter_filter]
      refine List.filter_congr fun row hrow => ?_
      rw [← hrows]
      change (!finished row && !gone row.taskId) = !(gone row.taskId || taken row.taskId)
      cases hrowg : gone row.taskId with
      | true => simp
      | false =>
          rw [htaken row (hkept row hrow hrowg), Bool.false_or, Bool.not_false, Bool.and_true]

/-- A task is written to both tables, or to neither. -/
theorem Pruned.upsert (hpruned : Pruned full small) (hclock : full.clock ≤ now)
    {task : TaskProgress TaskType Data}
    (hsettled : Settled full (now, .upsert task)) :
    Pruned { rows := upsert full.rows task, clock := now }
      { rows := upsert small.rows task, clock := now } := by
  obtain ⟨htimed, hwritten⟩ := hsettled
  obtain ⟨gone, hgone, hrows⟩ := hpruned.gone
  have hsame : small.rows.any (fun row => row.taskId = task.taskId) =
      full.rows.any (fun row => row.taskId = task.taskId) := by
    refine Bool.eq_iff_iff.mpr ⟨fun hany => ?_, fun hany => ?_⟩
    · obtain ⟨row, hrow, hid⟩ := List.any_eq_true.mp hany
      rw [hrows] at hrow
      exact List.any_eq_true.mpr ⟨row, List.mem_of_mem_filter hrow, hid⟩
    · obtain ⟨row, hrow, hid⟩ := List.any_eq_true.mp hany
      refine List.any_eq_true.mpr ⟨row, ?_, hid⟩
      rw [hrows]
      refine List.mem_filter.mpr ⟨hrow, ?_⟩
      cases hrowg : gone row.taskId with
      | false => rfl
      | true =>
          have hlapsed := (hgone.lapsed row hrow hrowg).mono hclock
          exact absurd hlapsed (hwritten row hrow (of_decide_eq_true hid)).1
  unfold RetroStation.Progress.upsert
  rw [hsame]
  split
  next hany =>
    refine hpruned.update hclock (fun _ => rfl) (fun _ => rfl) (fun _ => rfl)
      (fun _ _ _ => htimed) (fun row hrow hlapsed => ?_) fun row hrow hid hstatus => ?_
    · exact decide_eq_false fun hid => (hwritten row hrow hid).1 hlapsed
    · exact (hwritten row hrow (of_decide_eq_true hid)).2 hstatus
  next hnone =>
    have hnew : ∀ row ∈ full.rows, row.taskId ≠ task.taskId := fun row hrow hid =>
      hnone (List.any_eq_true.mpr ⟨row, hrow, decide_eq_true hid⟩)
    have hstays : gone task.taskId = false := by
      cases htask : gone task.taskId with
      | false => rfl
      | true =>
          obtain ⟨row, hrow, hid⟩ := hgone.known task.taskId htask
          exact absurd hid (hnew row hrow)
    refine ⟨rfl, hpruned.unique.append hnew, ?_, gone, ⟨?_, ?_, ?_⟩, ?_⟩
    · intro row hrow
      rcases List.mem_append.mp hrow with hrow | hrow
      · exact hpruned.timed row hrow
      · obtain rfl := List.mem_singleton.mp hrow
        exact htimed
    · intro row hrow hrowg
      rcases List.mem_append.mp hrow with hrow | hrow
      · exact (hgone.lapsed row hrow hrowg).mono hclock
      · obtain rfl := List.mem_singleton.mp hrow
        rw [hstays] at hrowg
        cases hrowg
    · intro row hrow hrowg hstatus
      rcases List.mem_append.mp hrow with hrow | hrow
      · obtain ⟨other, hother, hrest⟩ := hgone.later row hrow hrowg hstatus
        exact ⟨other, List.mem_append_left _ hother, hrest⟩
      · obtain rfl := List.mem_singleton.mp hrow
        rw [hstays] at hrowg
        cases hrowg
    · intro taskId hid
      obtain ⟨row, hrow, hsame⟩ := hgone.known taskId hid
      exact ⟨row, List.mem_append_left _ hrow, hsame⟩
    · rw [List.filter_append, hrows]
      simp [hstays]

/-- Both reapers fail the stale rows, and only these. -/
theorem Pruned.reap (hpruned : Pruned full small) (hclock : full.clock ≤ now) :
    Pruned { rows := reapStale full.rows now, clock := now }
      { rows := reapStale small.rows now, clock := now } := by
  refine hpruned.update hclock (fun _ => rfl) (fun _ => rfl) (fun _ => rfl)
    (fun row _ hstale => ?_) (fun _ _ hlapsed => hlapsed.not_stale)
    fun _ _ hstale hstatus => absurd hstatus (not_completed_of_isStale hstale)
  rintro completedAt hcompleted
  obtain rfl := Option.some.inj hcompleted
  have hearly : row.updatedAt < now - STALE_THRESHOLD :=
    of_decide_eq_true (Bool.and_eq_true_iff.mp hstale).2
  exact (hearly.trans (Int.sub_lt_self now (by decide))).le

theorem Pruned.markStale (hpruned : Pruned full small) (hclock : full.clock ≤ now) :
    Pruned { rows := markStaleAsFailed full.rows now, clock := now }
      { rows := markStaleAsFailed small.rows now, clock := now } :=
  hpruned.update hclock (fun _ => rfl) (fun _ => rfl) (fun _ => rfl)
    (fun row hrow _ => hpruned.timed row hrow) (fun _ _ hlapsed => hlapsed.not_stale)
    fun _ _ hstale hstatus => absurd hstatus (not_completed_of_isStale hstale)

/-- A matching run's row is written while it runs or was reaped. -/
theorem Pruned.matchingRun (hpruned : Pruned full small) (hclock : full.clock ≤ now)
    {taskId : String} {change : Data → Data} {ends : Data → Bool}
    (hsettled : Settled full (now, .matchingRun taskId change ends)) :
    Pruned { rows := writeMatchingRun full.rows now taskId change ends, clock := now }
      { rows := writeMatchingRun small.rows now taskId change ends, clock := now } := by
  refine hpruned.update hclock (fun _ => rfl) (fun _ => rfl) (fun _ => rfl)
    (fun row _ _ completedAt hcompleted => ?_) (fun row hrow hlapsed => ?_)
    fun row _ hp hstatus => ?_
  · obtain ⟨-, hnow⟩ := Option.ite_none_right_eq_some.mp hcompleted
    exact (Option.some.inj hnow).le
  · refine Bool.eq_false_iff.mpr fun hp => ?_
    simp only [Bool.and_eq_true, decide_eq_true_eq, Bool.or_eq_true] at hp
    rcases hsettled row hrow hp.1 with hcompleted | hopen
    · rcases hp.2 with hrunning | hfailed
      · rw [hcompleted] at hrunning
        cases hrunning
      · rw [hcompleted] at hfailed
        cases hfailed
    · exact hopen hlapsed
  · simp [hstatus] at hp

variable [DecidableEq TaskType] (merge : Data → Data → Data)
  (latest : LatestCompleted TaskType Data)

/-- Every statement answers the same of both tables, and keeps the one the other pruned. -/
theorem Pruned.execute (hpruned : Pruned full small) (hclock : full.clock ≤ now)
    (statement : Statement TaskType Data) (hsettled : Settled full (now, statement)) :
    let kept := execute merge (fun rows => rows) now full.rows statement
    let left := execute merge
      (fun rows => deleteFinishedBefore rows latest (now - PROGRESS_RETENTION)) now small.rows
      statement
    Pruned { rows := kept.1, clock := now } { rows := left.1, clock := now } ∧
      left.2 = kept.2 := by
  have hsame := hpruned.wait hclock
  cases statement with
  | upsert task => exact ⟨hpruned.upsert hclock hsettled, rfl⟩
  | touchRunning taskId overlay =>
      refine ⟨hpruned.update hclock (fun _ => rfl) (fun _ => rfl) (fun _ => rfl)
        (fun _ _ _ => nofun) (fun row hrow hlapsed => ?_) fun row hrow hid hstatus => ?_, rfl⟩
      · exact decide_eq_false fun hid => (hsettled row hrow hid).1 hlapsed
      · exact absurd hstatus (hsettled row hrow (of_decide_eq_true hid)).2
  | matchingRun taskId change ends => exact ⟨hpruned.matchingRun hclock hsettled, rfl⟩
  | markStaleAsFailed => exact ⟨hpruned.markStale hclock, rfl⟩
  | deleteFinishedBefore => exact ⟨hpruned.prune latest hclock, rfl⟩
  | reapStale => exact ⟨hpruned.reap hclock, rfl⟩
  | readFeed =>
      exact ⟨hsame, congrArg (Reply.rows ∘ newestFirst)
        (hpruned.filter_eq hclock fun _ _ hlapsed => hlapsed.not_shown)⟩
  | getActiveTasks =>
      exact ⟨hsame, congrArg (Reply.rows ∘ newestFirst)
        (hpruned.filter_eq hclock fun _ htimed hlapsed => hlapsed.not_active htimed)⟩
  | listRunning =>
      exact ⟨hsame, congrArg (Reply.rows ∘ newestFirst)
        (hpruned.filter_eq hclock fun _ _ hlapsed => hlapsed.1)⟩
  | lastCompletedStartedAt taskType =>
      exact ⟨hsame, congrArg Reply.startedAt (hpruned.lastCompletedStartedAt_eq taskType)⟩

theorem Pruned.step {next : Tracking TaskType Data} {action : Time × Statement TaskType Data}
    {reply : Reply TaskType Data} (hpruned : Pruned full small) (hsettled : Settled full action)
    (hstep : (unpruned merge).step full action = some (next, reply)) :
    ∃ later, (pruned merge latest).step small action = some (later, reply) ∧
      Pruned next later := by
  obtain ⟨now, statement⟩ := action
  simp only [unpruned, tracking, Option.ite_none_right_eq_some, Option.some.injEq,
    Prod.mk.injEq] at hstep
  obtain ⟨hclock, rfl, rfl⟩ := hstep
  obtain ⟨hnext, hreply⟩ := hpruned.execute merge latest hclock statement hsettled
  refine ⟨_, ?_, hnext⟩
  simp only [pruned, tracking, hpruned.clock, hclock, if_true, hreply]

end

/-- A prune leaves the running rows, those that ended within two weeks, and of each type at
most one older row, which is a latest completed one. -/
structure PruneLeaves (now : Time) (before after : List (TaskProgress TaskType Data)) :
    Prop where
  sublist : after.Sublist before
  running : ∀ row ∈ before, row.isRunning = true → row ∈ after
  recent : ∀ row ∈ before, now - PROGRESS_RETENTION ≤ row.ended → row ∈ after
  old : ∀ row ∈ after, row.Lapsed now → row.status = .completed ∧
    ∀ other ∈ before, other.taskType = row.taskType → other.status = .completed →
      other.startedAt ≤ row.startedAt
  one : ∀ row ∈ after, ∀ other ∈ after, row.Lapsed now → other.Lapsed now →
    row.taskType = other.taskType → row = other

theorem deleteFinishedBefore_leaves (latest : LatestCompleted TaskType Data) (now : Time)
    {rows : List (TaskProgress TaskType Data)}
    (hunique : Table.UniqueBy TaskProgress.taskId rows) :
    PruneLeaves now rows (deleteFinishedBefore rows latest (now - PROGRESS_RETENTION)) := by
  have hkept : ∀ row ∈ deleteFinishedBefore rows latest (now - PROGRESS_RETENTION),
      row.Lapsed now → row ∈ rows ∧ row.taskId ∈ latest.ids rows := by
    intro row hrow hlapsed
    obtain ⟨hmem, hstays⟩ := Table.mem_delete.mp hrow
    refine ⟨hmem, ?_⟩
    have hended : row.ended < now - PROGRESS_RETENTION := hlapsed.2
    simpa [isFinishedBefore, hlapsed.1, hended] using hstays
  exact
    { sublist := List.filter_sublist
      running := fun row hrow hrunning =>
        Table.mem_delete.mpr ⟨hrow, by simp [isFinishedBefore, hrunning]⟩
      recent := fun row hrow hrecent =>
        Table.mem_delete.mpr ⟨hrow, by simp [isFinishedBefore, not_lt.mpr hrecent]⟩
      old := fun row hrow hlapsed =>
        latest.latest rows hunique row (hkept row hrow hlapsed).1 (hkept row hrow hlapsed).2
      one := fun row hrow other hother hlapsed hlapsed' =>
        latest.one rows hunique row (hkept row hrow hlapsed).1 other (hkept other hother hlapsed').1
          (hkept row hrow hlapsed).2 (hkept other hother hlapsed').2 }

/-- Whatever is read of the progress rows, by a feed, a list or a watermark, is what would be
read had nothing ever been pruned, and each prune leaves hardly anything older than two
weeks. -/
theorem pruning_unseen [DecidableEq TaskType] (merge : Data → Data → Data)
    (latest : LatestCompleted TaskType Data)
    {trace : List ((Time × Statement TaskType Data) × Reply TaskType Data)}
    {full : Tracking TaskType Data} (hrun : (unpruned merge).Run {} trace full)
    (hsettled : (unpruned merge).Meets Settled {} trace) :
    ∃ small, (pruned merge latest).Run {} trace small ∧ small.rows.Sublist full.rows ∧
      ∀ now, PruneLeaves now small.rows
        (deleteFinishedBefore small.rows latest (now - PROGRESS_RETENTION)) := by
  have hstart : Pruned ({} : Tracking TaskType Data) {} :=
    ⟨rfl, List.nodup_nil, nofun, fun _ => false, ⟨nofun, nofun, nofun⟩, rfl⟩
  -- The pruned table follows the unpruned one, answer by answer.
  obtain ⟨small, hsmall, hpruned⟩ := hrun.simulate
    (fun _ _ _ _ _ hpruned hmet hstep => hpruned.step merge latest hmet hstep) hstart hsettled
  obtain ⟨gone, -, hrows⟩ := hpruned.gone
  have hsublist : small.rows.Sublist full.rows := hrows ▸ List.filter_sublist
  exact ⟨small, hsmall, hsublist, fun now =>
    deleteFinishedBefore_leaves latest now (hpruned.unique.sublist (hsublist.map _))⟩

/-! A table with ties broken by its own order, and a run with a prune. -/

theorem find?_first {rows : List (TaskProgress TaskType Data)}
    {p : TaskProgress TaskType Data → Bool} {first other : TaskProgress TaskType Data}
    (hsorted : rows.Pairwise fun row later => row.startedAt ≥ later.startedAt)
    (hfirst : rows.find? p = some first) (hother : other ∈ rows) (hp : p other = true) :
    other.startedAt ≤ first.startedAt := by
  induction rows with
  | nil => cases hother
  | cons head rest ih =>
      obtain ⟨hhead, hrest⟩ := List.pairwise_cons.mp hsorted
      cases hfound : p head with
      | true =>
          rw [List.find?_cons_of_pos hfound] at hfirst
          obtain rfl := Option.some.inj hfirst
          rcases List.mem_cons.mp hother with rfl | hlater
          · exact le_rfl
          · exact hhead other hlater
      | false =>
          rw [List.find?_cons_of_neg (by rw [hfound]; exact Bool.false_ne_true)] at hfirst
          rcases List.mem_cons.mp hother with rfl | hlater
          · rw [hfound] at hp
            cases hp
          · exact ih hrest hfirst hlater

def latestRows [DecidableEq TaskType] (rows : List (TaskProgress TaskType Data)) :
    List (TaskProgress TaskType Data) :=
  Firsts.firsts TaskProgress.taskType
    (newestFirst (rows.filter fun row => row.status = .completed))

theorem mem_newest [DecidableEq TaskType] {rows : List (TaskProgress TaskType Data)}
    {row : TaskProgress TaskType Data} :
    row ∈ newestFirst (rows.filter fun row => row.status = .completed) ↔
      row ∈ rows ∧ row.status = .completed := by
  rw [newestFirst, List.mem_insertionSort, List.mem_filter, decide_eq_true_eq]

theorem mem_of_latestRows [DecidableEq TaskType] {rows : List (TaskProgress TaskType Data)}
    {row : TaskProgress TaskType Data} (hrow : row ∈ latestRows rows) :
    row ∈ rows ∧ row.status = .completed :=
  mem_newest.mp (Firsts.firsts_sublist.subset hrow)

/-- `DISTINCT ON`, with ties broken by the order of the table. -/
def firstLatest [DecidableEq TaskType] : LatestCompleted TaskType Data where
  ids rows := (latestRows rows).map TaskProgress.taskId
  latest rows hunique row hrow hid := by
    obtain ⟨kept, hkept, hsame⟩ := List.mem_map.mp hid
    obtain ⟨hmem, hstatus⟩ := mem_of_latestRows hkept
    obtain rfl := hunique.eq hmem hrow hsame
    refine ⟨hstatus, fun other hother htype hcompleted => ?_⟩
    have hnewest := mem_newest.mpr ⟨hother, hcompleted⟩
    obtain ⟨first, hfirst, hfirstKept, hfirstType⟩ :=
      @Firsts.exists_first _ _ _ TaskProgress.taskType _ _ hnewest
    obtain rfl := List.inj_on_of_nodup_map Firsts.nodup_firsts hfirstKept hkept
      (hfirstType.trans htype)
    exact find?_first (List.pairwise_insertionSort _ _) hfirst hnewest (by simp)
  each rows hunique row hrow hcompleted := by
    obtain ⟨first, -, hkept, htype⟩ :=
      @Firsts.exists_first _ _ _ TaskProgress.taskType _ _ (mem_newest.mpr ⟨hrow, hcompleted⟩)
    exact ⟨first, (mem_of_latestRows hkept).1, htype, List.mem_map_of_mem hkept⟩
  one rows hunique row hrow other hother hid hotherId htype := by
    obtain ⟨kept, hkept, hsame⟩ := List.mem_map.mp hid
    obtain ⟨keptOther, hkeptOther, hsameOther⟩ := List.mem_map.mp hotherId
    obtain rfl := hunique.eq (mem_of_latestRows hkept).1 hrow hsame
    obtain rfl := hunique.eq (mem_of_latestRows hkeptOther).1 hother hsameOther
    exact List.inj_on_of_nodup_map Firsts.nodup_firsts hkept hkeptOther htype

def oldTask (taskId : String) (time : Time) : TaskProgress Unit Unit :=
  ⟨taskId, (), .completed, (), time, time, some time⟩

/-- Two old runs, a prune, and the watermark. -/
def oldTrace : List ((Time × Statement Unit Unit) × Reply Unit Unit) :=
  [((0, .upsert (oldTask "first" 0)), .done), ((1, .upsert (oldTask "second" 1)), .done),
    ((PROGRESS_RETENTION + 2, .deleteFinishedBefore), .done),
    ((PROGRESS_RETENTION + 2, .lastCompletedStartedAt ()), .startedAt (some 1))]

def oldRows : Tracking Unit Unit :=
  ⟨[oldTask "first" 0, oldTask "second" 1], PROGRESS_RETENTION + 2⟩

theorem oldTrace_run : (unpruned fun _ overlay => overlay).Run {} oldTrace oldRows :=
  Machine.run_of_exec (show (unpruned fun _ overlay => overlay).exec {} (oldTrace.map Prod.fst) =
    some (oldTrace, oldRows) from rfl)

theorem oldTask_timed (taskId : String) (time : Time) : (oldTask taskId time).Timed :=
  fun _ hcompleted => (Option.some.inj hcompleted).le

theorem oldTrace_settled : (unpruned fun _ overlay => overlay).Meets Settled {} oldTrace :=
  .cons ⟨oldTask_timed "first" 0, nofun⟩ rfl
    (.cons ⟨oldTask_timed "second" 1, fun row hrow hsame => by
        obtain rfl := List.mem_singleton.mp hrow
        exact absurd hsame (by decide)⟩ rfl
      (.cons trivial rfl (.cons trivial rfl .nil)))

theorem pruning_unseen_watermark : ∃ small : Tracking Unit Unit,
    (pruned (fun _ overlay => overlay) firstLatest).Run {} oldTrace small ∧
    small.rows.Sublist oldRows.rows ∧
    ∀ now, PruneLeaves now small.rows
      (deleteFinishedBefore small.rows firstLatest (now - PROGRESS_RETENTION)) :=
  pruning_unseen (fun _ overlay => overlay) firstLatest oldTrace_run oldTrace_settled

end RetroStation.Progress
