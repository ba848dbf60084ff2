import Mathlib.Algebra.BigOperators.Ring.Finset
import Mathlib.Algebra.Order.BigOperators.Group.Finset
import Mathlib.Tactic.Ring
import RetroStation.Transition.Run

/-! # The matching run's progress row

A re-check opens one row for its playlists and queues an artist stage for each; an artist
stage hands its chain on to an identity stage. The row is shared by all of them: it counts
the stages left, and the stage that finds none left closes it. Every chain is counted once,
and the row is complete when the last chain has ended, exactly as long as no stage raises
after it has handed its chain on (`truthful_iff`).
-/

namespace RetroStation.Matching.RunProgress

open Transition Finset

inductive TaskStatus
  | running
  | completed
  | failed
  deriving DecidableEq

/-- The row's `progress_data` and status. -/
structure Row where
  total : Int
  processed : Int
  stagesLeft : Int
  stagesFailed : Int
  warning : Option String
  status : TaskStatus
  deriving DecidableEq

def stagesFailedWarning : String := "matching_stages_failed"

/-- A completed row is written no more. -/
def Row.live (row : Row) : Bool := row.status ≠ .completed

/-- `_COUNTED_CTE`: the new total and the new processed count. -/
def counted (row : Row) : Option Nat → Int × Int
  | none => (row.total, row.processed)
  | some pending =>
    (max row.total (row.processed + pending), max row.total (row.processed + pending) - pending)

/-- `_REFRESH_SQL`. -/
def refresh (row : Row) (pending : Nat) : Row :=
  if row.live then
    { row with
      total := (counted row (some pending)).1
      processed := (counted row (some pending)).2
      status := .running }
  else row

/-- `_FINISH_STAGE_SQL`. -/
def finishStage (row : Row) (pending : Option Nat) (failed : Bool) : Row :=
  if row.live then
    let left := row.stagesLeft - 1
    let failures := row.stagesFailed + if failed then 1 else 0
    { total := (counted row pending).1
      processed := (counted row pending).2
      stagesLeft := left
      stagesFailed := failures
      warning := if left ≤ 0 ∧ failures > 0 then some stagesFailedWarning else row.warning
      status := if left ≤ 0 then .completed else .running }
  else row

/-- `PgMatchingRunRepository.open`. -/
def openRow (total : Option Nat) (stages : Nat) : Row :=
  ⟨total.getD 0, 0, stages, 0, none, .running⟩

/-- A stage's own count: what was pending at its start, and what it has settled since. -/
structure StageProgress where
  startCount : Option Nat
  settled : Nat

def StageProgress.estimate (progress : StageProgress) : Option Nat :=
  progress.startCount.map (· - progress.settled)

/-- The count a stage finishes with: a fresh one, or its estimate. -/
def StageProgress.last (progress : StageProgress) (fresh : Option Nat) : Option Nat :=
  fresh.or progress.estimate

inductive Stage
  | unqueued
  | queued
  | running (progress : StageProgress)
  | handedOn (progress : StageProgress)
  | ended

/-- One playlist's chain: its two stages, how it ended, and how often the row has counted it,
as finished and as failed. -/
structure Chain where
  artist : Stage
  identity : Stage
  ending : Option Bool
  finishes : Nat
  failures : Nat

def Chain.unqueued : Chain := ⟨.unqueued, .unqueued, none, 0, 0⟩

def Chain.queued : Chain := ⟨.queued, .unqueued, none, 0, 0⟩

/-- A chain whose artist stage the fan-out could not queue, or never tried to. -/
def Chain.neverQueued : Chain := ⟨.ended, .unqueued, some true, 0, 0⟩

/-- The re-check's fan-out: it queues its stages in turn, or ends those it has not accounted
for, with one count for all of them. -/
inductive FanOut
  | queuing (accounted : Nat)
  | closing (accounted : Nat) (pending : Option Nat)
  | done

structure State where
  row : Row
  chains : Nat → Chain
  fanOut : FanOut

inductive Which
  | artist
  | identity

def Chain.stage (chain : Chain) : Which → Stage
  | .artist => chain.artist
  | .identity => chain.identity

def Chain.setStage (chain : Chain) (which : Which) (stage : Stage) : Chain :=
  match which with
  | .artist => { chain with artist := stage }
  | .identity => { chain with identity := stage }

namespace State

def setChain (state : State) (index : Nat) (chain : Chain) : State :=
  { state with chains := Function.update state.chains index chain }

def refreshed (state : State) (pending : Option Nat) : State :=
  match pending with
  | none => state
  | some pending => { state with row := refresh state.row pending }

/-- A stage of the chain reports its end to the row. -/
def finished (state : State) (index : Nat) (chain : Chain) (pending : Option Nat)
    (failed : Bool) : State :=
  { state with
    row := finishStage state.row pending failed
    chains := Function.update state.chains index
      { chain with
        finishes := chain.finishes + if state.row.live then 1 else 0
        failures := chain.failures + if state.row.live && failed then 1 else 0 } }

end State

/-- What the world decides: the order of the steps, the counts, and how each step goes. -/
inductive Action
  | queue
  | refused (fresh : Option Nat)
  | stop (fresh : Option Nat)
  | close
  | start (index : Nat) (which : Which) (count : Option Nat)
  | tick (index : Nat) (which : Which) (written : Bool)
  | handOn (index : Nat)
  | handOffRefused (index : Nat) (fresh : Option Nat)
  | leave (index : Nat)
  | raises (index : Nat) (which : Which) (fresh : Option Nat)
  | succeeds (index : Nat) (fresh : Option Nat)
  | reap

/-- The re-check's fan-out over its `stages` playlists. -/
def fanOutStep (stages : Nat) (state : State) : Action → Option State
  | .queue =>
    match state.fanOut with
    | .queuing accounted =>
      if accounted < stages then
        some { state.setChain accounted .queued with fanOut := .queuing (accounted + 1) }
      else none
    | _ => none
  | .refused fresh =>
    match state.fanOut with
    | .queuing accounted =>
      if accounted < stages then
        some { state.finished accounted .neverQueued fresh true with
          fanOut := .queuing (accounted + 1) }
      else none
    | _ => none
  -- the block ends, by an error or at the end of the list
  | .stop fresh =>
    match state.fanOut with
    | .queuing accounted => some { state with fanOut := .closing accounted fresh }
    | _ => none
  | .close =>
    match state.fanOut with
    | .closing accounted pending =>
      if accounted < stages then
        some { state.finished accounted .neverQueued pending true with
          fanOut := .closing (accounted + 1) pending }
      else some { state with fanOut := .done }
    | _ => none
  | _ => none

/-- The stages of one chain, each in its `matching_stage`. -/
def stageStep (state : State) : Action → Option State
  | .start index which count =>
    match (state.chains index).stage which with
    | .queued =>
      some ((state.refreshed count).setChain index
        ((state.chains index).setStage which (.running ⟨count, 0⟩)))
    | _ => none
  | .tick index which written =>
    match (state.chains index).stage which with
    | .running progress =>
      let ticked : StageProgress := { progress with settled := progress.settled + 1 }
      some ((if written then state.refreshed ticked.estimate else state).setChain index
        ((state.chains index).setStage which (.running ticked)))
    | _ => none
  | .handOn index =>
    match (state.chains index).artist with
    | .running progress =>
      some (state.setChain index
        { state.chains index with artist := .handedOn progress, identity := .queued })
    | _ => none
  | .handOffRefused index fresh =>
    match (state.chains index).artist with
    | .running progress =>
      some (state.finished index { state.chains index with artist := .ended, ending := some true }
        (progress.last fresh) true)
    | _ => none
  | .leave index =>
    match (state.chains index).artist with
    | .handedOn _ => some (state.setChain index { state.chains index with artist := .ended })
    | _ => none
  | .raises index which fresh =>
    match (state.chains index).stage which with
    | .running progress =>
      some (state.finished index
        { (state.chains index).setStage which .ended with ending := some true }
        (progress.last fresh) true)
    -- the chain goes on in its identity stage, and this one reports it finished
    | .handedOn progress =>
      some (state.finished index ((state.chains index).setStage which .ended)
        (progress.last fresh) true)
    | _ => none
  | .succeeds index fresh =>
    match (state.chains index).identity with
    | .running progress =>
      some (state.finished index
        { state.chains index with identity := .ended, ending := some false }
        (progress.last fresh) false)
    | _ => none
  | .reap =>
    if state.row.status = .running then
      some { state with row := { state.row with status := .failed } }
    else none
  | _ => none

def matchingRun (stages : Nat) : Machine State Action Unit where
  step state action :=
    ((fanOutStep stages state action).or (stageStep state action)).map (·, ())

/-- The run as the re-check opens it. -/
def opened (total : Option Nat) (stages : Nat) : State :=
  ⟨openRow total stages, fun _ => .unqueued, .queuing 0⟩

/-! ## The row -/

/-- What was settled is part of the total. -/
structure Row.Bounded (row : Row) : Prop where
  nonneg : 0 ≤ row.processed
  le_total : row.processed ≤ row.total

/-- A write that ends no stage. -/
structure Kept (row next : Row) : Prop where
  left : next.stagesLeft = row.stagesLeft
  failed : next.stagesFailed = row.stagesFailed
  live : next.live = row.live
  total : row.total ≤ next.total
  bounded : row.Bounded → next.Bounded

theorem kept_refl (row : Row) : Kept row row :=
  ⟨rfl, rfl, rfl, le_refl _, fun hbounded => hbounded⟩

theorem total_le_counted (row : Row) (pending : Option Nat) :
    row.total ≤ (counted row pending).1 := by
  cases pending with
  | none => exact le_refl _
  | some pending => exact le_max_left _ _

theorem bounded_counted {row : Row} (hbounded : row.Bounded) (pending : Option Nat) :
    0 ≤ (counted row pending).2 ∧ (counted row pending).2 ≤ (counted row pending).1 := by
  cases pending with
  | none => exact ⟨hbounded.nonneg, hbounded.le_total⟩
  | some pending =>
      have hnonneg := hbounded.nonneg
      simp only [counted]
      omega

theorem kept_refresh (row : Row) (pending : Nat) : Kept row (refresh row pending) := by
  unfold refresh
  split
  next hlive =>
    refine ⟨rfl, rfl, ?_, total_le_counted row _, fun hbounded => ?_⟩
    · simpa [Row.live] using hlive
    · exact ⟨(bounded_counted hbounded _).1, (bounded_counted hbounded _).2⟩
  · exact kept_refl row

theorem kept_reap {row : Row} (hrunning : row.status = .running) :
    Kept row { row with status := .failed } :=
  ⟨rfl, rfl, by simp [Row.live, hrunning], le_refl _, fun hbounded => ⟨hbounded.1, hbounded.2⟩⟩

theorem kept_refreshed (state : State) (pending : Option Nat) :
    Kept state.row (state.refreshed pending).row := by
  cases pending with
  | none => exact kept_refl _
  | some pending => exact kept_refresh _ _

theorem finishStage_total (row : Row) (pending : Option Nat) (failed : Bool) :
    row.total ≤ (finishStage row pending failed).total := by
  unfold finishStage
  split
  · exact total_le_counted row pending
  · exact le_refl _

theorem finishStage_bounded {row : Row} (hbounded : row.Bounded) (pending : Option Nat)
    (failed : Bool) : (finishStage row pending failed).Bounded := by
  unfold finishStage
  split
  · exact ⟨(bounded_counted hbounded pending).1, (bounded_counted hbounded pending).2⟩
  · exact hbounded

/-! ## What a step does -/

/-- How many stages the fan-out has accounted for. -/
def FanOut.accounted (stages : Nat) : FanOut → Nat
  | .queuing accounted => accounted
  | .closing accounted _ => accounted
  | .done => stages

/-- A chain ends in its last stage: one that still has a stage to run has not ended. -/
structure Chain.Ordered (chain : Chain) : Prop where
  artist : ∀ progress, chain.artist = .queued ∨ chain.artist = .running progress →
    chain.identity = .unqueued ∧ chain.ending = none
  identity : ∀ progress, chain.identity = .queued ∨ chain.identity = .running progress →
    chain.ending = none

/-- The two tallies of a chain are as before. -/
def Chain.SameTally (chain next : Chain) : Prop :=
  next.ending = chain.ending ∧ next.finishes = chain.finishes ∧ next.failures = chain.failures

/-- A stage of the chain is counted by a live row. -/
structure Chain.Counted (chain next : Chain) (live failed : Bool) : Prop where
  finishes : next.finishes = chain.finishes + if live then 1 else 0
  failures : next.failures = chain.failures + if live && failed then 1 else 0

/-- A stage raises that has handed its chain on. -/
def Late (state : State) : Action → Prop
  | .raises index which _ => ∃ progress, (state.chains index).stage which = .handedOn progress
  | _ => False

/-- What a step does to the chains and to the row. -/
inductive Moved (state next : State) (action : Action) : Prop
  | idle (hearly : ¬ Late state action) (hchains : next.chains = state.chains)
      (hrow : Kept state.row next.row)
  | advances (index : Nat) (chain : Chain) (hearly : ¬ Late state action)
      (hchains : next.chains = Function.update state.chains index chain)
      (htally : (state.chains index).SameTally chain) (hrow : Kept state.row next.row)
  | ends (index : Nat) (chain : Chain) (pending : Option Nat) (failed : Bool)
      (hearly : ¬ Late state action)
      (hchains : next.chains = Function.update state.chains index chain)
      (hcounted : (state.chains index).Counted chain state.row.live failed)
      (hrow : next.row = finishStage state.row pending failed)
      (hopen : (state.chains index).ending = none) (hending : chain.ending = some failed)
  | raisesLate (index : Nat) (chain : Chain) (pending : Option Nat) (hlate : Late state action)
      (htouched : state.chains index ≠ .unqueued)
      (hchains : next.chains = Function.update state.chains index chain)
      (hcounted : (state.chains index).Counted chain state.row.live true)
      (hrow : next.row = finishStage state.row pending true)
      (hending : chain.ending = (state.chains index).ending)

/-- The shape every state of a run has, whatever the row counts. -/
structure Shape (stages : Nat) (state : State) : Prop where
  ordered : ∀ index, (state.chains index).Ordered
  accounted : state.fanOut.accounted stages ≤ stages
  unqueued : ∀ index, state.fanOut.accounted stages ≤ index → state.chains index = .unqueued

theorem ordered_unqueued : Chain.unqueued.Ordered :=
  ⟨fun _ h => by simp [Chain.unqueued] at h, fun _ h => by simp [Chain.unqueued] at h⟩

/-- A step on one chain the fan-out has accounted for. -/
theorem shape_update {stages : Nat} {state next : State} {index : Nat} {chain : Chain}
    (hshape : Shape stages state)
    (hchains : next.chains = Function.update state.chains index chain) (hordered : chain.Ordered)
    (hgrows : state.fanOut.accounted stages ≤ next.fanOut.accounted stages)
    (hle : next.fanOut.accounted stages ≤ stages)
    (hindex : index < next.fanOut.accounted stages) : Shape stages next where
  ordered other := by
    rw [hchains]
    by_cases hsame : other = index
    · subst hsame
      rwa [Function.update_self]
    · rw [Function.update_of_ne hsame]
      exact hshape.ordered other
  accounted := hle
  unqueued other hother := by
    rw [hchains, Function.update_of_ne (by omega)]
    exact hshape.unqueued other (by omega)

/-- The report of a stage that ends its chain. -/
theorem moved_finished {state : State} {action : Action} {index : Nat} {chain : Chain}
    {failed : Bool} {fanOut : FanOut} (pending : Option Nat) (hearly : ¬ Late state action)
    (hfinishes : chain.finishes = (state.chains index).finishes)
    (hfailures : chain.failures = (state.chains index).failures)
    (hopen : (state.chains index).ending = none) (hending : chain.ending = some failed) :
    Moved state { state.finished index chain pending failed with fanOut := fanOut } action := by
  refine .ends index _ pending failed hearly rfl ⟨?_, ?_⟩ rfl hopen hending
  · rw [← hfinishes]
  · rw [← hfailures]

theorem fanOutStep_moved {stages : Nat} {state next : State} {action : Action}
    (hshape : Shape stages state) (hstep : fanOutStep stages state action = some next) :
    Moved state next action ∧ Shape stages next := by
  have haccounted := hshape.accounted
  have hunqueued := hshape.unqueued
  revert hstep
  fun_cases fanOutStep stages state action
  all_goals
    intro hstep
    cases hstep
  case case1.refl accounted hfan hlt =>
    rw [hfan] at hunqueued
    have hchain := hunqueued accounted (le_refl _)
    refine ⟨.advances accounted .queued (fun h => h) rfl (by rw [hchain]; exact ⟨rfl, rfl, rfl⟩)
      (kept_refl _), ?_⟩
    refine shape_update hshape rfl ⟨fun _ _ => ⟨rfl, rfl⟩, fun _ _ => rfl⟩ ?_ hlt
      (Nat.lt_succ_self _)
    rw [hfan]
    exact Nat.le_succ _
  -- The queue refused this chain: it ends at once, counted as failed.
  case case4.refl fresh accounted hfan hlt =>
    rw [hfan] at hunqueued
    have hchain := hunqueued accounted (le_refl _)
    refine ⟨moved_finished fresh (fun h => h) ?_ ?_ ?_ rfl, ?_⟩
    · rw [hchain]; rfl
    · rw [hchain]; rfl
    · rw [hchain]; rfl
    refine shape_update hshape rfl ⟨by simp [Chain.neverQueued], by simp [Chain.neverQueued]⟩ ?_ hlt
      (Nat.lt_succ_self _)
    rw [hfan]
    exact Nat.le_succ _
  case case7.refl fresh accounted hfan =>
    rw [hfan] at hunqueued haccounted
    exact ⟨.idle (fun h => h) rfl (kept_refl _), ⟨hshape.ordered, haccounted, hunqueued⟩⟩
  -- The block is over: the chains it never queued are accounted one by one.
  case case9.refl accounted pending hfan hlt =>
    rw [hfan] at hunqueued
    have hchain := hunqueued accounted (le_refl _)
    refine ⟨moved_finished pending (fun h => h) ?_ ?_ ?_ rfl, ?_⟩
    · rw [hchain]; rfl
    · rw [hchain]; rfl
    · rw [hchain]; rfl
    refine shape_update hshape rfl ⟨by simp [Chain.neverQueued], by simp [Chain.neverQueued]⟩ ?_ hlt
      (Nat.lt_succ_self _)
    rw [hfan]
    exact Nat.le_succ _
  case case10.refl accounted pending hfan hdone =>
    rw [hfan] at hunqueued haccounted
    refine ⟨.idle (fun h => h) rfl (kept_refl _),
      ⟨hshape.ordered, le_refl _, fun index hindex => ?_⟩⟩
    exact hunqueued index (haccounted.trans hindex)

@[simp] theorem refreshed_chains (state : State) (pending : Option Nat) :
    (state.refreshed pending).chains = state.chains := by
  cases pending <;> rfl

@[simp] theorem refreshed_fanOut (state : State) (pending : Option Nat) :
    (state.refreshed pending).fanOut = state.fanOut := by
  cases pending <;> rfl

namespace Chain

variable {chain : Chain} {which : Which} {progress : StageProgress}

theorem Ordered.ending_none (hordered : chain.Ordered)
    (hstage : chain.stage which = .queued ∨ chain.stage which = .running progress) :
    chain.ending = none := by
  cases which with
  | artist => exact (hordered.artist progress hstage).2
  | identity => exact hordered.identity progress hstage

/-- While the artist stage is to come, the identity stage is not there. -/
theorem Ordered.artist_gone (hordered : chain.Ordered) (hidentity : chain.identity ≠ .unqueued) :
    chain.artist ≠ .queued ∧ ∀ progress, chain.artist ≠ .running progress := by
  refine ⟨fun hartist => ?_, fun progress hartist => ?_⟩
  · exact hidentity (hordered.artist ⟨none, 0⟩ (.inl hartist)).1
  · exact hidentity (hordered.artist progress (.inr hartist)).1

theorem ordered_running (hordered : chain.Ordered) {next : StageProgress}
    (hstage : chain.stage which = .queued ∨ chain.stage which = .running progress) :
    (chain.setStage which (.running next)).Ordered := by
  have hopen := hordered.ending_none hstage
  cases which with
  | artist =>
      refine ⟨fun _ _ => hordered.artist progress hstage, fun _ _ => hopen⟩
  | identity =>
      refine ⟨fun other hartist => ?_, fun _ _ => hopen⟩
      have hgone := hordered.artist_gone (by
        rcases hstage with hstage | hstage <;> exact hstage.trans_ne nofun)
      exact absurd hartist (not_or.mpr ⟨hgone.1, hgone.2 other⟩)

/-- A chain whose artist stage is over, and whose identity stage is over or absent. -/
theorem ordered_over
    (hartist : chain.artist ≠ .queued ∧ ∀ progress, chain.artist ≠ .running progress)
    (hidentity : chain.ending = none ∨
      chain.identity ≠ .queued ∧ ∀ progress, chain.identity ≠ .running progress) :
    chain.Ordered where
  artist progress hstage := absurd hstage (not_or.mpr ⟨hartist.1, hartist.2 progress⟩)
  identity progress hstage :=
    hidentity.resolve_right fun hout => not_or.mpr ⟨hout.1, hout.2 progress⟩ hstage

theorem ne_unqueued (hstage : chain.stage which ≠ .unqueued) : chain ≠ .unqueued := by
  rintro rfl
  cases which <;> exact hstage rfl

end Chain

/-- A step on one chain that the fan-out is not part of. -/
theorem shape_stage {stages : Nat} {state next : State} {index : Nat} {chain : Chain}
    {which : Which} (hshape : Shape stages state)
    (hchains : next.chains = Function.update state.chains index chain) (hordered : chain.Ordered)
    (hfan : next.fanOut = state.fanOut) (hstage : (state.chains index).stage which ≠ .unqueued) :
    Shape stages next := by
  refine shape_update hshape hchains hordered (by rw [hfan]) (hfan ▸ hshape.accounted) ?_
  rw [hfan]
  by_contra hge
  exact Chain.ne_unqueued hstage (hshape.unqueued index (Nat.not_lt.mp hge))

/-- A stage that starts, or goes on running. -/
theorem runs_moved {stages : Nat} {state next : State} {action : Action} {index : Nat}
    {which : Which} {progress : StageProgress} (hshape : Shape stages state)
    (hstage : (state.chains index).stage which = .queued ∨
      ∃ before, (state.chains index).stage which = .running before)
    (hearly : ¬ Late state action) (hrow : Kept state.row next.row)
    (hchains : next.chains = Function.update state.chains index
      ((state.chains index).setStage which (.running progress)))
    (hfan : next.fanOut = state.fanOut) : Moved state next action ∧ Shape stages next := by
  obtain ⟨before, hstage⟩ : ∃ before, (state.chains index).stage which = .queued ∨
      (state.chains index).stage which = .running before := by
    rcases hstage with hstage | ⟨before, hstage⟩
    · exact ⟨progress, .inl hstage⟩
    · exact ⟨before, .inr hstage⟩
  refine ⟨.advances index _ hearly hchains ?_ hrow, ?_⟩
  · cases which <;> exact ⟨rfl, rfl, rfl⟩
  · refine @shape_stage _ _ _ _ _ which hshape hchains ?_ hfan ?_
    · exact Chain.ordered_running (hshape.ordered index) hstage
    · rcases hstage with hstage | hstage <;> exact hstage.trans_ne nofun

theorem stageStep_moved {stages : Nat} {state next : State} {action : Action}
    (hshape : Shape stages state) (hstep : stageStep state action = some next) :
    Moved state next action ∧ Shape stages next := by
  revert hstep
  fun_cases stageStep state action
  all_goals
    intro hstep
    cases hstep
  case case1.refl index which count hstage =>
    exact @runs_moved _ _ _ _ _ _ ⟨count, 0⟩ hshape (.inl hstage) (fun h => h)
      (kept_refreshed state count) (by simp [State.setChain]) (by simp [State.setChain])
  case case3.refl index which written progress hstage ticked =>
    refine @runs_moved _ _ _ _ _ _ ticked hshape (.inr ⟨progress, hstage⟩) (fun h => h) ?_ ?_ ?_
    · split
      · exact kept_refreshed state _
      · exact kept_refl _
    · split <;> simp [State.setChain]
    · split <;> simp [State.setChain]
  -- The artist stage hands on, and its chain goes to the identity stage.
  case case5.refl index progress hstage =>
    obtain ⟨-, hopen⟩ := (hshape.ordered index).artist progress (.inr hstage)
    refine ⟨.advances index _ (fun h => h) rfl ⟨rfl, rfl, rfl⟩ (kept_refl _), ?_⟩
    refine @shape_stage _ _ _ _ _ .artist hshape rfl ?_ rfl (hstage.trans_ne nofun)
    exact Chain.ordered_over ⟨nofun, nofun⟩ (.inl hopen)
  case case7.refl index fresh progress hstage =>
    obtain ⟨hidentity, hopen⟩ := (hshape.ordered index).artist progress (.inr hstage)
    refine ⟨moved_finished _ (fun h => h) rfl rfl hopen rfl, ?_⟩
    refine @shape_stage _ _ _ _ _ .artist hshape rfl ?_ rfl (hstage.trans_ne nofun)
    refine Chain.ordered_over ⟨nofun, nofun⟩ (.inr ⟨?_, fun _ => ?_⟩) <;>
      exact hidentity.trans_ne nofun
  case case9.refl index progress hstage =>
    refine ⟨.advances index _ (fun h => h) rfl ⟨rfl, rfl, rfl⟩ (kept_refl _), ?_⟩
    refine @shape_stage _ _ _ _ _ .artist hshape rfl ?_ rfl (hstage.trans_ne nofun)
    exact ⟨fun _ => by simp, (hshape.ordered index).identity⟩
  case case11.refl index which fresh progress hstage =>
    have hordered := hshape.ordered index
    refine ⟨?_, @shape_stage _ _ _ _ _ which hshape rfl ?_ rfl (hstage.trans_ne nofun)⟩
    · refine moved_finished _ ?_ ?_ ?_ (hordered.ending_none (.inr hstage)) rfl
      · rintro ⟨other, hlate⟩
        cases hstage.symm.trans hlate
      · cases which <;> rfl
      · cases which <;> rfl
    · cases which with
      | artist =>
          have hidentity := (hordered.artist progress (.inr hstage)).1
          refine Chain.ordered_over ⟨nofun, nofun⟩ (.inr ⟨?_, fun _ => ?_⟩) <;>
            exact hidentity.trans_ne nofun
      | identity =>
          exact Chain.ordered_over (hordered.artist_gone (hstage.trans_ne nofun))
            (.inr ⟨nofun, nofun⟩)
  -- Raised after it handed on: its chain goes on, and is counted as finished all the same.
  case case12.refl index which fresh progress hstage =>
    have hordered := hshape.ordered index
    refine ⟨?_, @shape_stage _ _ _ _ _ which hshape rfl ?_ rfl (hstage.trans_ne nofun)⟩
    · refine .raisesLate index _ (progress.last fresh) ⟨progress, hstage⟩
        (Chain.ne_unqueued (hstage.trans_ne nofun)) rfl ?_ rfl ?_
      · cases which <;> exact ⟨rfl, rfl⟩
      · cases which <;> rfl
    · cases which with
      | artist => exact ⟨fun _ => by simp [Chain.setStage], hordered.identity⟩
      | identity =>
          exact Chain.ordered_over (hordered.artist_gone (hstage.trans_ne nofun))
            (.inr ⟨nofun, nofun⟩)
  case case14.refl index fresh progress hstage =>
    have hopen := (hshape.ordered index).identity progress (.inr hstage)
    refine ⟨moved_finished _ (fun h => h) rfl rfl hopen rfl, ?_⟩
    refine @shape_stage _ _ _ _ _ .identity hshape rfl ?_ rfl (hstage.trans_ne nofun)
    exact Chain.ordered_over ((hshape.ordered index).artist_gone (hstage.trans_ne nofun))
      (.inr ⟨nofun, nofun⟩)
  -- A reaped row leaves the chains as they are.
  case case16.refl hrunning =>
    exact ⟨.idle (fun h => h) rfl (kept_reap hrunning),
      ⟨hshape.ordered, hshape.accounted, hshape.unqueued⟩⟩

theorem step_moved {stages : Nat} {state next : State} {action : Action} {output : Unit}
    (hshape : Shape stages state)
    (hstep : (matchingRun stages).step state action = some (next, output)) :
    Moved state next action ∧ Shape stages next := by
  obtain ⟨after, htaken, heq⟩ := Option.map_eq_some_iff.mp hstep
  obtain ⟨rfl, -⟩ := Prod.mk.inj heq
  rcases Option.or_eq_some_iff.mp htaken with hfan | ⟨-, hstage⟩
  · exact fanOutStep_moved hshape hfan
  · exact stageStep_moved hshape hstage

/-! ## What the row says -/

/-- The row's two counts are the sums of the chains' tallies, and no stage left is a row
complete. -/
structure Sums (stages : Nat) (state : State) : Prop where
  left : state.row.stagesLeft = stages - ∑ index ∈ range stages,
    ((state.chains index).finishes : Int)
  failed : state.row.stagesFailed = ∑ index ∈ range stages, ((state.chains index).failures : Int)
  status : state.row.live = true ↔ 0 < state.row.stagesLeft
  bounded : state.row.Bounded

/-- The chain is counted once if it has ended, and as failed if it ended so. -/
structure Chain.CountedOnce (chain : Chain) : Prop where
  finishes : chain.finishes = if chain.ending.isSome then 1 else 0
  failures : chain.failures = if chain.ending = some true then 1 else 0

/-- The row tells the truth: each chain is counted once when it has ended, the row is
complete when all have, and the failures are those of the chains. -/
structure Truthful (stages : Nat) (state : State) : Prop where
  once : ∀ index, (state.chains index).CountedOnce
  complete : state.row.status = .completed ↔
    ∀ index < stages, (state.chains index).ending.isSome
  failed : state.row.stagesFailed =
    ((range stages).filter fun index => (state.chains index).ending = some true).card

/-- No stage raises after it has handed its chain on, unless the row is complete. -/
def Careful (state : State) (action : Action) : Prop :=
  Late state action → state.row.status = .completed

theorem sum_update {stages index : Nat} (chains : Nat → Chain) (chain : Chain) (f : Chain → Int)
    (hindex : index < stages) :
    ∑ other ∈ range stages, f (Function.update chains index chain other) =
      (∑ other ∈ range stages, f (chains other)) + (f chain - f (chains index)) := by
  have hmem : index ∈ range stages := mem_range.mpr hindex
  have hsame : ∀ other ∈ (range stages).erase index,
      f (Function.update chains index chain other) = f (chains other) := by
    intro other hother
    rw [Function.update_of_ne (ne_of_mem_erase hother)]
  rw [← add_sum_erase _ _ hmem, ← add_sum_erase _ (fun other => f (chains other)) hmem,
    sum_congr rfl hsame, Function.update_self]
  ring

theorem Shape.lt_of_ne {stages : Nat} {state : State} (hshape : Shape stages state) {index : Nat}
    (htouched : state.chains index ≠ .unqueued) : index < stages := by
  by_contra hge
  exact htouched (hshape.unqueued index (hshape.accounted.trans (Nat.not_lt.mp hge)))

theorem finishStage_live {row : Row} (hlive : row.live) (pending : Option Nat) (failed : Bool) :
    (finishStage row pending failed).stagesLeft = row.stagesLeft - 1 ∧
      (finishStage row pending failed).stagesFailed =
        row.stagesFailed + (if failed then 1 else 0) ∧
      ((finishStage row pending failed).live = true ↔ 0 < row.stagesLeft - 1) := by
  rw [finishStage, if_pos hlive]
  refine ⟨rfl, rfl, ?_⟩
  by_cases hdone : row.stagesLeft - 1 ≤ 0
  · simp only [Row.live, hdone, if_true, ne_eq, not_true_eq_false, decide_false]
    exact iff_of_false Bool.false_ne_true (Int.not_lt.mpr hdone)
  · simp only [Row.live, hdone, if_false, ne_eq, reduceCtorEq, not_false_eq_true, decide_true]
    exact iff_of_true trivial (Int.not_le.mp hdone)

theorem finishStage_completed {row : Row} (hdone : row.live = false) (pending : Option Nat)
    (failed : Bool) : finishStage row pending failed = row := by
  simp [finishStage, hdone]

/-- A report counts one stage of the chain, in the row and in its tally. -/
theorem sums_finish {stages : Nat} {state next : State} {index : Nat} {chain : Chain}
    {pending : Option Nat} {failed : Bool} (hsums : Sums stages state) (hindex : index < stages)
    (hchains : next.chains = Function.update state.chains index chain)
    (hcounted : (state.chains index).Counted chain state.row.live failed)
    (hrow : next.row = finishStage state.row pending failed) : Sums stages next := by
  have hfinishes := sum_update state.chains chain (fun chain => (chain.finishes : Int)) hindex
  have hfailures := sum_update state.chains chain (fun chain => (chain.failures : Int)) hindex
  have hleft := hsums.left
  have hfailed := hsums.failed
  have hbounded : next.row.Bounded := hrow ▸ finishStage_bounded hsums.bounded pending failed
  simp only [hcounted.finishes] at hfinishes
  simp only [hcounted.failures] at hfailures
  by_cases hlive : state.row.live = true
  · obtain ⟨hone, hmore, hstatus⟩ := finishStage_live hlive pending failed
    rw [← hrow] at hone hmore hstatus
    refine ⟨?_, ?_, ?_, hbounded⟩
    · rw [hchains, hfinishes, hone, hleft]
      simp only [hlive, if_true]
      push_cast
      omega
    · rw [hchains, hfailures, hmore, hfailed]
      simp only [hlive, Bool.true_and]
      cases failed <;> simp
    · rw [hstatus, hone]
  · have hsame : next.row = state.row :=
      hrow.trans (finishStage_completed (Bool.eq_false_iff.mpr hlive) pending failed)
    refine ⟨?_, ?_, ?_, hbounded⟩
    · rw [hchains, hfinishes, hsame, hleft]
      simp [hlive]
    · rw [hchains, hfailures, hsame, hfailed]
      simp [hlive]
    · rw [hsame]
      exact hsums.status

/-- A step that reports nothing leaves the counts. -/
theorem sums_kept {stages : Nat} {state next : State} (hsums : Sums stages state)
    (hrow : Kept state.row next.row)
    (htally : ∀ index, (state.chains index).SameTally (next.chains index)) :
    Sums stages next where
  left := by
    rw [hrow.left, hsums.left]
    congr 1
    exact sum_congr rfl fun index _ => by rw [(htally index).2.1]
  failed := by
    rw [hrow.failed, hsums.failed]
    exact sum_congr rfl fun index _ => by rw [(htally index).2.2]
  status := by rw [hrow.live, hrow.left, hsums.status]
  bounded := hrow.bounded hsums.bounded

theorem sameTally_update {state next : State} {index : Nat} {chain : Chain}
    (hchains : next.chains = Function.update state.chains index chain)
    (htally : (state.chains index).SameTally chain) (other : Nat) :
    (state.chains other).SameTally (next.chains other) := by
  rw [hchains]
  by_cases hsame : other = index
  · subst hsame
    rwa [Function.update_self]
  · rw [Function.update_of_ne hsame]
    exact ⟨rfl, rfl, rfl⟩

/-- What holds in every state of a run, whether the row tells the truth or not. -/
structure Inv (stages : Nat) (state : State) : Prop where
  shape : Shape stages state
  sums : Sums stages state

theorem ends_lt {stages : Nat} {state next : State} {index : Nat} {chain : Chain}
    (hshape : Shape stages next) (hchains : next.chains = Function.update state.chains index chain)
    (hending : chain.ending ≠ none) : index < stages := by
  refine hshape.lt_of_ne ?_
  rw [hchains, Function.update_self]
  rintro rfl
  exact hending rfl

theorem inv_step {stages : Nat} : (matchingRun stages).Preserves (Inv stages) := by
  intro state next action output hinv hstep
  obtain ⟨hmoved, hshape⟩ := step_moved hinv.shape hstep
  refine ⟨hshape, ?_⟩
  cases hmoved with
  | idle _ hchains hrow =>
      exact sums_kept hinv.sums hrow fun index => by rw [hchains]; exact ⟨rfl, rfl, rfl⟩
  | advances index chain _ hchains htally hrow =>
      exact sums_kept hinv.sums hrow (sameTally_update hchains htally)
  | ends index chain pending failed _ hchains hcounted hrow hopen hending =>
      have hindex := ends_lt hshape hchains (by rw [hending]; nofun)
      exact sums_finish hinv.sums hindex hchains hcounted hrow
  | raisesLate index chain pending hlate htouched hchains hcounted hrow hending =>
      have hindex := hinv.shape.lt_of_ne htouched
      exact sums_finish hinv.sums hindex hchains hcounted hrow

/-- Chains counted once give a row that tells the truth. -/
theorem truthful_of_once {stages : Nat} {state : State} (hinv : Inv stages state)
    (honce : ∀ index, (state.chains index).CountedOnce) : Truthful stages state := by
  have hfinishes : ∑ index ∈ range stages, ((state.chains index).finishes : Int) =
      ((range stages).filter fun index => (state.chains index).ending.isSome).card := by
    rw [← sum_boole]
    refine sum_congr rfl fun index _ => ?_
    rw [(honce index).finishes]
    split <;> rfl
  have hfailures : ∑ index ∈ range stages, ((state.chains index).failures : Int) =
      ((range stages).filter fun index => (state.chains index).ending = some true).card := by
    rw [← sum_boole]
    refine sum_congr rfl fun index _ => ?_
    rw [(honce index).failures]
    split <;> rfl
  refine ⟨honce, ?_, by rw [hinv.sums.failed, hfailures]⟩
  have hle := card_filter_le (range stages) fun index => (state.chains index).ending.isSome
  have hall : ((range stages).filter fun index => (state.chains index).ending.isSome).card =
      (range stages).card ↔ ∀ index ∈ range stages, (state.chains index).ending.isSome :=
    card_filter_eq_iff
  have hstatus := hinv.sums.status
  rw [card_range] at hle hall
  rw [hinv.sums.left, hfinishes] at hstatus
  have hlive : state.row.live = true ↔ state.row.status ≠ .completed := decide_eq_true_iff
  constructor
  · intro hcompleted index hindex
    refine hall.mp ?_ index (mem_range.mpr hindex)
    have hnot : ¬ state.row.live = true := fun h => hlive.mp h hcompleted
    rw [hstatus] at hnot
    omega
  · intro hended
    have hcard := hall.mpr fun index hindex => hended index (mem_range.mp hindex)
    by_contra hopen
    have hpos := hstatus.mp (hlive.mpr hopen)
    omega

theorem once_update {state next : State} {index : Nat} {chain : Chain}
    (hchains : next.chains = Function.update state.chains index chain)
    (honce : ∀ other, (state.chains other).CountedOnce) :
    (∀ other, (next.chains other).CountedOnce) ↔ chain.CountedOnce := by
  rw [hchains]
  constructor
  · intro hall
    have hindex := hall index
    rwa [Function.update_self] at hindex
  · intro hchain other
    by_cases hsame : other = index
    · subst hsame
      rwa [Function.update_self]
    · rw [Function.update_of_ne hsame]
      exact honce other

/-- A step leaves the row truthful exactly when it is not a late raise that the row counts. -/
theorem truthful_step {stages : Nat} {state next : State} {action : Action} {output : Unit}
    (hinv : Inv stages state) (htruth : Truthful stages state)
    (hstep : (matchingRun stages).step state action = some (next, output)) :
    Truthful stages next ↔ Careful state action := by
  have hnext := inv_step hinv hstep
  obtain ⟨hmoved, hshape⟩ := step_moved hinv.shape hstep
  have htruthful : Truthful stages next ↔ ∀ index, (next.chains index).CountedOnce :=
    ⟨fun htruth => htruth.once, truthful_of_once hnext⟩
  rw [htruthful]
  have hlive : state.row.live = true ↔ state.row.status ≠ .completed := decide_eq_true_iff
  cases hmoved with
  | idle hearly hchains hrow =>
      rw [hchains]
      exact iff_of_true htruth.once fun hlate => absurd hlate hearly
  | advances index chain hearly hchains htally hrow =>
      refine iff_of_true ((once_update hchains htruth.once).mpr ?_) fun hlate => absurd hlate hearly
      have honce := htruth.once index
      exact ⟨by rw [htally.2.1, htally.1, honce.finishes],
        by rw [htally.2.2, htally.1, honce.failures]⟩
  | ends index chain pending failed hearly hchains hcounted hrow hopen hending =>
      refine iff_of_true ((once_update hchains htruth.once).mpr ?_) fun hlate => absurd hlate hearly
      have honce := htruth.once index
      -- the chain was still open, so the row is not complete yet
      have hwritten : state.row.live = true := by
        refine hlive.mpr fun hcompleted => ?_
        have hended := htruth.complete.mp hcompleted index (ends_lt hshape hchains (by
          simp [hending]))
        simp [hopen] at hended
      refine ⟨?_, ?_⟩
      · rw [hcounted.finishes, honce.finishes, hopen, hending, hwritten]
        rfl
      · rw [hcounted.failures, honce.failures, hopen, hending, hwritten]
        cases failed <;> rfl
  -- Counted a second time, unless the row was completed already and is not written.
  | raisesLate index chain pending hlate htouched hchains hcounted hrow hending =>
      rw [once_update hchains htruth.once]
      have honce := htruth.once index
      constructor
      · intro hafter _
        by_contra hopen
        have hfinishes := hcounted.finishes
        rw [hlive.mpr hopen, hafter.finishes, hending, honce.finishes] at hfinishes
        simp at hfinishes
      · intro hcareful
        have hdone : state.row.live = false :=
          Bool.eq_false_iff.mpr fun h => hlive.mp h (hcareful hlate)
        refine ⟨?_, ?_⟩
        · rw [hcounted.finishes, hdone, hending, honce.finishes]
          rfl
        · rw [hcounted.failures, hdone, hending, honce.failures]
          rfl

/-! ## Runs -/

theorem inv_opened {stages : Nat} (total : Option Nat) (hstages : 0 < stages) :
    Inv stages (opened total stages) := by
  refine ⟨⟨fun _ => ordered_unqueued, Nat.zero_le _, fun _ _ => rfl⟩, ?_, ?_, ?_, ?_⟩
  · simp [opened, openRow, Chain.unqueued]
  · simp [opened, openRow, Chain.unqueued]
  · exact iff_of_true rfl (Int.natCast_pos.mpr hstages)
  · exact ⟨le_refl _, Int.natCast_nonneg _⟩

theorem truthful_opened {stages : Nat} (total : Option Nat) (hstages : 0 < stages) :
    Truthful stages (opened total stages) :=
  truthful_of_once (inv_opened total hstages) fun _ => ⟨rfl, rfl⟩

theorem total_mono {stages : Nat} {state next : State} {action : Action} {output : Unit}
    (hinv : Inv stages state)
    (hstep : (matchingRun stages).step state action = some (next, output)) :
    state.row.total ≤ next.row.total := by
  obtain ⟨hmoved, -⟩ := step_moved hinv.shape hstep
  cases hmoved with
  | idle _ _ hrow => exact hrow.total
  | advances _ _ _ _ _ hrow => exact hrow.total
  | ends _ _ _ _ _ _ _ hrow _ _ =>
      rw [hrow]
      exact finishStage_total _ _ _
  | raisesLate _ _ _ _ _ _ _ hrow _ =>
      rw [hrow]
      exact finishStage_total _ _ _

/-- In every order of the steps of a run over its playlists, what was settled stays within a
total that never falls; and the row tells the truth in every state reached exactly as long as
no stage that has handed its chain on raises before the row is complete. -/
theorem truthful_iff {stages : Nat} (total : Option Nat) (hstages : 0 < stages)
    {trace : List (Action × Unit)} {state : State}
    (hrun : (matchingRun stages).Run (opened total stages) trace state) :
    state.row.Bounded ∧
      (∀ action next output, (matchingRun stages).step state action = some (next, output) →
        state.row.total ≤ next.row.total) ∧
      ((matchingRun stages).Meets Careful (opened total stages) trace ↔
        ∀ before after reached, trace = before ++ after →
          (matchingRun stages).Run (opened total stages) before reached →
          Truthful stages reached) := by
  have hinv := hrun.invariant inv_step (inv_opened total hstages)
  refine ⟨hinv.sums.bounded, fun action next output => total_mono hinv, ?_⟩
  exact Machine.Meets.iff_invariant inv_step (fun _ _ _ _ => truthful_step)
    (inv_opened total hstages) (truthful_opened total hstages) hrun

/-- Two playlists: the first cannot be queued, the second goes through both its stages. -/
def twoPlaylists : List Action :=
  [.refused (some 5), .queue, .stop none, .start 1 .artist (some 5), .tick 1 .artist true,
    .handOn 1, .start 1 .identity (some 3), .leave 1, .reap, .succeeds 1 (some 0)]

theorem truthful_iff_twoPlaylists :
    ∃ trace state, (matchingRun 2).Run (opened (some 5) 2) trace state ∧
      state.row = ⟨5, 5, 0, 1, some "matching_stages_failed", .completed⟩ ∧ Truthful 2 state := by
  obtain ⟨state, hexec, hrow⟩ : ∃ state, (matchingRun 2).exec (opened (some 5) 2) twoPlaylists =
      some (twoPlaylists.map (·, ()), state) ∧
      state.row = ⟨5, 5, 0, 1, some "matching_stages_failed", .completed⟩ := ⟨_, rfl, rfl⟩
  have hrun := Machine.run_of_exec hexec
  refine ⟨_, state, hrun, hrow, ?_⟩
  refine (truthful_iff (some 5) Nat.two_pos hrun).2.2.mp ?_ _ [] state (List.append_nil _).symm hrun
  refine .cons (fun h => h.elim) rfl <| .cons (fun h => h.elim) rfl <|
    .cons (fun h => h.elim) rfl <|
    .cons (fun h => h.elim) rfl <| .cons (fun h => h.elim) rfl <| .cons (fun h => h.elim) rfl <|
    .cons (fun h => h.elim) rfl <| .cons (fun h => h.elim) rfl <| .cons (fun h => h.elim) rfl <|
    .cons (fun h => h.elim) rfl .nil

/-- The artist stage raises once it has queued its identity stage. -/
theorem completed_with_stage_queued :
    ∃ trace state, (matchingRun 1).Run (opened (some 5) 1) trace state ∧
      state.row.status = .completed ∧ state.row.stagesFailed = 1 ∧
      (state.chains 0).identity = .queued ∧ (state.chains 0).ending = none := by
  obtain ⟨trace, state, hexec, hstatus, hfailed, hidentity, hopen⟩ : ∃ trace state,
      (matchingRun 1).exec (opened (some 5) 1)
        [.queue, .start 0 .artist (some 5), .handOn 0, .raises 0 .artist (some 4)] =
        some (trace, state) ∧
      state.row.status = .completed ∧ state.row.stagesFailed = 1 ∧
      (state.chains 0).identity = .queued ∧ (state.chains 0).ending = none :=
    ⟨_, _, rfl, rfl, rfl, rfl, rfl⟩
  exact ⟨trace, state, Machine.run_of_exec hexec, hstatus, hfailed, hidentity, hopen⟩

end RetroStation.Matching.RunProgress
