import RetroStation.Player.Resources

/-! # The reconnect deadline

The deadline starts with the first loss of a drop and is left alone until the
drop is over. Only playing again or coming to rest clears it, so a drop ends
there, or at the deadline's own timeout.
-/

namespace RetroStation.Player

/-- Between two visits to playing or to a resting phase. -/
def PlayerState.InDrop (state : PlayerState) : Prop :=
  state.phase ≠ .playing ∧ ¬ isResting state.phase

def Effect.setsDeadline : Effect → Bool
  | .setTimer .deadline _ => true
  | _ => false

/-- How often the effects start the deadline. -/
def deadlineStarts (effects : List Effect) : Nat := effects.countP Effect.setsDeadline

/-- The effects of a whole run, in order. -/
def effectsOf (trace : List (PageAction × List Effect)) : List Effect := trace.flatMap Prod.snd

@[simp] theorem deadlineStarts_append (first second : List Effect) :
    deadlineStarts (first ++ second) = deadlineStarts first + deadlineStarts second :=
  List.countP_append

theorem deadlineStarts_clearTimers (keep : Option TimerName) :
    deadlineStarts (clearTimers keep) = 0 := by
  simp [deadlineStarts, clearTimers, List.countP_eq_zero, Effect.setsDeadline]

theorem not_inDrop_of_resting {state : PlayerState} (hresting : isResting state.phase) :
    ¬ state.InDrop := fun hdrop => hdrop.2 hresting

/-! ## One transition -/

/-- What a transition does to the deadline: it is started by a first loss,
cleared only on the way out of the drop, and else left alone. -/
structure KeepsDeadline (state : PlayerState) (event : PlayerEvent) (transition : Transition) :
    Prop where
  starts : deadlineStarts transition.effects =
    if !state.reconnecting && transition.state.reconnecting then 1 else 0
  clears : .clearTimer .deadline ∈ transition.effects → ¬ transition.state.InDrop
  stays : state.reconnecting → transition.state.InDrop → transition.state.reconnecting
  length : ∀ ms, .setTimer .deadline ms ∈ transition.effects →
    ms = DEADLINE_MS ∨ event = .timeout .stall ∧ ms = DEADLINE_MS - STALL_MS

theorem keepsDeadline_leave (state : PlayerState) (event : PlayerEvent) (phase : Phase)
    (reason : Option FailReason) (hresting : isResting phase) :
    KeepsDeadline state event (leave phase reason) where
  starts := by
    have hclear := deadlineStarts_clearTimers none
    simp_all [leave, initialState, deadlineStarts, Effect.setsDeadline]
  clears _ := not_inDrop_of_resting hresting
  stays _ hdrop := absurd hdrop (not_inDrop_of_resting hresting)
  length ms hmem := by simp [leave, clearTimers] at hmem

theorem keepsDeadline_retry (state : PlayerState) (event : PlayerEvent) (deadlineMs : Nat)
    (hdeadline : deadlineMs = DEADLINE_MS ∨
      event = .timeout .stall ∧ deadlineMs = DEADLINE_MS - STALL_MS) :
    KeepsDeadline state event (retry state deadlineMs) where
  starts := by
    have hclear := deadlineStarts_clearTimers (some .deadline)
    simp only [retry, deadlineStarts_append, hclear]
    cases state.reconnecting <;> rfl
  clears hmem := by simp [retry, clearTimers] at hmem
  stays _ _ := rfl
  length ms hmem := by
    have hms : ms = deadlineMs := by
      simp only [retry, clearTimers, List.append_assoc, List.mem_append, List.mem_cons,
        List.mem_map, reduceCtorEq, false_and, and_false, exists_false, List.not_mem_nil,
        Effect.setTimer.injEq, or_false, false_or] at hmem
      split at hmem <;> simp_all
    exact hms ▸ hdeadline

theorem not_setsDeadline_of_minor {effect : Effect} (hminor : effect.minor) :
    effect.setsDeadline = false := by
  cases effect with
  | setTimer timer ms => cases timer <;> simp_all [Effect.minor, Effect.setsDeadline]
  | _ => rfl

/-- Every transition from an accounted page keeps the deadline. -/
theorem keepsDeadline_step (state : PlayerState) (hflags : state.FlagsFit) (event : PlayerEvent) :
    KeepsDeadline state event (step state event) := by
  have hmove := step_move state event
  generalize step state event = transition at hmove ⊢
  -- Only leaving, a drop and a retry set or clear the deadline; the rest keep it running.
  cases hmove with
  | leaves phase reason hresting => exact keepsDeadline_leave state event phase reason hresting
  | retries deadlineMs _ hdeadline => exact keepsDeadline_retry state event deadlineMs hdeadline
  | remains next effects hphase hreconnecting hminor =>
      have hnone : ∀ effect ∈ effects, effect.setsDeadline = false :=
        fun effect hmem => not_setsDeadline_of_minor (hminor effect hmem)
      constructor
      case starts =>
        simpa [hreconnecting, deadlineStarts, List.countP_eq_zero] using hnone
      case clears => exact fun hmem => absurd (hminor _ hmem) (by simp [Effect.minor])
      case stays => exact fun hrunning _ => hreconnecting ▸ hrunning
      case length =>
        exact fun ms hmem => absurd (hnone _ hmem) (by simp [Effect.setsDeadline])
  | tunesIn hresting =>
      constructor
      case stays => exact fun hrunning => absurd hresting (hflags.reconnecting hrunning).1
      all_goals simp [deadlineStarts, Effect.setsDeadline, initialState]
  | resumes hphase =>
      constructor
      case stays => exact fun hrunning _ => hrunning
      all_goals simp [deadlineStarts, Effect.setsDeadline]
  | triesAgain hstart =>
      constructor
      case stays => exact fun hrunning _ => hrunning
      all_goals simp [startTry, deadlineStarts, Effect.setsDeadline]
  | connects hphase hevent =>
      constructor
      case stays => exact fun hrunning _ => hrunning
      all_goals simp [deadlineStarts, Effect.setsDeadline]
  | plays next hphase hreconnecting =>
      have hover : ¬ next.InDrop := fun hdrop => hdrop.1 hphase
      constructor
      case starts => simp [deadlineStarts_clearTimers, hreconnecting]
      case clears => exact fun _ => hover
      case stays => exact fun _ hdrop => absurd hdrop hover
      case length => simp [clearTimers]
  -- The deadline starts with the first loss of a drop: while playing it did not run.
  | drops next hplaying hphase hreconnecting =>
      have hfirst : state.reconnecting = false := by
        by_contra hrunning
        exact (hflags.reconnecting (by simpa using hrunning)).2 hplaying
      constructor
      case starts =>
        simp only [hfirst, hreconnecting]
        rfl
      case clears => simp
      case stays => simp [hfirst]
      case length => simp
  | asksTap hphase =>
      constructor
      case stays => exact fun hrunning _ => hrunning
      all_goals simp [deadlineStarts, Effect.setsDeadline]

/-- A running deadline's own timeout fails the drop. -/
theorem step_deadline {state : PlayerState} (hflags : state.FlagsFit)
    (hrunning : state.reconnecting) :
    step state (.timeout .deadline) = leave .failed (some .lost) := by
  simp [step, onTimeout, (hflags.reconnecting hrunning).1, hrunning]

/-- Effects that neither start nor clear the deadline leave its due time. -/
theorem due_deadline_foldl (page : Page) (effects : List Effect)
    (hstarts : deadlineStarts effects = 0) (hclears : .clearTimer .deadline ∉ effects) :
    (effects.foldl Page.perform page).due .deadline = page.due .deadline := by
  induction effects generalizing page with
  | nil => rfl
  | cons head rest ih =>
      have hsplit : deadlineStarts [head] + deadlineStarts rest = 0 := by
        rw [← deadlineStarts_append]
        exact hstarts
      simp only [List.mem_cons, not_or] at hclears
      rw [List.foldl_cons, ih _ (by omega) hclears.2]
      cases head with
      | setTimer timer ms =>
          have htimer : timer ≠ .deadline := by
            rintro rfl
            simp [deadlineStarts, Effect.setsDeadline] at hsplit
          simp [Page.perform, Function.update_of_ne htimer.symm]
      | clearTimer timer =>
          have htimer : timer ≠ .deadline := fun heq => hclears.1 (heq ▸ rfl)
          simp [Page.perform, Function.update_of_ne htimer.symm]
      | _ => rfl

theorem foldl_perform_now (page : Page) (effects : List Effect) :
    (effects.foldl Page.perform page).now = page.now := by
  induction effects generalizing page with
  | nil => rfl
  | cons head rest ih =>
      rw [List.foldl_cons, ih]
      cases head <;> rfl

/-- Effects that start the deadline once, and never clear it, set it by that start. -/
theorem due_deadline_foldl_started (page : Page) (effects : List Effect) {ms : Nat}
    (hstarts : deadlineStarts effects = 1) (hclears : .clearTimer .deadline ∉ effects)
    (hset : .setTimer .deadline ms ∈ effects) :
    (effects.foldl Page.perform page).due .deadline = some (page.now + ms) := by
  obtain ⟨before, after, rfl⟩ := List.append_of_mem hset
  have hafter : deadlineStarts after = 0 := by
    rw [deadlineStarts_append, ← List.singleton_append, deadlineStarts_append] at hstarts
    have hone : deadlineStarts [.setTimer .deadline ms] = 1 := rfl
    omega
  simp only [List.mem_append, List.mem_cons, not_or] at hclears
  rw [List.foldl_append, List.foldl_cons, due_deadline_foldl _ _ hafter hclears.2.2]
  simp [Page.perform, foldl_perform_now]

/-! ## A whole drop -/

namespace Page

/-- The page is between two visits to playing or to a resting phase. -/
def InDrop (page : Page) : Prop := page.state.InDrop

theorem foldl_perform_state (page : Page) (effects : List Effect) :
    (effects.foldl perform page).state = page.state := by
  induction effects generalizing page with
  | nil => rfl
  | cons head rest ih =>
      rw [List.foldl_cons, ih]
      cases head <;> rfl

@[simp] theorem apply_state (page : Page) (transition : Transition) :
    (page.apply transition).state = transition.state :=
  foldl_perform_state _ _

theorem expire_due {page : Page} {event : PlayerEvent} (hevent : event ≠ .timeout .deadline) :
    (page.expire event).due .deadline = page.due .deadline := by
  cases event with
  | timeout timer =>
      have htimer : timer ≠ .deadline := fun heq => hevent (heq ▸ rfl)
      simp [expire, Function.update_of_ne htimer.symm]
  | _ => rfl

/-- One step, seen from the deadline. -/
theorem deadline_step {page next : Page} {action : PageAction} {effects : List Effect}
    (hpage : page.Accounted) (hstep : pageMachine.step page action = some (next, effects)) :
    deadlineStarts effects =
        (if !page.state.reconnecting && next.state.reconnecting then 1 else 0) ∧
      (next.InDrop → .clearTimer .deadline ∉ effects) ∧
      (page.state.reconnecting → next.InDrop →
        next.state.reconnecting ∧ next.due .deadline = page.due .deadline) := by
  cases action with
  | elapse ms =>
      simp only [pageMachine, Option.some.injEq, Prod.mk.injEq] at hstep
      obtain ⟨rfl, rfl⟩ := hstep
      refine ⟨?_, by simp, fun hrunning _ => ⟨hrunning, rfl⟩⟩
      cases page.state.reconnecting <;> rfl
  | event event =>
      simp only [pageMachine, Option.ite_none_right_eq_some, Option.some.injEq,
        Prod.mk.injEq] at hstep
      obtain ⟨haccepts, rfl, rfl⟩ := hstep
      obtain ⟨hstarts, hclears, hstays, -⟩ := keepsDeadline_step page.state hpage.flags event
      refine ⟨by simpa using hstarts, fun hdrop hmem =>
        hclears hmem (by simpa [InDrop] using hdrop),
        fun hrunning hdrop => ?_⟩
      have hdrop' : (step page.state event).state.InDrop := by simpa [InDrop] using hdrop
      have hevent : event ≠ .timeout .deadline := by
        rintro rfl
        rw [step_deadline hpage.flags hrunning] at hdrop'
        exact not_inDrop_of_resting rfl hdrop'
      refine ⟨by simpa using hstays hrunning hdrop', ?_⟩
      rw [hrunning] at hstarts
      rw [apply, due_deadline_foldl _ _ hstarts fun hmem => hclears hmem hdrop']
      exact expire_due hevent

variable {page next : Page} {drop : List (PageAction × List Effect)}

theorem accounted_inside (hpage : page.Accounted)
    (hrun : pageMachine.RunInside InDrop page drop next) : next.Accounted :=
  hrun.run.invariant accounted_preserved hpage

/-- Within a drop the deadline is started at most once, and only while it does not run. -/
theorem deadlineStarts_inside (hpage : page.Accounted)
    (hrun : pageMachine.RunInside InDrop page drop next) :
    deadlineStarts (effectsOf drop) ≤ 1 ∧
      (next.InDrop → deadlineStarts (effectsOf drop) = 1 → next.state.reconnecting) := by
  induction hrun with
  | nil => simp [effectsOf, deadlineStarts]
  | @snoc drop state next action effects hrun hinside hstep ih =>
      obtain ⟨hstarts, -, hstays⟩ := deadline_step (accounted_inside hpage hrun) hstep
      have hsum : deadlineStarts (effectsOf (drop ++ [(action, effects)])) =
          deadlineStarts (effectsOf drop) + deadlineStarts effects := by
        simp [effectsOf]
      have hbefore : state.state.reconnecting = false → deadlineStarts (effectsOf drop) = 0 := by
        intro hrunning
        rcases hinside with rfl | hinside
        · rfl
        · have hnot := mt (ih.2 hinside) (by simp [hrunning])
          omega
      cases hrunning : state.state.reconnecting with
      | true =>
          have hnone : deadlineStarts effects = 0 := by simpa [hrunning] using hstarts
          exact ⟨by omega, fun hnext _ => (hstays hrunning hnext).1⟩
      | false =>
          have hzero := hbefore hrunning
          rw [hsum, hzero, hstarts, hrunning]
          cases next.state.reconnecting <;> simp

theorem clears_inside (hpage : page.Accounted)
    (hrun : pageMachine.RunInside InDrop page drop next) (hnext : next.InDrop) :
    .clearTimer .deadline ∉ effectsOf drop := by
  induction hrun with
  | nil => simp [effectsOf]
  | @snoc drop state next action effects hrun hinside hstep ih =>
      obtain ⟨-, hclears, -⟩ := deadline_step (accounted_inside hpage hrun) hstep
      have hbefore : .clearTimer .deadline ∉ effectsOf drop := by
        rcases hinside with rfl | hinside
        · simp [effectsOf]
        · exact ih hinside
      simpa [effectsOf] using ⟨by simpa [effectsOf] using hbefore, hclears hnext⟩

theorem due_inside (hpage : page.Accounted) (hrunning : page.state.reconnecting)
    (hrun : pageMachine.RunInside InDrop page drop next) (hnext : next.InDrop) :
    next.state.reconnecting ∧ next.due .deadline = page.due .deadline := by
  induction hrun with
  | nil => exact ⟨hrunning, rfl⟩
  | @snoc drop state next action effects hrun hinside hstep ih =>
      have hstate : state.InDrop := by
        rcases hinside with rfl | hinside
        · obtain rfl := hrun.eq_start
          exact (hpage.flags.reconnecting hrunning).symm
        · exact hinside
      obtain ⟨hbefore, hdue⟩ := ih hstate
      obtain ⟨-, -, hstays⟩ := deadline_step (accounted_inside hpage hrun) hstep
      obtain ⟨hafter, hsame⟩ := hstays hbefore hnext
      exact ⟨hafter, hsame.trans hdue⟩

/-- What holds of the deadline on a reachable page, over every drop that starts there. -/
structure DeadlineHard (page : Page) : Prop where
  armed : page.running .deadline ↔ page.state.reconnecting
  once : ∀ drop next, pageMachine.RunInside InDrop page drop next →
    deadlineStarts (effectsOf drop) ≤ 1
  kept : ∀ drop next, pageMachine.RunInside InDrop page drop next → next.InDrop →
    .clearTimer .deadline ∉ effectsOf drop
  started : ∀ event lost effects ms,
    pageMachine.step page (.event event) = some (lost, effects) →
    .setTimer .deadline ms ∈ effects →
    (ms = DEADLINE_MS ∨ event = .timeout .stall ∧ ms = DEADLINE_MS - STALL_MS) ∧
      ∀ drop next, pageMachine.RunInside InDrop lost drop next → next.InDrop →
        next.due .deadline = some (page.now + ms)
  fires : page.running .deadline → ∃ lost effects,
    pageMachine.step page (.event (.timeout .deadline)) = some (lost, effects) ∧
      lost.state.phase = .failed ∧ lost.state.reason = some .lost

theorem started_due {event : PlayerEvent} {lost : Page} {effects : List Effect} {ms : Nat}
    (hpage : page.Accounted)
    (hstep : pageMachine.step page (.event event) = some (lost, effects))
    (hset : .setTimer .deadline ms ∈ effects) :
    (ms = DEADLINE_MS ∨ event = .timeout .stall ∧ ms = DEADLINE_MS - STALL_MS) ∧
      lost.state.reconnecting ∧ lost.due .deadline = some (page.now + ms) := by
  simp only [pageMachine, Option.ite_none_right_eq_some, Option.some.injEq,
    Prod.mk.injEq] at hstep
  obtain ⟨haccepts, rfl, rfl⟩ := hstep
  obtain ⟨hstarts, hclears, -, hlength⟩ := keepsDeadline_step page.state hpage.flags event
  have hpos : 0 < deadlineStarts (step page.state event).effects :=
    List.countP_pos_iff.mpr ⟨_, hset, rfl⟩
  have hone : deadlineStarts (step page.state event).effects = 1 := by
    split at hstarts <;> omega
  have hlost := accounted_step page hpage event haccepts
  have hreconnecting : (step page.state event).state.reconnecting := by
    rw [hone] at hstarts
    by_contra hnot
    simp [Bool.eq_false_iff.mpr hnot] at hstarts
  have hdrop : (step page.state event).state.InDrop := by
    have hflags := hlost.flags
    rw [apply_state] at hflags
    exact (hflags.reconnecting hreconnecting).symm
  refine ⟨hlength ms hset, by simpa using hreconnecting, ?_⟩
  rw [apply, due_deadline_foldl_started _ _ hone (fun hmem => hclears hmem hdrop) hset]
  cases event <;> rfl

/-- On every reachable page the deadline runs exactly while reconnecting, a drop
starts it at most once and never moves it, and its timeout ends the drop as lost. -/
theorem deadline_is_hard {trace : List (PageAction × List Effect)} {page : Page}
    (hrun : pageMachine.Run Page.initial trace page) : page.DeadlineHard := by
  have hpage := accounted_run hrun
  have harmed : page.running .deadline = page.state.reconnecting := hpage.timers _ (by simp)
  constructor
  case armed => simp [harmed]
  case once => exact fun drop next hdrop => (deadlineStarts_inside hpage hdrop).1
  case kept => exact fun drop next hdrop hnext => clears_inside hpage hdrop hnext
  -- Set when the drop begins; nothing inside the drop moves the time it is due.
  case started =>
    intro event lost effects ms hstep hset
    obtain ⟨hms, hreconnecting, hdue⟩ := started_due hpage hstep hset
    have hlost := accounted_preserved hpage hstep
    refine ⟨hms, fun drop next hdrop hnext => ?_⟩
    exact (due_inside hlost hreconnecting hdrop hnext).2.trans hdue
  case fires =>
    intro hrunning
    refine ⟨_, _, if_pos hrunning, ?_⟩
    rw [step_deadline hpage.flags (harmed ▸ hrunning)]
    simp [leave]

/-- A page whose audio stalled, then was lost for good. -/
theorem deadline_is_hard_stalled :
    ∃ trace page, pageMachine.Run Page.initial trace page ∧
      page.due .deadline = some 60000 ∧ page.DeadlineHard := by
  have hplay := Transition.Machine.Run.single
    (show pageMachine.step initial (.event .play) = some (_, _) from rfl)
  have hopen := hplay.snoc (show pageMachine.step _ (.event .eventsOpen) = some (_, _) from rfl)
  have hplaying := hopen.snoc
    (show pageMachine.step _ (.event .audioPlaying) = some (_, _) from rfl)
  have hwaiting := hplaying.snoc
    (show pageMachine.step _ (.event .audioWaiting) = some (_, _) from rfl)
  have helapse := hwaiting.snoc (show pageMachine.step _ (.elapse 10000) = some (_, _) from rfl)
  have hstalled := helapse.snoc
    (show pageMachine.step _ (.event (.timeout .stall)) = some (_, _) from rfl)
  exact ⟨_, _, hstalled, rfl, deadline_is_hard hstalled⟩

end Page

end RetroStation.Player
