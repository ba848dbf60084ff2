import Mathlib.Data.List.Basic
import Mathlib.Data.List.Induction
import Mathlib.Order.Defs.PartialOrder

/-! # Runs of a deterministic machine

A machine accepts some actions in each state; an accepted action fixes the next
state and an output. Whoever chooses the actions (an environment, a scheduler,
a user) stands outside, so a theorem about every run is a theorem about every
order in which they can be taken.
-/

namespace Transition

universe u v w

/-- A partial step function: `none` is an action the state does not accept. -/
structure Machine (State : Type u) (Action : Type v) (Output : Type w) where
  step : State → Action → Option (State × Output)

namespace Machine

variable {State : Type u} {Action : Type v} {Output : Type w}
variable (M : Machine State Action Output)

/-- The runs from `start`, with the actions taken and the outputs they gave. -/
inductive Run (start : State) : List (Action × Output) → State → Prop
  | nil : Run start [] start
  | snoc {trace : List (Action × Output)} {state next : State} {action : Action}
      {output : Output} (hrun : Run start trace state)
      (hstep : M.step state action = some (next, output)) :
      Run start (trace ++ [(action, output)]) next

/-- The runs whose every step but the first starts in a state satisfying
`inside`. The first and the last state are free. -/
inductive RunInside (inside : State → Prop) (start : State) :
    List (Action × Output) → State → Prop
  | nil : RunInside inside start [] start
  | snoc {trace : List (Action × Output)} {state next : State} {action : Action}
      {output : Output} (hrun : RunInside inside start trace state)
      (hinside : trace = [] ∨ inside state)
      (hstep : M.step state action = some (next, output)) :
      RunInside inside start (trace ++ [(action, output)]) next

/-- One step keeps the predicate. -/
def Preserves (invariant : State → Prop) : Prop :=
  ∀ ⦃state next : State⦄ ⦃action : Action⦄ ⦃output : Output⦄, invariant state →
    M.step state action = some (next, output) → invariant next

variable {M}

namespace Run

variable {start state next : State} {trace more : List (Action × Output)}

theorem single {action : Action} {output : Output}
    (hstep : M.step start action = some (next, output)) :
    M.Run start [(action, output)] next := by
  simpa using Run.snoc Run.nil hstep

theorem trans (hfirst : M.Run start trace state) (hsecond : M.Run state more next) :
    M.Run start (trace ++ more) next := by
  induction hsecond with
  | nil => simpa using hfirst
  | snoc _ hstep ih => simpa only [List.append_assoc] using ih.snoc hstep

theorem of_snoc {action : Action} {output : Output}
    (hrun : M.Run start (trace ++ [(action, output)]) next) :
    ∃ state, M.Run start trace state ∧ M.step state action = some (next, output) := by
  generalize hwhole : trace ++ [(action, output)] = whole at hrun
  cases hrun with
  | nil => simp at hwhole
  | snoc hrun hstep =>
      obtain ⟨rfl, hlast⟩ := List.append_inj' hwhole rfl
      obtain ⟨rfl, rfl⟩ := Prod.mk.inj (List.singleton_inj.mp hlast)
      exact ⟨_, hrun, hstep⟩

/-- The actions of a run fix the state it ends in. -/
theorem deterministic (hfirst : M.Run start trace state) (hsecond : M.Run start trace next) :
    state = next := by
  induction hfirst generalizing next with
  | nil =>
      generalize htrace : ([] : List (Action × Output)) = trace at hsecond
      cases hsecond with
      | nil => rfl
      | snoc => simp at htrace
  | snoc _ hstep ih =>
      obtain ⟨middle, hmiddle, hlast⟩ := hsecond.of_snoc
      obtain rfl := ih hmiddle
      rw [hstep] at hlast
      exact (Prod.mk.inj (Option.some.inj hlast)).1

theorem of_append (hrun : M.Run start (trace ++ more) next) :
    ∃ state, M.Run start trace state ∧ M.Run state more next := by
  induction more using List.reverseRecOn generalizing next with
  | nil => exact ⟨next, by simpa using hrun, .nil⟩
  | append_singleton more last ih =>
      rw [← List.append_assoc] at hrun
      obtain ⟨middle, hrun, hlast⟩ := hrun.of_snoc
      obtain ⟨state, hfirst, hsecond⟩ := ih hrun
      exact ⟨state, hfirst, hsecond.snoc hlast⟩

theorem of_cons {action : Action} {output : Output}
    (hrun : M.Run start ((action, output) :: trace) next) :
    ∃ state, M.step start action = some (state, output) ∧ M.Run state trace next := by
  obtain ⟨state, hfirst, hrest⟩ := @of_append _ _ _ M start next [(action, output)] trace hrun
  obtain ⟨first, hnil, hstep⟩ := @of_snoc _ _ _ M start state [] action output hfirst
  obtain rfl := deterministic hnil .nil
  exact ⟨state, hstep, hrest⟩

/-- A run passes through every step of its trace. -/
theorem split {before after : List (Action × Output)} {action : Action} {output : Output}
    (hrun : M.Run start (before ++ (action, output) :: after) next) :
    ∃ state later, M.Run start before state ∧ M.step state action = some (later, output) ∧
      M.Run later after next := by
  obtain ⟨state, hbefore, hrest⟩ := hrun.of_append
  obtain ⟨later, hstep, hafter⟩ := hrest.of_cons
  exact ⟨state, later, hbefore, hstep, hafter⟩

/-- What every step keeps holds at the end of every run. -/
theorem invariant {invariant : State → Prop} (hkeep : M.Preserves invariant)
    (hstart : invariant start) (hrun : M.Run start trace state) : invariant state := by
  induction hrun with
  | nil => exact hstart
  | snoc _ hstep ih => exact hkeep ih hstep

/-- A reflexive and transitive relation that every step from a good state
follows relates the two ends of every run. -/
theorem relates {invariant : State → Prop} {relation : State → State → Prop}
    (hkeep : M.Preserves invariant) (hrefl : ∀ state, relation state state)
    (htrans : ∀ {a b c}, relation a b → relation b c → relation a c)
    (hsteps : ∀ ⦃state next action output⦄, invariant state →
      M.step state action = some (next, output) → relation state next)
    (hstart : invariant start) (hrun : M.Run start trace state) : relation start state := by
  induction hrun with
  | nil => exact hrefl _
  | snoc hrun hstep ih => exact htrans ih (hsteps (hrun.invariant hkeep hstart) hstep)

/-- A store that no allowed step fills, and that a turn takes from, bounds the turns of
every run of allowed steps. -/
theorem turns_le {invariant : State → Prop} {store : State → Nat} {turn allowed : Action → Bool}
    (hkeep : M.Preserves invariant)
    (hspends : ∀ ⦃state next action output⦄, invariant state → allowed action →
      M.step state action = some (next, output) →
      store next + (if turn action then 1 else 0) ≤ store state)
    (hstart : invariant start) (hallowed : ∀ entry ∈ trace, allowed entry.1)
    (hrun : M.Run start trace state) :
    store state + trace.countP (fun entry => turn entry.1) ≤ store start := by
  induction hrun with
  | nil => exact Nat.le_refl _
  | @snoc trace state next action output hrun hstep ih =>
      have hbefore := ih fun entry hentry => hallowed entry (List.mem_append_left _ hentry)
      have hlast : store next + (if turn action then 1 else 0) ≤ store state :=
        hspends (hrun.invariant hkeep hstart) (hallowed (action, output) (by simp)) hstep
      rw [List.countP_append, List.countP_singleton]
      dsimp only
      omega

/-- What a step says of its own output, once later steps keep it, holds of
every output of the run in the state the run ends in. -/
theorem outputs {invariant : State → Prop} {said : State → Action → Output → Prop}
    (hkeep : M.Preserves invariant)
    (hsaid : ∀ ⦃state next action output⦄, invariant state →
      M.step state action = some (next, output) → said next action output)
    (hstable : ∀ ⦃state next action output action' output'⦄, invariant state →
      said state action' output' → M.step state action = some (next, output) →
      said next action' output')
    (hstart : invariant start) (hrun : M.Run start trace state) :
    ∀ entry ∈ trace, said state entry.1 entry.2 := by
  induction hrun with
  | nil => simp
  | snoc hrun hstep ih =>
      have hmiddle := hrun.invariant hkeep hstart
      intro entry hentry
      rcases List.mem_append.mp hentry with hentry | hentry
      · exact hstable hmiddle (ih entry hentry) hstep
      · obtain rfl := List.mem_singleton.mp hentry
        exact hsaid hmiddle hstep

end Run

variable (M) in
/-- Every action of the trace is taken in a state where it meets the condition. -/
def Meets (met : State → Action → Prop) (start : State) (trace : List (Action × Output)) : Prop :=
  ∀ before action output after state, trace = before ++ (action, output) :: after →
    M.Run start before state → met state action

namespace Meets

variable {met : State → Action → Prop} {start state next : State}
  {trace more : List (Action × Output)}

theorem nil : M.Meets met start [] := by
  intro before action output after state htrace
  simp at htrace

theorem snoc {action : Action} {output : Output} (hmeets : M.Meets met start trace)
    (hlast : ∀ state, M.Run start trace state → met state action) :
    M.Meets met start (trace ++ [(action, output)]) := by
  intro before action' output' after state htrace hrun
  rcases List.eq_nil_or_concat after with rfl | ⟨others, final, rfl⟩
  · obtain ⟨rfl, heq⟩ := List.append_inj' htrace rfl
    obtain ⟨rfl, -⟩ := Prod.mk.inj (List.singleton_inj.mp heq)
    exact hlast state hrun
  · rw [List.concat_eq_append, ← List.cons_append, ← List.append_assoc] at htrace
    obtain ⟨rfl, -⟩ := List.append_inj' htrace rfl
    exact hmeets before action' output' others state rfl hrun

theorem cons {action : Action} {output : Output} (hmet : met start action)
    (hstep : M.step start action = some (next, output)) (hrest : M.Meets met next trace) :
    M.Meets met start ((action, output) :: trace) := by
  intro before action' output' after state htrace hrun
  cases before with
  | nil =>
      obtain ⟨hfirst, -⟩ := List.cons.inj htrace
      obtain ⟨rfl, -⟩ := Prod.mk.inj hfirst
      obtain rfl := hrun.deterministic .nil
      exact hmet
  | cons entry before =>
      obtain ⟨rfl, rfl⟩ := List.cons.inj htrace
      obtain ⟨middle, htaken, hrun⟩ := hrun.of_cons
      rw [hstep] at htaken
      obtain ⟨rfl, -⟩ := Prod.mk.inj (Option.some.inj htaken)
      exact hrest before action' output' after state rfl hrun

theorem left (hmeets : M.Meets met start (trace ++ more)) : M.Meets met start trace := by
  rintro before action output after state rfl hrun
  exact hmeets before action output (after ++ more) state (by simp) hrun

theorem last {action : Action} {output : Output}
    (hmeets : M.Meets met start (trace ++ [(action, output)])) (hrun : M.Run start trace state) :
    met state action := hmeets trace action output [] state rfl hrun

/-- What every step that meets the condition keeps holds at the end of a run of them. -/
theorem invariant {invariant : State → Prop}
    (hkeep : ∀ ⦃state next action output⦄, invariant state → met state action →
      M.step state action = some (next, output) → invariant next)
    (hstart : invariant start) (hrun : M.Run start trace state) (hmeets : M.Meets met start trace) :
    invariant state := by
  induction hrun with
  | nil => exact hstart
  | snoc hrun hstep ih => exact hkeep (ih hmeets.left) (hmeets.last hrun) hstep

/-- If a step keeps a good state good exactly where it meets the condition, a run stays
good exactly where all its steps do. -/
theorem iff_invariant {invariant good : State → Prop} (hkeep : M.Preserves invariant)
    (hstep : ∀ ⦃state next action output⦄, invariant state → good state →
      M.step state action = some (next, output) → (good next ↔ met state action))
    (hstart : invariant start) (hgood : good start) (hrun : M.Run start trace state) :
    M.Meets met start trace ↔
      ∀ before after reached, trace = before ++ after → M.Run start before reached →
        good reached := by
  constructor
  · rintro hmeets before after reached rfl hbefore
    have hboth := @Meets.invariant _ _ _ M met start reached before
      (fun state => invariant state ∧ good state) (fun _ _ _ _ hstate hmet htaken =>
        ⟨hkeep hstate.1 htaken, (hstep hstate.1 hstate.2 htaken).mpr hmet⟩)
      ⟨hstart, hgood⟩ hbefore hmeets.left
    exact hboth.2
  · rintro hall before action output after current rfl hbefore
    obtain ⟨middle, later, hmiddle, htaken, -⟩ := hrun.split
    obtain rfl := hbefore.deterministic hmiddle
    refine (hstep (hbefore.invariant hkeep hstart)
      (hall before ((action, output) :: after) current rfl hbefore) htaken).mp ?_
    exact hall (before ++ [(action, output)]) after later (by simp) (hbefore.snoc htaken)

end Meets

variable (M) in
/-- Take the actions in turn, as long as each is accepted. -/
def exec (start : State) : List Action → Option (List (Action × Output) × State)
  | [] => some ([], start)
  | action :: rest =>
    match M.step start action with
    | none => none
    | some (next, output) =>
      (exec next rest).map fun (trace, last) => ((action, output) :: trace, last)

theorem run_of_exec {start state : State} {actions : List Action}
    {trace : List (Action × Output)} (hexec : M.exec start actions = some (trace, state)) :
    M.Run start trace state := by
  induction actions generalizing start trace with
  | nil =>
      obtain ⟨rfl, rfl⟩ := Prod.mk.inj (Option.some.inj hexec)
      exact .nil
  | cons action rest ih =>
      unfold exec at hexec
      split at hexec
      · cases hexec
      next next output hstep =>
        obtain ⟨⟨later, last⟩, hrest, heq⟩ := Option.map_eq_some_iff.mp hexec
        obtain ⟨rfl, rfl⟩ := Prod.mk.inj heq
        exact (Run.single hstep).trans (ih hrest)

theorem exec_append {start middle : State} {first second : List Action}
    {trace : List (Action × Output)} (hfirst : M.exec start first = some (trace, middle)) :
    M.exec start (first ++ second) =
      (M.exec middle second).map fun (more, last) => (trace ++ more, last) := by
  induction first generalizing start trace with
  | nil =>
      obtain ⟨rfl, rfl⟩ := Prod.mk.inj (Option.some.inj hfirst)
      simp
  | cons action rest ih =>
      unfold exec at hfirst
      split at hfirst
      · cases hfirst
      next next output hstep =>
        obtain ⟨⟨later, last⟩, hrest, heq⟩ := Option.map_eq_some_iff.mp hfirst
        obtain ⟨rfl, rfl⟩ := Prod.mk.inj heq
        rw [List.cons_append, exec, hstep]
        dsimp only
        rw [ih hrest, Option.map_map]
        rfl

/-- A run is what taking its actions in turn gives. -/
theorem Run.exec_eq {start state : State} {trace : List (Action × Output)}
    (hrun : M.Run start trace state) : M.exec start (trace.map Prod.fst) = some (trace, state) := by
  induction hrun with
  | nil => rfl
  | snoc _ hstep ih =>
      rw [List.map_append, exec_append ih]
      simp only [List.map_cons, List.map_nil, exec, hstep, Option.map_some]

/-- What the given actions keep holds once they are all taken. -/
theorem invariant_of_exec {invariant : State → Prop} {start state : State}
    {actions : List Action} {trace : List (Action × Output)}
    (hexec : M.exec start actions = some (trace, state)) (hstart : invariant start)
    (hkeep : ∀ action ∈ actions, ∀ ⦃state next output⦄, invariant state →
      M.step state action = some (next, output) → invariant next) : invariant state := by
  induction actions generalizing start trace with
  | nil =>
      obtain ⟨rfl, rfl⟩ := Prod.mk.inj (Option.some.inj hexec)
      exact hstart
  | cons action rest ih =>
      unfold exec at hexec
      split at hexec
      · cases hexec
      next next output hstep =>
        obtain ⟨⟨later, last⟩, hrest, heq⟩ := Option.map_eq_some_iff.mp hexec
        obtain ⟨rfl, rfl⟩ := Prod.mk.inj heq
        exact ih hrest (hkeep action List.mem_cons_self hstart hstep)
          fun action hmem => hkeep action (List.mem_cons_of_mem _ hmem)

/-- Actions that wait until their turn, and whose work no other action undoes, are all done
once each has been taken. -/
theorem done_of_exec {invariant : State → Prop} {waiting done : Action → State → Prop}
    (hdo : ∀ ⦃state next action output⦄, invariant state → waiting action state →
      M.step state action = some (next, output) → invariant next ∧ done action next)
    (hkeep : ∀ ⦃state next action output other⦄, invariant state → waiting action state →
      other ≠ action → M.step state action = some (next, output) →
      (waiting other state → waiting other next) ∧ (done other state → done other next))
    {start state : State} {actions : List Action} {trace : List (Action × Output)}
    (hexec : M.exec start actions = some (trace, state)) (hstart : invariant start)
    (hnodup : actions.Nodup) (hwaiting : ∀ action ∈ actions, waiting action start) :
    (∀ action ∈ actions, done action state) ∧
      ∀ other, other ∉ actions → done other start → done other state := by
  induction actions generalizing start trace with
  | nil =>
      obtain ⟨rfl, rfl⟩ := Prod.mk.inj (Option.some.inj hexec)
      exact ⟨by simp, fun _ _ hdone => hdone⟩
  | cons action rest ih =>
      unfold exec at hexec
      split at hexec
      · cases hexec
      next next output hstep =>
        obtain ⟨⟨later, last⟩, hrest, heq⟩ := Option.map_eq_some_iff.mp hexec
        obtain ⟨rfl, rfl⟩ := Prod.mk.inj heq
        obtain ⟨hnew, hnodup⟩ := List.nodup_cons.mp hnodup
        have hfirst := hwaiting action List.mem_cons_self
        obtain ⟨hnext, hdone⟩ := hdo hstart hfirst hstep
        obtain ⟨hall, hothers⟩ := ih hrest hnext hnodup fun other hother =>
          (hkeep hstart hfirst (fun hsame => hnew (hsame ▸ hother)) hstep).1
            (hwaiting other (List.mem_cons_of_mem _ hother))
        refine ⟨fun other hother => ?_, fun other hother hdone => ?_⟩
        · rcases List.mem_cons.mp hother with rfl | hother
          · exact hothers other hnew hdone
          · exact hall other hother
        · have hne : other ≠ action := fun hsame => hother (hsame ▸ List.mem_cons_self)
          exact hothers other (fun hmem => hother (List.mem_cons_of_mem _ hmem))
            ((hkeep hstart hfirst hne hstep).2 hdone)

variable (M) in
/-- The machine that takes the allowed actions only. -/
def restrict (allowed : Action → Prop) [DecidablePred allowed] : Machine State Action Output where
  step state action := if allowed action then M.step state action else none

theorem restrict_step {allowed : Action → Prop} [DecidablePred allowed] {state : State}
    {action : Action} {result : State × Output} :
    (M.restrict allowed).step state action = some result ↔
      allowed action ∧ M.step state action = some result := by
  simp [restrict]

variable (M) in
/-- The machine that takes an action only where it meets the condition. -/
def guarded (met : State → Action → Prop) [∀ state action, Decidable (met state action)] :
    Machine State Action Output where
  step state action := if met state action then M.step state action else none

theorem Run.of_guarded {met : State → Action → Prop}
    [∀ state action, Decidable (met state action)] {start state : State}
    {trace : List (Action × Output)} (hrun : (M.guarded met).Run start trace state) :
    M.Run start trace state ∧ M.Meets met start trace := by
  induction hrun with
  | nil => exact ⟨.nil, .nil⟩
  | snoc _ hstep ih =>
      obtain ⟨hrun, hmeets⟩ := ih
      simp only [guarded, Option.ite_none_right_eq_some] at hstep
      refine ⟨hrun.snoc hstep.2, hmeets.snoc fun other hother => ?_⟩
      obtain rfl := hother.deterministic hrun
      exact hstep.1

namespace RunInside

variable {inside : State → Prop} {start state : State} {trace : List (Action × Output)}

theorem run (hrun : M.RunInside inside start trace state) : M.Run start trace state := by
  induction hrun with
  | nil => exact .nil
  | snoc _ _ hstep ih => exact ih.snoc hstep

theorem eq_start (hrun : M.RunInside inside start [] state) : state = start := by
  generalize htrace : ([] : List (Action × Output)) = trace at hrun
  cases hrun with
  | nil => rfl
  | snoc => simp at htrace

end RunInside

end Machine

end Transition

/-! ## A machine that another stands for

A relation between the states of two machines that every allowed step of the one carries
over to a step of the other, with the same output, carries whole runs over.
-/

namespace Transition

namespace Machine

universe u v w x

variable {State : Type u} {Other : Type v} {Action : Type w} {Output : Type x}
  {M : Machine State Action Output} {N : Machine Other Action Output}

theorem Run.simulate {met : State → Action → Prop} {related : State → Other → Prop}
    (hstep : ∀ ⦃state next action output other⦄, related state other → met state action →
      M.step state action = some (next, output) →
      ∃ later, N.step other action = some (later, output) ∧ related next later)
    {start state : State} {begin : Other} {trace : List (Action × Output)}
    (hstart : related start begin) (hrun : M.Run start trace state)
    (hmeets : M.Meets met start trace) :
    ∃ other, N.Run begin trace other ∧ related state other := by
  induction hrun with
  | nil => exact ⟨begin, .nil, hstart⟩
  | snoc hrun htaken ih =>
      obtain ⟨other, hother, hrelated⟩ := ih hmeets.left
      obtain ⟨later, hlater, hnext⟩ := hstep hrelated (hmeets.last hrun) htaken
      exact ⟨later, hother.snoc hlater, hnext⟩

end Machine

end Transition
