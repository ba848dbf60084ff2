import Mathlib.Logic.Function.Basic
import RetroStation.Transition.Run

/-! # Parties that take turns

Any number of parties work on what they share, one step of one party at a time. A party is
where it is in its work; which party goes next, and what the world answers it, stands
outside. An invariant of such a pool is one of the shared state with one of each party,
begun or not, which the other parties' steps must leave alone.
-/

namespace Transition

universe u v w x

/-- What the parties share, and where each of them is. -/
structure Pool (Shared : Type u) (Local : Type v) where
  shared : Shared
  locals : Nat → Option Local

inductive PoolAction (Request : Type u) (Choice : Type v)
  | start (id : Nat) (request : Request)
  | turn (id : Nat) (choice : Choice)

def PoolAction.id {Request : Type u} {Choice : Type v} : PoolAction Request Choice → Nat
  | .start id _ => id
  | .turn id _ => id

/-- How a party begins its request, and what it does at its turn; `none` is a party that
waits, or has no such step. -/
structure Party (Shared : Type u) (Local : Type v) (Request : Type w) (Choice : Type x) where
  enter : Request → Local
  turn : Nat → Shared → Local → Choice → Option (Shared × Local)

namespace Party

variable {Shared : Type u} {Local : Type v} {Request : Type w} {Choice : Type x}

def machine (party : Party Shared Local Request Choice) :
    Machine (Pool Shared Local) (PoolAction Request Choice) Unit where
  step pool
    | .start id request =>
      if (pool.locals id).isSome then none
      else some (⟨pool.shared, Function.update pool.locals id (some (party.enter request))⟩, ())
    | .turn id choice =>
      (pool.locals id).bind fun here =>
        (party.turn id pool.shared here choice).map fun result =>
          (⟨result.1, Function.update pool.locals id (some result.2)⟩, ())

/-- The invariant of a pool: one of what is shared, and one of each party. -/
structure Holds (shared : Shared → Prop) (own : Shared → Nat → Option Local → Prop)
    (pool : Pool Shared Local) : Prop where
  shared : shared pool.shared
  own : ∀ id, own pool.shared id (pool.locals id)

variable {party : Party Shared Local Request Choice} {shared : Shared → Prop}
  {own : Shared → Nat → Option Local → Prop}
  {met : Pool Shared Local → PoolAction Request Choice → Prop}
  {pool next : Pool Shared Local} {output : Unit}

theorem step_start {id : Nat} {request : Request}
    (hstep : party.machine.step pool (.start id request) = some (next, output)) :
    pool.locals id = none ∧
      next = ⟨pool.shared, Function.update pool.locals id (some (party.enter request))⟩ := by
  simp only [machine] at hstep
  split at hstep
  · cases hstep
  next hnone =>
    refine ⟨by simpa using hnone, ?_⟩
    exact (Prod.mk.inj (Option.some.inj hstep)).1.symm

theorem step_turn {id : Nat} {choice : Choice}
    (hstep : party.machine.step pool (.turn id choice) = some (next, output)) :
    ∃ here state there, pool.locals id = some here ∧
      party.turn id pool.shared here choice = some (state, there) ∧
      next = ⟨state, Function.update pool.locals id (some there)⟩ := by
  obtain ⟨here, hhere, hstep⟩ := Option.bind_eq_some_iff.mp hstep
  obtain ⟨⟨state, there⟩, hturned, heq⟩ := Option.map_eq_some_iff.mp hstep
  exact ⟨here, state, there, hhere, hturned, (Prod.mk.inj heq).1.symm⟩

/-- A party that takes no step stays where it is. -/
theorem step_locals {action : PoolAction Request Choice} {id : Nat}
    (hstep : party.machine.step pool action = some (next, output)) (hid : action.id ≠ id) :
    next.locals id = pool.locals id := by
  cases action with
  | start other request =>
      obtain ⟨-, rfl⟩ := step_start hstep
      exact Function.update_of_ne hid.symm _ _
  | turn other choice =>
      obtain ⟨_, _, _, -, -, rfl⟩ := step_turn hstep
      exact Function.update_of_ne hid.symm _ _

/-- A party that none of the actions is about stays where it began. -/
theorem exec_locals {start : Pool Shared Local} {actions : List (PoolAction Request Choice)}
    {trace : List (PoolAction Request Choice × Unit)} {id : Nat}
    (hexec : party.machine.exec start actions = some (trace, pool))
    (hidle : ∀ action ∈ actions, action.id ≠ id) : pool.locals id = start.locals id := by
  refine @Machine.invariant_of_exec _ _ _ _ (fun pool => pool.locals id = start.locals id)
    _ _ _ _ hexec rfl fun action haction before after output hbefore hstep => ?_
  exact (step_locals hstep (hidle action haction)).trans hbefore

/-- A step keeps the invariant if the party that takes it does, and leaves the others alone. -/
theorem holds_step
    (henter : ∀ pool id request, Holds shared own pool → met pool (.start id request) →
      pool.locals id = none → own pool.shared id (some (party.enter request)))
    (hturn : ∀ pool id choice here state there, Holds shared own pool →
      met pool (.turn id choice) → pool.locals id = some here →
      party.turn id pool.shared here choice = some (state, there) →
      shared state ∧ own state id (some there))
    (hothers : ∀ pool id choice here state there other, Holds shared own pool →
      met pool (.turn id choice) → pool.locals id = some here →
      party.turn id pool.shared here choice = some (state, there) → other ≠ id →
      own state other (pool.locals other))
    {action : PoolAction Request Choice} (hholds : Holds shared own pool) (hmet : met pool action)
    (hstep : party.machine.step pool action = some (next, output)) : Holds shared own next := by
  cases action with
  | start id request =>
      obtain ⟨hnone, rfl⟩ := step_start hstep
      refine ⟨hholds.shared, fun other => ?_⟩
      by_cases hsame : other = id
      · subst hsame
        dsimp only
        rw [Function.update_self]
        exact henter pool other request hholds hmet hnone
      · dsimp only
        rw [Function.update_of_ne hsame]
        exact hholds.own other
  | turn id choice =>
      obtain ⟨here, state, there, hhere, hturned, rfl⟩ := step_turn hstep
      obtain ⟨hshared, hown⟩ := hturn pool id choice here state there hholds hmet hhere hturned
      refine ⟨hshared, fun other => ?_⟩
      by_cases hsame : other = id
      · subst hsame
        dsimp only
        rw [Function.update_self]
        exact hown
      · dsimp only
        rw [Function.update_of_ne hsame]
        exact hothers pool id choice here state there other hholds hmet hhere hturned hsame

/-- As `holds_step`, where no step has to meet a condition. -/
theorem preserves_holds
    (henter : ∀ pool id request, Holds shared own pool → pool.locals id = none →
      own pool.shared id (some (party.enter request)))
    (hturn : ∀ pool id choice here state there, Holds shared own pool → pool.locals id = some here →
      party.turn id pool.shared here choice = some (state, there) →
      shared state ∧ own state id (some there))
    (hothers : ∀ pool id choice here state there other, Holds shared own pool →
      pool.locals id = some here → party.turn id pool.shared here choice = some (state, there) →
      other ≠ id → own state other (pool.locals other)) :
    party.machine.Preserves (Holds shared own) := by
  intro pool next action output hholds hstep
  refine @holds_step _ _ _ _ party shared own (fun _ _ => True) pool next output
    (fun pool id request hholds _ => henter pool id request hholds)
    (fun pool id choice here state there hholds _ => hturn pool id choice here state there hholds)
    (fun pool id choice here state there other hholds _ =>
      hothers pool id choice here state there other hholds) action hholds trivial hstep

end Party

end Transition
