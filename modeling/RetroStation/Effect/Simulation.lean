import Mathlib.Data.List.Basic
import Mathlib.Order.Defs.Unbundled
import Mathlib.Tactic.Common

/-! # Computations that may fail

What a step followed by another one ends with.
-/

namespace Effect

variable {ε α β : Type} {first : Except ε α} {next : α → Except ε β}

theorem bind_eq_ok_iff {result : β} :
    (first >>= next) = .ok result ↔ ∃ value, first = .ok value ∧ next value = .ok result := by
  cases first <;> simp [bind, Except.bind]

theorem bind_eq_error_iff {error : ε} :
    (first >>= next) = .error error ↔
      first = .error error ∨ ∃ value, first = .ok value ∧ next value = .error error := by
  cases first <;> simp [bind, Except.bind]

end Effect

/-! ## Computations with a state and failures

A computation reads and changes a state and may fail; a failure keeps what was
changed before it. A computation whose state holds more than it needs (reads it
has kept, counters nobody asks for) simulates one that works on a part of it.
-/

namespace Effect

universe u

abbrev Comp (State Error Value : Type u) := ExceptT Error (StateM State) Value

variable {State Part Error Value Result : Type u}

/-- What a computation returns or fails with, and the state it leaves. -/
def outcome (comp : Comp State Error Value) (state : State) : Except Error Value × State :=
  StateT.run (ExceptT.run comp) state

@[simp] theorem outcome_pure (value : Value) (state : State) :
    outcome (pure value : Comp State Error Value) state = (.ok value, state) := rfl

@[simp] theorem outcome_throw (error : Error) (state : State) :
    outcome (throw error : Comp State Error Value) state = (.error error, state) := rfl

@[simp] theorem outcome_get (state : State) :
    outcome (get : Comp State Error State) state = (.ok state, state) := rfl

@[simp] theorem outcome_set (next state : State) :
    outcome (set next : Comp State Error PUnit) state = (.ok ⟨⟩, next) := rfl

theorem outcome_bind (comp : Comp State Error Value) (next : Value → Comp State Error Result)
    (state : State) :
    outcome (comp >>= next) state =
      match outcome comp state with
      | (.ok value, later) => outcome (next value) later
      | (.error error, later) => (.error error, later) := by
  simp only [outcome, ExceptT.run_bind, StateT.run_bind]
  generalize StateT.run (ExceptT.run comp) state = first
  obtain ⟨_ | _, later⟩ := first <;> rfl

theorem outcome_map (f : Value → Result) (comp : Comp State Error Value) (state : State) :
    outcome (f <$> comp) state = ((outcome comp state).1.map f, (outcome comp state).2) := by
  rw [← bind_pure_comp, outcome_bind]
  obtain ⟨_ | _, later⟩ := outcome comp state <;> rfl

theorem outcome_tryCatch (comp : Comp State Error Value) (handle : Error → Comp State Error Value)
    (state : State) :
    outcome (tryCatch comp handle) state =
      match outcome comp state with
      | (.ok value, later) => (.ok value, later)
      | (.error error, later) => outcome (handle error) later := by
  simp only [outcome, ExceptT.run_tryCatch, StateT.run_bind]
  generalize StateT.run (ExceptT.run comp) state = first
  obtain ⟨_ | _, later⟩ := first <;> rfl

/-- From every good state, `comp` answers as `spec` does from the part of it that
`spec` works on, and leaves a good state with the part that `spec` leaves. -/
def Simulates (good : State → Prop) (part : State → Part) (comp : Comp State Error Value)
    (spec : Comp Part Error Value) : Prop :=
  ∀ state, good state →
    (outcome comp state).1 = (outcome spec (part state)).1 ∧
      part (outcome comp state).2 = (outcome spec (part state)).2 ∧ good (outcome comp state).2

namespace Simulates

variable {good : State → Prop} {part : State → Part}
variable {comp : Comp State Error Value} {spec : Comp Part Error Value}

theorem pure (value : Value) : Simulates good part
    (Pure.pure value : Comp State Error Value) (Pure.pure value) :=
  fun _ hgood => ⟨rfl, rfl, hgood⟩

theorem bind {next : Value → Comp State Error Result} {specNext : Value → Comp Part Error Result}
    (hcomp : Simulates good part comp spec)
    (hnext : ∀ value, Simulates good part (next value) (specNext value)) :
    Simulates good part (comp >>= next) (spec >>= specNext) := by
  intro state hgood
  obtain ⟨hanswer, hpart, hlater⟩ := hcomp state hgood
  rw [outcome_bind, outcome_bind]
  generalize outcome comp state = done at hanswer hpart hlater
  generalize outcome spec (part state) = specDone at hanswer hpart
  obtain ⟨answer, later⟩ := done
  obtain ⟨specAnswer, specLater⟩ := specDone
  obtain rfl : answer = specAnswer := hanswer
  obtain rfl : part later = specLater := hpart
  cases answer with
  | ok value => exact hnext value later hlater
  | error error => exact ⟨rfl, rfl, hlater⟩

/-- A step that only reads what is known is no step of the specification. -/
theorem bind_known {value : Value} {next : Value → Comp State Error Result}
    {specNext : Comp Part Error Result} (hcomp : Simulates good part comp (Pure.pure value))
    (hnext : Simulates good part (next value) specNext) :
    Simulates good part (comp >>= next) specNext := by
  intro state hgood
  obtain ⟨hanswer, hpart, hlater⟩ := hcomp state hgood
  rw [outcome_bind]
  generalize outcome comp state = done at hanswer hpart hlater
  obtain ⟨answer, later⟩ := done
  obtain rfl : answer = .ok value := hanswer
  have hstep := hnext later hlater
  rwa [show part later = part state from hpart] at hstep

theorem bind_map {Mapped : Type u} {f : Value → Mapped} {comp : Comp State Error Mapped}
    {next : Mapped → Comp State Error Result} {specNext : Value → Comp Part Error Result}
    (hcomp : Simulates good part comp (f <$> spec))
    (hnext : ∀ value, Simulates good part (next (f value)) (specNext value)) :
    Simulates good part (comp >>= next) (spec >>= specNext) := by
  intro state hgood
  obtain ⟨hanswer, hpart, hlater⟩ := hcomp state hgood
  rw [outcome_map] at hanswer hpart
  rw [outcome_bind, outcome_bind]
  generalize outcome comp state = done at hanswer hpart hlater
  generalize outcome spec (part state) = specDone at hanswer hpart
  obtain ⟨answer, later⟩ := done
  obtain ⟨specAnswer, specLater⟩ := specDone
  obtain rfl : answer = specAnswer.map f := hanswer
  obtain rfl : part later = specLater := hpart
  cases specAnswer with
  | ok value => exact hnext value later hlater
  | error error => exact ⟨rfl, rfl, hlater⟩

theorem map_known {value : Value} (f : Value → Result)
    (hcomp : Simulates good part comp (Pure.pure value)) :
    Simulates good part (f <$> comp) (Pure.pure (f value)) := by
  rw [← bind_pure_comp]
  exact hcomp.bind_known (.pure _)

end Simulates

end Effect

/-! ## What a computation does to its state

A relation between the state before and the state after, whether the computation returns or
fails. One that is reflexive and transitive is followed by a computation if each of its steps
follows it.
-/

namespace Effect

universe u

variable {State Error Value Result : Type u} {relation : State → State → Prop}
  {comp : Comp State Error Value}

def Follows (relation : State → State → Prop) (comp : Comp State Error Value) : Prop :=
  ∀ state, relation state (outcome comp state).2

namespace Follows

variable [Std.Refl relation]

theorem pure (value : Value) : Follows relation (Pure.pure value : Comp State Error Value) :=
  fun state => Std.Refl.refl state

theorem throw (error : Error) :
    Follows relation (MonadExcept.throw error : Comp State Error Value) :=
  fun state => Std.Refl.refl state

theorem get : Follows relation (MonadState.get : Comp State Error State) :=
  fun state => Std.Refl.refl state

variable [IsTrans State relation]

omit [Std.Refl relation] in
theorem bind {next : Value → Comp State Error Result} (hcomp : Follows relation comp)
    (hnext : ∀ value, Follows relation (next value)) : Follows relation (comp >>= next) := by
  intro state
  have hfirst := hcomp state
  rw [outcome_bind]
  generalize outcome comp state = done at hfirst ⊢
  obtain ⟨answer, later⟩ := done
  cases answer with
  | ok value => exact IsTrans.trans _ _ _ hfirst (hnext value later)
  | error error => exact hfirst

omit [Std.Refl relation] in
theorem tryCatch {handle : Error → Comp State Error Value} (hcomp : Follows relation comp)
    (hhandle : ∀ error, Follows relation (handle error)) :
    Follows relation (MonadExcept.tryCatch comp handle) := by
  intro state
  have hfirst := hcomp state
  rw [outcome_tryCatch]
  generalize outcome comp state = done at hfirst ⊢
  obtain ⟨answer, later⟩ := done
  cases answer with
  | ok value => exact hfirst
  | error error => exact IsTrans.trans _ _ _ hfirst (hhandle error later)

end Follows

/-- What a computation raises is among what is allowed. -/
def Raises (allowed : Error → Prop) (comp : Comp State Error Value) : Prop :=
  ∀ state error, (outcome comp state).1 = .error error → allowed error

namespace Raises

variable {allowed : Error → Prop}

theorem pure (value : Value) : Raises allowed (Pure.pure value : Comp State Error Value) := by
  intro state error herror
  cases herror

theorem throw {error : Error} (herror : allowed error) :
    Raises allowed (MonadExcept.throw error : Comp State Error Value) := by
  intro state raised hraised
  cases hraised
  exact herror

theorem change (change : State → State) :
    Raises allowed (modify change : Comp State Error PUnit) := by
  intro state error herror
  cases herror

theorem bind {next : Value → Comp State Error Result} (hcomp : Raises allowed comp)
    (hnext : ∀ value, Raises allowed (next value)) : Raises allowed (comp >>= next) := by
  intro state error herror
  rw [outcome_bind] at herror
  have hfirst := hcomp state
  generalize outcome comp state = done at hfirst herror
  obtain ⟨raised | value, later⟩ := done
  · cases herror
    exact hfirst error rfl
  · exact hnext value later error herror

theorem get_bind {next : State → Comp State Error Result}
    (hnext : ∀ seen, Raises allowed (next seen)) : Raises allowed (MonadState.get >>= next) := by
  intro state error herror
  rw [outcome_bind] at herror
  exact hnext state state error herror

theorem tryCatch {caught : Error → Prop} {handle : Error → Comp State Error Value}
    (hcomp : Raises caught comp) (hhandle : ∀ error, caught error → Raises allowed (handle error)) :
    Raises allowed (MonadExcept.tryCatch comp handle) := by
  intro state error herror
  rw [outcome_tryCatch] at herror
  have hfirst := hcomp state
  generalize outcome comp state = done at hfirst herror
  obtain ⟨raised | value, later⟩ := done
  · exact hhandle raised (hfirst raised rfl) later error herror
  · cases herror

end Raises

end Effect
