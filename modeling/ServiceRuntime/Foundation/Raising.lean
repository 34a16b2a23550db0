import Mathlib.Logic.Basic

namespace ServiceRuntime
namespace Foundation

universe u

/-!
# Computations that may raise

An error leaves the state as it was when it was raised: a non-local exit undoes
nothing.  `Ends` judges both ways a computation can end; the rules follow the
shape of the computation.
-/

variable {State Error Value Other : Type u}

/-- Both ways a computation can end. -/
def Ends (returns : Value -> State -> Prop) (raises : Error -> State -> Prop) :
    EStateM.Result Error State Value -> Prop
  | .ok value state => returns value state
  | .error error state => raises error state

variable {returns : Value -> State -> Prop} {raises : Error -> State -> Prop}

instance [forall value state, Decidable (returns value state)]
    [forall error state, Decidable (raises error state)] :
    (result : EStateM.Result Error State Value) -> Decidable (Ends returns raises result)
  | .ok value state => inferInstanceAs (Decidable (returns value state))
  | .error error state => inferInstanceAs (Decidable (raises error state))

theorem Ends.imp {laxReturns : Value -> State -> Prop} {laxRaises : Error -> State -> Prop}
    {result : EStateM.Result Error State Value} (ends : Ends returns raises result)
    (onReturn : forall value state, returns value state -> laxReturns value state)
    (onRaise : forall error state, raises error state -> laxRaises error state) :
    Ends laxReturns laxRaises result := by
  cases result with
  | ok value state => exact onReturn value state ends
  | error error state => exact onRaise error state ends

/-- What comes first ends, and what follows ends from every state it can return in. -/
theorem Ends.bind {first : EStateM Error State Other} {next : Other -> EStateM Error State Value}
    {state : State}
    (ends : Ends (fun other between => Ends returns raises (next other between)) raises
      (first state)) :
    Ends returns raises ((first >>= next) state) := by
  change Ends returns raises (EStateM.bind first next state)
  unfold EStateM.bind
  cases outcome : first state with
  | ok other between =>
      rw [outcome] at ends
      exact ends
  | error error between =>
      rw [outcome] at ends
      exact ends

theorem bind_of_ok {first : EStateM Error State Other} {next : Other -> EStateM Error State Value}
    {state between : State} {other : Other} (outcome : first state = .ok other between) :
    (first >>= next) state = next other between := by
  change EStateM.bind first next state = next other between
  unfold EStateM.bind
  rw [outcome]

theorem bind_of_error {first : EStateM Error State Other}
    {next : Other -> EStateM Error State Value} {state between : State} {error : Error}
    (outcome : first state = .error error between) :
    (first >>= next) state = .error error between := by
  change EStateM.bind first next state = .error error between
  unfold EStateM.bind
  rw [outcome]

/-- A computation that returns has returned from each of its parts. -/
theorem bind_eq_ok {first : EStateM Error State Other} {next : Other -> EStateM Error State Value}
    {state after : State} {value : Value} (outcome : (first >>= next) state = .ok value after) :
    Exists fun other => Exists fun between =>
      first state = .ok other between ∧ next other between = .ok value after := by
  cases begins : first state with
  | ok other between =>
      rw [bind_of_ok begins] at outcome
      exact ⟨other, between, rfl, outcome⟩
  | error error between =>
      rw [bind_of_error begins] at outcome
      cases outcome

/-! ## Two computations side by side -/

variable {State' Value' Other' : Type u}

/-- Two computations end alike: both return, or both raise the same error. -/
def EndsAlike (returns : Value -> Value' -> State -> State' -> Prop)
    (raises : Error -> State -> State' -> Prop) :
    EStateM.Result Error State Value -> EStateM.Result Error State' Value' -> Prop
  | .ok value state, .ok value' state' => returns value value' state state'
  | .error error state, .error error' state' => error = error' ∧ raises error state state'
  | .ok _ _, .error _ _ => False
  | .error _ _, .ok _ _ => False

variable {returnsAlike : Value -> Value' -> State -> State' -> Prop}
  {raisesAlike : Error -> State -> State' -> Prop}

theorem EndsAlike.imp {laxReturns : Value -> Value' -> State -> State' -> Prop}
    {first : EStateM.Result Error State Value} {second : EStateM.Result Error State' Value'}
    (alike : EndsAlike returnsAlike raisesAlike first second)
    (onReturn : forall value value' state state', returnsAlike value value' state state' ->
      laxReturns value value' state state') :
    EndsAlike laxReturns raisesAlike first second := by
  cases first with
  | ok value state =>
      cases second with
      | ok value' state' => exact onReturn value value' state state' alike
      | error error' state' => exact alike
  | error error state =>
      cases second with
      | ok value' state' => exact alike
      | error error' state' => exact alike

theorem EndsAlike.bind {first : EStateM Error State Other}
    {next : Other -> EStateM Error State Value} {first' : EStateM Error State' Other'}
    {next' : Other' -> EStateM Error State' Value'} {state : State} {state' : State'}
    (alike : EndsAlike (fun other other' between between' =>
        EndsAlike returnsAlike raisesAlike (next other between) (next' other' between'))
      raisesAlike (first state) (first' state')) :
    EndsAlike returnsAlike raisesAlike ((first >>= next) state) ((first' >>= next') state') := by
  cases outcome : first state with
  | ok other between =>
      cases outcome' : first' state' with
      | ok other' between' =>
          rw [outcome, outcome'] at alike
          rw [bind_of_ok outcome, bind_of_ok outcome']
          exact alike
      | error error' between' =>
          rw [outcome, outcome'] at alike
          exact False.elim alike
  | error error between =>
      cases outcome' : first' state' with
      | ok other' between' =>
          rw [outcome, outcome'] at alike
          exact False.elim alike
      | error error' between' =>
          rw [outcome, outcome'] at alike
          rw [bind_of_error outcome, bind_of_error outcome']
          exact alike

end Foundation
end ServiceRuntime
