import ServiceRuntime.Foundation.Simulation

namespace ServiceRuntime
namespace Foundation

/-!
# Condition variables

A model may say of a blocking wait that its step is not enabled until the
condition holds.  The program tests the condition, sleeps on a condition
variable, and tests again when it is woken; it is woken by a broadcast, or for
no reason.  `Monitor.machine` puts the sleeping into a model that has only the
blocking.

The two have the same runs if every step that ends a wait broadcasts the
variable which is waited on.  That is the whole obligation, and it is about
single steps of the model.
-/

universe u v w x

variable {Model : Type u} {Move : Type v} {Waiter : Type w} {Cond : Type x}

/-- Where the waits of a machine are: who takes a step, on which variable a
party waits that stands at a wait whose condition fails, and which variables a
step broadcasts. -/
structure Waits (Model : Type u) (Move : Type v) (Waiter : Type w) (Cond : Type x) where
  mover : Move -> Option Waiter
  waits : Model -> Waiter -> Option Cond
  broadcasts : Model -> Move -> Cond -> Bool

namespace Waits

/-- A party that waits takes no step, and a step that is not heard by it
leaves it waiting. -/
structure Sound (places : Waits Model Move Waiter Cond) (machine : Machine Model Move) :
    Prop where
  stuck : forall state action next waiter, machine.step state action = some next ->
    places.mover action = some waiter -> places.waits state waiter = none
  told : forall state action next waiter cond, machine.Reachable state ->
    machine.step state action = some next -> places.waits state waiter = some cond ->
    places.broadcasts state action cond = false -> places.waits next waiter = some cond

end Waits

namespace Monitor

/-- The state of the model, and who sleeps on what. -/
structure State (Model : Type u) (Waiter : Type w) (Cond : Type x) where
  model : Model
  asleep : List (Waiter × Cond)

inductive Action (Move : Type v) (Waiter : Type w) where
  | move (action : Move)
  | sleep (waiter : Waiter)
  | wake (waiter : Waiter)

variable [DecidableEq Waiter]

/-- The party is on no queue. -/
def Awake (asleep : List (Waiter × Cond)) (waiter : Waiter) : Prop :=
  forall entry, entry ∈ asleep -> entry.1 ≠ waiter

instance (asleep : List (Waiter × Cond)) (waiter : Waiter) : Decidable (Awake asleep waiter) :=
  inferInstanceAs (Decidable (forall entry, entry ∈ asleep -> entry.1 ≠ waiter))

/-- Whoever takes the step is awake. -/
def Acts (asleep : List (Waiter × Cond)) : Option Waiter -> Prop
  | some waiter => Awake asleep waiter
  | none => True

instance (asleep : List (Waiter × Cond)) (mover : Option Waiter) : Decidable (Acts asleep mover) :=
  match mover with
  | some waiter => inferInstanceAs (Decidable (Awake asleep waiter))
  | none => inferInstanceAs (Decidable True)

variable (places : Waits Model Move Waiter Cond) (machine : Machine Model Move)

/-- A party sleeps only where it has found its condition to fail. -/
def step (state : State Model Waiter Cond) :
    Action Move Waiter -> Option (State Model Waiter Cond)
  | .move action =>
      if Acts state.asleep (places.mover action) then
        (machine.step state.model action).map fun next =>
          { model := next
            asleep := state.asleep.filter fun entry =>
              !places.broadcasts state.model action entry.2 }
      else none
  | .sleep waiter =>
      if Awake state.asleep waiter then
        (places.waits state.model waiter).map fun cond =>
          { state with asleep := state.asleep ++ [(waiter, cond)] }
      else none
  | .wake waiter => some { state with asleep := state.asleep.filter fun entry => entry.1 ≠ waiter }

def monitored : Machine (State Model Waiter Cond) (Action Move Waiter) where
  initial state := machine.initial state.model ∧ state.asleep = []
  step := step places machine

variable {places machine}

/-- The sleeping is forgotten. -/
theorem simulation : Simulation (monitored places machine) machine
    (fun state model => state.model = model) where
  starts := fun start initial => ⟨start.model, initial.1, rfl⟩
  steps := by
    rintro state action next model _ _ rfl moved
    cases action with
    | move action =>
        simp only [monitored, step] at moved
        split at moved
        · rcases Option.map_eq_some_iff.mp moved with ⟨after, taken, rfl⟩
          exact Simulation.single action taken rfl
        · cases moved
    | sleep waiter =>
        simp only [monitored, step] at moved
        split at moved
        · rcases Option.map_eq_some_iff.mp moved with ⟨cond, _, rfl⟩
          exact Simulation.stutter rfl
        · cases moved
    | wake waiter =>
        cases moved
        exact Simulation.stutter rfl

theorem reachable_model {state : State Model Waiter Cond}
    (reachable : (monitored places machine).Reachable state) : machine.Reachable state.model := by
  rcases simulation.reachable reachable with ⟨model, reached, rfl⟩
  exact reached

/-- Nobody sleeps whose condition holds. -/
theorem asleep_waits (sound : places.Sound machine) {state : State Model Waiter Cond}
    (reachable : (monitored places machine).Reachable state) :
    forall entry, entry ∈ state.asleep -> places.waits state.model entry.1 = some entry.2 := by
  apply reachable.induction
  · rintro start ⟨_, nobody⟩ entry member
    rw [nobody] at member
    cases member
  · intro current action next sofar waiting moved entry member
    cases action with
    | move action =>
        simp only [monitored, step] at moved
        split at moved
        · rcases Option.map_eq_some_iff.mp moved with ⟨after, taken, rfl⟩
          rcases List.mem_filter.mp member with ⟨before, unheard⟩
          have quiet : places.broadcasts current.model action entry.2 = false := by
            simpa using unheard
          exact sound.told current.model action after entry.1 entry.2 (reachable_model sofar) taken
            (waiting entry before) quiet
        · cases moved
    | sleep waiter =>
        simp only [monitored, step] at moved
        split at moved
        · rcases Option.map_eq_some_iff.mp moved with ⟨cond, stands, rfl⟩
          rcases List.mem_append.mp member with before | added
          · exact waiting entry before
          · rw [List.mem_singleton.mp added]
            exact stands
        · cases moved
    | wake waiter =>
        cases moved
        exact waiting entry (List.mem_of_mem_filter member)

/-- Sleeping hinders nobody: what the model can do the program can do at once. -/
theorem enabled (sound : places.Sound machine) {state : State Model Waiter Cond}
    (reachable : (monitored places machine).Reachable state) {action : Move} {next : Model}
    (taken : machine.step state.model action = some next) :
    Exists fun asleep => (monitored places machine).step state (.move action) = some ⟨next, asleep⟩ := by
  have acts : Acts state.asleep (places.mover action) := by
    cases mover : places.mover action with
    | none => trivial
    | some waiter =>
        intro entry member same
        have waiting := asleep_waits sound reachable entry member
        rw [same, sound.stuck _ _ _ _ taken mover] at waiting
        cases waiting
  refine ⟨state.asleep.filter fun entry => !places.broadcasts state.model action entry.2, ?_⟩
  simp only [monitored, step, if_pos acts, taken, Option.map_some]

/-- The program reaches the states of the model. -/
theorem reachable_iff (sound : places.Sound machine) {model : Model} :
    machine.Reachable model <->
      Exists fun asleep => (monitored places machine).Reachable ⟨model, asleep⟩ := by
  constructor
  · intro reachable
    apply reachable.induction
    · intro start initial
      exact ⟨[], ⟨start, []⟩, [], ⟨initial, rfl⟩, rfl⟩
    · rintro current action next _ ⟨asleep, sofar⟩ moved
      rcases enabled sound sofar moved with ⟨later, taken⟩
      exact ⟨later, sofar.step taken⟩
  · rintro ⟨asleep, reachable⟩
    exact reachable_model reachable

end Monitor

end Foundation
end ServiceRuntime
