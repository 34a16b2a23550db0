import Mathlib.Data.List.Basic
import ServiceRuntime.Foundation.Transition

namespace ServiceRuntime
namespace IdleHooks

open Foundation

/-!
# The idle hooks of `service.lua`

A registration is one call of `service.add_idle_hook`.  It has a closure of its
own that removes it, with a flag of its own, but its entry in `idle_hooks` is
only the function, which other registrations may have as well.

A remover takes the first entry that is its function.  So there always are as
many entries of a function as it has registrations that are not removed; whether
they also stand in the order of the registrations depends on what the removers
passed over.
-/

/-- What is passed to `add_idle_hook`. -/
inductive Argument (Fn : Type) where
  | function (fn : Fn)
  | other
  deriving DecidableEq, Repr

/-- The upvalues of a closure that `add_idle_hook` returned. -/
structure Remover (Fn : Type) where
  fn : Fn
  removed : Bool
  deriving DecidableEq, Repr

/-- `idle_hooks`, and the closures returned so far in the order of the calls. -/
structure State (Fn : Type) where
  idleHooks : List Fn
  removers : List (Remover Fn)
  deriving DecidableEq, Repr

/-- A call from outside of the hooks: of `add_idle_hook`, or of the closure
returned for a registration.  Registrations count from zero. -/
inductive Action (Fn : Type) where
  | add (argument : Argument Fn)
  | remove (registration : Nat)
  deriving DecidableEq, Repr

variable {Fn : Type}

def State.loaded : State Fn := ⟨[], []⟩

/-- `service.add_idle_hook`. -/
def addIdleHook (state : State Fn) : Argument Fn -> Except String (State Fn)
  | .function fn => .ok ⟨state.idleHooks ++ [fn], state.removers ++ [⟨fn, false⟩]⟩
  | .other => .error "idle hook must be a function"

/-- Call functions one after the other: those called, and whether the last of
them raised an error.  Whether one does may depend on what was called before. -/
def callEach (raises : List Fn -> Fn -> Bool) : List Fn -> List Fn -> List Fn × Bool
  | called, [] => (called, false)
  | called, fn :: rest =>
      if raises called fn then (called ++ [fn], true)
      else callEach raises (called ++ [fn]) rest

/-- `service._on_idle`, with the value of `service.on_idle`. -/
def onIdleRound (raises : List Fn -> Fn -> Bool) (onIdle : Option Fn) (state : State Fn) :
    List Fn × Bool :=
  callEach raises [] (onIdle.toList ++ state.idleHooks)

section

variable [DecidableEq Fn]

/-- The loop of a remover: `table.remove` of the first entry that is its function. -/
def removeHook (fn : Fn) : List Fn -> List Fn
  | [] => []
  | hook :: rest => if hook = fn then rest else hook :: removeHook fn rest

/-- The closure `add_idle_hook` returned. -/
def callRemover (state : State Fn) (registration : Nat) (remover : Remover Fn) : State Fn :=
  if remover.removed then state
  else
    { idleHooks := removeHook remover.fn state.idleHooks
      removers := state.removers.set registration { remover with removed := true } }

def step (state : State Fn) : Action Fn -> Option (State Fn)
  | .add argument =>
      match addIdleHook state argument with
      | .ok next => some next
      | .error _ => some state
  | .remove registration => (state.removers[registration]?).map (callRemover state registration)

def machine (Fn : Type) [DecidableEq Fn] : Machine (State Fn) (Action Fn) where
  initial state := state = .loaded
  step := step

end

/-! ## What the registrations ask for -/

/-- The functions of the registrations that are not removed, in their order. -/
def live (removers : List (Remover Fn)) : List Fn :=
  (removers.filter fun remover => !remover.removed).map Remover.fn

/-- Every round calls `service.on_idle` and then the functions of the
registrations that are not removed, in their order, up to an error. -/
def CallsLive (state : State Fn) : Prop :=
  forall raises onIdle,
    onIdleRound raises onIdle state = callEach raises [] (onIdle.toList ++ live state.removers)

/-- From the first live registration of the function on, no live registration
up to the removed one is of another function. -/
def PassesOnlyItself [DecidableEq Fn] (state : State Fn) : Action Fn -> Prop
  | .add _ => True
  | .remove registration =>
      forall remover, state.removers[registration]? = some remover -> remover.removed = false ->
        forall fn, fn ∈ (live (state.removers.take registration)).dropWhile (fun fn => fn ≠ remover.fn) ->
          fn = remover.fn

theorem callEach_never (called fns : List Fn) :
    callEach (fun _ _ => false) called fns = (called ++ fns, false) := by
  induction fns generalizing called with
  | nil => rw [callEach, List.append_nil]
  | cons fn rest inductionHypothesis =>
      rw [callEach, if_neg Bool.false_ne_true, inductionHypothesis, List.append_assoc]
      rfl

theorem callsLive_iff {state : State Fn} :
    CallsLive state <-> state.idleHooks = live state.removers := by
  constructor
  · intro calls
    have round := calls (fun _ _ => false) none
    unfold onIdleRound at round
    rw [callEach_never, callEach_never] at round
    exact congrArg Prod.fst round
  · intro same raises onIdle
    unfold onIdleRound
    rw [same]

/-! ## Taking out one of several equal entries -/

/-- Moving an entry from the end to the front changes nothing when all are equal. -/
theorem append_singleton_eq_cons_iff {fn : Fn} {fns : List Fn} :
    fns ++ [fn] = fn :: fns <-> forall other, other ∈ fns -> other = fn := by
  induction fns with
  | nil => simp
  | cons head rest inductionHypothesis =>
      rw [List.cons_append, List.cons.injEq, List.forall_mem_cons]
      apply and_congr_right
      intro same
      rw [same]
      exact inductionHypothesis

theorem live_append (removers others : List (Remover Fn)) :
    live (removers ++ others) = live removers ++ live others := by
  unfold live
  rw [List.filter_append, List.map_append]

theorem live_cons_kept (fn : Fn) (removers : List (Remover Fn)) :
    live (⟨fn, false⟩ :: removers) = fn :: live removers := rfl

theorem live_cons_removed (fn : Fn) (removers : List (Remover Fn)) :
    live (⟨fn, true⟩ :: removers) = live removers := rfl

section

variable [DecidableEq Fn]

/-- The first entry is as good as a later one when only equal ones stand between. -/
theorem removeHook_eq_iff {fn : Fn} {before after : List Fn} :
    removeHook fn (before ++ fn :: after) = before ++ after <->
      forall other, other ∈ before.dropWhile (fun entry => entry ≠ fn) -> other = fn := by
  induction before with
  | nil => simp [removeHook]
  | cons head rest inductionHypothesis =>
      rw [List.cons_append, removeHook]
      by_cases same : head = fn
      · subst same
        have shift : rest ++ head :: after = rest ++ [head] ++ after := by simp
        rw [if_pos rfl, List.dropWhile_cons_of_neg (by simp), shift, List.append_left_inj,
          append_singleton_eq_cons_iff]
        simp
      · rw [if_neg same, List.dropWhile_cons_of_pos (by simp [same]), List.cons_append,
          List.cons.injEq, inductionHypothesis]
        simp

theorem removeHook_perm {fn : Fn} {hooks : List Fn} (member : fn ∈ hooks) :
    hooks.Perm (fn :: removeHook fn hooks) := by
  induction hooks with
  | nil => exact absurd member List.not_mem_nil
  | cons head rest inductionHypothesis =>
      rw [removeHook]
      by_cases same : head = fn
      · rw [if_pos same, same]
      · rw [if_neg same]
        have later := (List.mem_cons.mp member).resolve_left (Ne.symm same)
        exact ((inductionHypothesis later).cons head).trans (List.Perm.swap fn head _)

/-! ## What a call can do -/

/-- Everything a call can do: refuse what is no function, register, do nothing
for a registration that is removed already, or take out an entry. -/
theorem step_cases {state next : State Fn} {action : Action Fn} (moved : step state action = some next) :
    (action = .add .other ∧ next = state) ∨
    (Exists fun fn => action = .add (.function fn) ∧
      next = ⟨state.idleHooks ++ [fn], state.removers ++ [⟨fn, false⟩]⟩) ∨
    (Exists fun registration => Exists fun fn => action = .remove registration ∧
      state.removers[registration]? = some ⟨fn, true⟩ ∧ next = state) ∨
    (Exists fun before => Exists fun fn => Exists fun after =>
      action = .remove before.length ∧ state.removers = before ++ ⟨fn, false⟩ :: after ∧
      next = ⟨removeHook fn state.idleHooks, before ++ ⟨fn, true⟩ :: after⟩) := by
  cases action with
  | add argument =>
      cases argument with
      | other => exact Or.inl ⟨rfl, (Option.some.inj moved).symm⟩
      | function fn => exact Or.inr (Or.inl ⟨fn, rfl, (Option.some.inj moved).symm⟩)
  | remove registration =>
      refine Or.inr (Or.inr ?_)
      rcases Option.map_eq_some_iff.mp moved with ⟨⟨fn, removed⟩, present, rfl⟩
      cases removed with
      | true => exact Or.inl ⟨registration, fn, rfl, present, rfl⟩
      | false =>
          obtain ⟨inside, found⟩ := List.getElem?_eq_some_iff.mp present
          refine Or.inr ⟨state.removers.take registration, fn,
            state.removers.drop (registration + 1), ?_, ?_, ?_⟩
          · rw [List.length_take, Nat.min_eq_left (Nat.le_of_lt inside)]
          · rw [← found, List.getElem_cons_drop, List.take_append_drop]
          · simp only [callRemover, Bool.false_eq_true, if_false, List.set_eq_take_append_cons_drop,
              if_pos inside]

/-- There always are as many entries of a function as live registrations. -/
theorem idleHooks_perm {state : State Fn} (reachable : (machine Fn).Reachable state) :
    state.idleHooks.Perm (live state.removers) := by
  apply reachable.invariant
  · intro start loaded
    rw [loaded]
    exact List.Perm.refl []
  · intro current action next same moved
    rcases step_cases moved with ⟨_, rfl⟩ | ⟨fn, _, rfl⟩ | ⟨_, _, _, _, rfl⟩ |
      ⟨before, fn, after, _, removers, rfl⟩
    · exact same
    · rw [live_append]
      exact same.append_right _
    · exact same
    · rw [removers, live_append, live_cons_kept] at same
      rw [live_append, live_cons_removed]
      have member : fn ∈ current.idleHooks := same.mem_iff.mpr (by simp)
      exact ((removeHook_perm member).symm.trans (same.trans List.perm_middle)).cons_inv

theorem remove_callsLive_iff {before after : List (Remover Fn)} {fn : Fn} {state : State Fn}
    (calls : CallsLive state) (removers : state.removers = before ++ ⟨fn, false⟩ :: after) :
    CallsLive ⟨removeHook fn state.idleHooks, before ++ ⟨fn, true⟩ :: after⟩ <->
      PassesOnlyItself state (.remove before.length) := by
  have hooks := callsLive_iff.mp calls
  rw [removers, live_append, live_cons_kept] at hooks
  have present : state.removers[before.length]? = some ⟨fn, false⟩ := by
    rw [removers, List.getElem?_append_right (Nat.le_refl _), Nat.sub_self, List.getElem?_cons_zero]
  have earlier : state.removers.take before.length = before := by
    rw [removers, List.take_left']
    rfl
  rw [callsLive_iff, hooks, live_append, live_cons_removed, removeHook_eq_iff]
  dsimp only [PassesOnlyItself]
  rw [present, earlier]
  constructor
  · intro equal remover same _
    cases same
    exact equal
  · intro equal
    exact equal _ rfl rfl

/-- The functions of the live registrations are called in their order after
every call, exactly if no remover passes over a registration of another function. -/
theorem idle_hooks_in_order (schedule : List (Action Fn)) :
    (machine Fn).Throughout CallsLive .loaded schedule <->
      (machine Fn).Obeys PassesOnlyItself .loaded schedule := by
  apply (machine Fn).throughout_iff_obeys CallsLive
  · intro state calls
    exact calls
  · intro state action next calls allowed moved
    rcases step_cases moved with ⟨_, rfl⟩ | ⟨fn, _, rfl⟩ | ⟨_, _, _, _, rfl⟩ |
      ⟨before, fn, after, rfl, removers, rfl⟩
    · exact calls
    · rw [callsLive_iff, live_append, callsLive_iff.mp calls]
      rfl
    · exact calls
    · exact (remove_callsLive_iff calls removers).mpr allowed
  · intro state action next calls refused moved
    rcases step_cases moved with ⟨rfl, rfl⟩ | ⟨fn, rfl, rfl⟩ | ⟨registration, fn, rfl, present, rfl⟩ |
      ⟨before, fn, after, rfl, removers, rfl⟩
    · exact absurd trivial refused
    · exact absurd trivial refused
    · refine absurd ?_ refused
      intro remover found kept
      rw [present] at found
      cases found
      cases kept
    · exact fun later => refused ((remove_callsLive_iff calls removers).mp later)
  · exact callsLive_iff.mpr rfl

end

/-- Two functions, the first of which is registered again after the second:
its later registration is removed, and the earlier one moves behind the second. -/
theorem idle_hooks_reordered :
    ¬ forall (Fn : Type) [DecidableEq Fn] (schedule : List (Action Fn)),
      (machine Fn).Throughout CallsLive .loaded schedule := by
  intro inOrder
  have last := inOrder Nat [.add (.function 1), .add (.function 2), .add (.function 1), .remove 2]
  have calls : CallsLive (⟨[2, 1], [⟨1, false⟩, ⟨2, false⟩, ⟨1, true⟩]⟩ : State Nat) :=
    last.2.2.2.2
  exact absurd (callsLive_iff.mp calls) (by decide)

end IdleHooks
end ServiceRuntime
