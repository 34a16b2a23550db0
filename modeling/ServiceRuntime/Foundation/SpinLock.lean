import ServiceRuntime.Foundation.Pool
import ServiceRuntime.Foundation.Simulation

namespace ServiceRuntime
namespace Foundation

/-!
# Critical sections under a test-and-set lock

Threads share data which they touch in critical sections only.  A section is
entered by exchanging a flag until it was down, with a loop that merely reads
the flag in between, and is left by lowering the flag; inside, one statement
follows the other.  `SpinLock.machine` takes every exchange, every read of the
flag and every statement as a step of its own.

`Atomic.machine` runs a whole section as one step.  It is what a model of the
component uses, and `SpinLock.simulation` says that nothing is lost: whatever
the threads do to each other between two statements, each section has the
effect it has when it runs alone.
-/

universe u v w x

/-- What threads run: a thread born at a position, the first statement of the
section a thread is about to enter, the statements inside, and what a thread
does without the lock. -/
structure Program (Data : Type u) (Local : Type v) (Inner : Type w) (Input : Type x) where
  born : Nat -> Local
  wants : Local -> Option Inner
  statement : Data -> Inner -> Data × (Inner ⊕ Local)
  outside : Local -> Input -> Option Local

variable {Data : Type u} {Local : Type v} {Inner : Type w} {Input : Type x}

namespace Program

/-- Run alone from a statement, the section ends with this data and leaves the
thread here. -/
inductive Leads (program : Program Data Local Inner Input) : Data -> Inner -> Data -> Local -> Prop where
  | leaves {data after : Data} {inner : Inner} {here : Local}
      (last : program.statement data inner = (after, .inr here)) : Leads program data inner after here
  | goesOn {data between after : Data} {inner next : Inner} {here : Local}
      (first : program.statement data inner = (between, .inl next))
      (rest : Leads program between next after here) : Leads program data inner after here

theorem Leads.of_inl {program : Program Data Local Inner Input} {data between after : Data}
    {inner next : Inner} {here : Local} (leads : program.Leads data inner after here)
    (first : program.statement data inner = (between, .inl next)) :
    program.Leads between next after here := by
  cases leads with
  | leaves last => cases last.symm.trans first
  | goesOn other rest =>
      cases other.symm.trans first
      exact rest

theorem Leads.of_inr {program : Program Data Local Inner Input} {data between after : Data}
    {inner : Inner} {here there : Local} (leads : program.Leads data inner after here)
    (last : program.statement data inner = (between, .inr there)) :
    between = after ∧ there = here := by
  cases leads with
  | leaves other =>
      cases other.symm.trans last
      exact ⟨rfl, rfl⟩
  | goesOn first rest => cases first.symm.trans last

end Program

/-! ## Whole sections -/

namespace Atomic

structure State (Data : Type u) (Local : Type v) where
  data : Data
  locals : List Local

inductive Action (Input : Type x) where
  | spawn
  | outside (index : Nat) (input : Input)
  | section (index : Nat)

variable (program : Program Data Local Inner Input) (whole : Data -> Local -> Data × Local)

def step (state : State Data Local) : Action Input -> Option (State Data Local)
  | .spawn => some { state with locals := state.locals ++ [program.born state.locals.length] }
  | .outside index input =>
      (state.locals[index]?).bind fun here =>
        (program.outside here input).map fun next =>
          { state with locals := state.locals.set index next }
  | .section index =>
      (state.locals[index]?).bind fun here =>
        (program.wants here).map fun _ =>
          { data := (whole state.data here).1
            locals := state.locals.set index (whole state.data here).2 }

def machine (start : Data -> Prop) : Machine (State Data Local) (Action Input) where
  initial state := start state.data ∧ state.locals = []
  step := step program whole

end Atomic

/-! ## One statement at a time -/

namespace SpinLock

/-- Where a thread stands: outside, at the exchange, in the loop that watches
the flag, at a statement inside, or about to lower the flag. -/
inductive Place (Local : Type v) (Inner : Type w) where
  | outside (here : Local)
  | exchange (here : Local)
  | watch (here : Local)
  | inside (before : Local) (here : Inner)
  | unlock (after : Local)

namespace Place

/-- What the thread knows, with a section not begun before its last statement. -/
def owner : Place Local Inner -> Local
  | outside here | exchange here | watch here => here
  | inside before _ => before
  | unlock after => after

def holds : Place Local Inner -> Nat
  | inside _ _ | unlock _ => 1
  | _ => 0

end Place

structure State (Data : Type u) (Local : Type v) (Inner : Type w) where
  data : Data
  locked : Bool
  places : List (Place Local Inner)

inductive Action (Input : Type x) where
  | spawn
  | outside (index : Nat) (input : Input)
  | advance (index : Nat)

variable (program : Program Data Local Inner Input)

/-- The next step of a thread on its way into a section, in it, or out. -/
def advance (state : State Data Local Inner) (index : Nat) :
    Place Local Inner -> Option (State Data Local Inner)
  | .outside here =>
      (program.wants here).map fun _ =>
        { state with places := state.places.set index (.exchange here) }
  | .exchange here =>
      if state.locked then some { state with places := state.places.set index (.watch here) }
      else
        (program.wants here).map fun inner =>
          { state with locked := true, places := state.places.set index (.inside here inner) }
  | .watch here =>
      some { state with
        places := state.places.set index (if state.locked then .watch here else .exchange here) }
  | .inside before here =>
      match program.statement state.data here with
      | (data, .inl next) =>
          some { state with data, places := state.places.set index (.inside before next) }
      | (data, .inr after) =>
          some { state with data, places := state.places.set index (.unlock after) }
  | .unlock after =>
      some { state with locked := false, places := state.places.set index (.outside after) }

def step (state : State Data Local Inner) : Action Input -> Option (State Data Local Inner)
  | .spawn => some { state with
      places := state.places ++ [.outside (program.born state.places.length)] }
  | .outside index input =>
      match state.places[index]? with
      | some (.outside here) =>
          (program.outside here input).map fun next =>
            { state with places := state.places.set index (.outside next) }
      | _ => none
  | .advance index => (state.places[index]?).bind (advance program state index)

def machine (start : Data -> Prop) : Machine (State Data Local Inner) (Action Input) where
  initial state := start state.data ∧ state.locked = false ∧ state.places = []
  step := step program

/-! ## Sections have their whole effect -/

/-- What a section does as a whole, on the data that can occur. -/
structure Contract (whole : Data -> Local -> Data × Local) (good : Data -> Prop) : Prop where
  leads : forall data here inner, good data -> program.wants here = some inner ->
    program.Leads data inner (whole data here).1 (whole data here).2
  keeps : forall data here inner, good data -> program.wants here = some inner ->
    good (whole data here).1

/-- A section in progress ends as the whole section does that has not begun. -/
structure Pending (whole : Data -> Local -> Data × Local) (data origin : Data) (before : Local)
    (here : Inner) : Prop where
  wanted : (program.wants before).isSome = true
  ends : program.Leads data here (whole origin before).1 (whole origin before).2

/-- A state between statements stands for one in which the section in progress
has not begun. -/
structure Represents (whole : Data -> Local -> Data × Local) (good : Data -> Prop)
    (state : State Data Local Inner) (model : Atomic.State Data Local) : Prop where
  owners : model.locals = state.places.map Place.owner
  exclusive : weight Place.holds state.places = state.locked.toNat
  sound : good model.data
  pending : forall (index : Nat) before here, state.places[index]? = some (.inside before here) ->
    Pending program whole state.data model.data before here
  settled : (forall (index : Nat) before here, state.places[index]? ≠ some (.inside before here)) ->
    state.data = model.data

section Pools

variable {places : List (Place Local Inner)} {index other : Nat} {old new : Place Local Inner}

/-- Nobody else is inside while one thread holds the lock. -/
theorem alone (one : weight Place.holds places ≤ 1) (present : places[index]? = some old)
    (holds : old.holds = 1) (distinct : other ≠ index) (before : Local) (here : Inner) :
    places[other]? ≠ some (.inside before here) := by
  intro beside
  have both := quantity_pair_le_weight Place.holds present beside distinct
  rw [holds] at both
  have : (Place.inside before here : Place Local Inner).holds = 1 := rfl
  omega

theorem nobody (none : weight Place.holds places = 0) (before : Local) (here : Inner) :
    places[index]? ≠ some (.inside before here) := by
  intro present
  have part := quantity_le_weight Place.holds present
  have : (Place.inside before here : Place Local Inner).holds = 1 := rfl
  omega

end Pools

section Steps

variable {program} {whole : Data -> Local -> Data × Local} {good : Data -> Prop}
  {state : State Data Local Inner} {model : Atomic.State Data Local} {index : Nat}
  {old new : Place Local Inner}

/-- A new thread is outside. -/
theorem Represents.spawned (same : Represents program whole good state model) (here : Local) :
    Represents program whole good { state with places := state.places ++ [.outside here] }
      { model with locals := model.locals ++ [here] } where
  owners := by
    rw [same.owners, List.map_append]
    rfl
  exclusive := by
    rw [weight_append]
    exact same.exclusive
  sound := same.sound
  pending := by
    intro index before statement there
    have added : forall (position : Nat) place, (state.places ++ [Place.outside here])[position]? = some place ->
        place = .outside here ∨ state.places[position]? = some place :=
      forall_append_singleton (fun _ _ => Or.inr) (Or.inl rfl)
    rcases added index _ there with impossible | before
    · cases impossible
    · exact same.pending _ _ _ before
  settled := by
    intro nobodyInside
    apply same.settled
    intro index before statement there
    apply nobodyInside index before statement
    rw [List.getElem?_append_left (length_of_getElem? there)]
    exact there

/-- Outside of any section, a thread that moves leaves the sections of the
others alone. -/
theorem Represents.besides (same : Represents program whole good state model)
    (present : state.places[index]? = some old) (idle : old.holds = 0) (rests : new.holds = 0)
    {locals : List Local} (owners : locals = (state.places.set index new).map Place.owner) :
    Represents program whole good { state with places := state.places.set index new }
      { model with locals } where
  owners := owners
  exclusive := by
    have exchange := weight_set Place.holds present new
    rw [idle, rests] at exchange
    exact exchange.trans same.exclusive
  sound := same.sound
  pending := by
    intro position before here there
    by_cases itself : position = index
    · subst itself
      rw [List.getElem?_set_self (length_of_getElem? present), Option.some.injEq] at there
      rw [there] at rests
      cases rests
    · rw [List.getElem?_set_ne (Ne.symm itself)] at there
      exact same.pending position before here there
  settled := by
    intro nobodyInside
    apply same.settled
    intro position before here there
    by_cases itself : position = index
    · subst itself
      cases present.symm.trans there
      cases idle
    · apply nobodyInside position before here
      rw [List.getElem?_set_ne (Ne.symm itself)]
      exact there

theorem Represents.owner (same : Represents program whole good state model)
    (present : state.places[index]? = some old) : model.locals[index]? = some old.owner := by
  rw [same.owners, List.getElem?_map, present]
  rfl

/-- A thread on its way to the exchange. -/
theorem Represents.waits (same : Represents program whole good state model)
    (present : state.places[index]? = some old) (idle : old.holds = 0) (rests : new.holds = 0)
    (stays : new.owner = old.owner) :
    Represents program whole good { state with places := state.places.set index new } model :=
  same.besides present idle rests (same.owners.trans (map_set_same Place.owner present new stays).symm)

/-- The exchange found the flag down: the section is still to be run. -/
theorem Represents.entered (same : Represents program whole good state model)
    (contract : Contract program whole good) {here : Local} {inner : Inner}
    (present : state.places[index]? = some (.exchange here)) (free : state.locked = false)
    (wanted : program.wants here = some inner) :
    Represents program whole good
      { state with locked := true, places := state.places.set index (.inside here inner) } model := by
  have exclusive := same.exclusive
  rw [free, Bool.toNat_false] at exclusive
  have data : state.data = model.data := same.settled fun _ => nobody exclusive
  have exchange := weight_set Place.holds present (.inside here inner)
  have itself : (state.places.set index (.inside here inner))[index]? = some (.inside here inner) :=
    List.getElem?_set_self (length_of_getElem? present)
  refine ⟨?_, ?_, same.sound, ?_, ?_⟩
  · exact same.owners.trans (map_set_same Place.owner present (.inside here inner) rfl).symm
  · simp only [Place.holds, exclusive] at exchange
    simpa using exchange
  · intro position before statement there
    by_cases here : position = index
    · subst here
      cases itself.symm.trans there
      refine ⟨by rw [wanted]; rfl, ?_⟩
      change program.Leads state.data inner _ _
      rw [data]
      exact contract.leads _ _ _ same.sound wanted
    · rw [List.getElem?_set_ne (Ne.symm here)] at there
      exact absurd there (nobody exclusive before statement)
  · intro nobodyInside
    exact absurd itself (nobodyInside index here inner)

/-- A statement that is not the last one. -/
theorem Represents.goesOn (same : Represents program whole good state model) {before : Local}
    {here next : Inner} {data : Data} (present : state.places[index]? = some (.inside before here))
    (stated : program.statement state.data here = (data, .inl next)) :
    Represents program whole good
      { state with data, places := state.places.set index (.inside before next) } model := by
  have exchange := weight_set Place.holds present (.inside before next)
  have one : weight Place.holds state.places ≤ 1 := by
    rw [same.exclusive]
    exact Bool.toNat_le _
  have pending := same.pending index before here present
  have itself : (state.places.set index (.inside before next))[index]? =
      some (.inside before next) := List.getElem?_set_self (length_of_getElem? present)
  refine ⟨?_, ?_, same.sound, ?_, ?_⟩
  · exact same.owners.trans (map_set_same Place.owner present (.inside before next) rfl).symm
  · have := same.exclusive
    simp only [Place.holds] at exchange ⊢
    omega
  · intro position other statement there
    by_cases here : position = index
    · subst here
      cases itself.symm.trans there
      exact ⟨pending.wanted, pending.ends.of_inl stated⟩
    · rw [List.getElem?_set_ne (Ne.symm here)] at there
      exact absurd there (alone one present rfl here other statement)
  · intro nobodyInside
    exact absurd itself (nobodyInside index before next)

/-- The last statement: here the whole section takes place. -/
theorem Represents.leaves (same : Represents program whole good state model)
    (contract : Contract program whole good) {before after : Local} {here : Inner} {data : Data}
    (present : state.places[index]? = some (.inside before here))
    (stated : program.statement state.data here = (data, .inr after)) :
    Exists fun later => Atomic.step program whole model (.section index) = some later ∧
      Represents program whole good
        { state with data, places := state.places.set index (.unlock after) } later := by
  have exchange := weight_set Place.holds present (.unlock after)
  have one : weight Place.holds state.places ≤ 1 := by
    rw [same.exclusive]
    exact Bool.toNat_le _
  have pending := same.pending index before here present
  rcases pending.ends.of_inr stated with ⟨rfl, rfl⟩
  rcases Option.isSome_iff_exists.mp pending.wanted with ⟨inner, wanted⟩
  have owner : model.locals[index]? = some before := same.owner present
  refine ⟨_, by simp only [Atomic.step, owner, Option.bind_some, wanted, Option.map_some]; rfl, ?_⟩
  refine ⟨?_, ?_, contract.keeps _ _ _ same.sound wanted, ?_, fun _ => rfl⟩
  · change _ = (state.places.set index _).map Place.owner
    rw [List.map_set, same.owners]
    rfl
  · have := same.exclusive
    simp only [Place.holds] at exchange ⊢
    omega
  · intro position other statement there
    by_cases here : position = index
    · subst here
      rw [List.getElem?_set_self (length_of_getElem? present)] at there
      cases there
    · rw [List.getElem?_set_ne (Ne.symm here)] at there
      exact absurd there (alone one present rfl here other statement)

/-- The flag goes down. -/
theorem Represents.unlocked (same : Represents program whole good state model) {after : Local}
    (present : state.places[index]? = some (.unlock after)) :
    Represents program whole good
      { state with locked := false, places := state.places.set index (.outside after) } model := by
  have exchange := weight_set Place.holds present (.outside after)
  have one : weight Place.holds state.places ≤ 1 := by
    rw [same.exclusive]
    exact Bool.toNat_le _
  have part := quantity_le_weight Place.holds present
  have rest : weight Place.holds (state.places.set index (.outside after)) = 0 := by
    simp only [Place.holds] at exchange part
    omega
  have nobodyInside : forall (position : Nat) before here,
      state.places[position]? ≠ some (.inside before here) := by
    intro position before here
    by_cases itself : position = index
    · subst itself
      rw [present]
      rintro ⟨⟩
    · exact alone one present rfl itself before here
  refine ⟨?_, rest, same.sound, ?_, fun _ => same.settled nobodyInside⟩
  · exact same.owners.trans (map_set_same Place.owner present (.outside after) rfl).symm
  · intro position before here there
    exact absurd there (nobody rest before here)

end Steps

variable {program} {whole : Data -> Local -> Data × Local} {good : Data -> Prop}
  {start : Data -> Prop}

/-- Threads that run statement by statement do what threads do that run whole
sections. -/
theorem simulation (contract : Contract program whole good)
    (begins : forall data, start data -> good data) :
    Simulation (machine program start) (Atomic.machine program whole start)
      (Represents program whole good) where
  starts := by
    rintro ⟨data, locked, places⟩ ⟨initial, rfl, rfl⟩
    refine ⟨⟨data, []⟩, ⟨initial, rfl⟩, rfl, rfl, begins data initial, ?_, fun _ => rfl⟩
    intro index before here present
    cases present
  steps := by
    intro state action next model _ _ same moved
    cases action with
    | spawn =>
        cases moved
        apply Simulation.single .spawn rfl
        have born : program.born state.places.length = program.born model.locals.length := by
          rw [same.owners, List.length_map]
        rw [born]
        exact same.spawned _
    | outside index input =>
        simp only [machine, step] at moved
        split at moved
        · rename_i here present
          rcases Option.map_eq_some_iff.mp moved with ⟨local', went, rfl⟩
          have owner := same.owner present
          apply Simulation.single (.outside index input)
          · simp only [Atomic.machine, Atomic.step, owner, Option.bind_some, Place.owner, went,
              Option.map_some]
            rfl
          · apply same.besides present rfl rfl
            rw [List.map_set, same.owners]
            rfl
        · cases moved
    | advance index =>
        rcases Option.bind_eq_some_iff.mp moved with ⟨place, present, taken⟩
        cases place with
        | outside here =>
            rcases Option.map_eq_some_iff.mp taken with ⟨inner, wanted, rfl⟩
            exact Simulation.stutter (same.waits present rfl rfl rfl)
        | exchange here =>
            simp only [advance] at taken
            split at taken
            · cases taken
              exact Simulation.stutter (same.waits present rfl rfl rfl)
            · rename_i free
              rcases Option.map_eq_some_iff.mp taken with ⟨inner, wanted, rfl⟩
              exact Simulation.stutter
                (same.entered contract present (Bool.eq_false_iff.mpr free) wanted)
        | watch here =>
            cases taken
            apply Simulation.stutter
            split <;> exact same.waits present rfl rfl rfl
        | inside before here =>
            simp only [advance] at taken
            split at taken
            · rename_i data next stated
              cases taken
              exact Simulation.stutter (same.goesOn present stated)
            · rename_i data after stated
              cases taken
              rcases same.leaves contract present stated with ⟨later, moved, represents⟩
              exact Simulation.single (Atomic.Action.section index) moved represents
        | unlock after =>
            cases taken
            exact Simulation.stutter (same.unlocked present)

/-- The flag is up exactly while one thread is inside, and never two are. -/
theorem exclusive (contract : Contract program whole good)
    (begins : forall data, start data -> good data) {state : State Data Local Inner}
    (reachable : (machine program start).Reachable state) :
    weight Place.holds state.places = state.locked.toNat := by
  rcases (simulation contract begins).reachable reachable with ⟨model, _, same⟩
  exact same.exclusive

/-- A thread inside needs nobody else to finish and to let go of the lock. -/
theorem finishes {data after : Data} {here : Inner} {there : Local}
    (leads : program.Leads data here after there) (before : Local) (index : Nat) :
    forall (locked : Bool) (places : List (Place Local Inner)),
      places[index]? = some (.inside before here) ->
      Exists fun count => (machine program start).run ⟨data, locked, places⟩
          (List.replicate count (.advance index)) =
        some ⟨after, false, places.set index (.outside there)⟩ := by
  induction leads with
  | @leaves data after here there last =>
      intro locked places present
      have unlocking : (places.set index (Place.unlock there))[index]? = some (.unlock there) :=
        List.getElem?_set_self (length_of_getElem? present)
      refine ⟨2, ?_⟩
      rw [List.replicate_succ, Machine.run_cons_eq_some]
      refine ⟨⟨after, locked, places.set index (.unlock there)⟩, ?_, ?_⟩
      · simp only [machine, step, present, Option.bind_some, advance, last]
      · rw [List.replicate_one, Machine.run_cons_eq_some]
        refine ⟨_, ?_, rfl⟩
        simp only [machine, step, unlocking, Option.bind_some, advance, List.set_set]
  | @goesOn data between after here next there first _ inductionHypothesis =>
      intro locked places present
      have inside : (places.set index (Place.inside before next))[index]? =
          some (.inside before next) := List.getElem?_set_self (length_of_getElem? present)
      rcases inductionHypothesis locked _ inside with ⟨count, ran⟩
      refine ⟨count + 1, ?_⟩
      rw [List.replicate_succ, Machine.run_cons_eq_some]
      refine ⟨⟨between, locked, places.set index (.inside before next)⟩, ?_, ?_⟩
      · simp only [machine, step, present, Option.bind_some, advance, first]
      · rw [ran, List.set_set]

end SpinLock

end Foundation
end ServiceRuntime
