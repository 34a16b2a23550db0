import ServiceRuntime.Pool.Deletion
import ServiceRuntime.Service.Pins

namespace ServiceRuntime
namespace Registry

open Lua (Letter)
open Service (Request)
open ServicePool (maxServices mailboxMinSize mailboxMaxSize)
open Foundation

/-!
# The registry of a pool

`service_pool_t` is an array of services and the next free identifier.
`service_new` fills one slot under the pool lock; nothing ever empties one.
Names are C strings: a Lua string is read up to its first zero byte, and a
service without a name holds the empty string.

The machine runs the registry beside the machines of its services, so that
`routable` is cleared by the stops, failed starts and joins of the services
themselves.  Clients look a name up and send to the identifier they found in
separate steps.
-/

/-- A Lua string is any sequence of bytes. -/
abbrev LuaString := List UInt8

def maxServiceNameLen : Nat := 32

/-- What C reads of a Lua string. -/
def cString (string : LuaString) : List UInt8 :=
  string.takeWhile (· ≠ 0)

/-- A `service_t` in its slot.  `name` is the contents of the `char` array;
`given` is ghost and keeps what `service.new` was given as the name. -/
structure Entry where
  id : Nat
  name : List UInt8
  given : Option LuaString
  service : Service.State

def Entry.routable (entry : Entry) : Bool :=
  entry.service.shared.routable

/-- Somebody has looked a name up, with the service found as it was then, and
has sent a message to its identifier; `posted` is the position of that
`service_send` among the calls on the service it reached. -/
structure Client where
  name : List UInt8
  found : Option Entry
  posted : Option Nat

structure State where
  services : List (Option Entry)
  nextId : Nat
  clients : List Client

def State.empty : State where
  services := List.replicate maxServices none
  nextId := 0
  clients := []

/-- `pool->services[id]`. -/
def State.slot (state : State) (id : Nat) : Option Entry :=
  (state.services[id]?).join

/-! ## The operations -/

/-- `service_pool_get_service`. -/
def getService (state : State) (id : Nat) : Option Entry :=
  if maxServices ≤ id then none else state.slot id

/-- The test in the loops over the registry. -/
def bears (state : State) (name : List UInt8) (id : Nat) : Option Entry :=
  match state.slot id with
  | some candidate => if candidate.routable && candidate.name == name then some candidate else none
  | none => none

/-- `service_pool_lookup_service`. -/
def lookupService (state : State) (name : List UInt8) : Option Entry :=
  (List.range state.nextId).findSome? (bears state name)

/-- The arguments of `service.new` that `service_new` looks at. -/
structure NewRequest where
  name : Option LuaString
  hasSource : Bool
  mailboxSize : Nat
  deriving DecidableEq, Repr

/-- What the allocations and initialisations in `service_new` return; `cells`
is the ring of the mailbox. -/
structure NewOutcome where
  service : Bool
  mutex : Bool
  cond : Bool
  cells : Option (List Letter)
  source : Bool
  deriving DecidableEq, Repr

/-- Nothing runs out. -/
def NewOutcome.Succeeds (outcome : NewOutcome) : Prop :=
  outcome.service = true ∧ outcome.mutex = true ∧ outcome.cond = true ∧
    outcome.cells.isSome = true ∧ outcome.source = true

instance (outcome : NewOutcome) : Decidable outcome.Succeeds :=
  inferInstanceAs (Decidable (_ ∧ _ ∧ _ ∧ _ ∧ _))

/-- The arguments `service_new` accepts. -/
def NewRequest.Valid (request : NewRequest) : Prop :=
  request.hasSource = true ∧ mailboxMinSize ≤ request.mailboxSize ∧
    request.mailboxSize ≤ mailboxMaxSize ∧
    forall name, request.name = some name -> (cString name).length < maxServiceNameLen

instance (request : NewRequest) : Decidable request.Valid :=
  inferInstanceAs (Decidable (_ ∧ _ ∧ _ ∧ _))

/-- What `service_new` copies into the `char` array. -/
def NewRequest.stored (request : NewRequest) : List UInt8 :=
  (request.name.map cString).getD []

/-- The locked section of `service_new`. -/
def registerLocked (state : State) (request : NewRequest) (box : Mailbox Letter) :
    State × Option Nat :=
  if maxServices ≤ state.nextId then (state, none)
  else if request.stored ≠ [] ∧ ((List.range state.nextId).any fun id =>
      (bears state request.stored id).isSome) then (state, none)
  else
    ({ state with
        services := state.services.set state.nextId
          (some ⟨state.nextId, request.stored, request.name, .start box⟩)
        nextId := state.nextId + 1 },
      some state.nextId)

/-- `service_new`, with the identifier of the service it returns. -/
def serviceNew (state : State) (request : NewRequest) (outcome : NewOutcome) : State × Option Nat :=
  if request.Valid then
    if outcome.service && outcome.mutex && outcome.cond then
      match Mailbox.new request.mailboxSize outcome.cells with
      | none => (state, none)
      | some box => if outcome.source then registerLocked state request box else (state, none)
    else (state, none)
  else (state, none)

/-! ## The machine -/

inductive Action where
  | new (request : NewRequest) (outcome : NewOutcome)
  | service (id : Nat) (action : Service.Action)
  | lookup (name : List UInt8)
  | post (client : Nat) (message : Message)
  deriving DecidableEq, Repr

/-- Replace the service in a slot. -/
def State.update (state : State) (id : Nat) (entry : Entry) (service : Service.State) : State :=
  { state with services := state.services.set id (some { entry with service }) }

/-- A thread enters `service_send` for the service. -/
def Entry.enterSend (entry : Entry) (message : Message) : Service.State :=
  { entry.service with
    calls := entry.service.calls ++ [(Request.send { message with toId := entry.id }).call] }

/-- `service_send` to the identifier a client has found. -/
def post (state : State) (index : Nat) (message : Message) : Option State :=
  (state.clients[index]?).bind fun client =>
    match client.found, client.posted with
    | some found, none =>
        match getService state found.id with
        | some entry =>
            some
              { state.update found.id entry (entry.enterSend message) with
                clients := state.clients.set index
                  { client with posted := some entry.service.calls.length } }
        | none => some state
    | _, _ => none

def step (state : State) : Action -> Option State
  | .new request outcome =>
      if forall cells, outcome.cells = some cells -> cells.length = request.mailboxSize then
        some (serviceNew state request outcome).1
      else none
  | .service id action =>
      (getService state id).bind fun entry =>
        (Service.step id entry.service action).map fun next => state.update id entry next
  | .lookup name =>
      some { state with
        clients := state.clients ++ [⟨name, lookupService state name, none⟩] }
  | .post index message => post state index message

def machine : Machine State Action where
  initial := fun state => state = .empty
  step := step

/-! ## Slots -/

theorem slot_of_set {state next : State} {id : Nat} {entry : Option Entry}
    (inside : id < state.services.length) (array : next.services = state.services.set id entry)
    (other : Nat) : next.slot other = if other = id then entry else state.slot other := by
  unfold State.slot
  rw [array]
  by_cases same : other = id
  · subst same
    rw [List.getElem?_set_self inside, if_pos rfl]
    rfl
  · rw [List.getElem?_set_ne (Ne.symm same), if_neg same]

theorem slot_inside {state : State} {id : Nat} {entry : Entry} (present : state.slot id = some entry) :
    id < state.services.length := by
  unfold State.slot at present
  rcases Option.join_eq_some_iff.mp present with located
  exact (List.getElem?_eq_some_iff.mp located).1

theorem slot_update {state : State} {id : Nat} {entry : Entry} (present : state.slot id = some entry)
    (service : Service.State) (other : Nat) :
    (state.update id entry service).slot other =
      if other = id then some { entry with service } else state.slot other :=
  slot_of_set (slot_inside present) rfl other

theorem getService_eq_some {state : State} {id : Nat} {entry : Entry} :
    getService state id = some entry <-> id < maxServices ∧ state.slot id = some entry := by
  unfold getService
  split
  · simp only [reduceCtorEq, false_iff, not_and]
    omega
  · simp only [iff_and_self]
    omega

theorem bears_eq_some {state : State} {name : List UInt8} {id : Nat} {entry : Entry} :
    bears state name id = some entry <->
      state.slot id = some entry ∧ entry.routable = true ∧ entry.name = name := by
  unfold bears
  cases state.slot id with
  | none => simp only [reduceCtorEq, false_and]
  | some candidate =>
      simp only [Option.ite_none_right_eq_some, Bool.and_eq_true, beq_iff_eq, Option.some.injEq]
      constructor
      · rintro ⟨⟨routable, named⟩, rfl⟩
        exact ⟨rfl, routable, named⟩
      · rintro ⟨rfl, routable, named⟩
        exact ⟨⟨routable, named⟩, rfl⟩

theorem any_bears {state : State} {name : List UInt8} :
    ((List.range state.nextId).any fun id => (bears state name id).isSome) = true <->
      Exists fun id => Exists fun entry => id < state.nextId ∧ state.slot id = some entry ∧
        entry.routable = true ∧ entry.name = name := by
  simp only [List.any_eq_true, List.mem_range, Option.isSome_iff_exists, bears_eq_some]
  constructor
  · rintro ⟨id, below, entry, borne⟩
    exact ⟨id, entry, below, borne⟩
  · rintro ⟨id, entry, below, borne⟩
    exact ⟨id, below, entry, borne⟩

theorem lookupService_eq_some {state : State} {name : List UInt8} {found : Entry}
    (looked : lookupService state name = some found) :
    Exists fun id => id < state.nextId ∧ (state.slot id = some found ∧ found.routable = true ∧
      found.name = name) ∧ forall earlier, earlier < id -> bears state name earlier = none := by
  rcases List.findSome?_eq_some_iff.mp looked with ⟨before, id, after, split, borne, missed⟩
  have inside : id < state.nextId := by
    rw [← List.mem_range, split]
    exact List.mem_append_right before List.mem_cons_self
  refine ⟨id, inside, bears_eq_some.mp borne, ?_⟩
  intro earlier less
  apply missed
  have ascending := @List.pairwise_lt_range state.nextId
  have member : earlier ∈ List.range state.nextId := List.mem_range.mpr (by omega)
  rw [split] at ascending member
  -- the rest of the range lies above `id`
  rcases List.mem_append.mp member with early | late
  · exact early
  · rcases List.mem_cons.mp late with same | later
    · omega
    · have above := (List.pairwise_cons.mp (List.pairwise_append.mp ascending).2.1).1 earlier later
      omega

theorem lookupService_eq_none {state : State} {name : List UInt8}
    (missing : lookupService state name = none) {id : Nat} (inside : id < state.nextId) :
    bears state name id = none :=
  List.findSome?_eq_none_iff.mp missing id (List.mem_range.mpr inside)

/-! ## What a step does to the array -/

/-- The array stays, gains one service at its end, or has one service that
took a step of its own. -/
inductive Change (state : State) (next : State) : Prop where
  | same (array : next.services = state.services) (count : next.nextId = state.nextId)
  | registered (request : NewRequest) (box : Mailbox Letter) (room : state.nextId < maxServices)
      (free : request.stored ≠ [] -> ¬ Exists fun id => Exists fun entry => id < state.nextId ∧
        state.slot id = some entry ∧ entry.routable = true ∧ entry.name = request.stored)
      (built : Service.Fresh (.start box))
      (array : next.services = state.services.set state.nextId
        (some ⟨state.nextId, request.stored, request.name, .start box⟩))
      (count : next.nextId = state.nextId + 1)
  | stepped (id : Nat) (entry : Entry) (action : Service.Action) (service : Service.State)
      (present : state.slot id = some entry)
      (taken : Service.step id entry.service action = some service)
      (array : next.services = state.services.set id (some { entry with service }))
      (count : next.nextId = state.nextId)

/-- The locked section fails without a trace, or fills the next slot. -/
theorem registerLocked_cases (state : State) (request : NewRequest) (box : Mailbox Letter) :
    (registerLocked state request box = (state, none) ∧
      (maxServices ≤ state.nextId ∨ request.stored ≠ [] ∧
        Exists fun id => Exists fun entry => id < state.nextId ∧ state.slot id = some entry ∧
          entry.routable = true ∧ entry.name = request.stored)) ∨
    (registerLocked state request box =
        ({ state with
            services := state.services.set state.nextId
              (some ⟨state.nextId, request.stored, request.name, .start box⟩)
            nextId := state.nextId + 1 }, some state.nextId) ∧
      state.nextId < maxServices ∧
      (request.stored ≠ [] -> ¬ Exists fun id => Exists fun entry => id < state.nextId ∧
        state.slot id = some entry ∧ entry.routable = true ∧ entry.name = request.stored)) := by
  unfold registerLocked
  split
  · rename_i full
    exact Or.inl ⟨rfl, Or.inl full⟩
  · rename_i room
    split
    · rename_i taken
      exact Or.inl ⟨rfl, Or.inr ⟨taken.1, any_bears.mp taken.2⟩⟩
    · rename_i free
      refine Or.inr ⟨rfl, by omega, ?_⟩
      intro named borne
      exact free ⟨named, any_bears.mpr borne⟩

/-- A valid size never makes `mailbox_new` fail by itself. -/
theorem NewRequest.Valid.mailbox {request : NewRequest} (valid : request.Valid)
    (cells : List Letter) :
    Exists fun box => Mailbox.new request.mailboxSize (some cells) = some box := by
  rcases valid with ⟨-, least, most, -⟩
  have sized : ¬ (request.mailboxSize = 0 ∨
      sizeMax / messageSize < request.mailboxSize) := by
    have enough : mailboxMaxSize ≤ sizeMax / messageSize := by decide
    have positive : 0 < mailboxMinSize := by decide
    omega
  unfold Mailbox.new
  rw [if_neg sized]
  exact ⟨_, rfl⟩

/-- `service_new` returns before the lock, or is its locked section around a
new mailbox. -/
theorem serviceNew_cases (state : State) (request : NewRequest) (outcome : NewOutcome) :
    (serviceNew state request outcome = (state, none) ∧ ¬ (request.Valid ∧ outcome.Succeeds)) ∨
    (request.Valid ∧ outcome.Succeeds ∧ Exists fun cells => Exists fun box =>
      outcome.cells = some cells ∧ Mailbox.new request.mailboxSize (some cells) = some box ∧
      serviceNew state request outcome = registerLocked state request box) := by
  unfold serviceNew
  by_cases valid : request.Valid
  · rw [if_pos valid]
    by_cases ready : (outcome.service && outcome.mutex && outcome.cond) = true
    · rw [if_pos ready]
      simp only [Bool.and_eq_true] at ready
      cases allotted : outcome.cells with
      | none =>
          have empty : Mailbox.new request.mailboxSize (none : Option (List Letter)) = none := by
            unfold Mailbox.new
            split <;> rfl
          rw [empty]
          refine Or.inl ⟨rfl, ?_⟩
          rintro ⟨-, -, -, -, given, -⟩
          rw [allotted] at given
          cases given
      | some cells =>
          rcases valid.mailbox cells with ⟨box, built⟩
          simp only [built]
          by_cases source : outcome.source = true
          · rw [if_pos source]
            refine Or.inr ⟨valid, ⟨ready.1.1, ready.1.2, ready.2, ?_, source⟩, cells, box, rfl, built, rfl⟩
            rw [allotted]
            rfl
          · rw [if_neg source]
            exact Or.inl ⟨rfl, fun both => source both.2.2.2.2.2⟩
    · rw [if_neg ready]
      refine Or.inl ⟨rfl, ?_⟩
      rintro ⟨-, service, mutex, cond, -⟩
      apply ready
      rw [service, mutex, cond]
      rfl
  · rw [if_neg valid]
    exact Or.inl ⟨rfl, fun both => valid both.1⟩

theorem serviceNew_change {state : State} {request : NewRequest} {outcome : NewOutcome}
    (sized : forall cells, outcome.cells = some cells -> cells.length = request.mailboxSize) :
    Change state (serviceNew state request outcome).1 := by
  rcases serviceNew_cases state request outcome with
    ⟨failed, -⟩ | ⟨-, -, cells, box, allotted, built, entered⟩
  · rw [failed]
    exact .same rfl rfl
  · rw [entered]
    rcases registerLocked_cases state request box with ⟨failed, -⟩ | ⟨filled, room, free⟩
    · rw [failed]
      exact .same rfl rfl
    · rw [filled]
      exact .registered request box room free
        ⟨request.mailboxSize, cells, box, sized cells allotted, built, rfl⟩ rfl rfl

/-- A `service_send` by a client is a call on the service in the slot of the
identifier it found. -/
theorem post_cases {state next : State} {index : Nat} {message : Message}
    (moved : post state index message = some next) :
    Exists fun client => Exists fun found => state.clients[index]? = some client ∧
      client.found = some found ∧ client.posted = none ∧
      (next = state ∨ Exists fun entry => state.slot found.id = some entry ∧
        next = { state.update found.id entry (entry.enterSend message) with
          clients := state.clients.set index
            { client with posted := some entry.service.calls.length } }) := by
  rcases Option.bind_eq_some_iff.mp moved with ⟨client, present, taken⟩
  split at taken
  · rename_i found looked waiting
    refine ⟨client, found, present, looked, waiting, ?_⟩
    split at taken
    · rename_i entry resolved
      exact Or.inr ⟨entry, (getService_eq_some.mp resolved).2, (Option.some.inj taken).symm⟩
    · exact Or.inl (Option.some.inj taken).symm
  · cases taken

theorem step_change {state next : State} {action : Action} (moved : step state action = some next) :
    Change state next := by
  cases action with
  | new request outcome =>
      simp only [step, Option.ite_none_right_eq_some, Option.some.injEq] at moved
      rw [← moved.2]
      exact serviceNew_change moved.1
  | service id action =>
      rcases Option.bind_eq_some_iff.mp moved with ⟨entry, resolved, taken⟩
      rcases Option.map_eq_some_iff.mp taken with ⟨service, stepped, rfl⟩
      exact .stepped id entry action service (getService_eq_some.mp resolved).2 stepped rfl rfl
  | lookup name =>
      simp only [step, Option.some.injEq] at moved
      rw [← moved]
      exact .same rfl rfl
  | post index message =>
      rcases post_cases moved with ⟨client, found, -, -, -, rfl | ⟨entry, present, rfl⟩⟩
      · exact .same rfl rfl
      · exact .stepped found.id entry (.call (.send { message with toId := entry.id })) _ present
          rfl rfl rfl

/-! ## The registry of every run -/

/-- The array holds exactly the services registered so far, each under its own
identifier and each a run of its own; no two routable ones share a name. -/
structure Sound (state : State) : Prop where
  size : state.services.length = maxServices
  bounded : state.nextId ≤ maxServices
  occupied : forall id, (state.slot id).isSome = true <-> id < state.nextId
  numbered : forall id entry, state.slot id = some entry -> entry.id = id
  runs : forall id entry, state.slot id = some entry ->
    (Service.machine id).Reachable entry.service
  unique : forall first second one other, state.slot first = some one ->
    state.slot second = some other -> one.routable = true -> other.routable = true ->
    one.name = other.name -> one.name ≠ [] -> first = second

/-- The same service at a later moment. -/
structure Entry.Continues (entry later : Entry) : Prop where
  id : later.id = entry.id
  name : later.name = entry.name
  given : later.given = entry.given
  retired : entry.routable = false -> later.routable = false
  run : Exists fun schedule =>
    (Service.machine entry.id).run entry.service schedule = some later.service

/-- No slot is ever emptied or given to another service. -/
structure Extends (state later : State) : Prop where
  count : state.nextId ≤ later.nextId
  slots : forall id entry, state.slot id = some entry ->
    Exists fun current => later.slot id = some current ∧ entry.Continues current

theorem Entry.Continues.refl (entry : Entry) : entry.Continues entry where
  id := rfl
  name := rfl
  given := rfl
  retired := fun retired => retired
  run := ⟨[], rfl⟩

theorem Entry.Continues.trans {first second third : Entry} (before : first.Continues second)
    (after : second.Continues third) : first.Continues third where
  id := after.id.trans before.id
  name := after.name.trans before.name
  given := after.given.trans before.given
  retired := fun retired => after.retired (before.retired retired)
  run := by
    rcases before.run with ⟨earlier, reached⟩
    rcases after.run with ⟨later, finished⟩
    rw [before.id] at finished
    exact ⟨earlier ++ later, (Machine.run_append_eq_some _).mpr ⟨second.service, reached, finished⟩⟩

theorem Extends.refl (state : State) : Extends state state where
  count := Nat.le_refl _
  slots := fun _ entry present => ⟨entry, present, .refl entry⟩

theorem Extends.trans {first second third : State} (before : Extends first second)
    (after : Extends second third) : Extends first third where
  count := Nat.le_trans before.count after.count
  slots := by
    intro id entry present
    rcases before.slots id entry present with ⟨middle, located, earlier⟩
    rcases after.slots id middle located with ⟨current, found, later⟩
    exact ⟨current, found, earlier.trans later⟩

/-- A step of a service continues the service. -/
theorem Entry.continues_step {entry : Entry} {action : Service.Action} {service : Service.State}
    (reachable : (Service.machine entry.id).Reachable entry.service)
    (taken : Service.step entry.id entry.service action = some service) :
    entry.Continues { entry with service } where
  id := rfl
  name := rfl
  given := rfl
  retired := fun retired => Service.step_retired reachable retired taken
  run := ⟨[action], (Machine.run_cons_eq_some _).mpr ⟨service, taken, rfl⟩⟩

theorem Change.extends {state next : State} (sound : Sound state) (change : Change state next) :
    Extends state next := by
  cases change with
  | same array count =>
      refine ⟨Nat.le_of_eq count.symm, ?_⟩
      intro id entry present
      refine ⟨entry, ?_, .refl entry⟩
      unfold State.slot at present ⊢
      rw [array, present]
  | registered request box room free built array count =>
      refine ⟨by omega, ?_⟩
      intro id entry present
      have below : id < state.nextId := (sound.occupied id).mp (Option.isSome_iff_exists.mpr ⟨entry, present⟩)
      refine ⟨entry, ?_, .refl entry⟩
      rw [slot_of_set (by rw [sound.size]; exact room) array, if_neg (by omega), present]
  | stepped id entry action service present taken array count =>
      refine ⟨Nat.le_of_eq count.symm, ?_⟩
      have reachable := sound.runs id entry present
      have number := sound.numbered id entry present
      intro other before located
      by_cases same : other = id
      · subst same
        obtain rfl : entry = before := Option.some.inj (present.symm.trans located)
        rw [← number] at reachable taken
        refine ⟨{ entry with service }, ?_, Entry.continues_step reachable taken⟩
        rw [slot_of_set (slot_inside present) array, if_pos rfl]
      · refine ⟨before, ?_, .refl before⟩
        rw [slot_of_set (slot_inside present) array, if_neg same, located]

/-- The uniqueness of names only depends on which names are routable. -/
theorem Change.sound {state next : State} (sound : Sound state) (change : Change state next) :
    Sound next := by
  cases change with
  | same array count =>
      have slots : forall id, next.slot id = state.slot id := by
        intro id
        unfold State.slot
        rw [array]
      constructor
      · rw [array, sound.size]
      · rw [count]
        exact sound.bounded
      · intro id
        rw [slots, count, sound.occupied]
      · intro id entry present
        exact sound.numbered id entry (slots id ▸ present)
      · intro id entry present
        exact sound.runs id entry (slots id ▸ present)
      · intro first second one other located found
        exact sound.unique first second one other (slots first ▸ located) (slots second ▸ found)
  | registered request box room free built array count =>
      have slots : forall id, next.slot id =
          if id = state.nextId then
            some ⟨state.nextId, request.stored, request.name, .start box⟩
          else state.slot id :=
        slot_of_set (by rw [sound.size]; exact room) array
      have below : forall id entry, state.slot id = some entry -> id < state.nextId := by
        intro id entry present
        exact (sound.occupied id).mp (Option.isSome_iff_exists.mpr ⟨entry, present⟩)
      constructor
      · rw [array, List.length_set, sound.size]
      · omega
      · intro id
        rw [slots, count]
        split
        · simp only [Option.isSome_some, true_iff]
          omega
        · rw [sound.occupied]
          omega
      · intro id entry present
        rw [slots] at present
        split at present
        · cases present
          exact Eq.symm (by assumption)
        · exact sound.numbered id entry present
      · intro id entry present
        rw [slots] at present
        split at present
        · cases present
          exact ⟨_, [], built, rfl⟩
        · exact sound.runs id entry present
      · intro first second one other located found routable alive named nonempty
        rw [slots] at located found
        split at located <;> split at found
        · omega
        · cases located
          exact absurd ⟨second, other, below second other found, found, alive, named.symm⟩ (free nonempty)
        · cases found
          exact absurd ⟨first, one, below first one located, located, routable, named⟩
            (free fun unnamed => nonempty (named.trans unnamed))
        · exact sound.unique first second one other located found routable alive named nonempty
  | stepped id entry action service present taken array count =>
      have slots : forall other, next.slot other =
          if other = id then some { entry with service } else state.slot other :=
        slot_of_set (slot_inside present) array
      have reachable := sound.runs id entry present
      -- the service in the slot is routable only if it was before
      have earlier : forall other current, next.slot other = some current ->
          Exists fun before => state.slot other = some before ∧ before.name = current.name ∧
            before.id = current.id ∧ (current.routable = true -> before.routable = true) := by
        intro other current located
        rw [slots] at located
        split at located
        · rename_i same
          cases located
          refine ⟨entry, same ▸ present, rfl, rfl, ?_⟩
          intro routable
          by_contra retired
          have cleared := Service.step_retired reachable (Bool.not_eq_true _ ▸ retired) taken
          exact absurd (routable.symm.trans cleared) (by decide)
        · exact ⟨current, located, rfl, rfl, fun routable => routable⟩
      constructor
      · rw [array, List.length_set, sound.size]
      · rw [count]
        exact sound.bounded
      · intro other
        rw [slots, count, ← sound.occupied]
        split
        · rename_i same
          rw [same, present]
          simp only [Option.isSome_some]
        · exact Iff.rfl
      · intro other current located
        rcases earlier other current located with ⟨before, found, -, number, -⟩
        rw [← number]
        exact sound.numbered other before found
      · intro other current located
        rw [slots] at located
        split at located
        · rename_i same
          cases located
          rw [same]
          exact reachable.step taken
        · exact sound.runs other current located
      · intro first second one other located found routable alive named nonempty
        rcases earlier first one located with ⟨before, before_located, before_named, -, before_alive⟩
        rcases earlier second other found with ⟨past, past_located, past_named, -, past_alive⟩
        exact sound.unique first second before past before_located past_located
          (before_alive routable) (past_alive alive) (by rw [before_named, past_named, named])
          (before_named ▸ nonempty)

theorem empty_sound : Sound .empty where
  size := rfl
  bounded := Nat.zero_le _
  occupied := by
    intro id
    have absent : State.empty.slot id = none := by
      simp only [State.slot, State.empty, List.getElem?_replicate]
      split <;> rfl
    rw [absent]
    simp only [Option.isSome_none, Bool.false_eq_true, State.empty, Nat.not_lt_zero]
  numbered := by
    intro id entry present
    simp only [State.slot, State.empty, List.getElem?_replicate] at present
    split at present <;> cases present
  runs := by
    intro id entry present
    simp only [State.slot, State.empty, List.getElem?_replicate] at present
    split at present <;> cases present
  unique := by
    intro first second one other present
    simp only [State.slot, State.empty, List.getElem?_replicate] at present
    split at present <;> cases present

theorem reachable_sound {state : State} (reachable : machine.Reachable state) : Sound state := by
  apply Machine.Reachable.invariant _ _ reachable
  · rintro start rfl
    exact empty_sound
  · intro current action next sound moved
    exact (step_change moved).sound sound

theorem run_extends {state final : State} {schedule : List Action} (sound : Sound state)
    (taken : machine.run state schedule = some final) : Extends state final := by
  have both : Sound final ∧ Extends state final := by
    apply machine.run_preserves _ taken ⟨sound, .refl state⟩
    intro current action next sofar moved
    have change := step_change moved
    exact ⟨change.sound sofar.1, sofar.2.trans (change.extends sofar.1)⟩
  exact both.2

/-! ## Messages sent by name -/

/-- What a client found bore the name and is still the service under its
identifier; what the client sent is a call on that service. -/
structure Client.Faithful (state : State) (client : Client) : Prop where
  looked : forall found, client.found = some found ->
    found.routable = true ∧ found.name = client.name ∧
      Exists fun current => state.slot found.id = some current ∧ found.Continues current
  delivered : forall found index, client.found = some found -> client.posted = some index ->
    Exists fun current => Exists fun message => Exists fun pc =>
      state.slot found.id = some current ∧
      current.service.calls[index]? = some (.send message pc) ∧ message.toId = found.id

/-- A send in progress stays a send of the same message. -/
theorem Change.sent {state next : State} (sound : Sound state) (change : Change state next)
    {id index : Nat} {entry : Entry} {message : Message} {pc : Service.SendPc}
    (present : state.slot id = some entry)
    (sending : entry.service.calls[index]? = some (.send message pc)) :
    Exists fun current => Exists fun after => next.slot id = some current ∧
      current.service.calls[index]? = some (.send message after) := by
  cases change with
  | same array count =>
      refine ⟨entry, pc, ?_, sending⟩
      unfold State.slot at present ⊢
      rw [array, present]
  | registered request box room free built array count =>
      have below : id < state.nextId := (sound.occupied id).mp (Option.isSome_iff_exists.mpr ⟨entry, present⟩)
      refine ⟨entry, pc, ?_, sending⟩
      rw [slot_of_set (by rw [sound.size]; exact room) array, if_neg (by omega), present]
  | stepped moving before action service located taken array count =>
      have slots := slot_of_set (slot_inside located) array id
      by_cases same : id = moving
      · subst same
        obtain rfl : before = entry := Option.some.inj (located.symm.trans present)
        rw [if_pos rfl] at slots
        rcases Service.reachable_call_step (sound.runs id before located) taken sending with
          ⟨after, later, rfl | callMoved⟩
        · exact ⟨_, pc, slots, later⟩
        · cases callMoved with
          | send sendMoved => exact ⟨_, _, slots, later⟩
      · rw [if_neg same, present] at slots
        exact ⟨entry, pc, slots, sending⟩

theorem Client.Faithful.step {state next : State} {client : Client} (sound : Sound state)
    (change : Change state next) (faithful : client.Faithful state) : client.Faithful next where
  looked := by
    intro found resolved
    rcases faithful.looked found resolved with ⟨routable, named, current, present, continued⟩
    rcases (change.extends sound).slots found.id current present with ⟨later, located, further⟩
    exact ⟨routable, named, later, located, continued.trans further⟩
  delivered := by
    intro found index resolved posted
    rcases faithful.delivered found index resolved posted with
      ⟨current, message, pc, present, sending, addressed⟩
    rcases change.sent sound present sending with ⟨later, after, located, still⟩
    exact ⟨later, message, after, located, still, addressed⟩

theorem lookup_faithful {state : State} (sound : Sound state) (name : List UInt8) :
    (Client.mk name (lookupService state name) none).Faithful state where
  looked := by
    intro found resolved
    rcases lookupService_eq_some resolved with ⟨id, -, ⟨present, routable, named⟩, -⟩
    have number := sound.numbered id found present
    exact ⟨routable, named, found, number.symm ▸ present, .refl found⟩
  delivered := by
    intro found index resolved posted
    cases posted

theorem reachable_faithful {state : State} (reachable : machine.Reachable state) :
    forall (index : Nat) client, state.clients[index]? = some client -> client.Faithful state := by
  apply Machine.Reachable.induction _ _ reachable
  · rintro start rfl index client present
    cases present
  · intro current action next reached faithful moved
    have sound := reachable_sound reached
    have change := step_change moved
    have kept : forall (index : Nat) client, current.clients[index]? = some client ->
        client.Faithful next :=
      fun index client present => (faithful index client present).step sound change
    cases action with
    | new request outcome =>
        simp only [machine, step, Option.ite_none_right_eq_some, Option.some.injEq] at moved
        have same : next.clients = current.clients := by
          rw [← moved.2]
          rcases serviceNew_cases current request outcome with
            ⟨failed, -⟩ | ⟨-, -, cells, box, -, -, entered⟩
          · rw [failed]
          · rw [entered]
            rcases registerLocked_cases current request box with ⟨failed, -⟩ | ⟨filled, -⟩
            · rw [failed]
            · rw [filled]
        rw [same]
        exact kept
    | service id action =>
        rcases Option.bind_eq_some_iff.mp moved with ⟨entry, -, taken⟩
        rcases Option.map_eq_some_iff.mp taken with ⟨service, -, rfl⟩
        exact kept
    | lookup name =>
        simp only [machine, step, Option.some.injEq] at moved
        subst moved
        exact forall_append_singleton kept
          ((lookup_faithful sound name).step sound change)
    | post index message =>
        rcases post_cases moved with ⟨client, found, waiting, resolved, -, rfl | ⟨entry, present, rfl⟩⟩
        · exact kept
        · apply forall_set kept
          intro inside
          refine ⟨(kept index client waiting).looked, ?_⟩
          intro other position same posted
          obtain rfl : found = other := Option.some.inj (resolved.symm.trans same)
          cases posted
          have slots := slot_update present (entry.enterSend message) found.id
          rw [if_pos rfl] at slots
          exact ⟨_, { message with toId := entry.id }, .pin, slots, List.getElem?_concat_length,
            sound.numbered found.id entry present⟩

/-! ## The promises of the registry -/

/-- A routable service bears the name. -/
def Borne (state : State) (name : List UInt8) : Prop :=
  Exists fun id => Exists fun entry =>
    state.slot id = some entry ∧ entry.routable = true ∧ entry.name = name

/-- A `service_new` that returns `NULL` has done nothing; with room in the
pool and memory to spare it refuses a valid name exactly if the name is borne;
otherwise it fills the next slot and no other. -/
structure NewContract (state : State) (request : NewRequest) (outcome : NewOutcome) : Prop where
  unchanged : (serviceNew state request outcome).2 = none ->
    (serviceNew state request outcome).1 = state
  refuses : state.nextId < maxServices -> request.Valid -> request.stored ≠ [] ->
    ((serviceNew state request outcome).2 = none <->
      ¬ outcome.Succeeds ∨ Borne state request.stored)
  registers : forall id, (serviceNew state request outcome).2 = some id ->
    id = state.nextId ∧
    (Exists fun entry => (serviceNew state request outcome).1.slot id = some entry ∧
      entry.name = request.stored ∧ entry.given = request.name ∧ entry.routable = true) ∧
    forall other, other ≠ id -> (serviceNew state request outcome).1.slot other = state.slot other

theorem Sound.borne_iff {state : State} (sound : Sound state) (name : List UInt8) :
    Borne state name <-> Exists fun id => Exists fun entry => id < state.nextId ∧
      state.slot id = some entry ∧ entry.routable = true ∧ entry.name = name := by
  constructor
  · rintro ⟨id, entry, present, borne⟩
    exact ⟨id, entry, (sound.occupied id).mp (Option.isSome_iff_exists.mpr ⟨entry, present⟩), present,
      borne⟩
  · rintro ⟨id, entry, -, present, borne⟩
    exact ⟨id, entry, present, borne⟩

theorem Sound.newContract {state : State} (sound : Sound state) (request : NewRequest)
    (outcome : NewOutcome) : NewContract state request outcome := by
  rcases serviceNew_cases state request outcome with
    ⟨failed, unable⟩ | ⟨valid, succeeds, cells, box, -, -, entered⟩
  · constructor
    · rw [failed]
      exact fun _ => rfl
    · intro room valid named
      rw [failed]
      exact iff_of_true rfl (Or.inl fun succeeds => unable ⟨valid, succeeds⟩)
    · rw [failed]
      rintro id ⟨⟩
  · rcases registerLocked_cases state request box with ⟨failed, reason⟩ | ⟨filled, room, free⟩
    · rw [← entered] at failed
      constructor
      · rw [failed]
        exact fun _ => rfl
      · intro room valid named
        rw [failed]
        refine iff_of_true rfl (Or.inr ?_)
        rcases reason with full | ⟨-, borne⟩
        · omega
        · exact (sound.borne_iff _).mpr borne
      · rw [failed]
        rintro id ⟨⟩
    · rw [← entered] at filled
      have slots : forall other, (serviceNew state request outcome).1.slot other =
          if other = state.nextId then
            some ⟨state.nextId, request.stored, request.name, .start box⟩
          else state.slot other :=
        slot_of_set (by rw [sound.size]; exact room) (by rw [filled])
      have returned : (serviceNew state request outcome).2 = some state.nextId := by
        rw [filled]
      constructor
      · rw [returned]
        rintro ⟨⟩
      · intro room valid named
        rw [returned]
        refine iff_of_false (by simp only [reduceCtorEq, not_false_eq_true]) ?_
        rintro (failed | borne)
        · exact failed succeeds
        · exact free named ((sound.borne_iff _).mp borne)
      · intro id result
        obtain rfl : state.nextId = id := Option.some.inj (returned.symm.trans result)
        refine ⟨rfl, ⟨_, (slots state.nextId).trans (if_pos rfl), rfl, rfl, rfl⟩, ?_⟩
        intro other different
        rw [slots, if_neg different]

/-- In every interleaving of registrations, lookups and sends by name with
whatever the services do: the array is filled in order and never beyond its
end; no slot changes hands; routable services bear different names; a
`service_new` keeps its contract in every state; and every message sent by
name is a call on the service that bore the name, and on no other. -/
theorem registry_orderly {state final : State} {schedule : List Action}
    (reachable : machine.Reachable state) (taken : machine.run state schedule = some final) :
    Sound final ∧ Extends state final ∧
    (forall request outcome, NewContract final request outcome) ∧
    (forall client, client ∈ final.clients -> client.Faithful final) ∧
    (forall index message next, machine.step final (.post index message) = some next ->
      Exists fun client => Exists fun found => final.clients[index]? = some client ∧
        client.found = some found ∧
        forall other, other ≠ found.id -> next.slot other = final.slot other) := by
  have arrived : machine.Reachable final := by
    rcases reachable with ⟨start, earlier, initial, reached⟩
    exact ⟨start, earlier ++ schedule, initial,
      (Machine.run_append_eq_some _).mpr ⟨state, reached, taken⟩⟩
  have sound := reachable_sound arrived
  refine ⟨sound, run_extends (reachable_sound reachable) taken, sound.newContract, ?_, ?_⟩
  · intro client member
    rcases List.getElem?_of_mem member with ⟨index, located⟩
    exact reachable_faithful arrived index client located
  · intro index message next moved
    rcases post_cases moved with ⟨client, found, located, resolved, -, rfl | ⟨entry, present, rfl⟩⟩
    · exact ⟨client, found, located, resolved, fun _ _ => rfl⟩
    · refine ⟨client, found, located, resolved, ?_⟩
      intro other different
      exact (slot_update present (entry.enterSend message) other).trans (if_neg different)

/-- A name is looked up, its service is stopped, the name is registered again,
and only then does the client send. -/
def reusedName : List Action :=
  let request : NewRequest := ⟨some [97], true, 16⟩
  let outcome : NewOutcome := ⟨true, true, true, some (.replicate 16 ⟨⟨0, 0, 0, .system, none⟩, 0⟩), true⟩
  [.new request outcome, .lookup [97], .new request outcome, .service 0 (.call .stop),
    .service 0 (.advance 0 ⟨none, 0⟩), .new request outcome, .lookup [97],
    .post 0 ⟨9, 0, 0, .request, some 0⟩]

theorem registry_orderly_reused :
    Exists fun final => machine.run .empty reusedName = some final ∧ final.nextId = 2 ∧
      ((final.slot 0).map fun entry => (entry.name, entry.routable)) = some ([97], false) ∧
      ((final.slot 1).map fun entry => (entry.name, entry.routable)) = some ([97], true) ∧
      (final.clients.map fun client => (client.found.map Entry.id, client.posted)) =
        [(some 0, some 1), (some 1, none)] ∧
      Sound final ∧ forall client, client ∈ final.clients -> client.Faithful final := by
  have ends : ((machine.run .empty reusedName).any fun final => decide (final.nextId = 2 ∧
      ((final.slot 0).map fun entry => (entry.name, entry.routable)) = some ([97], false) ∧
      ((final.slot 1).map fun entry => (entry.name, entry.routable)) = some ([97], true) ∧
      (final.clients.map fun client => (client.found.map Entry.id, client.posted)) =
        [(some 0, some 1), (some 1, none)])) = true := by
    decide +kernel
  rcases (Option.any_eq_true _ _).mp ends with ⟨final, taken, observed⟩
  rcases of_decide_eq_true observed with ⟨count, first, second, clients⟩
  have orderly := registry_orderly ⟨.empty, [], rfl, rfl⟩ taken
  exact ⟨final, taken, count, first, second, clients, orderly.1, orderly.2.2.2.1⟩

end Registry
end ServiceRuntime
