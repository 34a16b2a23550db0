import Mathlib.Data.Rat.Floor
import ServiceRuntime.Pool.Registry

namespace ServiceRuntime
namespace Registry

open ServicePool (maxServices)
open Foundation

/-!
# Targets of messages

`service.send` and `service.call` take a target that is a number or a name.
Both look names up in the registry and hand a number to the same C binding;
only `service.call` looks at the number before.

A Lua number is a double.  Its finite values are rationals here, so that every
double is covered.  What `luaL_checkinteger` makes of a number without an
integer part that fits is left open by C; the conversion is a parameter of the
model.
-/

inductive Number where
  | nan
  | posInf
  | negInf
  | finite (value : Rat)
  deriving DecidableEq, Repr

/-- `<` of Lua numbers. -/
def Number.lt : Number -> Number -> Bool
  | .finite left, .finite right => decide (left < right)
  | .negInf, .finite _ | .negInf, .posInf | .finite _, .posInf => true
  | _, _ => false

/-- `number % 1`. -/
def Number.modOne : Number -> Number
  | .finite value => .finite (value - value.floor)
  | .nan | .posInf | .negInf => .nan

/-- What can be passed as a target. -/
inductive Target where
  | number (value : Number)
  | string (name : LuaString)
  | other
  deriving DecidableEq, Repr

/-- What the caller learns at once: an error is raised, `nil` and a code are
returned, or a `service_send` is under way on the service in a slot. -/
inductive Answer where
  | raised (message : String)
  | failed (code : String)
  | entered (id : Nat)
  deriving DecidableEq, Repr

/-! ## The bindings -/

/-- `lservice_lookup`. -/
def lserviceLookup (state : State) (name : LuaString) : Option Nat :=
  (lookupService state (cString name)).map Entry.id

/-- `service_send`, up to the service it pins. -/
def serviceSend (state : State) (message : Message) : State × Answer :=
  match getService state message.toId with
  | some entry =>
      (state.update message.toId entry (entry.enterSend message), .entered message.toId)
  | none => (state, .failed "SERVICE_NOT_FOUND")

/-- The target as `service.send` and `service.call` pass it on. -/
def resolve (state : State) : Target -> Option Number
  | .number value => some value
  | .string name => (lserviceLookup state name).map fun (id : Nat) => .finite id
  | .other => none

/-- `CALL_SEND_ERROR[err] or err`. -/
def callSendError (code : String) : String :=
  if code = "SERVICE_NOT_FOUND" then "service not found"
  else if code = "SERVICE_STOPPING" then "service stopping"
  else if code = "SERVICE_STOPPED" then "service stopped"
  else if code = "MAILBOX_FULL" then "mailbox full"
  else code

/-- The test `service.call` makes on a number. -/
def Number.refused (value : Number) : Bool :=
  value.lt (.finite 0) || Number.lt (.finite uint32Max) value || decide (value.modOne ≠ .finite 0)

/-- The number `service.call` goes on with. -/
def callee (state : State) (target : Target) : Option Number :=
  (resolve state target).filter fun value => !value.refused

section Conversion

variable (convert : Number -> Int)

/-- `check_uint32`; `convert` is `luaL_checkinteger`. -/
def checkUint32 (value : Number) (field : String) : Except String Nat :=
  if convert value < 0 ∨ (uint32Max : Int) < convert value then
    .error (field ++ " must be a uint32")
  else .ok (convert value).toNat

/-- `compose_message`, for a payload that `service.pack` has made. -/
def composeMessage (sender receiver session : Number) (payload : Option Payload) :
    Except String Message := do
  let fromId <- checkUint32 convert sender "from"
  let toId <- checkUint32 convert receiver "to"
  let session <- checkUint32 convert session "session"
  return ⟨fromId, toId, session, .request, payload⟩

/-- `lservice_send_message`. -/
def lserviceSendMessage (state : State) (sender receiver session : Number) (payload : Option Payload) :
    State × Answer :=
  match composeMessage convert sender receiver session payload with
  | .ok message => serviceSend state message
  | .error message => (state, .raised message)

/-- `service.send` by the service `sender`. -/
def send (state : State) (sender : UInt32) (target : Target) (payload : Option Payload) :
    State × Answer :=
  match resolve state target with
  | some value =>
      lserviceSendMessage convert state (.finite sender.toNat) value
        (.finite (0 : UInt32).toNat) payload
  | none => (state, .failed "SERVICE_NOT_FOUND")

/-- `service.call` in a request coroutine, with the session it allocates, up to
the point where the request is accepted. -/
def call (state : State) (sender session : UInt32) (target : Target) (payload : Option Payload) :
    State × Answer :=
  match callee state target with
  | some value =>
      match lserviceSendMessage convert state (.finite sender.toNat) value
        (.finite session.toNat) payload with
      | (next, .failed code) => (next, .failed (callSendError code))
      | result => result
  | none => (state, .failed "service not found")

end Conversion

/-! ## Names -/

/-- The `char` array of a service holds what C reads of the name it was given. -/
theorem reachable_stored {state : State} (reachable : machine.Reachable state) :
    forall id entry, state.slot id = some entry ->
      entry.name = (entry.given.map cString).getD [] := by
  apply Machine.Reachable.induction _ _ reachable
  · rintro start rfl id entry present
    have impossible := (empty_sound.occupied id).mp (Option.isSome_iff_exists.mpr ⟨entry, present⟩)
    exact absurd impossible (Nat.not_lt_zero id)
  · intro current action next reached stored moved id entry present
    have sound := reachable_sound reached
    cases step_change moved with
    | same array count =>
        apply stored id entry
        unfold State.slot at present ⊢
        rw [← array, present]
    | registered request box room free built array count =>
        rw [slot_of_set (by rw [sound.size]; exact room) array] at present
        split at present
        · cases present
          rfl
        · exact stored id entry present
    | stepped moving before serviceAction service located taken array count =>
        rw [slot_of_set (slot_inside located) array] at present
        split at present
        · cases present
          exact stored moving before located
        · exact stored id entry present

/-- A routable service was created with exactly this name. -/
def Given (state : State) (name : LuaString) : Prop :=
  Exists fun id => Exists fun entry =>
    state.slot id = some entry ∧ entry.routable = true ∧ entry.given = some name

/-- The string resolves to a service that was created with it and, if there is
none, to nothing at all. -/
structure Exact (convert : Number -> Int) (state : State) (name : LuaString) : Prop where
  resolves : (lserviceLookup state name).isSome = true <-> Given state name
  same : forall id, lserviceLookup state name = some id ->
    Exists fun entry => state.slot id = some entry ∧ entry.routable = true ∧
      entry.given = some name
  sends : ¬ Given state name -> forall sender payload,
    send convert state sender (.string name) payload = (state, .failed "SERVICE_NOT_FOUND")
  calls : ¬ Given state name -> forall sender session payload,
    call convert state sender session (.string name) payload = (state, .failed "service not found")

/-- Whoever is stored under the same C string without having been given this
name stands behind a service that was. -/
def Unobscured (state : State) (name : LuaString) : Prop :=
  forall id entry, state.slot id = some entry -> entry.routable = true ->
    entry.name = cString name -> entry.given ≠ some name ->
    Exists fun earlier => Exists fun other => earlier < id ∧ state.slot earlier = some other ∧
      other.routable = true ∧ other.given = some name

/-- A service that was given the name is found, or one before it. -/
theorem Given.lookup {state : State} {name : LuaString} (reachable : machine.Reachable state)
    (given : Given state name) : (lserviceLookup state name).isSome = true := by
  rcases given with ⟨id, entry, present, routable, named⟩
  have sound := reachable_sound reachable
  have inside := (sound.occupied id).mp (Option.isSome_iff_exists.mpr ⟨entry, present⟩)
  have stored : entry.name = cString name := by
    rw [reachable_stored reachable id entry present, named]
    rfl
  unfold lserviceLookup
  rw [Option.isSome_map]
  by_contra missing
  have none_found := lookupService_eq_none (Option.not_isSome_iff_eq_none.mp missing) inside
  rw [bears_eq_some.mpr ⟨present, routable, stored⟩] at none_found
  cases none_found

theorem send_unknown (convert : Number -> Int) {state : State} {name : LuaString}
    (missing : lserviceLookup state name = none) (sender : UInt32) (payload : Option Payload) :
    send convert state sender (.string name) payload = (state, .failed "SERVICE_NOT_FOUND") := by
  simp only [send, resolve, missing, Option.map_none]

theorem call_unknown (convert : Number -> Int) {state : State} {name : LuaString}
    (missing : lserviceLookup state name = none) (sender session : UInt32)
    (payload : Option Payload) :
    call convert state sender session (.string name) payload =
      (state, .failed "service not found") := by
  simp only [call, callee, resolve, missing, Option.map_none, Option.filter_none]

theorem Unobscured.same {state : State} {name : LuaString} (reachable : machine.Reachable state)
    (clear : Unobscured state name) {id : Nat} (looked : lserviceLookup state name = some id) :
    Exists fun entry => state.slot id = some entry ∧ entry.routable = true ∧
      entry.given = some name := by
  rcases Option.map_eq_some_iff.mp looked with ⟨entry, found, number⟩
  rcases lookupService_eq_some found with ⟨place, -, ⟨present, routable, stored⟩, first⟩
  have placed := (reachable_sound reachable).numbered place entry present
  obtain rfl : place = id := placed.symm.trans number
  refine ⟨entry, present, routable, ?_⟩
  by_contra different
  rcases clear place entry present routable stored different with
    ⟨earlier, other, less, located, alive, given⟩
  -- the lookup would have stopped at the earlier one
  have missed := first earlier less
  have otherStored : other.name = cString name := by
    rw [reachable_stored reachable earlier other located, given]
    rfl
  rw [bears_eq_some.mpr ⟨located, alive, otherStored⟩] at missed
  cases missed

/-- A string resolves exactly unless a service is stored under the same C
string, was not given this name, and has nobody before it who was. -/
theorem exact_iff_unobscured (convert : Number -> Int) {state : State}
    (reachable : machine.Reachable state) (name : LuaString) :
    Exact convert state name <-> Unobscured state name := by
  constructor
  · intro exactly id entry present routable stored different
    have sound := reachable_sound reachable
    have inside := (sound.occupied id).mp (Option.isSome_iff_exists.mpr ⟨entry, present⟩)
    cases found : lookupService state (cString name) with
    | none =>
        have missed := lookupService_eq_none found inside
        rw [bears_eq_some.mpr ⟨present, routable, stored⟩] at missed
        cases missed
    | some first =>
        rcases lookupService_eq_some found with ⟨place, -, ⟨located, alive, -⟩, least⟩
        have number := sound.numbered place first located
        have looked : lserviceLookup state name = some place := by
          unfold lserviceLookup
          rw [found, ← number]
          rfl
        rcases exactly.same place looked with ⟨chosen, again, -, given⟩
        refine ⟨place, chosen, ?_, again, ?_, given⟩
        · rcases Nat.lt_trichotomy place id with less | same | greater
          · exact less
          · subst same
            obtain rfl : entry = chosen := Option.some.inj (present.symm.trans again)
            exact absurd given different
          · have missed := least id greater
            rw [bears_eq_some.mpr ⟨present, routable, stored⟩] at missed
            cases missed
        · obtain rfl : first = chosen := Option.some.inj (located.symm.trans again)
          exact alive
  · intro clear
    have resolves : (lserviceLookup state name).isSome = true <-> Given state name := by
      constructor
      · intro found
        rcases Option.isSome_iff_exists.mp found with ⟨id, looked⟩
        exact ⟨id, clear.same reachable looked⟩
      · exact fun given => given.lookup reachable
    have missing : ¬ Given state name -> lserviceLookup state name = none := by
      intro unknown
      exact Option.not_isSome_iff_eq_none.mp fun found => unknown (resolves.mp found)
    exact ⟨resolves, fun id looked => clear.same reachable looked,
      fun unknown => send_unknown convert (missing unknown),
      fun unknown => call_unknown convert (missing unknown)⟩

/-- A pool as `service.bootstrap` makes it, to which root has added a service
without a name. -/
def bootstrapped : List Action :=
  let outcome : NewOutcome := ⟨true, true, true, some (.replicate 16 ⟨⟨0, 0, 0, .system, none⟩, 0⟩), true⟩
  [.new ⟨some [114, 111, 111, 116], true, 16⟩ outcome, .new ⟨none, true, 16⟩ outcome]

theorem bootstrapped_reached :
    Exists fun state => machine.Reachable state ∧ state.nextId = 2 ∧
      ((state.slot 0).map fun entry => (entry.routable, entry.name, entry.given)) =
        some (true, [114, 111, 111, 116], some [114, 111, 111, 116]) ∧
      ((state.slot 1).map fun entry => (entry.routable, entry.name, entry.given)) =
        some (true, [], none) ∧
      lserviceLookup state [] = some 1 ∧
      lserviceLookup state [114, 111, 111, 116, 0, 120] = some 0 := by
  have ends : ((machine.run .empty bootstrapped).any fun state => decide (state.nextId = 2 ∧
      ((state.slot 0).map fun entry => (entry.routable, entry.name, entry.given)) =
        some (true, [114, 111, 111, 116], some [114, 111, 111, 116]) ∧
      ((state.slot 1).map fun entry => (entry.routable, entry.name, entry.given)) =
        some (true, [], none) ∧
      lserviceLookup state [] = some 1 ∧
      lserviceLookup state [114, 111, 111, 116, 0, 120] = some 0)) = true := by
    decide +kernel
  exact machine.exists_reachable rfl ends

theorem exact_root :
    Exists fun state => machine.Reachable state ∧
      Exact (fun _ => 0) state [114, 111, 111, 116] := by
  rcases bootstrapped_reached with ⟨state, reachable, count, first, second, -⟩
  refine ⟨state, reachable, (exact_iff_unobscured _ reachable _).mpr ?_⟩
  intro id entry present routable stored different
  have inside := ((reachable_sound reachable).occupied id).mp
    (Option.isSome_iff_exists.mpr ⟨entry, present⟩)
  rw [count] at inside
  obtain rfl | rfl : id = 0 ∨ id = 1 := by omega
  · rw [present] at first
    simp only [Option.map_some, Option.some.injEq, Prod.mk.injEq] at first
    exact absurd first.2.2 different
  · rw [present] at second
    simp only [Option.map_some, Option.some.injEq, Prod.mk.injEq] at second
    rw [second.2.1] at stored
    exact absurd stored (by decide)

/-- The empty string finds a service without a name, and a zero byte hides
what follows it. -/
theorem lookup_inexact :
    Exists fun state => machine.Reachable state ∧
      (lserviceLookup state [] = some 1 ∧ ¬ Exact (fun _ => 0) state []) ∧
      (lserviceLookup state [114, 111, 111, 116, 0, 120] = some 0 ∧
        ¬ Exact (fun _ => 0) state [114, 111, 111, 116, 0, 120]) := by
  rcases bootstrapped_reached with ⟨state, reachable, count, first, second, empty, cut⟩
  refine ⟨state, reachable, ⟨empty, ?_⟩, cut, ?_⟩
  · intro exactly
    rcases exactly.same 1 empty with ⟨entry, present, -, given⟩
    rw [present] at second
    simp only [Option.map_some, Option.some.injEq, Prod.mk.injEq] at second
    exact absurd (second.2.2.symm.trans given) (by decide)
  · intro exactly
    rcases exactly.same 0 cut with ⟨entry, present, -, given⟩
    rw [present] at first
    simp only [Option.map_some, Option.some.injEq, Prod.mk.injEq] at first
    exact absurd (first.2.2.symm.trans given) (by decide)

/-! ## Numbers -/

/-- What C promises of the conversion: it cuts the fraction off whenever the
result is a `lua_Integer`. -/
def Truncates (convert : Number -> Int) : Prop :=
  forall value : Rat, -(2 ^ 63) ≤ value.num.tdiv value.den -> value.num.tdiv value.den < 2 ^ 63 ->
    convert (.finite value) = value.num.tdiv value.den

/-- A whole number that fits into `uint32_t`. -/
def Number.Whole (value : Number) : Prop :=
  Exists fun id : Nat => value = .finite id ∧ id ≤ uint32Max

theorem Number.refused_eq_false {value : Number} : value.refused = false <-> value.Whole := by
  unfold Number.refused Number.Whole
  simp only [Bool.or_eq_false_iff, decide_eq_false_iff_not, not_not]
  constructor
  · rintro ⟨⟨positive, bounded⟩, whole⟩
    cases value with
    | nan | posInf | negInf => cases whole
    | finite value =>
        simp only [Number.lt, decide_eq_false_iff_not, not_lt] at positive bounded
        simp only [Number.modOne, Number.finite.injEq, sub_eq_zero] at whole
        have least : 0 ≤ value.floor := Rat.le_floor_iff.mpr (by exact_mod_cast positive)
        rcases Int.eq_ofNat_of_zero_le least with ⟨id, floor⟩
        rw [floor] at whole
        refine ⟨id, by rw [whole]; rfl, ?_⟩
        rw [whole] at bounded
        exact_mod_cast bounded
  · rintro ⟨id, rfl, bounded⟩
    refine ⟨⟨?_, ?_⟩, ?_⟩
    · simp only [Number.lt, decide_eq_false_iff_not, not_lt]
      exact Nat.cast_nonneg id
    · simp only [Number.lt, decide_eq_false_iff_not, not_lt]
      exact_mod_cast bounded
    · have floor : (id : Rat).floor = id := Rat.floor_intCast id
      simp only [Number.modOne, Number.finite.injEq, floor]
      exact sub_self _

theorem Truncates.whole {convert : Number -> Int} (truncates : Truncates convert) {id : Nat}
    (bounded : id ≤ uint32Max) : convert (.finite id) = id := by
  have cut : ((id : Rat).num.tdiv (id : Rat).den) = id := by
    rw [Rat.num_natCast, Rat.den_natCast, Nat.cast_one, Int.tdiv_one]
  have small : uint32Max < 2 ^ 63 := by decide
  rw [truncates id (by omega) (by omega), cut]

theorem Truncates.checkUint32 {convert : Number -> Int} (truncates : Truncates convert) {id : Nat}
    (bounded : id ≤ uint32Max) (field : String) :
    checkUint32 convert (.finite id) field = .ok id := by
  unfold Registry.checkUint32
  rw [truncates.whole bounded, if_neg (by omega)]
  rfl

theorem uint32_bounded (value : UInt32) : value.toNat ≤ uint32Max := by
  have below := value.toNat_lt
  have most : uint32Max = 2 ^ 32 - 1 := by decide
  omega

/-- Only the target can make `compose_message` raise. -/
theorem Truncates.lserviceSendMessage {convert : Number -> Int} (truncates : Truncates convert)
    (state : State) (sender session : UInt32) (value : Number) (payload : Option Payload) :
    lserviceSendMessage convert state (.finite sender.toNat) value (.finite session.toNat) payload =
      match Registry.checkUint32 convert value "to" with
      | .ok id => serviceSend state ⟨sender.toNat, id, session.toNat, .request, payload⟩
      | .error message => (state, .raised message) := by
  unfold Registry.lserviceSendMessage composeMessage
  rw [truncates.checkUint32 (uint32_bounded sender), truncates.checkUint32 (uint32_bounded session)]
  cases Registry.checkUint32 convert value "to" <;> rfl

/-- `service.send` raises nothing and finds nothing that `service.call` would
not find; if both find a service, it is the same one. -/
structure Agrees (convert : Number -> Int) (state : State) (sender session : UInt32)
    (target : Target) (payload : Option Payload) : Prop where
  quiet : forall message, (send convert state sender target payload).2 ≠ .raised message
  refuses : (call convert state sender session target payload).2 = .failed "service not found" ->
    send convert state sender target payload = (state, .failed "SERVICE_NOT_FOUND")
  addresses : forall one other,
    (send convert state sender target payload).2 = .entered one ->
    (call convert state sender session target payload).2 = .entered other -> one = other

/-- A name, a whole number that fits, or another number that C takes for the
identifier of no service. -/
def Agreeable (convert : Number -> Int) (state : State) : Target -> Prop
  | .string _ | .other => True
  | .number value => value.Whole ∨
      (0 ≤ convert value ∧ convert value ≤ uint32Max ∧
        getService state (convert value).toNat = none)

section Agreement

variable {convert : Number -> Int} {state : State} {target : Target}

theorem Truncates.send_whole (truncates : Truncates convert) {id : Nat} (bounded : id ≤ uint32Max)
    (resolved : resolve state target = some (.finite id)) (sender : UInt32)
    (payload : Option Payload) :
    send convert state sender target payload =
      serviceSend state ⟨sender.toNat, id, (0 : UInt32).toNat, .request, payload⟩ := by
  unfold send
  rw [resolved]
  simp only [truncates.lserviceSendMessage, truncates.checkUint32 bounded]

theorem Truncates.call_whole (truncates : Truncates convert) {id : Nat} (bounded : id ≤ uint32Max)
    (resolved : resolve state target = some (.finite id)) (sender session : UInt32)
    (payload : Option Payload) :
    call convert state sender session target payload =
      match serviceSend state ⟨sender.toNat, id, session.toNat, .request, payload⟩ with
      | (next, .failed code) => (next, .failed (callSendError code))
      | result => result := by
  have accepted : (Number.finite id).refused = false := Number.refused_eq_false.mpr ⟨id, rfl, bounded⟩
  have called : callee state target = some (.finite id) := by
    simp only [callee, resolved, Option.filter_some, accepted, Bool.not_false, if_true]
  unfold call
  rw [called]
  simp only [truncates.lserviceSendMessage, truncates.checkUint32 bounded]

theorem agrees_of_refused {sender session : UInt32} {payload : Option Payload}
    (sent : send convert state sender target payload = (state, .failed "SERVICE_NOT_FOUND")) :
    Agrees convert state sender session target payload := by
  constructor
  · intro message raised
    rw [sent] at raised
    cases raised
  · intro _
    exact sent
  · intro one other entered
    rw [sent] at entered
    cases entered

theorem Truncates.agrees_whole (truncates : Truncates convert) {id : Nat}
    (bounded : id ≤ uint32Max) (resolved : resolve state target = some (.finite id))
    (sender session : UInt32) (payload : Option Payload) :
    Agrees convert state sender session target payload := by
  have sent := truncates.send_whole bounded resolved sender payload
  have called := truncates.call_whole bounded resolved sender session payload
  unfold serviceSend at sent called
  cases found : getService state id with
  | none =>
      simp only [found] at sent
      exact agrees_of_refused sent
  | some entry =>
      simp only [found] at sent called
      constructor
      · intro message raised
        rw [sent] at raised
        cases raised
      · intro failed
        rw [called] at failed
        cases failed
      · intro one other entered alsoEntered
        rw [sent] at entered
        rw [called] at alsoEntered
        exact (Answer.entered.inj entered).symm.trans (Answer.entered.inj alsoEntered)

/-- A target that resolves to nothing is refused by both. -/
theorem agrees_unresolved (unresolved : resolve state target = none) (sender session : UInt32)
    (payload : Option Payload) : Agrees convert state sender session target payload := by
  apply agrees_of_refused
  unfold send
  rw [unresolved]

/-- `service.call` refuses every number that is not whole. -/
theorem call_refused {value : Number} (odd : ¬ value.Whole) (sender session : UInt32)
    (payload : Option Payload) :
    call convert state sender session (.number value) payload =
      (state, .failed "service not found") := by
  have refused : value.refused = true := by
    rw [← Bool.not_eq_false]
    exact fun accepted => odd (Number.refused_eq_false.mp accepted)
  simp only [call, callee, resolve, Option.filter_some, refused, Bool.not_true, Bool.false_eq_true,
    if_false]

/-- `service.send` reports such a number as not found exactly if C takes it
for the identifier of no service. -/
theorem Truncates.send_number_iff (truncates : Truncates convert) (value : Number)
    (sender : UInt32) (payload : Option Payload) :
    send convert state sender (.number value) payload = (state, .failed "SERVICE_NOT_FOUND") <->
      0 ≤ convert value ∧ convert value ≤ uint32Max ∧
        getService state (convert value).toNat = none := by
  simp only [send, resolve, truncates.lserviceSendMessage, Registry.checkUint32]
  by_cases outside : convert value < 0 ∨ (uint32Max : Int) < convert value
  · simp only [outside, if_true, Prod.mk.injEq, reduceCtorEq, and_false, false_iff, not_and]
    omega
  · simp only [outside, if_false, serviceSend]
    cases found : getService state (convert value).toNat with
    | none =>
        simp only [and_true, true_iff]
        omega
    | some entry =>
        simp only [Prod.mk.injEq, reduceCtorEq, and_false]

/-- `service.send` and `service.call` agree on every name and every identifier;
on other numbers only by accident. -/
theorem agrees_iff_agreeable (truncates : Truncates convert) (reachable : machine.Reachable state)
    (sender session : UInt32) (target : Target) (payload : Option Payload) :
    Agrees convert state sender session target payload <-> Agreeable convert state target := by
  cases target with
  | other => exact iff_of_true (agrees_unresolved rfl sender session payload) trivial
  | string name =>
      refine iff_of_true ?_ trivial
      cases looked : lserviceLookup state name with
      | none =>
          apply agrees_unresolved
          simp only [resolve, looked, Option.map_none]
      | some id =>
          have bounded : id ≤ uint32Max := by
            rcases Option.map_eq_some_iff.mp looked with ⟨entry, found, number⟩
            rcases lookupService_eq_some found with ⟨place, inside, ⟨present, -⟩, -⟩
            have sound := reachable_sound reachable
            have placed := sound.numbered place entry present
            have most : maxServices ≤ uint32Max := by decide
            have few := sound.bounded
            omega
          apply truncates.agrees_whole bounded
          simp only [resolve, looked, Option.map_some]
  | number value =>
      by_cases whole : value.Whole
      · refine iff_of_true ?_ (Or.inl whole)
        rcases whole with ⟨id, rfl, bounded⟩
        exact truncates.agrees_whole bounded rfl sender session payload
      · have called : call convert state sender session (.number value) payload =
            (state, .failed "service not found") :=
          call_refused whole sender session payload
        have sent : send convert state sender (.number value) payload =
            (state, .failed "SERVICE_NOT_FOUND") <-> _ :=
          truncates.send_number_iff value sender payload
        constructor
        · intro agrees
          exact Or.inr (sent.mp (agrees.refuses (by rw [called])))
        · rintro (impossible | unknown)
          · exact absurd impossible whole
          · exact agrees_of_refused (sent.mpr unknown)

end Agreement

/-- The conversion of x86-64. -/
def convertX64 : Number -> Int
  | .finite value =>
      let cut := value.num.tdiv value.den
      if -(2 ^ 63) ≤ cut ∧ cut < 2 ^ 63 then cut else -(2 ^ 63)
  | .nan | .posInf | .negInf => -(2 ^ 63)

theorem truncates_x64 : Truncates convertX64 := by
  intro value least most
  exact if_pos ⟨least, most⟩

theorem agrees_on_root :
    Exists fun state => machine.Reachable state ∧ state.nextId = 2 ∧
      Agrees convertX64 state 1 7 (.number (.finite 0)) none := by
  rcases bootstrapped_reached with ⟨state, reachable, count, -⟩
  exact ⟨state, reachable, count, (agrees_iff_agreeable truncates_x64 reachable 1 7 _ none).mpr
    (Or.inl ⟨0, by simp only [Nat.cast_zero], by decide⟩)⟩

/-- `service.send(-1)` raises, and `service.send(0.5)` reaches service 0;
`service.call` refuses both. -/
theorem send_disagrees :
    Exists fun state => machine.Reachable state ∧
      (send convertX64 state 1 (.number (.finite (-1))) none).2 = .raised "to must be a uint32" ∧
      (call convertX64 state 1 7 (.number (.finite (-1))) none).2 = .failed "service not found" ∧
      ¬ Agrees convertX64 state 1 7 (.number (.finite (-1))) none ∧
      (send convertX64 state 1 (.number (.finite (1 / 2))) none).2 = .entered 0 ∧
      (call convertX64 state 1 7 (.number (.finite (1 / 2))) none).2 = .failed "service not found" ∧
      ¬ Agrees convertX64 state 1 7 (.number (.finite (1 / 2))) none := by
  have ends : ((machine.run .empty bootstrapped).any fun state => decide
      ((send convertX64 state 1 (.number (.finite (-1))) none).2 = .raised "to must be a uint32" ∧
      (call convertX64 state 1 7 (.number (.finite (-1))) none).2 = .failed "service not found" ∧
      (send convertX64 state 1 (.number (.finite (1 / 2))) none).2 = .entered 0 ∧
      (call convertX64 state 1 7 (.number (.finite (1 / 2))) none).2 =
        .failed "service not found")) = true := by
    decide +kernel
  rcases machine.exists_reachable rfl ends with
    ⟨state, reachable, raised, refused, entered, alsoRefused⟩
  refine ⟨state, reachable, raised, refused, ?_, entered, alsoRefused, ?_⟩
  · intro agrees
    exact agrees.quiet _ raised
  · intro agrees
    rw [agrees.refuses alsoRefused] at entered
    cases entered

end Registry
end ServiceRuntime
