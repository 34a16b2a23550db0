import Mathlib.Data.List.Basic

namespace ServiceRuntime

/-!
# Messages

The data of `message.h`.  Service ids and sessions are 32-bit counters of the
source; the model keeps them as natural numbers and states the bounds where a
function checks or wraps them.  A payload is the buffer `service.pack`
allocated, identified by a name of its own: nothing in the runtime looks into
the bytes of a message before the receiving Lua code unpacks them.
-/

abbrev ServiceId := Nat
abbrev Session := Nat

/-- The identity of a packed buffer. -/
abbrev Payload := Nat

/-- `UINT32_MAX`, the largest service id or session a message can carry. -/
def uint32Max : Nat := 4294967295

/-- The values of `message_type_t`, and every other `int` a sender may put in
the field. -/
inductive MessageType where
  | system
  | request
  | response
  | error
  | signal
  | other (code : Int)
  deriving DecidableEq, Repr

/-- The meaning of the `int` in `message_t.type`. -/
def MessageType.ofCode (code : Int) : MessageType :=
  if code = 0 then .system
  else if code = 1 then .request
  else if code = 2 then .response
  else if code = 3 then .error
  else if code = 4 then .signal
  else .other code

/-- `message_t` without `sz`, which nobody reads.  `msg = none` is the `NULL`
payload of a stop reply. -/
structure Message where
  fromId : ServiceId
  toId : ServiceId
  session : Session
  type : MessageType
  msg : Option Payload
  deriving DecidableEq, Repr

/-- A request whose sender waits for an answer: `service.call` uses sessions
from one upwards, `service.send` uses session zero. -/
def Message.Awaited (message : Message) : Prop :=
  message.type = .request ∧ 0 < message.session

instance (message : Message) : Decidable message.Awaited :=
  inferInstanceAs (Decidable (_ ∧ _))

/-- The payload-less ERROR with which a stopping service answers a request it
never handled or never finished. -/
def stopReply (service : ServiceId) (request : Message) : Message where
  fromId := service
  toId := request.fromId
  session := request.session
  type := .error
  msg := none

end ServiceRuntime
