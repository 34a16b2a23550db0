import ServiceRuntime.Foundation.Pool

namespace ServiceRuntime
namespace Foundation

/-!
# Handles of an event loop

An event loop owns handles, named by their position.  A handle is open until
somebody asks for it to be closed, and it is closed when the loop has called
back.  The loop runs while a handle is active or closing or a request is in
flight, and it can be disposed of when everything is closed.

Some of the handles belong to a binding which walks them; the others are
native.  Two things the loop does not allow are noted as misuse: closing a
handle that is not open, and walking while a native handle is there.
-/

/-- `idle` and `active` handles are open. -/
inductive Status where
  | idle
  | active
  | closing
  | closed
  deriving DecidableEq, Repr

def Status.isOpen : Status -> Bool
  | .idle | .active => true
  | .closing | .closed => false

structure Handle where
  native : Bool
  status : Status
  deriving DecidableEq, Repr

structure EventLoop where
  handles : List Handle
  requests : Nat
  stopFlag : Bool
  misused : Bool
  deriving DecidableEq, Repr

namespace EventLoop

def fresh : EventLoop := ⟨[], 0, false, false⟩

/-! ## Operations -/

def init (loop : EventLoop) (native active : Bool) : EventLoop :=
  { loop with handles := loop.handles ++ [⟨native, if active then .active else .idle⟩] }

/-- Start or stop an open handle. -/
def setActive (loop : EventLoop) (index : Nat) (active : Bool) : EventLoop :=
  { loop with
    handles := loop.handles.modify index fun handle =>
      if handle.status.isOpen then { handle with status := if active then .active else .idle }
      else handle }

def isOpen (loop : EventLoop) (index : Nat) : Bool :=
  (loop.handles[index]?).any fun handle => handle.status.isOpen

/-- Ask for a handle to be closed. -/
def close (loop : EventLoop) (index : Nat) : EventLoop :=
  { loop with
    handles := loop.handles.modify index fun handle =>
      if handle.status.isOpen then { handle with status := .closing } else handle
    misused := loop.misused || !loop.isOpen index }

/-- The loop calls back: the handle is closed now. -/
def finishClose (loop : EventLoop) (index : Nat) : Option EventLoop :=
  match loop.handles[index]? with
  | some handle =>
      if handle.status = .closing then
        some { loop with
          handles := loop.handles.modify index fun handle => { handle with status := .closed } }
      else none
  | none => none

/-- Close every open handle that is not among those whose closing fails. -/
def walk (loop : EventLoop) (failing : List Nat) : EventLoop :=
  { loop with
    handles := loop.handles.mapIdx fun index handle =>
      if handle.status.isOpen && !handle.native && decide (index ∉ failing) then
        { handle with status := .closing }
      else handle
    misused := loop.misused ||
      loop.handles.any fun handle => handle.native && decide (handle.status ≠ .closed) }

/-- There is something to wait for. -/
def alive (loop : EventLoop) : Bool :=
  loop.handles.any (fun handle => handle.status = .active || handle.status = .closing) ||
    decide (0 < loop.requests)

/-- The loop may return to its caller. -/
def Returns (loop : EventLoop) : Prop := loop.alive = false ∨ loop.stopFlag = true

instance (loop : EventLoop) : Decidable loop.Returns :=
  inferInstanceAs (Decidable (_ ∨ _))

/-- Nothing is left on the loop. -/
def Closable (loop : EventLoop) : Prop :=
  (forall handle, handle ∈ loop.handles -> handle.status = .closed) ∧ loop.requests = 0

instance (loop : EventLoop) : Decidable loop.Closable :=
  inferInstanceAs (Decidable (_ ∧ _))

/-! ## Views of the handles -/

/-- What a property says of every handle, by its position. -/
def Each (loop : EventLoop) (property : Nat -> Handle -> Prop) : Prop :=
  forall (index : Nat) handle, loop.handles[index]? = some handle -> property index handle

/-- No handle is open. -/
def Sealed (loop : EventLoop) : Prop := loop.Each fun _ handle => handle.status.isOpen = false

variable {loop next : EventLoop} {property : Nat -> Handle -> Prop}

theorem Each.init (each : loop.Each property) {native active : Bool}
    (added : property loop.handles.length ⟨native, if active then .active else .idle⟩) :
    (loop.init native active).Each property :=
  forall_append_singleton each added

theorem Each.modify (each : loop.Each property) {position : Nat} {change : Handle -> Handle}
    (handles : next.handles = loop.handles.modify position change)
    (kept : forall handle, property position handle -> property position (change handle)) :
    next.Each property := by
  intro index handle present
  rw [handles] at present
  rcases getElem?_of_modify present with ⟨before, found, rfl⟩
  split
  · rename_i here
    subst here
    exact kept before (each position before found)
  · exact each index before found

theorem Each.setActive (each : loop.Each property) (position : Nat) (active : Bool)
    (kept : forall handle, property position handle -> handle.status.isOpen = true ->
      property position { handle with status := if active then .active else .idle }) :
    (loop.setActive position active).Each property := by
  apply each.modify rfl
  intro handle before
  split
  · rename_i isOpen
    exact kept handle before isOpen
  · exact before

theorem Each.close (each : loop.Each property) (position : Nat)
    (kept : forall handle, property position handle -> handle.status.isOpen = true ->
      property position { handle with status := .closing }) : (loop.close position).Each property := by
  apply each.modify rfl
  intro handle before
  split
  · rename_i isOpen
    exact kept handle before isOpen
  · exact before

theorem finishClose_cases {position : Nat} (closed : loop.finishClose position = some next) :
    Exists fun handle => loop.handles[position]? = some handle ∧ handle.status = .closing ∧
      next = { loop with
        handles := loop.handles.modify position fun handle => { handle with status := .closed } } := by
  unfold finishClose at closed
  split at closed
  · rename_i handle found
    split at closed
    · rename_i closing
      cases closed
      exact ⟨handle, found, closing, rfl⟩
    · cases closed
  · cases closed

theorem Each.finishClose (each : loop.Each property) {position : Nat}
    (closed : loop.finishClose position = some next)
    (kept : forall handle, property position handle ->
      property position { handle with status := .closed }) : next.Each property := by
  rcases finishClose_cases closed with ⟨handle, found, closing, rfl⟩
  exact each.modify rfl kept

theorem Each.walk (each : loop.Each property) (failing : List Nat)
    (kept : forall index handle, property index handle -> handle.native = false ->
      handle.status.isOpen = true -> property index { handle with status := .closing }) :
    (loop.walk failing).Each property := by
  intro index handle present
  simp only [EventLoop.walk, List.getElem?_mapIdx] at present
  rcases Option.map_eq_some_iff.mp present with ⟨before, found, rfl⟩
  split
  · rename_i chosen
    simp only [Bool.and_eq_true, Bool.not_eq_true'] at chosen
    exact kept index before (each index before found) chosen.1.2 chosen.1.1
  · exact each index before found

/-! ## Native handles that are left -/

/-- A native handle is there, and is not closed. -/
def Pending (loop : EventLoop) (index : Nat) : Prop :=
  Exists fun handle =>
    loop.handles[index]? = some handle ∧ handle.native = true ∧ handle.status ≠ .closed

theorem Pending.added (loop : EventLoop) (active : Bool) :
    (loop.init true active).Pending loop.handles.length := by
  refine ⟨_, List.getElem?_concat_length, rfl, ?_⟩
  cases active <;> nofun

theorem Pending.modify {index position : Nat} {change : Handle -> Handle}
    (pending : loop.Pending index)
    (handles : next.handles = loop.handles.modify position change)
    (kept : position = index -> forall handle : Handle, handle.native = true ->
      handle.status ≠ .closed -> (change handle).native = true ∧ (change handle).status ≠ .closed) :
    next.Pending index := by
  rcases pending with ⟨handle, found, native, unclosed⟩
  by_cases here : position = index
  · refine ⟨change handle, ?_, kept here handle native unclosed⟩
    rw [handles, here, List.getElem?_modify_eq, found]
    rfl
  · refine ⟨handle, ?_, native, unclosed⟩
    rw [handles, List.getElem?_modify_ne _ _ here, found]

theorem Pending.close {index : Nat} (pending : loop.Pending index) (position : Nat) :
    (loop.close position).Pending index := by
  apply pending.modify rfl
  intro _ handle native unclosed
  split
  · exact ⟨native, nofun⟩
  · exact ⟨native, unclosed⟩

theorem Pending.finishClose {index position : Nat} (pending : loop.Pending index)
    (closed : loop.finishClose position = some next) (other : position ≠ index) :
    next.Pending index := by
  rcases finishClose_cases closed with ⟨_, _, _, rfl⟩
  exact pending.modify rfl fun here => absurd here other

/-- What does not concern the native handles. -/
def Untouched (loop next : EventLoop) : Prop :=
  forall (index : Nat) handle, loop.handles[index]? = some handle -> handle.native = true ->
    next.handles[index]? = some handle

theorem Untouched.init (loop : EventLoop) (native active : Bool) :
    loop.Untouched (loop.init native active) := by
  intro index handle found _
  have bound : index < loop.handles.length := (List.getElem?_eq_some_iff.mp found).1
  exact (List.getElem?_append_left bound).trans found

theorem Untouched.modify {position : Nat} {change : Handle -> Handle}
    (handles : next.handles = loop.handles.modify position change)
    (foreign : (loop.handles[position]?).any Handle.native = false) : loop.Untouched next := by
  intro index handle found native
  have other : position ≠ index := by
    rintro rfl
    simp only [found, Option.any_some, native, Bool.true_eq_false] at foreign
  rw [handles, List.getElem?_modify_ne _ _ other, found]

theorem Untouched.walk (loop : EventLoop) (failing : List Nat) :
    loop.Untouched (loop.walk failing) := by
  intro index handle found native
  simp only [EventLoop.walk, List.getElem?_mapIdx, found, Option.map_some, native, Bool.not_true,
    Bool.and_false, Bool.false_and, Bool.false_eq_true, if_false]

theorem Untouched.pending (untouched : loop.Untouched next) {index : Nat}
    (pending : loop.Pending index) : next.Pending index := by
  rcases pending with ⟨handle, found, native, unclosed⟩
  exact ⟨handle, untouched index handle found native, native, unclosed⟩

theorem Untouched.isOpen (untouched : loop.Untouched next) {index : Nat}
    (pending : loop.Pending index) : next.isOpen index = loop.isOpen index := by
  rcases pending with ⟨handle, found, native, _⟩
  rw [EventLoop.isOpen, EventLoop.isOpen, found, untouched index handle found native]

/-- A handle that is closed at last was not open before. -/
theorem finishClose_isOpen {position : Nat} (closed : loop.finishClose position = some next)
    (index : Nat) : next.isOpen index = loop.isOpen index := by
  rcases finishClose_cases closed with ⟨handle, found, closing, rfl⟩
  simp only [EventLoop.isOpen]
  by_cases here : position = index
  · subst here
    simp only [List.getElem?_modify_eq, found, Option.any_some, closing]
    rfl
  · rw [List.getElem?_modify_ne _ _ here]

/-! ## What the operations achieve -/

theorem close_misused {position : Nat} {handle : Handle}
    (found : loop.handles[position]? = some handle) (isOpen : handle.status.isOpen = true) :
    (loop.close position).misused = loop.misused := by
  simp only [EventLoop.close, EventLoop.isOpen, found, Option.any_some, isOpen, Bool.not_true,
    Bool.or_false]

theorem close_shuts {position : Nat} {handle : Handle}
    (found : (loop.close position).handles[position]? = some handle) :
    handle.status.isOpen = false := by
  rcases getElem?_of_modify found with ⟨before, _, rfl⟩
  rw [if_pos rfl]
  split
  · rfl
  · rename_i shut
    exact (Bool.not_eq_true _).mp shut

/-- A walk is allowed once the native handles are closed. -/
theorem walk_misused (failing : List Nat)
    (natives : loop.Each fun _ handle => handle.native = true -> handle.status = .closed) :
    (loop.walk failing).misused = loop.misused := by
  have none : (loop.handles.any fun handle =>
      handle.native && decide (handle.status ≠ .closed)) = false := by
    rw [List.any_eq_false]
    intro handle member
    rcases List.getElem?_of_mem member with ⟨index, found⟩
    have closed := natives index handle found
    cases native : handle.native with
    | false => simp only [Bool.false_and, Bool.false_eq_true, not_false_eq_true]
    | true => simp only [closed native, ne_eq, not_true_eq_false, decide_false, Bool.and_false,
        Bool.false_eq_true, not_false_eq_true]
  simp only [EventLoop.walk, none, Bool.or_false]

/-- After a walk that succeeds no handle is open. -/
theorem walk_sealed (natives : loop.Each fun _ handle => handle.native = true ->
      handle.status.isOpen = false) : (loop.walk []).Sealed := by
  intro index handle present
  simp only [EventLoop.walk, List.getElem?_mapIdx] at present
  rcases Option.map_eq_some_iff.mp present with ⟨before, found, rfl⟩
  split
  · rfl
  · rename_i spared
    simp only [List.not_mem_nil, not_false_eq_true, decide_true, Bool.and_true, Bool.and_eq_true,
      Bool.not_eq_true', not_and, Bool.not_eq_false] at spared
    cases isOpen : before.status.isOpen with
    | false => rfl
    | true => exact isOpen.symm.trans (natives index before found (spared isOpen))

/-- A loop with nothing to wait for is not closing any handle. -/
theorem closed_of_idle (idle : loop.alive = false) {index : Nat} {handle : Handle}
    (found : loop.handles[index]? = some handle) (shut : handle.status.isOpen = false) :
    handle.status = .closed := by
  simp only [EventLoop.alive, Bool.or_eq_false_iff, List.any_eq_false] at idle
  have still := idle.1 handle (List.mem_of_getElem? found)
  cases status : handle.status with
  | closed => rfl
  | idle | active =>
      rw [status] at shut
      cases shut
  | closing => simp [status] at still

/-- A loop that returns because it has nothing to wait for, with no handle
open, has everything closed. -/
theorem Sealed.closable (shut : loop.Sealed) (idle : loop.alive = false) : loop.Closable := by
  constructor
  · intro handle member
    rcases List.getElem?_of_mem member with ⟨index, found⟩
    exact closed_of_idle idle found (shut index handle found)
  · simp only [EventLoop.alive, Bool.or_eq_false_iff] at idle
    have none := of_decide_eq_false idle.2
    omega

end EventLoop

end Foundation
end ServiceRuntime
