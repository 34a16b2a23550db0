import ServiceRuntime.Foundation.Raising
import ServiceRuntime.Seri.Values

namespace ServiceRuntime
namespace Seri

open Foundation

/-!
# The decoder

`seri_unpack` and the functions below it.  What a function pushes on the Lua
stack is its result; what lies below on the stack, from the first unpacked
value on, is passed to it as `stack`, and a position in `ancestor` is an index
into that list.  The tables made so far are `tables`, each named by its place.

Lua may refuse a request for memory or for stack room: `memory` says which of
them it meets, counted over the run.  The recursion and the loops that stop at
what they read are cut off after `rounds` steps with the error `diverges`, which
no run ever raises.  `trace` is not part of the source: it notes, newest first,
what the safety of the decoder is about.
-/

@[match_pattern] def typeBoolean : Nat := 0
@[match_pattern] def typeNumber : Nat := 1
@[match_pattern] def typeUserdata : Nat := 2
@[match_pattern] def typeShortString : Nat := 3
@[match_pattern] def typeLongString : Nat := 4
@[match_pattern] def typeTable : Nat := 5
@[match_pattern] def typeTableMark : Nat := 6
@[match_pattern] def typeRef : Nat := 7

@[match_pattern] def booleanNil : Nat := 0
@[match_pattern] def booleanFalse : Nat := 1
@[match_pattern] def booleanTrue : Nat := 2

@[match_pattern] def numberZero : Nat := 0
@[match_pattern] def numberByte : Nat := 1
@[match_pattern] def numberWord : Nat := 2
@[match_pattern] def numberDword : Nat := 4
@[match_pattern] def numberQword : Nat := 6
@[match_pattern] def numberReal : Nat := 8

def userdataPointer : Nat := 0
def userdataCfunction : Nat := 1

/-- `MAX_COOKIE`. -/
def maxCookie : Nat := 32

/-- `EXTEND_NUMBER`. -/
def extendNumber : Nat := maxCookie - 1

/-- `MAX_DEPTH`. -/
def maxDepth : Nat := 31

/-- Why `seri_unpack` raises.  `invalidStream` carries what is left of the
stream and the line of the source that found it invalid. -/
inductive UnpackError where
  | invalidStream (len : Int) (line : Nat)
  | invalidRefId (id : Int)
  | invalidRef (ref depth : Nat)
  | invalidBoolean (cookie : Nat)
  | invalidUserdata
  | keyIsNaN
  | memory
  | diverges
  deriving DecidableEq, Repr

/-- What a run of the decoder does: it asks `rb_read` for `size` bytes, it uses
the number of an ancestor and gets a value, or it enters `push_value`. -/
inductive Event where
  | read (ptr len size : Int)
  | ancestor (ref depth : Nat) (value : Value)
  | pushValue (type cookie : Nat) (ptr : Int)
  deriving DecidableEq, Repr

/-- `struct read_block` with its `struct stack`, and the tables of the Lua
state. -/
structure Reader where
  buffer : List UInt8
  len : Int
  ptr : Int
  depth : Nat
  objectid : Nat
  ancestor : Nat -> Nat
  /-- The slot at `ref_index`: the tables that carry a mark, by number. -/
  refs : Option (List (Int × Ref))
  tables : List (List (Value × Value))
  /-- How often Lua was asked for memory or for stack room. -/
  requests : Nat
  trace : List Event

abbrev Decoder := EStateM UnpackError Reader

/-- `rball_init`. -/
def rballInit (buffer : List UInt8) (size : Int) : Reader where
  buffer
  len := size
  ptr := 0
  depth := 0
  objectid := 0
  ancestor _ := 0
  refs := none
  tables := []
  requests := 0
  trace := []

/-- Lua is asked for memory or for stack room. -/
def request (memory : Nat -> Bool) : Decoder Unit := fun reader =>
  let asked := { reader with requests := reader.requests + 1 }
  if memory reader.requests then .ok () asked else .error .memory asked

/-- `rb_read`. -/
def rbRead (size : Int) : Decoder (Option (List UInt8)) := fun reader =>
  let noted := { reader with trace := .read reader.ptr reader.len size :: reader.trace }
  if reader.len < size then .ok none noted
  else
    .ok (some ((reader.buffer.drop reader.ptr.toNat).take size.toNat))
      { noted with ptr := reader.ptr + size, len := reader.len - size }

/-- `invalid_stream`, at a line of the source. -/
def invalidStream {α : Type} (line : Nat) : Decoder α := fun reader =>
  .error (.invalidStream reader.len line) reader

/-- `rb_read` of a fixed-width field, as an unsigned word. -/
def readWord (width line : Nat) : Decoder Nat := do
  match ← rbRead width with
  | none => invalidStream line
  | some bytes => pure (ofLittleEndian bytes)

/-- `get_integer`. -/
def getInteger (cookie : Nat) : Decoder Int :=
  match cookie with
  | numberZero => pure 0
  | numberByte => do
      let word ← readWord 1 552
      pure word
  | numberWord => do
      let word ← readWord 2 560
      pure word
  | numberDword => do
      let word ← readWord 4 568
      pure (Int.bmod word (2 ^ 32))
  | numberQword => do
      let word ← readWord 8 576
      pure (Int.bmod word (2 ^ 64))
  | _ => invalidStream 581

/-- `get_real`. -/
def getReal : Decoder Double := do
  let word ← readWord 8 591
  pure (UInt64.ofNat word)

/-- `get_pointer`. -/
def getPointer : Decoder UInt64 := do
  let word ← readWord 8 601
  pure (UInt64.ofNat word)

/-- `get_buffer`.  A negative length is, as a `size_t`, more than any string can
have. -/
def getBuffer (memory : Nat -> Bool) (len : Int) : Decoder Value := do
  match ← rbRead len with
  | none => invalidStream 611
  | some bytes =>
      if len < 0 then throw .memory
      else do
        request memory
        pure (.string bytes)

/-- `get_extend_integer`: the number is narrowed to an `int`. -/
def getExtendInteger : Decoder Int := do
  let type ← readWord 1 623
  if type % 8 ≠ typeNumber ∨ type / 8 = numberReal then invalidStream 628
  else do
    let number ← getInteger (type / 8)
    pure (number.bmod (2 ^ 32))

/-! ## Tables -/

/-- `lua_createtable`. -/
def createTable (memory : Nat -> Bool) : Decoder Ref := do
  request memory
  fun reader => .ok reader.tables.length { reader with tables := reader.tables ++ [[]] }

/-- `lua_rawset` into a table, which may have to grow. -/
def storePair (memory : Nat -> Bool) (table : Ref) (key value : Value) : Decoder Unit :=
  if ¬key.IsKey then throw .keyIsNaN
  else do
    request memory
    fun reader => .ok () { reader with
      tables := reader.tables.modify table fun pairs => rawset pairs key value }

/-- `++s->objectid`. -/
def nextObject : Decoder Nat := fun reader =>
  .ok (reader.objectid + 1) { reader with objectid := reader.objectid + 1 }

/-- What `unpack_table` does with a table that carries a mark. -/
def markObject (memory : Nat -> Bool) (type id : Nat) (table : Ref) : Decoder Unit :=
  if type = typeTableMark then do
    request memory
    fun reader => .ok () { reader with refs := some ((id, table) :: reader.refs.getD []) }
  else pure ()

/-- `s->ancestor[s->depth] = lua_gettop(L)`, as far as there is room. -/
def setAncestor (position : Nat) : Decoder Unit := fun reader =>
  if reader.depth < maxDepth then
    .ok () { reader with
      ancestor := fun level => if level = reader.depth then position else reader.ancestor level }
  else .ok () reader

def deepen : Decoder Unit := fun reader => .ok () { reader with depth := reader.depth + 1 }

def surface : Decoder Unit := fun reader => .ok () { reader with depth := reader.depth - 1 }

section Recursion

/-! `unpackOne` is the function below, called recursively. -/

variable (memory : Nat -> Bool) (unpackOne : List Value -> Decoder Value)

/-- The loop of `unpack_table` over the array part, with the items to come. -/
def unpackItems (stack : List Value) (table : Ref) : Nat -> Nat -> Decoder Unit
  | 0, _ => pure ()
  | count + 1, index => do
      let value ← unpackOne (stack ++ [.table table])
      storePair memory table (.number (.ofNat index)) value
      unpackItems stack table count (index + 1)

/-- The loop of `unpack_table` over the hash part. -/
def unpackEntries (stack : List Value) (table : Ref) : Nat -> Decoder Unit
  | 0 => throw .diverges
  | rounds + 1 => do
      let key ← unpackOne (stack ++ [.table table])
      if key = .nil then pure ()
      else do
        deepen
        let value ← unpackOne (stack ++ [.table table, key])
        surface
        storePair memory table key value
        unpackEntries stack table rounds

/-- The size of the array part. -/
def extent (arraySize : Nat) : Decoder Int :=
  if arraySize = extendNumber then getExtendInteger else pure arraySize

/-- `unpack_table`. -/
def unpackTable (rounds : Nat) (stack : List Value) (arraySize type : Nat) : Decoder Value := do
  let size ← extent arraySize
  let id ← nextObject
  request memory
  let table ← createTable memory
  markObject memory type id table
  setAncestor stack.length
  deepen
  unpackItems memory unpackOne stack table size.toNat 1
  surface
  unpackEntries memory unpackOne stack table rounds
  pure (.table table)

/-- `lua_rawgeti` on the tables that carry a mark. -/
def lookupObject (id : Int) : Decoder Value := fun reader =>
  match (reader.refs.getD []).lookup id with
  | some table => .ok (.table table) reader
  | none => .error (.invalidRefId id) reader

/-- The ancestor with a number: whatever lies at its position on the stack. -/
def pushAncestor (stack : List Value) (ref : Nat) : Decoder Value := fun reader =>
  if reader.depth ≤ ref then .error (.invalidRef ref reader.depth) reader
  else
    let value := stack.getD (reader.ancestor ref) .nil
    .ok value { reader with trace := .ancestor ref reader.depth value :: reader.trace }

/-- `unpack_ref`. -/
def unpackRef (stack : List Value) (ref : Nat) : Decoder Value :=
  if ref = extendNumber then do
    let id ← getExtendInteger
    lookupObject id
  else pushAncestor stack ref

/-- The booleans and `nil`. -/
def unpackBoolean (cookie : Nat) : Decoder Value :=
  match cookie with
  | booleanNil => pure .nil
  | booleanFalse => pure (.boolean false)
  | booleanTrue => pure (.boolean true)
  | _ => throw (.invalidBoolean cookie)

def unpackNumber (cookie : Nat) : Decoder Value :=
  if cookie = numberReal then do
    let bits ← getReal
    pure (.number bits)
  else do
    let number ← getInteger cookie
    pure (.number (.ofInt number))

def unpackUserdata (cookie : Nat) : Decoder Value :=
  if cookie = userdataPointer then do
    let pointer ← getPointer
    pure (.lightuserdata pointer)
  else if cookie ≠ userdataCfunction then throw .invalidUserdata
  else do
    let pointer ← getPointer
    request memory
    pure (.cfunction pointer)

/-- A long string.  The length of four bytes is unsigned where it is read and an
`int` where it is used. -/
def unpackLongString (cookie : Nat) : Decoder Value :=
  if cookie = 2 then do
    let length ← readWord 2 731
    getBuffer memory length
  else if cookie ≠ 4 then invalidStream 738
  else do
    let length ← readWord 4 742
    getBuffer memory (Int.bmod length (2 ^ 32))

/-- Notes that `push_value` is entered. -/
def enterValue (type cookie : Nat) : Decoder Unit := fun reader =>
  .ok () { reader with trace := .pushValue type cookie reader.ptr :: reader.trace }

/-- `push_value`. -/
def pushValue (rounds : Nat) (stack : List Value) (type cookie : Nat) : Decoder Value := do
  enterValue type cookie
  match type with
  | typeBoolean => unpackBoolean cookie
  | typeNumber => unpackNumber cookie
  | typeUserdata => unpackUserdata memory cookie
  | typeShortString => getBuffer memory cookie
  | typeLongString => unpackLongString memory cookie
  | typeTable => unpackTable memory unpackOne rounds stack cookie type
  | typeTableMark => unpackTable memory unpackOne rounds stack cookie type
  | typeRef => unpackRef stack cookie
  | _ => invalidStream 758

end Recursion

/-- `unpack_one`. -/
def unpackOne (memory : Nat -> Bool) : Nat -> List Value -> Decoder Value
  | 0, _ => throw .diverges
  | rounds + 1, stack => do
      let type ← readWord 1 768
      pushValue memory (unpackOne memory rounds) rounds stack (type % 8) (type / 8)

/-- `luaL_checkstack` before every eighth value. -/
def checkStack (memory : Nat -> Bool) (index : Nat) : Decoder Unit :=
  if index % 8 = 0 then request memory else pure ()

/-- The loop of `seri_unpack`, with the values pushed so far. -/
def unpackValues (memory : Nat -> Bool) : Nat -> List Value -> Decoder (List Value)
  | 0, _ => throw .diverges
  | rounds + 1, values => do
      checkStack memory values.length
      match ← rbRead 1 with
      | none => pure values
      | some bytes =>
          let type := ofLittleEndian bytes
          let value ← pushValue memory (unpackOne memory rounds) rounds values (type % 8) (type / 8)
          unpackValues memory rounds (values ++ [value])

/-- `seri_unpack`: four bytes of length, then the stream. -/
def seriUnpack (memory : Nat -> Bool) (buffer : List UInt8) :
    EStateM.Result UnpackError Reader (List Value) :=
  unpackValues memory buffer.length []
    (rballInit (buffer.drop 4) (Int.bmod (ofLittleEndian (buffer.take 4)) (2 ^ 32)))

end Seri
end ServiceRuntime
