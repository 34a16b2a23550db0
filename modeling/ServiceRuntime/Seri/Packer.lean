import ServiceRuntime.Seri.References
import ServiceRuntime.Seri.Unpacker

namespace ServiceRuntime
namespace Seri

open Foundation

/-!
# The encoder

`seri_pack` and the functions below it.  `stack` is the Lua stack from the first
packed value on, and an index is a place in that list; a function that pushes
values passes the longer stack on.  The tables are `heap`, each named by its
place there; what a metamethod does besides yielding pairs is not modelled.

Lua may refuse a table its stack room, or the memory the encoder needs before
the tag of the table is written: `grants` says what is refused to the table with
a number.  The recursion is cut off after as many levels as there are tables
with the error `diverges`, which no run ever raises.  `trace` is not part of the
source: it notes, newest first, which ancestors were found.
-/

/-- What is read of a table: without `__pairs` what `lua_rawgeti` answers up to
`lua_objlen` and what `lua_next` visits; with `__pairs` the iterator and its
state, what it yields, and whether a call raises after that. -/
inductive Content where
  | plain (items : List Value) (pairs : List (Value × Value))
  | metapairs (iterator state : Value) (yields : List (Value × Value)) (raises : Bool)
  deriving Repr

/-- What Lua refuses to a table. -/
inductive Refusal where
  | stack
  | memory
  deriving DecidableEq, Repr

/-- Why `seri_pack` raises; `assertion` stands for the `assert` of `change_mark`. -/
inductive PackError where
  | lightFunctionOnly
  | unsupported (typename : String)
  | raised
  | stack
  | memory
  | assertion
  | diverges
  deriving DecidableEq, Repr

/-- An error of the source that is neither the `assert` nor the end of the rounds. -/
def PackError.Proper (error : PackError) : Prop := error ≠ .assertion ∧ error ≠ .diverges

instance (error : PackError) : Decidable error.Proper :=
  inferInstanceAs (Decidable (error ≠ .assertion ∧ error ≠ .diverges))

/-- `struct write_block` with its `struct stack`. -/
structure Writer where
  blocks : Blocks
  references : References
  depth : Nat
  ancestor : Nat -> Nat
  trace : List (Nat × Value)

abbrev Encoder := EStateM PackError Writer

/-- `wb_init`. -/
def wbInit : Writer where
  blocks := .init
  references := .init
  depth := 0
  ancestor _ := 0
  trace := []

/-- `COMBINE_TYPE`. -/
def combineType (type cookie : Nat) : UInt8 := UInt8.ofNat (type + 8 * cookie)

namespace Writer

def push (writer : Writer) (buffer : List UInt8) : Writer :=
  { writer with blocks := writer.blocks.wbPush buffer }

/-- `wb_nil`. -/
def wbNil (writer : Writer) : Writer := writer.push [combineType typeBoolean booleanNil]

/-- `wb_boolean`. -/
def wbBoolean (writer : Writer) (boolean : Bool) : Writer :=
  writer.push [combineType typeBoolean (if boolean then booleanTrue else booleanFalse)]

/-- `wb_integer`. -/
def wbInteger (writer : Writer) (value : Int) : Writer :=
  if value = 0 then writer.push [combineType typeNumber numberZero]
  else if value ≠ value.bmod (2 ^ 32) then
    (writer.push [combineType typeNumber numberQword]).push
      (littleEndian 8 (value % 2 ^ 64).toNat)
  else if value < 0 then
    (writer.push [combineType typeNumber numberDword]).push
      (littleEndian 4 (value % 2 ^ 32).toNat)
  else if value < 0x100 then
    (writer.push [combineType typeNumber numberByte]).push (littleEndian 1 value.toNat)
  else if value < 0x10000 then
    (writer.push [combineType typeNumber numberWord]).push (littleEndian 2 value.toNat)
  else
    (writer.push [combineType typeNumber numberDword]).push (littleEndian 4 value.toNat)

/-- `wb_real`. -/
def wbReal (writer : Writer) (value : Double) : Writer :=
  (writer.push [combineType typeNumber numberReal]).push (littleEndian 8 value.toNat)

/-- `wb_pointer`. -/
def wbPointer (writer : Writer) (pointer : UInt64) (subtype : Nat) : Writer :=
  (writer.push [combineType typeUserdata subtype]).push (littleEndian 8 pointer.toNat)

/-- `wb_string`. -/
def wbString (writer : Writer) (bytes : List UInt8) : Writer :=
  if bytes.length < maxCookie then
    let tagged := writer.push [combineType typeShortString bytes.length]
    if 0 < bytes.length then tagged.push bytes else tagged
  else if bytes.length < 0x10000 then
    ((writer.push [combineType typeLongString 2]).push (littleEndian 2 bytes.length)).push bytes
  else
    ((writer.push [combineType typeLongString 4]).push (littleEndian 4 bytes.length)).push bytes

/-- The head of `wb_table_array`. -/
def openArray (writer : Writer) (arraySize : Nat) : Writer :=
  if extendNumber ≤ arraySize then
    (writer.push [combineType typeTable extendNumber]).wbInteger arraySize
  else writer.push [combineType typeTable arraySize]

/-- The table at a place of the stack that is compared with the ancestors, from
the innermost one out. -/
def findAncestor (writer : Writer) (stack : List Value) (ref : Ref) : Option Nat :=
  if writer.depth = 0 ∨ maxDepth ≤ writer.depth then none
  else
    (List.range writer.depth).reverse.find? fun level =>
      decide (stack.getD (writer.ancestor level) .nil = .table ref)

end Writer

/-- What cannot raise. -/
def write (change : Writer -> Writer) : Encoder Unit := fun writer => .ok () (change writer)

/-- `ref_ancestor`. -/
def refAncestor (stack : List Value) (ref : Ref) : Encoder Bool := fun writer =>
  match writer.findAncestor stack ref with
  | some level =>
      .ok true { writer.push [combineType typeRef level] with
        trace := (level, stack.getD (writer.ancestor level) .nil) :: writer.trace }
  | none => .ok false writer

/-- `change_mark`. -/
def changeMark (address : Address) : Encoder Unit := fun writer =>
  match writer.blocks.byteAt address with
  | some tag =>
      if tag.toNat % 8 = typeTable then
        .ok () { writer with
          blocks := writer.blocks.patch address (combineType typeTableMark (tag.toNat / 8)) }
      else .error .assertion writer
  | none => .error .assertion writer

/-- A tag that is not marked yet is marked, and its address forgotten. -/
def markFound (id : Nat) : Encoder Unit := fun writer =>
  match writer.references.addressOf id with
  | some address =>
      (do
        changeMark address
        write fun writer =>
          { writer with references := writer.references.forget id }) writer
  | none => .ok () writer

/-- `lookup_ref`. -/
def lookupRef (ref : Ref) : Encoder (Option Nat) := fun writer =>
  match writer.references.numberOf ref with
  | some id =>
      (do
        markFound id
        pure (some id)) writer
  | none => .ok none writer

/-- `ref_object`. -/
def refObject (ref : Ref) : Encoder Bool := do
  match ← lookupRef ref with
  | some id => do
      write fun writer => (writer.push [combineType typeRef extendNumber]).wbInteger id
      pure true
  | none => pure false

section Tables

variable (grants : Nat -> Option Refusal)

/-- `luaL_checkstack` for the next table. -/
def checkTable : Encoder Unit := fun writer =>
  if grants writer.references.objectid = some .stack then .error .stack writer
  else .ok () writer

/-- `mark_table`: the address is that of the tag to come. -/
def markTable (ref : Ref) : Encoder Unit := fun writer =>
  let roomy := { writer with blocks := writer.blocks.makeRoom }
  if grants writer.references.objectid = some .memory then .error .memory roomy
  else .ok () { roomy with
    references := writer.references.add ref roomy.blocks.address }

/-- `s->ancestor[s->depth] = index`, as far as there is room, and `++s->depth`. -/
def enterTable (index : Nat) : Encoder Unit := fun writer =>
  let deeper := { writer with depth := writer.depth + 1 }
  if writer.depth < maxDepth then
    .ok () { deeper with
      ancestor := fun level => if level = writer.depth then index else writer.ancestor level }
  else .ok () deeper

/-- `--s->depth`. -/
def leaveTable : Encoder Unit := write fun writer => { writer with depth := writer.depth - 1 }

end Tables

section Recursion

/-! `packOne` is the function below, called recursively. -/

variable (packOne : List Value -> Nat -> Encoder Unit)

/-- The loop of `wb_table_array`. -/
def packItems (stack : List Value) : List Value -> Encoder Unit
  | [] => pure ()
  | item :: items => do
      packOne (stack ++ [item]) stack.length
      packItems stack items

/-- `wb_table_array`. -/
def wbTableArray (stack : List Value) (items : List Value) : Encoder Unit := do
  write fun writer => writer.openArray items.length
  packItems packOne stack items

/-- The key and the value of a pair. -/
def packPair (stack : List Value) (pair : Value × Value) : Encoder Unit := do
  packOne (stack ++ [pair.1, pair.2]) stack.length
  packOne (stack ++ [pair.1, pair.2]) (stack.length + 1)

/-- `wb_table_hash`. -/
def wbTableHash (stack : List Value) (arraySize : Nat) : List (Value × Value) -> Encoder Unit
  | [] => write Writer.wbNil
  | pair :: pairs =>
      if inArray arraySize pair.1 then wbTableHash stack arraySize pairs
      else do
        packPair packOne stack pair
        wbTableHash stack arraySize pairs

/-- The loop of `wb_table_metapairs`, with the iterator and its state pushed. -/
def packYields (stack : List Value) (raises : Bool) : List (Value × Value) -> Encoder Unit
  | [] => if raises then throw .raised else write Writer.wbNil
  | pair :: pairs =>
      if pair.1 = .nil then write Writer.wbNil
      else do
        packPair packOne stack pair
        packYields stack raises pairs

/-- The two ways `wb_table` goes on, with `wb_table_metapairs`. -/
def packContent (stack : List Value) : Content -> Encoder Unit
  | .plain items pairs => do
      wbTableArray packOne stack items
      wbTableHash packOne stack items.length pairs
  | .metapairs iterator state yields raises => do
      write fun writer => writer.push [combineType typeTable 0]
      packYields packOne (stack ++ [iterator, state]) raises yields

variable (grants : Nat -> Option Refusal) (heap : List Content)

/-- `wb_table`. -/
def wbTable (stack : List Value) (ref : Ref) : Encoder Unit := do
  checkTable grants
  markTable grants ref
  packContent packOne stack (heap.getD ref (.plain [] []))

/-- A table that was met neither as an ancestor nor before. -/
def packTable (stack : List Value) (index : Nat) (ref : Ref) : Encoder Unit := do
  enterTable index
  wbTable packOne grants heap stack ref
  leaveTable

/-- The last branches of `pack_one` for a table. -/
def packUnlessMet (stack : List Value) (index : Nat) (ref : Ref) : Encoder Unit := do
  if ← refObject ref then pure ()
  else packTable packOne grants heap stack index ref

/-- `pack_one` of the value at an index. -/
def packValue (stack : List Value) (index : Nat) : Encoder Unit :=
  match stack.getD index .nil with
  | .nil => write Writer.wbNil
  | .number bits => write fun writer => writer.wbReal bits
  | .boolean bool => write fun writer => writer.wbBoolean bool
  | .string bytes => write fun writer => writer.wbString bytes
  | .lightuserdata pointer => write fun writer => writer.wbPointer pointer userdataPointer
  | .closure => throw .lightFunctionOnly
  | .cfunction pointer => write fun writer => writer.wbPointer pointer userdataCfunction
  | .table ref => do
      if ← refAncestor stack ref then pure ()
      else packUnlessMet packOne grants heap stack index ref
  | .other typename => do
      write fun writer => { writer with blocks := writer.blocks.wbFree }
      throw (.unsupported typename)

end Recursion

/-- `pack_one`. -/
def packOne (grants : Nat -> Option Refusal) (heap : List Content) :
    Nat -> List Value -> Nat -> Encoder Unit
  | 0, _, _ => throw .diverges
  | rounds + 1, stack, index => packValue (packOne grants heap rounds) grants heap stack index

/-- The loop of `pack_from` over the values from an index on. -/
def packFrom (one : List Value -> Nat -> Encoder Unit) (stack : List Value) :
    Nat -> Nat -> Encoder Unit
  | 0, _ => pure ()
  | count + 1, index => do
      one stack index
      packFrom one stack count (index + 1)

/-- What `seri_pack` does after `pack_from`. -/
def finish : Encoder (Nat × List UInt8) := fun writer =>
  .ok writer.blocks.seri.1 { writer with blocks := writer.blocks.seri.2.wbFree }

/-- `seri_pack`: the name of the buffer and its bytes.  Above the values lie the
two slots at `ref_index`. -/
def seriPack (grants : Nat -> Option Refusal) (heap : List Content) (values : List Value) :
    EStateM.Result PackError Writer (Nat × List UInt8) :=
  (do
    packFrom (packOne grants heap (heap.length + 1)) (values ++ [Value.nil, Value.nil]) values.length 0
    finish) wbInit

end Seri
end ServiceRuntime
