import ServiceRuntime.Seri.Safety
import ServiceRuntime.Seri.Tokens

namespace ServiceRuntime
namespace Seri

open Foundation

/-!
# What the decoder reads of a token

When the bytes of a token lie ahead, the decoder reads these bytes and no others.
Everything here is about a Lua that refuses nothing, and about lengths and
numbers that fit an `int`.
-/

/-- Lua refuses nothing. -/
def granting : Nat -> Bool := fun _ => true

/-- The bytes that are left of the stream. -/
structure Upcoming (reader : Reader) (bytes : List UInt8) : Prop where
  started : 0 ≤ reader.ptr
  len : reader.len = bytes.length
  bytes : reader.buffer.drop reader.ptr.toNat = bytes

/-- The ancestors that were used, and what was found in their place. -/
def Event.ancestor? : Event -> Option (Nat × Value)
  | ancestor ref _ value => some (ref, value)
  | read _ _ _ | pushValue _ _ _ => none

/-- The ancestors that were used so far. -/
def Reader.ancestors (reader : Reader) : List (Nat × Value) :=
  reader.trace.reverse.filterMap Event.ancestor?

/-- The reader has only moved on. -/
structure Advances (before after : Reader) : Prop where
  depth : after.depth = before.depth
  objectid : after.objectid = before.objectid
  ancestor : after.ancestor = before.ancestor
  refs : after.refs = before.refs
  tables : after.tables = before.tables
  ancestors : after.ancestors = before.ancestors

theorem Advances.refl (reader : Reader) : Advances reader reader :=
  ⟨rfl, rfl, rfl, rfl, rfl, rfl⟩

theorem Advances.trans {first second third : Reader} (begins : Advances first second)
    (ends : Advances second third) : Advances first third where
  depth := ends.depth.trans begins.depth
  objectid := ends.objectid.trans begins.objectid
  ancestor := ends.ancestor.trans begins.ancestor
  refs := ends.refs.trans begins.refs
  tables := ends.tables.trans begins.tables
  ancestors := ends.ancestors.trans begins.ancestors

theorem Reader.ancestors_noted {before after : Reader} {event : Event}
    (trace : after.trace = event :: before.trace) :
    after.ancestors = before.ancestors ++ event.ancestor?.toList := by
  unfold Reader.ancestors
  rw [trace, List.reverse_cons, List.filterMap_append]
  cases event with
  | read ptr len size => rfl
  | ancestor ref depth value => rfl
  | pushValue type cookie ptr => rfl

/-- The program reads off these bytes and answers the value. -/
def ReadsOff {α : Type} (bytes : List UInt8) (program : Decoder α) (value : α) : Prop :=
  forall reader rest, Upcoming reader (bytes ++ rest) ->
    Exists fun after => program reader = .ok value after ∧ Upcoming after rest ∧
      Advances reader after

section Rules

variable {α β : Type}

theorem ReadsOff.pure (value : α) : ReadsOff [] (pure value : Decoder α) value :=
  fun reader _ upcoming => ⟨reader, rfl, upcoming, .refl reader⟩

theorem ReadsOff.bind {bytes more : List UInt8} {first : Decoder α} {next : α -> Decoder β}
    {between : α} {value : β} (starts : ReadsOff bytes first between)
    (follows : ReadsOff more (next between) value) :
    ReadsOff (bytes ++ more) (first >>= next) value := by
  intro reader rest upcoming
  rw [List.append_assoc] at upcoming
  rcases starts reader (more ++ rest) upcoming with ⟨middle, begins, later, moved⟩
  rcases follows middle rest later with ⟨after, ends, left, further⟩
  rw [bind_of_ok begins]
  exact ⟨after, ends, left, moved.trans further⟩

/-- What follows reads nothing. -/
theorem ReadsOff.andPure {bytes : List UInt8} {first : Decoder α} {next : α -> Decoder β}
    {between : α} {value : β} (starts : ReadsOff bytes first between)
    (follows : ReadsOff [] (next between) value) : ReadsOff bytes (first >>= next) value := by
  have both := starts.bind follows
  rw [List.append_nil] at both
  exact both

theorem request_readsOff : ReadsOff [] (request granting) () := by
  intro reader rest upcoming
  exact ⟨_, rfl, ⟨upcoming.started, upcoming.len, upcoming.bytes⟩, ⟨rfl, rfl, rfl, rfl, rfl, rfl⟩⟩

/-- `rb_read` of bytes that are there. -/
theorem rbRead_readsOff (bytes : List UInt8) : ReadsOff bytes (rbRead bytes.length) (some bytes) := by
  intro reader rest upcoming
  have len := upcoming.len
  have started := upcoming.started
  rw [List.length_append] at len
  have granted : (bytes.length : Int) ≤ reader.len := by omega
  have place : (reader.ptr + bytes.length).toNat = reader.ptr.toNat + bytes.length := by omega
  rw [rbRead_granted granted, upcoming.bytes, Int.toNat_natCast, List.take_left' rfl]
  refine ⟨_, rfl, ⟨?_, ?_, ?_⟩, ⟨rfl, rfl, rfl, rfl, rfl, ?_⟩⟩
  · change 0 ≤ reader.ptr + bytes.length
    omega
  · change reader.len - bytes.length = rest.length
    omega
  · change reader.buffer.drop (reader.ptr + bytes.length).toNat = rest
    rw [place, ← List.drop_drop, upcoming.bytes, List.drop_left' rfl]
  · exact (Reader.ancestors_noted rfl).trans (List.append_nil _)

theorem readWord_readsOff {width number line : Nat} (fits : number < 256 ^ width) :
    ReadsOff (littleEndian width number) (readWord width line) number := by
  have read := rbRead_readsOff (littleEndian width number)
  rw [littleEndian_length] at read
  apply read.andPure
  have word := ReadsOff.pure (ofLittleEndian (littleEndian width number))
  rw [ofLittleEndian_of_lt fits] at word
  change ReadsOff [] (pure (ofLittleEndian (littleEndian width number))) number
  rw [ofLittleEndian_of_lt fits]
  exact word

theorem getBuffer_readsOff (bytes : List UInt8) :
    ReadsOff bytes (getBuffer granting bytes.length) (.string bytes) := by
  apply (rbRead_readsOff bytes).andPure
  change ReadsOff [] (if (bytes.length : Int) < 0 then _ else _ : Decoder Value) _
  rw [if_neg (Int.not_lt.mpr (Int.natCast_nonneg _))]
  exact request_readsOff.andPure (.pure _)

/-! ## Numbers -/

/-- A number that fits an `int` and is not negative is read back. -/
theorem getInteger_readsOff {number : Nat} (short : number < 2 ^ 31) :
    Exists fun cookie => Exists fun payload => cookie < numberReal ∧
      integerBytes number = combineType typeNumber cookie :: payload ∧
      ReadsOff payload (getInteger cookie) number := by
  have fits : (number : Int) = Int.bmod number (2 ^ 32) := (bmod_of_short short).symm
  unfold integerBytes
  by_cases zero : (number : Int) = 0
  · rw [if_pos zero, zero]
    exact ⟨numberZero, [], by decide, rfl, .pure 0⟩
  rw [if_neg zero, if_neg (not_not.mpr fits), if_neg (by omega), Int.toNat_natCast]
  by_cases byte : (number : Int) < 0x100
  · rw [if_pos byte]
    exact ⟨numberByte, _, by decide, rfl, (readWord_readsOff (by omega)).andPure (.pure _)⟩
  rw [if_neg byte]
  by_cases word : (number : Int) < 0x10000
  · rw [if_pos word]
    exact ⟨numberWord, _, by decide, rfl, (readWord_readsOff (by omega)).andPure (.pure _)⟩
  · rw [if_neg word]
    refine ⟨numberDword, _, by decide, rfl, (readWord_readsOff (by omega)).andPure ?_⟩
    rw [bmod_of_short short]
    exact .pure _

/-- A tag is read as its type and its cookie. -/
theorem readTag_readsOff {type cookie line : Nat} (typed : type < 8) (short : cookie < maxCookie) :
    ReadsOff [combineType type cookie] (readWord 1 line) (type + 8 * cookie) := by
  have byte := combineType_toNat typed short
  have word : littleEndian 1 (type + 8 * cookie) = [combineType type cookie] := rfl
  rw [← word]
  apply readWord_readsOff
  unfold maxCookie at short
  omega

theorem getExtendInteger_readsOff {number : Nat} (short : number < 2 ^ 31) :
    ReadsOff (integerBytes number) getExtendInteger number := by
  rcases getInteger_readsOff short with ⟨cookie, payload, notReal, bytes, reads⟩
  unfold numberReal at notReal
  rw [bytes]
  have tag : ReadsOff [combineType typeNumber cookie] (readWord 1 623) (typeNumber + 8 * cookie) :=
    readTag_readsOff (by decide) (by unfold maxCookie; omega)
  apply tag.bind
  have type : (typeNumber + 8 * cookie) % 8 = typeNumber := by
    unfold typeNumber
    omega
  have rest : (typeNumber + 8 * cookie) / 8 = cookie := by
    unfold typeNumber
    omega
  rw [type, rest, if_neg (by unfold numberReal; omega)]
  apply reads.andPure
  rw [bmod_of_short short]
  exact .pure _

/-- The size of an array part. -/
theorem extent_readsOff {size : Nat} (short : size < 2 ^ 31) :
    ReadsOff (if extendNumber ≤ size then integerBytes size else []) (extent (min size extendNumber))
      size := by
  unfold extent
  by_cases long : extendNumber ≤ size
  · rw [if_pos long, if_pos (Nat.min_eq_right long)]
    exact getExtendInteger_readsOff short
  · have small : min size extendNumber = size := Nat.min_eq_left (Nat.le_of_not_le long)
    rw [if_neg long, small, if_neg (by omega)]
    exact .pure _

end Rules

/-! ## Values that are no tables -/

section Values

variable {one : List Value -> Decoder Value} {rounds : Nat} {stack : List Value}

theorem enterValue_readsOff (type cookie : Nat) : ReadsOff [] (enterValue type cookie) () := by
  intro reader rest upcoming
  exact ⟨_, rfl, ⟨upcoming.started, upcoming.len, upcoming.bytes⟩,
    ⟨rfl, rfl, rfl, rfl, rfl, (Reader.ancestors_noted rfl).trans (List.append_nil _)⟩⟩

theorem getReal_readsOff (bits : Double) : ReadsOff (littleEndian 8 bits.toNat) getReal bits := by
  have word : bits.toNat < 256 ^ 8 := bits.toNat_lt
  apply (readWord_readsOff word).andPure
  rw [UInt64.ofNat_toNat]
  exact .pure _

theorem getPointer_readsOff (pointer : UInt64) :
    ReadsOff (littleEndian 8 pointer.toNat) getPointer pointer := by
  have word : pointer.toNat < 256 ^ 8 := pointer.toNat_lt
  apply (readWord_readsOff word).andPure
  rw [UInt64.ofNat_toNat]
  exact .pure _

theorem unpackLongString_word {bytes : List UInt8} (short : bytes.length < 2 ^ 16) :
    ReadsOff (littleEndian 2 bytes.length ++ bytes) (unpackLongString granting 2) (.string bytes) := by
  have word : ReadsOff (littleEndian 2 bytes.length) (readWord 2 731) bytes.length :=
    readWord_readsOff short
  exact word.bind (getBuffer_readsOff bytes)

theorem unpackLongString_dword {bytes : List UInt8} (short : bytes.length < 2 ^ 31) :
    ReadsOff (littleEndian 4 bytes.length ++ bytes) (unpackLongString granting 4) (.string bytes) := by
  have word : ReadsOff (littleEndian 4 bytes.length) (readWord 4 742) bytes.length :=
    readWord_readsOff (by omega)
  apply word.bind
  rw [bmod_of_short short]
  exact getBuffer_readsOff bytes

/-- A tag and what `push_value` reads behind it. -/
def Tagged (bytes : List UInt8) (one : List Value -> Decoder Value) (rounds : Nat)
    (stack : List Value) (value : Value) : Prop :=
  Exists fun type => Exists fun cookie => Exists fun payload => type < 8 ∧ cookie < maxCookie ∧
    bytes = combineType type cookie :: payload ∧
    ReadsOff payload (pushValue granting one rounds stack type cookie) value

theorem string_tagged {bytes : List UInt8} (short : bytes.length < 2 ^ 31) :
    Tagged (stringBytes bytes) one rounds stack (.string bytes) := by
  unfold stringBytes
  by_cases cookie : bytes.length < maxCookie
  · rw [if_pos cookie]
    exact ⟨typeShortString, bytes.length, bytes, by decide, cookie, rfl,
      (enterValue_readsOff _ _).bind (getBuffer_readsOff bytes)⟩
  rw [if_neg cookie]
  by_cases word : bytes.length < 0x10000
  · rw [if_pos word]
    exact ⟨typeLongString, 2, _, by decide, by decide, rfl,
      (enterValue_readsOff _ _).bind (unpackLongString_word word)⟩
  · rw [if_neg word]
    exact ⟨typeLongString, 4, _, by decide, by decide, rfl,
      (enterValue_readsOff _ _).bind (unpackLongString_dword short)⟩

theorem scalar_tagged {value : Value} (plain : value.ref? = none) (supported : value.Supported)
    (short : (scalarBytes value).length < 2 ^ 31) :
    Tagged (scalarBytes value) one rounds stack value := by
  cases value with
  | nil =>
      exact ⟨typeBoolean, booleanNil, [], by decide, by decide, rfl,
        (enterValue_readsOff _ _).bind (.pure _)⟩
  | boolean bool =>
      cases bool with
      | false =>
          exact ⟨typeBoolean, booleanFalse, [], by decide, by decide, rfl,
            (enterValue_readsOff _ _).bind (.pure _)⟩
      | true =>
          exact ⟨typeBoolean, booleanTrue, [], by decide, by decide, rfl,
            (enterValue_readsOff _ _).bind (.pure _)⟩
  | number bits =>
      exact ⟨typeNumber, numberReal, _, by decide, by decide, rfl,
        (enterValue_readsOff _ _).bind ((getReal_readsOff bits).andPure (.pure _))⟩
  | string bytes =>
      apply string_tagged
      apply Nat.lt_of_le_of_lt _ short
      change bytes.length ≤ (stringBytes bytes).length
      unfold stringBytes
      split
      · rw [List.length_cons]
        omega
      · split <;> simp only [List.length_append, List.length_cons] <;> omega
  | lightuserdata pointer =>
      exact ⟨typeUserdata, userdataPointer, _, by decide, by decide, rfl,
        (enterValue_readsOff _ _).bind ((getPointer_readsOff pointer).andPure (.pure _))⟩
  | cfunction pointer =>
      exact ⟨typeUserdata, userdataCfunction, _, by decide, by decide, rfl,
        (enterValue_readsOff _ _).bind ((getPointer_readsOff pointer).andPure
          (request_readsOff.andPure (.pure _)))⟩
  | table ref => cases plain
  | closure => exact False.elim supported
  | other typename => exact False.elim supported

end Values

/-! ## The log of the ancestors only grows -/

/-- However the program ends, it only adds to the trace. -/
def Logs {α : Type} (program : Decoder α) : Prop :=
  forall reader, Ends (fun _ after => reader.trace <:+ after.trace)
    (fun _ _ => True) (program reader)

section Logs

variable {α β : Type} {memory : Nat -> Bool}

theorem Logs.pure (value : α) : Logs (pure value : Decoder α) :=
  fun _ => List.suffix_refl _

theorem Logs.raise (error : UnpackError) : Logs (throw error : Decoder α) :=
  fun _ => trivial

theorem Logs.bind {first : Decoder α} {next : α -> Decoder β} (starts : Logs first)
    (follows : forall value, Logs (next value)) : Logs (first >>= next) := by
  intro reader
  apply Ends.bind
  apply (starts reader).imp
  · intro value between early
    apply (follows value between).imp
    · intro _ _ late
      exact early.trans late
    · intro _ _ _
      trivial
  · intro _ _ _
    trivial

theorem Logs.split {condition : Prop} [Decidable condition] {first second : Decoder α}
    (yes : Logs first) (no : Logs second) : Logs (if condition then first else second) := by
  split
  · exact yes
  · exact no

/-- The program leaves the trace alone or adds one event. -/
theorem Logs.step {program : Decoder α}
    (adds : forall reader, Ends (fun _ after => after.trace = reader.trace ∨
      Exists fun event => after.trace = event :: reader.trace) (fun _ _ => True) (program reader)) :
    Logs program := by
  intro reader
  apply (adds reader).imp
  · rintro _ after (same | ⟨event, added⟩)
    · exact same.symm ▸ List.suffix_refl reader.trace
    · rw [added]
      exact List.suffix_cons event reader.trace
  · intro _ _ _
    trivial

theorem request_logs : Logs (request memory) := by
  apply Logs.step
  intro reader
  unfold request
  split
  · exact Or.inl rfl
  · trivial

theorem rbRead_logs (size : Int) : Logs (rbRead size) := by
  apply Logs.step
  intro reader
  unfold rbRead
  split
  · exact Or.inr ⟨_, rfl⟩
  · exact Or.inr ⟨_, rfl⟩

theorem invalidStream_logs (line : Nat) : Logs (invalidStream line : Decoder α) :=
  fun _ => trivial

theorem readWord_logs (width line : Nat) : Logs (readWord width line) := by
  apply (rbRead_logs _).bind
  rintro (_ | bytes)
  · exact invalidStream_logs line
  · exact .pure _

theorem getInteger_logs (cookie : Nat) : Logs (getInteger cookie) := by
  unfold getInteger
  split
  · exact .pure _
  · exact (readWord_logs _ _).bind fun _ => .pure _
  · exact (readWord_logs _ _).bind fun _ => .pure _
  · exact (readWord_logs _ _).bind fun _ => .pure _
  · exact (readWord_logs _ _).bind fun _ => .pure _
  · exact invalidStream_logs _

theorem getBuffer_logs (len : Int) : Logs (getBuffer memory len) := by
  apply (rbRead_logs _).bind
  rintro (_ | bytes)
  · exact invalidStream_logs _
  · exact .split (.raise _) (request_logs.bind fun _ => .pure _)

theorem getExtendInteger_logs : Logs getExtendInteger :=
  (readWord_logs _ _).bind fun _ =>
    .split (invalidStream_logs _) ((getInteger_logs _).bind fun _ => .pure _)

theorem createTable_logs : Logs (createTable memory) :=
  request_logs.bind fun _ => .step fun _ => Or.inl rfl

theorem storePair_logs (table : Ref) (key value : Value) : Logs (storePair memory table key value) :=
  .split (.raise _) (request_logs.bind fun _ => .step fun _ => Or.inl rfl)

theorem markObject_logs (type id : Nat) (table : Ref) : Logs (markObject memory type id table) :=
  .split (request_logs.bind fun _ => .step fun _ => Or.inl rfl) (.pure _)

theorem setAncestor_logs (position : Nat) : Logs (setAncestor position) := by
  apply Logs.step
  intro reader
  unfold setAncestor
  split
  · exact Or.inl rfl
  · exact Or.inl rfl

theorem nextObject_logs : Logs nextObject := .step fun _ => Or.inl rfl

theorem deepen_logs : Logs deepen := .step fun _ => Or.inl rfl

theorem surface_logs : Logs surface := .step fun _ => Or.inl rfl

theorem extent_logs (arraySize : Nat) : Logs (extent arraySize) :=
  .split getExtendInteger_logs (.pure _)

theorem unpackRef_logs (stack : List Value) (ref : Nat) : Logs (unpackRef stack ref) := by
  apply Logs.split
  · apply getExtendInteger_logs.bind
    intro id
    apply Logs.step
    intro reader
    unfold lookupObject
    split
    · exact Or.inl rfl
    · trivial
  · apply Logs.step
    intro reader
    unfold pushAncestor
    split
    · trivial
    · exact Or.inr ⟨_, rfl⟩

section Recursion

variable {one : List Value -> Decoder Value} (logs : forall stack, Logs (one stack))

include logs

theorem unpackItems_logs (stack : List Value) (table : Ref) (count index : Nat) :
    Logs (unpackItems memory one stack table count index) := by
  induction count generalizing index with
  | zero => exact .pure _
  | succ count inductionHypothesis =>
      exact (logs _).bind fun _ => (storePair_logs _ _ _).bind fun _ => inductionHypothesis _

theorem unpackEntries_logs (stack : List Value) (table : Ref) (rounds : Nat) :
    Logs (unpackEntries memory one stack table rounds) := by
  induction rounds with
  | zero => exact .raise _
  | succ rounds inductionHypothesis =>
      apply (logs _).bind
      intro key
      apply Logs.split
      · exact .pure _
      · exact deepen_logs.bind fun _ => (logs _).bind fun _ => surface_logs.bind fun _ =>
          (storePair_logs _ _ _).bind fun _ => inductionHypothesis

theorem unpackTable_logs (rounds : Nat) (stack : List Value) (arraySize type : Nat) :
    Logs (unpackTable memory one rounds stack arraySize type) :=
  (extent_logs _).bind fun _ => nextObject_logs.bind fun _ => request_logs.bind fun _ =>
    createTable_logs.bind fun _ => (markObject_logs _ _ _).bind fun _ =>
      (setAncestor_logs _).bind fun _ => deepen_logs.bind fun _ =>
        (unpackItems_logs logs _ _ _ _).bind fun _ => surface_logs.bind fun _ =>
          (unpackEntries_logs logs _ _ _).bind fun _ => .pure _

theorem pushValue_logs (rounds : Nat) (stack : List Value) (type cookie : Nat) :
    Logs (pushValue memory one rounds stack type cookie) := by
  have word (width line : Nat) {γ : Type} (next : Nat -> γ) :
      Logs (readWord width line >>= fun word => pure (next word)) :=
    (readWord_logs _ _).bind fun _ => .pure _
  apply (Logs.step fun _ => Or.inr ⟨_, rfl⟩ : Logs (enterValue type cookie)).bind
  intro _
  split
  · unfold unpackBoolean
    split
    · exact .pure _
    · exact .pure _
    · exact .pure _
    · exact .raise _
  · exact .split ((word _ _ _).bind fun _ => .pure _) ((getInteger_logs _).bind fun _ => .pure _)
  · exact .split ((word _ _ _).bind fun _ => .pure _) (.split (.raise _)
      ((word _ _ _).bind fun _ => request_logs.bind fun _ => .pure _))
  · exact getBuffer_logs _
  · exact .split ((readWord_logs _ _).bind fun _ => getBuffer_logs _) (.split (invalidStream_logs _)
      ((readWord_logs _ _).bind fun _ => getBuffer_logs _))
  · exact unpackTable_logs logs _ _ _ _
  · exact unpackTable_logs logs _ _ _ _
  · exact unpackRef_logs _ _
  · exact invalidStream_logs _

end Recursion

theorem unpackOne_logs (rounds : Nat) (stack : List Value) : Logs (unpackOne memory rounds stack) := by
  induction rounds generalizing stack with
  | zero => exact .raise _
  | succ rounds inductionHypothesis =>
      exact (readWord_logs _ _).bind fun _ => pushValue_logs inductionHypothesis _ _ _ _

theorem unpackValues_logs (rounds : Nat) (values : List Value) :
    Logs (unpackValues memory rounds values) := by
  induction rounds generalizing values with
  | zero => exact .raise _
  | succ rounds inductionHypothesis =>
      apply (Logs.split request_logs (.pure _) : Logs (checkStack memory values.length)).bind
      intro _
      apply (rbRead_logs _).bind
      rintro (_ | bytes)
      · exact .pure _
      · exact (pushValue_logs (unpackOne_logs rounds) _ _ _ _).bind fun _ => inductionHypothesis _

end Logs

end Seri
end ServiceRuntime
