import ServiceRuntime.Seri.Unpacker

namespace ServiceRuntime
namespace Seri

open Foundation

/-!
# The decoder stays inside its stream

Every read asks for bytes that are there or is refused, every ancestor is a
known one, and the decoder always comes to an end, whatever the stream is: a
read moves the pointer forward, and every round of the recursion and of the
loops reads.

The one exception is a long string whose length of four bytes does not fit an
`int`.  Its length becomes negative, and `rb_read` grants it.
-/

namespace Event

/-- What must hold of an event when the stream has `length` bytes. -/
def Safe (length : Int) : Event -> Prop
  | read ptr len size =>
      0 ≤ size ∧ ptr + len = length ∧ 0 ≤ len ∧ (size ≤ len -> 0 ≤ ptr ∧ ptr + size ≤ length)
  | ancestor ref depth _ => ref < depth ∧ ref < maxDepth
  | pushValue _ _ _ => True

instance (length : Int) : (event : Event) -> Decidable (event.Safe length)
  | read ptr len size => inferInstanceAs (Decidable (0 ≤ size ∧ ptr + len = length ∧ 0 ≤ len ∧
      (size ≤ len -> 0 ≤ ptr ∧ ptr + size ≤ length)))
  | ancestor ref depth _ => inferInstanceAs (Decidable (ref < depth ∧ ref < maxDepth))
  | pushValue _ _ _ => inferInstanceAs (Decidable True)

/-- `push_value` is entered for a long string, and the four bytes of its length
are there and stand for `2 ^ 31` or more. -/
def Overlong (stream : List UInt8) : Event -> Prop
  | read _ _ _ => False
  | ancestor _ _ _ => False
  | pushValue type cookie ptr =>
      type = typeLongString ∧ cookie = 4 ∧ ptr + 4 ≤ stream.length ∧
        2 ^ 31 ≤ ofLittleEndian ((stream.drop ptr.toNat).take 4)

instance (stream : List UInt8) : (event : Event) -> Decidable (event.Overlong stream)
  | read _ _ _ => inferInstanceAs (Decidable False)
  | ancestor _ _ _ => inferInstanceAs (Decidable False)
  | pushValue type cookie ptr => inferInstanceAs (Decidable
      (type = typeLongString ∧ cookie = 4 ∧ ptr + 4 ≤ stream.length ∧
        2 ^ 31 ≤ ofLittleEndian ((stream.drop ptr.toNat).take 4)))

end Event

/-- The bounds of the read block, and the safety of all that was done. -/
def Reader.Safe (length : Int) (reader : Reader) : Prop :=
  reader.ptr + reader.len = length ∧ 0 ≤ reader.len ∧
    forall event, event ∈ reader.trace -> event.Safe length

/-- No string length was met that does not fit an `int`. -/
def Reader.Fitting (stream : List UInt8) (reader : Reader) : Prop :=
  forall event, event ∈ reader.trace -> ¬event.Overlong stream

instance (length : Int) (reader : Reader) : Decidable (reader.Safe length) :=
  inferInstanceAs (Decidable (reader.ptr + reader.len = length ∧ 0 ≤ reader.len ∧
    forall event, event ∈ reader.trace -> event.Safe length))

/-- The run returns or raises, and was safe throughout. -/
def SafeRun (length : Int) : EStateM.Result UnpackError Reader (List Value) -> Prop :=
  Ends (fun _ after => after.Safe length)
    (fun error after => error ≠ .diverges ∧ after.Safe length)

instance (length : Int) (outcome : EStateM.Result UnpackError Reader (List Value)) :
    Decidable (SafeRun length outcome) :=
  inferInstanceAs (Decidable (Ends (fun _ after => after.Safe length)
    (fun error after => error ≠ .diverges ∧ after.Safe length) outcome))

/-- In the whole run no string length was met that does not fit an `int`. -/
def FittingRun (stream : List UInt8) : EStateM.Result UnpackError Reader (List Value) -> Prop :=
  Ends (fun _ after => after.Fitting stream) (fun _ after => after.Fitting stream)

/-! ## The invariant -/

/-- So far the run was safe, and no length was met that does not fit. -/
structure Calm (stream : List UInt8) (reader : Reader) : Prop where
  buffer : reader.buffer = stream
  place : reader.ptr + reader.len = stream.length
  inside : 0 ≤ reader.len
  started : 0 ≤ reader.ptr
  safe : forall event, event ∈ reader.trace -> event.Safe stream.length
  fitting : reader.Fitting stream

/-- A length that does not fit was met, and a negative one was read with. -/
def Broken (stream : List UInt8) (reader : Reader) : Prop :=
  (Exists fun event => event ∈ reader.trace ∧ ¬event.Safe stream.length) ∧
    Exists fun event => event ∈ reader.trace ∧ event.Overlong stream

/-- How a run of the decoder may raise. -/
def Stops (stream : List UInt8) (error : UnpackError) (reader : Reader) : Prop :=
  error ≠ .diverges ∧ (Calm stream reader ∨ Broken stream reader)

/-- Started with fewer than `room` bytes to read, the program keeps the
invariant and reads at least `least` bytes when it returns. -/
def Reads {α : Type} (stream : List UInt8) (room least : Int) (program : Decoder α) : Prop :=
  forall reader, Calm stream reader -> reader.len < room ->
    Ends (fun _ after => Calm stream after ∧ after.len + least ≤ reader.len) (Stops stream)
      (program reader)

section Rules

variable {α β : Type} {stream : List UInt8} {room least : Int}

theorem Reads.pure (value : α) : Reads stream room 0 (pure value : Decoder α) :=
  fun reader calm _ => ⟨calm, by omega⟩

theorem Reads.bind {first : Decoder α} {next : α -> Decoder β} {more : Int}
    (starts : Reads stream room least first)
    (follows : forall value, Reads stream (room - least) more (next value)) :
    Reads stream room (least + more) (first >>= next) := by
  intro reader calm within
  apply Ends.bind
  apply (starts reader calm within).imp
  · intro value between ⟨calmBetween, consumed⟩
    apply (follows value between calmBetween (by omega)).imp
    · intro _ after ⟨calmAfter, read⟩
      exact ⟨calmAfter, by omega⟩
    · intro error after stops
      exact stops
  · intro error after stops
    exact stops

theorem Reads.weaken {program : Decoder α} {wide lax : Int} (reads : Reads stream wide least program)
    (within : room ≤ wide) (fewer : lax ≤ least) : Reads stream room lax program := by
  intro reader calm inside
  apply (reads reader calm (by omega)).imp
  · intro _ after ⟨calmAfter, read⟩
    exact ⟨calmAfter, by omega⟩
  · intro error after stops
    exact stops

/-- A program that needs no room may follow one that reads nothing. -/
theorem Reads.andThen {first : Decoder α} {next : α -> Decoder β}
    (starts : Reads stream room 0 first)
    (follows : forall value, Reads stream room least (next value)) :
    Reads stream room least (first >>= next) := by
  have both := starts.bind fun value => (follows value).weaken (by omega) (Int.le_refl least)
  exact both.weaken (Int.le_refl room) (by omega)

theorem Reads.raise {error : UnpackError} (proper : error ≠ .diverges) :
    Reads stream room least (throw error : Decoder α) :=
  fun _ calm _ => ⟨proper, Or.inl calm⟩

theorem Reads.split {condition : Prop} [Decidable condition] {first second : Decoder α}
    (yes : condition -> Reads stream room least first)
    (no : ¬condition -> Reads stream room least second) :
    Reads stream room least (if condition then first else second) := by
  by_cases holds : condition
  · rw [if_pos holds]
    exact yes holds
  · rw [if_neg holds]
    exact no holds

end Rules

section Programs

variable {α : Type} {stream : List UInt8} {room least : Int} {memory : Nat -> Bool}

/-- The invariant is about the stream and the trace only. -/
theorem Calm.frame {reader other : Reader} (calm : Calm stream reader)
    (buffer : other.buffer = reader.buffer) (len : other.len = reader.len)
    (ptr : other.ptr = reader.ptr) (trace : other.trace = reader.trace) :
    Calm stream other where
  buffer := buffer.trans calm.buffer
  place := by rw [ptr, len, calm.place]
  inside := by rw [len]; exact calm.inside
  started := by rw [ptr]; exact calm.started
  safe := by rw [trace]; exact calm.safe
  fitting := by
    unfold Reader.Fitting
    rw [trace]
    exact calm.fitting

theorem Calm.noted {reader other : Reader} {event : Event} (calm : Calm stream reader)
    (safe : event.Safe stream.length) (fitting : ¬event.Overlong stream)
    (buffer : other.buffer = reader.buffer) (len : other.len = reader.len)
    (ptr : other.ptr = reader.ptr) (trace : other.trace = event :: reader.trace) :
    Calm stream other where
  buffer := buffer.trans calm.buffer
  place := by rw [ptr, len, calm.place]
  inside := by rw [len]; exact calm.inside
  started := by rw [ptr]; exact calm.started
  safe := by
    rw [trace]
    exact List.forall_mem_cons.mpr ⟨safe, calm.safe⟩
  fitting := by
    unfold Reader.Fitting
    rw [trace]
    exact List.forall_mem_cons.mpr ⟨fitting, calm.fitting⟩

theorem invalidStream_reads {line : Nat} :
    Reads stream room least (invalidStream line : Decoder α) :=
  fun _ calm _ => ⟨UnpackError.noConfusion, Or.inl calm⟩

theorem request_reads : Reads stream room 0 (request memory) := by
  intro reader calm _
  unfold request
  split
  · exact ⟨calm.frame rfl rfl rfl rfl, Int.le_of_eq (Int.add_zero _)⟩
  · exact ⟨UnpackError.noConfusion, Or.inl (calm.frame rfl rfl rfl rfl)⟩

theorem rbRead_granted {size : Int} {reader : Reader} (granted : size ≤ reader.len) :
    rbRead size reader =
      .ok (some ((reader.buffer.drop reader.ptr.toNat).take size.toNat))
        { reader with
          ptr := reader.ptr + size
          len := reader.len - size
          trace := .read reader.ptr reader.len size :: reader.trace } := by
  unfold rbRead
  rw [if_neg (Int.not_lt.mpr granted)]

theorem rbRead_refused {size : Int} {reader : Reader} (refused : reader.len < size) :
    rbRead size reader =
      .ok none { reader with trace := .read reader.ptr reader.len size :: reader.trace } := by
  unfold rbRead
  rw [if_pos refused]

theorem Calm.granted {size : Int} {reader : Reader} (calm : Calm stream reader)
    (positive : 0 ≤ size) (granted : size ≤ reader.len) :
    Calm stream { reader with
      ptr := reader.ptr + size
      len := reader.len - size
      trace := .read reader.ptr reader.len size :: reader.trace } where
  buffer := calm.buffer
  place := by
    have place := calm.place
    change reader.ptr + size + (reader.len - size) = stream.length
    omega
  inside := by
    change 0 ≤ reader.len - size
    omega
  started := by
    have started := calm.started
    change 0 ≤ reader.ptr + size
    omega
  safe := by
    have place := calm.place
    have started := calm.started
    exact List.forall_mem_cons.mpr
      ⟨⟨positive, place, calm.inside, fun inside => ⟨started, by omega⟩⟩, calm.safe⟩
  fitting := List.forall_mem_cons.mpr ⟨id, calm.fitting⟩

theorem Calm.refused {size : Int} {reader : Reader} (calm : Calm stream reader)
    (refused : reader.len < size) :
    Calm stream { reader with trace := .read reader.ptr reader.len size :: reader.trace } := by
  have inside := calm.inside
  have safe : Event.Safe stream.length (.read reader.ptr reader.len size) :=
    ⟨by omega, calm.place, inside, fun granted => absurd refused (Int.not_lt.mpr granted)⟩
  exact calm.noted safe id rfl rfl rfl rfl

theorem ofLittleEndian_take_lt (bytes : List UInt8) (width : Nat) :
    ofLittleEndian (bytes.take width) < 256 ^ width := by
  apply Nat.lt_of_lt_of_le (ofLittleEndian_lt (bytes.take width))
  exact Nat.pow_le_pow_right (by decide) (List.length_take_le width bytes)

theorem readWord_granted {width line : Nat} {reader : Reader} (granted : (width : Int) ≤ reader.len) :
    readWord width line reader =
      .ok (ofLittleEndian ((reader.buffer.drop reader.ptr.toNat).take width))
        { reader with
          ptr := reader.ptr + width
          len := reader.len - width
          trace := .read reader.ptr reader.len width :: reader.trace } := by
  unfold readWord
  rw [bind_of_ok (rbRead_granted granted)]
  rfl

theorem readWord_refused {width line : Nat} {reader : Reader} (refused : reader.len < width) :
    readWord width line reader =
      .error (.invalidStream reader.len line)
        { reader with trace := .read reader.ptr reader.len width :: reader.trace } := by
  unfold readWord
  rw [bind_of_ok (rbRead_refused refused)]
  rfl

/-- A word that is read, and what becomes of it. -/
theorem Reads.word {width line : Nat} {next : Nat -> Decoder α}
    (follows : forall word, word < 256 ^ width -> Reads stream (room - width) least (next word)) :
    Reads stream room (width + least) (readWord width line >>= next) := by
  intro reader calm within
  by_cases granted : (width : Int) ≤ reader.len
  · rw [bind_of_ok (readWord_granted granted)]
    have small := ofLittleEndian_take_lt (reader.buffer.drop reader.ptr.toNat) width
    have calmBetween := calm.granted (Int.natCast_nonneg width) granted
    apply (follows _ small _ calmBetween (by change reader.len - width < room - width; omega)).imp
    · intro _ after ⟨calmAfter, read⟩
      refine ⟨calmAfter, ?_⟩
      change after.len + least ≤ reader.len - width at read
      omega
    · intro error after stops
      exact stops
  · have refused := Int.not_le.mp granted
    rw [bind_of_error (readWord_refused refused)]
    exact ⟨UnpackError.noConfusion, Or.inl (calm.refused refused)⟩

theorem readWord_reads {width line : Nat} : Reads stream room 0 (readWord width line) := by
  have reads : Reads stream room (width + 0) (readWord width line >>= Pure.pure) :=
    Reads.word fun word _ => Reads.pure word
  intro reader calm within
  have ends := reads reader calm within
  rw [bind_pure] at ends
  apply ends.imp
  · intro _ after ⟨calmAfter, read⟩
    exact ⟨calmAfter, by omega⟩
  · intro error after stops
    exact stops

theorem getInteger_reads {cookie : Nat} : Reads stream room 0 (getInteger cookie) := by
  unfold getInteger
  split
  · exact Reads.pure _
  · exact readWord_reads.andThen fun word => Reads.pure _
  · exact readWord_reads.andThen fun word => Reads.pure _
  · exact readWord_reads.andThen fun word => Reads.pure _
  · exact readWord_reads.andThen fun word => Reads.pure _
  · exact invalidStream_reads

theorem getBuffer_reads {len : Int} (positive : 0 ≤ len) :
    Reads stream room 0 (getBuffer memory len) := by
  intro reader calm within
  unfold getBuffer
  by_cases granted : len ≤ reader.len
  · rw [bind_of_ok (rbRead_granted granted)]
    change Ends _ _ ((if len < 0 then _ else _ : Decoder Value) _)
    rw [if_neg (Int.not_lt.mpr positive)]
    have stays : Reads stream room 0 (do
        request memory
        pure (Value.string ((reader.buffer.drop reader.ptr.toNat).take len.toNat))) :=
      request_reads.andThen fun _ => Reads.pure _
    apply (stays _ (calm.granted positive granted) (by change reader.len - len < room; omega)).imp
    · intro _ after ⟨calmAfter, read⟩
      refine ⟨calmAfter, ?_⟩
      change after.len + 0 ≤ reader.len - len at read
      omega
    · intro error after stops
      exact stops
  · have refused := Int.not_le.mp granted
    rw [bind_of_ok (rbRead_refused refused)]
    exact ⟨UnpackError.noConfusion, Or.inl (calm.refused refused)⟩

theorem getExtendInteger_reads : Reads stream room 0 getExtendInteger := by
  unfold getExtendInteger
  apply readWord_reads.andThen
  intro type
  apply Reads.split
  · intro _
    exact invalidStream_reads
  · intro _
    exact getInteger_reads.andThen fun number => Reads.pure _

/-! ## Tables -/

theorem createTable_reads : Reads stream room 0 (createTable memory) :=
  request_reads.andThen fun _ _ calm _ =>
    ⟨calm.frame rfl rfl rfl rfl, Int.le_of_eq (Int.add_zero _)⟩

theorem storePair_reads {table : Ref} {key value : Value} :
    Reads stream room 0 (storePair memory table key value) := by
  unfold storePair
  apply Reads.split
  · intro _
    exact Reads.raise UnpackError.noConfusion
  · intro _
    exact request_reads.andThen fun _ _ calm _ =>
      ⟨calm.frame rfl rfl rfl rfl, Int.le_of_eq (Int.add_zero _)⟩

theorem nextObject_reads : Reads stream room 0 nextObject :=
  fun _ calm _ => ⟨calm.frame rfl rfl rfl rfl, Int.le_of_eq (Int.add_zero _)⟩

theorem markObject_reads {type id : Nat} {table : Ref} :
    Reads stream room 0 (markObject memory type id table) := by
  unfold markObject
  apply Reads.split
  · intro _
    exact request_reads.andThen fun _ _ calm _ =>
      ⟨calm.frame rfl rfl rfl rfl, Int.le_of_eq (Int.add_zero _)⟩
  · intro _
    exact Reads.pure _

theorem extent_reads {arraySize : Nat} : Reads stream room 0 (extent arraySize) := by
  unfold extent
  apply Reads.split
  · intro _
    exact getExtendInteger_reads
  · intro _
    exact Reads.pure _

theorem setAncestor_reads {position : Nat} : Reads stream room 0 (setAncestor position) := by
  intro reader calm _
  unfold setAncestor
  split
  · exact ⟨calm.frame rfl rfl rfl rfl, Int.le_of_eq (Int.add_zero _)⟩
  · exact ⟨calm, Int.le_of_eq (Int.add_zero _)⟩

theorem deepen_reads : Reads stream room 0 deepen :=
  fun _ calm _ => ⟨calm.frame rfl rfl rfl rfl, Int.le_of_eq (Int.add_zero _)⟩

theorem surface_reads : Reads stream room 0 surface :=
  fun _ calm _ => ⟨calm.frame rfl rfl rfl rfl, Int.le_of_eq (Int.add_zero _)⟩

theorem lookupObject_reads {id : Int} : Reads stream room 0 (lookupObject id) := by
  intro reader calm _
  unfold lookupObject
  split
  · exact ⟨calm, Int.le_of_eq (Int.add_zero _)⟩
  · exact ⟨UnpackError.noConfusion, Or.inl calm⟩

theorem pushAncestor_reads {stack : List Value} {ref : Nat} (below : ref < maxDepth) :
    Reads stream room 0 (pushAncestor stack ref) := by
  intro reader calm _
  unfold pushAncestor
  split
  · exact ⟨UnpackError.noConfusion, Or.inl calm⟩
  · rename_i known
    have safe : Event.Safe stream.length
        (.ancestor ref reader.depth (stack.getD (reader.ancestor ref) .nil)) :=
      ⟨Nat.lt_of_not_le known, below⟩
    exact ⟨calm.noted safe id rfl rfl rfl rfl, Int.le_of_eq (Int.add_zero _)⟩

theorem unpackRef_reads {stack : List Value} {ref : Nat} (cookie : ref < maxCookie) :
    Reads stream room 0 (unpackRef stack ref) := by
  unfold unpackRef
  apply Reads.split
  · intro _
    exact getExtendInteger_reads.andThen fun id => lookupObject_reads
  · intro short
    apply pushAncestor_reads
    unfold maxCookie at cookie
    unfold extendNumber maxCookie at short
    unfold maxDepth
    omega

section Recursion

variable {unpackOne : List Value -> Decoder Value} {rounds : Nat}
  (one : forall stack, Reads stream rounds 1 (unpackOne stack))

include one

/-- Every item reads, so that fewer bytes are left for the items to come. -/
theorem unpackItems_reads {stack : List Value} {table : Ref} {count index : Nat} :
    Reads stream rounds 0 (unpackItems memory unpackOne stack table count index) := by
  induction count generalizing index with
  | zero => exact Reads.pure _
  | succ count inductionHypothesis =>
      apply Reads.andThen
      · exact (one _).weaken (Int.le_refl _) (by omega)
      · intro value
        exact storePair_reads.andThen fun _ => inductionHypothesis

theorem unpackEntries_reads {stack : List Value} {table : Ref} {left : Nat} (enough : left ≤ rounds) :
    Reads stream left 0 (unpackEntries memory unpackOne stack table left) := by
  induction left with
  | zero =>
      intro reader calm within
      exact absurd calm.inside (by omega)
  | succ left inductionHypothesis =>
      have later : Reads stream (((left + 1 : Nat) : Int) - 1) 0
          (unpackEntries memory unpackOne stack table left) :=
        (inductionHypothesis (by omega)).weaken (by omega) (Int.le_refl 0)
      have both : Reads stream ((left + 1 : Nat) : Int) (1 + 0)
          (unpackEntries memory unpackOne stack table (left + 1)) := by
        apply ((one _).weaken (by omega) (Int.le_refl 1)).bind
        intro key
        apply Reads.split
        · intro _
          exact Reads.pure _
        · intro _
          apply deepen_reads.andThen
          intro _
          apply ((one _).weaken (by omega) (by omega)).andThen
          intro value
          apply surface_reads.andThen
          intro _
          exact storePair_reads.andThen fun _ => later
      exact both.weaken (Int.le_refl _) (by omega)

theorem unpackTable_reads {stack : List Value} {arraySize type : Nat} :
    Reads stream rounds 0 (unpackTable memory unpackOne rounds stack arraySize type) := by
  unfold unpackTable
  apply extent_reads.andThen
  intro size
  apply nextObject_reads.andThen
  intro id
  apply request_reads.andThen
  intro _
  apply createTable_reads.andThen
  intro table
  apply markObject_reads.andThen
  intro _
  apply setAncestor_reads.andThen
  intro _
  apply deepen_reads.andThen
  intro _
  apply (unpackItems_reads one).andThen
  intro _
  apply surface_reads.andThen
  intro _
  exact (unpackEntries_reads one (Nat.le_refl rounds)).andThen fun _ => Reads.pure _

end Recursion

/-! ## Long strings -/

theorem bmod_of_short {number : Nat} (short : number < 2 ^ 31) :
    Int.bmod number (2 ^ 32) = number := by
  apply Int.bmod_eq_of_le <;> omega

theorem bmod_negative {number : Nat} (long : 2 ^ 31 ≤ number) (word : number < 2 ^ 32) :
    Int.bmod number (2 ^ 32) < 0 := by
  rw [Int.bmod_def]
  omega

/-- A length that fits is read like any other. -/
theorem unpackLongString_fitting {cookie : Nat} {reader : Reader} (calm : Calm stream reader)
    (fits : ¬Event.Overlong stream (.pushValue typeLongString cookie reader.ptr)) :
    Ends (fun _ after => Calm stream after ∧ after.len + 0 ≤ reader.len) (Stops stream)
      (unpackLongString memory cookie reader) := by
  unfold unpackLongString
  split
  · have reads : Reads stream (reader.len + 1) 0
        (readWord 2 731 >>= fun length => getBuffer memory length) :=
      readWord_reads.andThen fun word => getBuffer_reads (Int.natCast_nonneg word)
    exact reads reader calm (by omega)
  split
  · exact ⟨UnpackError.noConfusion, Or.inl calm⟩
  · rename_i four
    obtain rfl : cookie = 4 := Decidable.not_not.mp four
    by_cases granted : ((4 : Nat) : Int) ≤ reader.len
    · have place := calm.place
      have short : ofLittleEndian ((reader.buffer.drop reader.ptr.toNat).take 4) < 2 ^ 31 := by
        by_contra long
        apply fits
        rw [calm.buffer] at long
        exact ⟨rfl, rfl, by omega, Nat.le_of_not_lt long⟩
      have calmBetween := calm.granted (Int.natCast_nonneg 4) granted
      have rest : Reads stream (reader.len + 1) 0 (getBuffer memory
          (ofLittleEndian ((reader.buffer.drop reader.ptr.toNat).take 4))) :=
        getBuffer_reads (Int.natCast_nonneg _)
      rw [bind_of_ok (readWord_granted granted), bmod_of_short short]
      apply (rest _ calmBetween (by change reader.len - (4 : Nat) < reader.len + 1; omega)).imp
      · intro _ after ⟨calmAfter, read⟩
        refine ⟨calmAfter, Int.le_trans read ?_⟩
        change reader.len - (4 : Nat) ≤ reader.len
        omega
      · intro error after stops
        exact stops
    · have refused := Int.not_le.mp granted
      rw [bind_of_error (readWord_refused refused)]
      exact ⟨UnpackError.noConfusion, Or.inl (calm.refused refused)⟩

/-- A length that does not fit is asked for as a negative one. -/
theorem unpackLongString_overlong {cookie : Nat} {reader : Reader}
    (buffer : reader.buffer = stream) (place : reader.ptr + reader.len = stream.length)
    (overlong : Event.Overlong stream (.pushValue typeLongString cookie reader.ptr))
    (entered : .pushValue typeLongString cookie reader.ptr ∈ reader.trace) :
    Ends (fun _ _ => False) (Stops stream) (unpackLongString memory cookie reader) := by
  obtain ⟨_, rfl, granted, long⟩ := overlong
  have inside : ((4 : Nat) : Int) ≤ reader.len := by omega
  have word := ofLittleEndian_take_lt (stream.drop reader.ptr.toNat) 4
  have negative := bmod_negative long word
  unfold unpackLongString
  rw [if_neg (by omega), if_neg (by omega), bind_of_ok (readWord_granted inside), buffer]
  unfold getBuffer
  rw [bind_of_ok (rbRead_granted (by change _ ≤ reader.len - (4 : Nat); omega))]
  change Ends _ _ ((if Int.bmod _ _ < 0 then _ else _ : Decoder Value) _)
  rw [if_pos negative]
  refine ⟨UnpackError.noConfusion, Or.inr ⟨?_, ?_⟩⟩
  · refine ⟨_, List.mem_cons_self, ?_⟩
    intro safe
    exact absurd safe.1 (Int.not_le.mpr negative)
  · refine ⟨_, List.mem_cons_of_mem _ (List.mem_cons_of_mem _ entered), ?_⟩
    exact ⟨rfl, rfl, granted, long⟩

/-! ## Values -/

section Values

variable {unpackOne : List Value -> Decoder Value} {rounds : Nat}
  (one : forall stack, Reads stream rounds 1 (unpackOne stack))

include one

theorem pushValue_reads {stack : List Value} {type cookie : Nat} (short : cookie < maxCookie) :
    Reads stream rounds 0 (pushValue memory unpackOne rounds stack type cookie) := by
  intro reader calm within
  unfold pushValue
  rw [bind_of_ok (by rfl : enterValue type cookie reader = _)]
  by_cases overlong : Event.Overlong stream (.pushValue type cookie reader.ptr)
  · obtain rfl : type = typeLongString := overlong.1
    have raises := @unpackLongString_overlong stream memory cookie { reader with
      trace := .pushValue typeLongString cookie reader.ptr :: reader.trace }
      calm.buffer calm.place overlong List.mem_cons_self
    apply raises.imp
    · intro _ _ impossible
      exact False.elim impossible
    · intro error after stops
      exact stops
  · have noted : Calm stream { reader with
        trace := .pushValue type cookie reader.ptr :: reader.trace } :=
      calm.noted (show Event.Safe stream.length (.pushValue type cookie reader.ptr) from trivial)
        overlong rfl rfl rfl rfl
    split
    · have reads : Reads stream rounds 0 (unpackBoolean cookie) := by
        unfold unpackBoolean
        split
        · exact Reads.pure _
        · exact Reads.pure _
        · exact Reads.pure _
        · exact Reads.raise UnpackError.noConfusion
      exact reads _ noted within
    · have reads : Reads stream rounds 0 (unpackNumber cookie) := by
        unfold unpackNumber
        apply Reads.split
        · intro _
          exact (readWord_reads.andThen fun word => Reads.pure _).andThen fun bits => Reads.pure _
        · intro _
          exact getInteger_reads.andThen fun number => Reads.pure _
      exact reads _ noted within
    · have reads : Reads stream rounds 0 (unpackUserdata memory cookie) := by
        have pointer : Reads stream rounds 0 getPointer :=
          readWord_reads.andThen fun word => Reads.pure _
        unfold unpackUserdata
        apply Reads.split
        · intro _
          exact pointer.andThen fun _ => Reads.pure _
        · intro _
          apply Reads.split
          · intro _
            exact Reads.raise UnpackError.noConfusion
          · intro _
            exact pointer.andThen fun _ => request_reads.andThen fun _ => Reads.pure _
      exact reads _ noted within
    · exact getBuffer_reads (Int.natCast_nonneg cookie) _ noted within
    · exact unpackLongString_fitting noted overlong
    · exact unpackTable_reads one _ noted within
    · exact unpackTable_reads one _ noted within
    · exact unpackRef_reads short _ noted within
    · exact invalidStream_reads _ noted within

end Values

/-- The cookie of a tag is what is left of a byte without its type. -/
theorem cookie_short {word : Nat} (byte : word < 256 ^ 1) : word / 8 < maxCookie := by
  unfold maxCookie
  omega

/-- One more round than bytes are left is enough. -/
theorem unpackOne_reads {rounds : Nat} {stack : List Value} :
    Reads stream rounds 1 (unpackOne memory rounds stack) := by
  induction rounds generalizing stack with
  | zero =>
      intro reader calm within
      exact absurd calm.inside (by omega)
  | succ rounds inductionHypothesis =>
      have reads : Reads stream ((rounds + 1 : Nat) : Int) ((1 : Nat) + 0)
          (unpackOne memory (rounds + 1) stack) := by
        apply Reads.word
        intro type byte
        have value := @pushValue_reads stream memory (unpackOne memory rounds) rounds
          (fun _ => inductionHypothesis) stack (type % 8) _ (cookie_short byte)
        exact value.weaken (by omega) (Int.le_refl 0)
      exact reads.weaken (Int.le_refl _) (by omega)

theorem unpackValues_reads {rounds : Nat} {values : List Value} :
    Reads stream rounds 0 (unpackValues memory rounds values) := by
  induction rounds generalizing values with
  | zero =>
      intro reader calm within
      exact absurd calm.inside (by omega)
  | succ rounds inductionHypothesis =>
      have stack : Reads stream ((rounds + 1 : Nat) : Int) 0 (checkStack memory values.length) := by
        apply Reads.split
        · intro _
          exact request_reads
        · intro _
          exact Reads.pure _
      apply stack.andThen
      intro _ reader calm within
      by_cases granted : 1 ≤ reader.len
      · rw [bind_of_ok (rbRead_granted granted)]
        have byte := ofLittleEndian_take_lt (reader.buffer.drop reader.ptr.toNat) 1
        have rest : Reads stream rounds 0 (do
            let value ← pushValue memory (unpackOne memory rounds) rounds values
              (ofLittleEndian ((reader.buffer.drop reader.ptr.toNat).take 1) % 8)
              (ofLittleEndian ((reader.buffer.drop reader.ptr.toNat).take 1) / 8)
            unpackValues memory rounds (values ++ [value])) := by
          apply (pushValue_reads (fun _ => unpackOne_reads) (cookie_short byte)).andThen
          exact fun value => inductionHypothesis
        have calmBetween := calm.granted Int.one_nonneg granted
        apply (rest _ calmBetween (by change reader.len - 1 < rounds; omega)).imp
        · intro _ after ⟨calmAfter, read⟩
          refine ⟨calmAfter, Int.le_trans read ?_⟩
          change reader.len - 1 ≤ reader.len
          omega
        · intro error after stops
          exact stops
      · have refused := Int.not_le.mp granted
        rw [bind_of_ok (rbRead_refused refused)]
        exact ⟨calm.refused refused, Int.le_of_eq (Int.add_zero _)⟩

end Programs

/-! ## The whole stream -/

/-- The run returns or raises. -/
def Terminates : EStateM.Result UnpackError Reader (List Value) -> Prop :=
  Ends (fun _ _ => True) (fun error _ => error ≠ .diverges)

theorem Calm.whole {stream : List UInt8} {reader : Reader} (calm : Calm stream reader) :
    reader.Safe stream.length :=
  ⟨calm.place, calm.inside, calm.safe⟩

theorem rballInit_calm (stream : List UInt8) : Calm stream (rballInit stream stream.length) where
  buffer := rfl
  place := Int.zero_add _
  inside := Int.natCast_nonneg _
  started := Int.le_refl 0
  safe := fun _ absent => absurd absent List.not_mem_nil
  fitting := fun _ absent => absurd absent List.not_mem_nil

/-- The header of a stream is read back. -/
theorem seriUnpack_header (memory : Nat -> Bool) {stream : List UInt8}
    (short : stream.length < 2 ^ 31) :
    seriUnpack memory (littleEndian 4 stream.length ++ stream) =
      unpackValues memory (4 + stream.length) [] (rballInit stream stream.length) := by
  have width : (littleEndian 4 stream.length).length = 4 := littleEndian_length 4 _
  unfold seriUnpack
  rw [List.take_left' width, List.drop_left' width, List.length_append, width,
    ofLittleEndian_of_lt (by omega), bmod_of_short short]

/-- How a run on a stream with its header ends. -/
theorem seriUnpack_ends (memory : Nat -> Bool) {stream : List UInt8}
    (short : stream.length < 2 ^ 31) :
    Ends (fun _ after => Calm stream after) (Stops stream)
      (seriUnpack memory (littleEndian 4 stream.length ++ stream)) := by
  rw [seriUnpack_header memory short]
  have reads : Reads stream ((4 + stream.length : Nat) : Int) 0
      (unpackValues memory (4 + stream.length) []) := unpackValues_reads
  have within : (rballInit stream stream.length).len < ((4 + stream.length : Nat) : Int) := by
    change (stream.length : Int) < ((4 + stream.length : Nat) : Int)
    omega
  apply (reads _ (rballInit_calm stream) within).imp
  · intro _ after ⟨calm, _⟩
    exact calm
  · intro error after stops
    exact stops

/-- Every stream is decoded to the end or refused; and it is decoded safely
exactly when no long string is met whose length does not fit an `int`. -/
theorem decoder_safe_iff (memory : Nat -> Bool) (stream : List UInt8)
    (short : stream.length < 2 ^ 31) :
    Terminates (seriUnpack memory (littleEndian 4 stream.length ++ stream)) ∧
      (SafeRun stream.length (seriUnpack memory (littleEndian 4 stream.length ++ stream)) ↔
        FittingRun stream (seriUnpack memory (littleEndian 4 stream.length ++ stream))) := by
  have ends := seriUnpack_ends memory short
  cases outcome : seriUnpack memory (littleEndian 4 stream.length ++ stream) with
  | ok values after =>
      rw [outcome] at ends
      have calm : Calm stream after := ends
      exact ⟨trivial, fun _ => calm.fitting, fun _ => calm.whole⟩
  | error error after =>
      rw [outcome] at ends
      obtain ⟨proper, calm | ⟨⟨risky, present, bad⟩, ⟨overlong, met, long⟩⟩⟩ := ends
      · exact ⟨proper, fun _ => calm.fitting, fun _ => ⟨proper, calm.whole⟩⟩
      · refine ⟨proper, ?_, ?_⟩
        · intro safe
          exact absurd (safe.2.2.2 risky present) bad
        · intro fitting
          exact absurd long (fitting overlong met)

theorem decoder_safe_iff_short :
    ([11, 65] : List UInt8).length < 2 ^ 31 ∧
      (Terminates (seriUnpack (fun _ => true) (littleEndian 4 2 ++ [11, 65])) ∧
        (SafeRun 2 (seriUnpack (fun _ => true) (littleEndian 4 2 ++ [11, 65])) ↔
          FittingRun [11, 65] (seriUnpack (fun _ => true) (littleEndian 4 2 ++ [11, 65])))) :=
  ⟨by decide, decoder_safe_iff (fun _ => true) [11, 65] (by decide)⟩

/-- Five bytes are enough: a long string of `2 ^ 31` bytes. -/
theorem decoder_reads_negative :
    ¬SafeRun 5 (seriUnpack (fun _ => true) (littleEndian 4 5 ++ [36, 0, 0, 0, 128])) := by
  decide +kernel

end Seri
end ServiceRuntime
