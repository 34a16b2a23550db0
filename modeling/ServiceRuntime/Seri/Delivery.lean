import ServiceRuntime.Seri.RoundTrip

namespace ServiceRuntime
namespace Seri

open Foundation

/-!
# What arrives of a value graph

The decoder follows the walk over all values to its end.  What it then holds is
the graph that was packed, provided every reference to an ancestor is clear; and
without tables as keys every reference is.
-/

/-! ## The loop over the values -/

section Values

variable {whole walk : Walk} {heap : List Content} {reader : Reader} {rounds : Nat}
  {done : List Value}

theorem checkStack_readsOff (index : Nat) : ReadsOff [] (checkStack granting index) () := by
  unfold checkStack
  split
  · exact request_readsOff
  · exact .pure ()

/-- As long as there are bytes, the loop unpacks one more value. -/
theorem unpackValues_next {byte : UInt8} {rest : List UInt8}
    (upcoming : Upcoming reader (byte :: rest)) :
    Exists fun middle => Upcoming middle (byte :: rest) ∧ Advances reader middle ∧
      unpackValues granting (rounds + 1) done reader =
        (unpackOne granting (rounds + 1) done >>= fun value =>
          unpackValues granting rounds (done ++ [value])) middle := by
  rcases checkStack_readsOff done.length reader (byte :: rest) upcoming with
    ⟨middle, checked, left, advances⟩
  rcases rbRead_readsOff [byte] middle rest left with ⟨after, read, _, _⟩
  have tag : readWord 1 768 middle = .ok (ofLittleEndian [byte]) after := by
    change (rbRead ([byte].length : Nat) >>= _) middle = _
    rw [bind_of_ok read]
    rfl
  refine ⟨middle, left, advances, ?_⟩
  rw [unpackValues, unpackOne, bind_of_ok checked, bind_of_ok (by exact read : rbRead 1 middle = _),
    bind_assoc, bind_of_ok tag]

/-- Without any bytes left, the loop ends. -/
theorem unpackValues_stop (upcoming : Upcoming reader []) :
    Exists fun after => unpackValues granting (rounds + 1) done reader = .ok done after ∧
      Upcoming after [] ∧ Advances reader after := by
  rcases checkStack_readsOff done.length reader [] upcoming with ⟨middle, checked, left, advances⟩
  have short : middle.len < 1 := by
    rw [left.len]
    exact Int.zero_lt_one
  have read : rbRead 1 middle = .ok none
      { middle with trace := .read middle.ptr middle.len 1 :: middle.trace } := by
    unfold rbRead
    rw [if_pos short]
  refine ⟨{ middle with trace := .read middle.ptr middle.len 1 :: middle.trace }, ?_,
    ⟨left.started, left.len, left.bytes⟩, advances.trans ⟨rfl, rfl, rfl, rfl, rfl, ?_⟩⟩
  · unfold unpackValues
    rw [bind_of_ok checked, bind_of_ok read]
    rfl
  · exact (Reader.ancestors_noted rfl).trans (List.append_nil _)

/-- The tables that were opened are put together again. -/
def Rebuilt (whole : Walk) (heap : List Content) (opened : List Ref) (reader : Reader) : Prop :=
  forall ref, ref ∈ opened ->
    reader.tables[whole.name ref]? = some (rebuilt whole.name (heap.getD ref (.plain [] [])))

theorem Rebuilt.decoded {frames : List Frame} {stack : List Value} {value result : Value}
    {after : Walk} {later : Reader} (built : Rebuilt whole heap walk.opened reader)
    (decoded : Decoded whole heap frames stack value walk after reader result later) :
    Rebuilt whole heap after.opened later := by
  intro ref member
  by_cases before : ref ∈ walk.opened
  · have complete := built ref before
    rw [decoded.leaves.tables _ (List.getElem?_eq_some_iff.mp complete).1]
    exact complete
  · exact decoded.made ref member before

theorem Tracks.advances {after : Reader} (tracks : Tracks whole walk reader)
    (advances : Advances reader after)
    (upcoming : forall bytes, Upcoming reader bytes -> Upcoming after bytes) :
    Tracks whole walk after :=
  tracks.still upcoming advances.objectid (congrArg List.length advances.tables) advances.refs
    advances.ancestors

/-- Whatever bytes are left of the one reader are left of the other. -/
theorem Upcoming.only {after : Reader} {bytes : List UInt8} (before : Upcoming reader bytes)
    (later : Upcoming after bytes) (other : List UInt8) (upcoming : Upcoming reader other) :
    Upcoming after other := by
  have same : bytes = other := before.bytes.symm.trans upcoming.bytes
  exact same ▸ later

theorem unpackValues_outcome (short : whole.Short) (lawful : LawfulHeap heap) (levels : Nat)
    {values : List Value}
    (walked : walkRoots (walkOne (fun _ => none) heap levels) values walk = .ok () whole)
    (enough : totalSize whole.tokens < totalSize walk.tokens + rounds)
    (tracks : Tracks whole walk reader) (depth : reader.depth = 0)
    (built : Rebuilt whole heap walk.opened reader) :
    Outcome whole (fun result later => result = done ++ values.map (Value.rename whole.name) ∧
        Tracks whole whole later ∧ Rebuilt whole heap whole.opened later)
      (unpackValues granting rounds done reader) := by
  induction values generalizing walk reader rounds done with
  | nil =>
      cases walked
      obtain ⟨rounds, rfl⟩ : Exists fun less => rounds = less + 1 := ⟨rounds - 1, by omega⟩
      have upcoming : Upcoming reader [] := tracks.upcoming [] (List.append_nil _).symm
      rcases @unpackValues_stop reader rounds done upcoming with ⟨after, stopped, left, advances⟩
      apply Outcome.of_ok stopped
      refine ⟨(List.append_nil done).symm, tracks.advances advances (upcoming.only left), ?_⟩
      unfold Rebuilt
      rw [advances.tables]
      exact built
  | cons value values inductionHypothesis =>
      rcases bind_eq_ok walked with ⟨_, between, first, rest⟩
      have grown := (walkOne_grows _ _ _ _ _).of_ok first
      have precedes : between.Precedes whole := ((walkRoots_grows _ _ _ _).of_ok rest).1
      obtain ⟨rounds, rfl⟩ : Exists fun less => rounds = less + 1 := ⟨rounds - 1, by
        have := tracks.precedes.totalSize_le
        omega⟩
      obtain ⟨more, tokens⟩ := tracks.precedes.tokens
      have upcoming := tracks.upcoming more tokens.symm
      cases bytes : encodeWith (markedIn whole.tokens) more with
      | nil =>
          -- the walk over a value has left at least one byte
          have nothing : totalSize more = 0 := by
            rw [← length_encodeWith (markedIn whole.tokens), bytes]
            rfl
          have sizes := precedes.totalSize_le
          rw [← tokens, totalSize_append, nothing] at sizes
          omega
      | cons byte left =>
          rw [bytes] at upcoming
          rcases @unpackValues_next reader rounds done byte left upcoming with
            ⟨middle, later, advances, next⟩
          have tracksMiddle := tracks.advances advances (upcoming.only later)
          have builtMiddle : Rebuilt whole heap walk.opened middle := by
            unfold Rebuilt
            rw [advances.tables]
            exact built
          have shallow : middle.depth = 0 := advances.depth.trans depth
          rw [next]
          have decodes := followsOne short lawful levels (rounds + 1) [] done value walk between middle
            first precedes enough (fun _ absent => absurd absent List.not_mem_nil) tracksMiddle
            (Around.empty whole done shallow)
          apply decodes.bind
          · intro result second decoded
            rw [decoded.same]
            have tail := @inductionHypothesis between second rounds
              (done ++ [value.rename whole.name]) rest (by omega) decoded.tracks
              (decoded.leaves.depth.trans shallow) (builtMiddle.decoded decoded)
            rw [List.append_assoc] at tail
            exact tail
          · exact fun _ => unpackValues_logs _ _

/-- Before the first byte is read. -/
theorem rballInit_tracks (whole : Walk) :
    Tracks whole ⟨[], []⟩ (rballInit (encode whole.tokens) (encode whole.tokens).length) where
  precedes := ⟨List.nil_prefix, List.nil_prefix⟩
  upcoming := by
    intro rest tokens
    rw [List.nil_append] at tokens
    rw [← tokens]
    exact ⟨Int.le_refl 0, rfl, rfl⟩
  objectid := rfl
  tables := rfl
  marks := fun _ absent => absurd absent (Nat.not_lt_zero _)
  clear := fun _ _ _ absent => absurd absent List.not_mem_nil
  ancestors := rfl

/-- The decoder on the buffer that was packed. -/
theorem seriUnpack_outcome {buffer : Nat × List UInt8} {writer : Writer} {values : List Value}
    (walked : outline (fun _ => none) heap values = .ok () whole)
    (packed : Packed buffer writer whole) (short : whole.Short) (lawful : LawfulHeap heap) :
    Outcome whole (fun result later => result = values.map (Value.rename whole.name) ∧
        Tracks whole whole later ∧ Rebuilt whole heap whole.opened later)
      (seriUnpack granting buffer.2) := by
  have length := length_encode whole.tokens
  have bound := short.bytes
  rw [packed.bytes, seriUnpack_header granting (by omega)]
  apply unpackValues_outcome short lawful _ walked
  · rw [length]
    change totalSize whole.tokens < 0 + _
    omega
  · exact rballInit_tracks whole
  · rfl
  · exact fun _ absent => absurd absent List.not_mem_nil

end Values

/-! ## The graph that arrives -/

/-- As many tables are opened as there are bytes, at most. -/
theorem length_numbers_le (tokens : List Token) :
    (tokens.filterMap Token.number?).length ≤ totalSize tokens := by
  induction tokens with
  | nil => exact Nat.le_refl 0
  | cons token tokens inductionHypothesis =>
      change _ ≤ token.size + totalSize tokens
      cases token with
      | opens id size =>
          have filled : 1 ≤ (Token.opens id size).size := Nat.succ_le_succ (Nat.zero_le _)
          change (tokens.filterMap Token.number?).length + 1 ≤ _
          omega
      | scalar | ancestor | shared | closes => exact Nat.le_add_left_of_le inductionHypothesis

theorem Packed.short {buffer : Nat × List UInt8} {writer : Writer} {whole : Walk}
    (packed : Packed buffer writer whole) (bound : buffer.2.length < 2 ^ 31) : whole.Short := by
  have bytes : totalSize whole.tokens < 2 ^ 31 := by
    rw [packed.bytes, List.length_append, length_encode] at bound
    omega
  have opened := length_numbers_le whole.tokens
  rw [packed.numbered, List.length_range'] at opened
  exact ⟨bytes, Nat.lt_of_le_of_lt opened bytes⟩

namespace Graph

variable {graph : Graph}

theorem heap_supported (supported : graph.Supported) (ref : Ref) :
    (graph.heap.getD ref (.plain [] [])).Supported := by
  rcases graph.heap_cases ref with nothing | ⟨table, listed, content⟩
  · rw [nothing]
    exact ⟨rfl, fun _ absent => absurd absent List.not_mem_nil,
      fun _ absent => absurd absent List.not_mem_nil⟩
  · have parts := supported.2 table listed
    rw [content]
    constructor
    · rfl
    · intro item member
      rcases List.mem_map.mp member with ⟨index, _, rfl⟩
      by_cases nothing : rawgeti table.pairs (index + 1) = .nil
      · rw [nothing]
        trivial
      · obtain ⟨pair, inside, _, same⟩ := rawget_mem nothing
        unfold rawgeti
        rw [← same]
        exact (parts pair inside).2
    · intro pair member
      rw [ofTable_entries] at member
      exact parts pair (List.mem_of_mem_filter member)

theorem heap_lawful (graph : Graph) : LawfulHeap graph.heap := by
  intro ref small
  rcases graph.heap_cases ref with nothing | ⟨table, _, content⟩
  · rw [nothing]
    exact ⟨rfl, fun _ absent => absurd absent List.not_mem_nil, List.Pairwise.nil⟩
  · rw [content] at small ⊢
    have length : (Content.ofTable table).items.length = table.objlen := table.items_length
    exact ofTable_lawful (by omega)

theorem PlainKeys.heap (plain : graph.PlainKeys) (ref : Ref) (pair : Value × Value)
    (member : pair ∈ (graph.heap.getD ref (.plain [] [])).entries) : pair.1.ref? = none := by
  rcases graph.heap_cases ref with nothing | ⟨table, listed, content⟩
  · rw [nothing] at member
    exact absurd member List.not_mem_nil
  · rw [content, ofTable_entries] at member
    exact plain table listed pair (List.mem_of_mem_filter member)

/-- Whatever can be reached is opened. -/
theorem Reaches.opened {whole : Walk} {ref : Ref} (reached : graph.Reaches ref)
    (met : forall value, value ∈ graph.roots -> Met whole value)
    (explored : forall ref, ref ∈ whole.opened ->
      (graph.heap.getD ref (.plain [] [])).Explored whole) : ref ∈ whole.opened := by
  induction reached with
  | root member named => exact met _ member _ named
  | @pair outer ref table pair _ found member named inductionHypothesis =>
      have inside := explored outer inductionHypothesis
      rw [heap_getD found] at inside
      by_cases array : inArray table.objlen pair.1 = true
      · have numbered := table.mem_numbered_of_filter (List.mem_filter.mpr ⟨member, array⟩)
        obtain ⟨offset, place, _, key⟩ := mem_numbered.mp numbered
        rcases named with onKey | onValue
        · rw [key] at onKey
          cases onKey
        · exact inside.items pair.2 (List.mem_of_getElem? place) ref onValue
      · have entry : pair ∈ (Content.ofTable table).entries := by
          rw [ofTable_entries]
          apply List.mem_filter.mpr
          rw [Bool.not_eq_true] at array
          exact ⟨member, by rw [array]; rfl⟩
        rcases named with onKey | onValue
        · exact (inside.entries pair entry).1 ref onKey
        · exact (inside.entries pair entry).2 ref onValue

end Graph

/-- Tables that are put together again make up the graph. -/
theorem isomorphic_of_rebuilt {graph : Graph} {whole : Walk} {reader : Reader} (short : whole.Short)
    (met : forall value, value ∈ graph.roots -> Met whole value)
    (explored : forall ref, ref ∈ whole.opened ->
      (graph.heap.getD ref (.plain [] [])).Explored whole)
    (built : Rebuilt whole graph.heap whole.opened reader) :
    Isomorphic graph (graph.roots.map (Value.rename whole.name)) reader.tables := by
  refine ⟨whole.name, ?_, rfl, ?_⟩
  · intro first second reached _ same
    exact whole.name_inj (reached.opened met explored) same
  · intro ref table reached found
    have opened := reached.opened met explored
    have long := (explored ref opened).long
    have bound := short.bytes
    have pairs := built ref opened
    rw [Graph.heap_getD found] at long pairs
    have length : (Content.ofTable table).items.length = table.objlen := table.items_length
    exact ⟨_, pairs, (ofTable_perm (by omega)).map _⟩

/-! ## Without tables as keys -/

/-- No open table is left through a key, and none has had a table as a key. -/
def Straight (frames : List Frame) : Prop :=
  forall frame, frame ∈ frames -> frame.onKey = false ∧ frame.dirty = false

theorem Straight.clearAt {frames : List Frame} (straight : Straight frames) (level : Nat) :
    clearAt frames level = true := by
  apply Bool.and_eq_true_iff.mpr
  constructor
  · apply List.all_eq_true.mpr
    intro frame member
    rw [(straight frame (List.mem_of_mem_take member)).1]
    rfl
  · cases found : frames[level]? with
    | none => rfl
    | some frame =>
        rw [Option.all_some, (straight frame (List.mem_of_getElem? found)).2]
        rfl

theorem Straight.inside {frames : List Frame} (straight : Straight frames) (ref : Ref) :
    Straight (frames ++ [⟨ref, false, false⟩]) := by
  intro frame member
  rcases List.mem_append.mp member with before | last
  · exact straight frame before
  · rw [List.mem_singleton.mp last]
    exact ⟨rfl, rfl⟩

/-- The references to ancestors stay clear. -/
def Clears {α : Type} (program : Walker α) : Prop :=
  forall walk, Clear walk.tokens ->
    Ends (fun _ after => Clear after.tokens) (fun _ _ => True) (program walk)

section Clears

variable {α β : Type}

theorem Clears.pure (value : α) : Clears (pure value : Walker α) := fun _ clear => clear

theorem Clears.raise (error : PackError) : Clears (throw error : Walker α) := fun _ _ => trivial

theorem Clears.bind {first : Walker α} {next : α -> Walker β} (starts : Clears first)
    (follows : forall value, Clears (next value)) : Clears (first >>= next) := by
  intro walk clear
  apply Ends.bind
  apply (starts walk clear).imp
  · exact fun value between later => follows value between later
  · exact fun _ _ _ => trivial

theorem emit_clears {token : Token}
    (added : forall level ref flag, token = .ancestor level ref flag -> flag = true) :
    Clears (emit token) :=
  fun _ clear => clear.append added

theorem enlist_clears (grants : Nat -> Option Refusal) (ref : Ref) : Clears (enlist grants ref) := by
  intro walk clear
  unfold enlist
  split
  · trivial
  split
  · trivial
  · exact clear

/-- A key that is no table leaves the open table as it was. -/
theorem walkPairs_plain (one : List Frame -> Value -> Walker Unit) (frames : List Frame) (ref : Ref)
    (raises dirty : Bool) {pair : Value × Value} (plain : pair.1.ref? = none)
    (pairs : List (Value × Value)) :
    walkPairs one frames ref raises dirty (pair :: pairs) =
      (one (frames ++ [⟨ref, true, dirty⟩]) pair.1 >>= fun _ =>
        one (frames ++ [⟨ref, false, dirty⟩]) pair.2 >>= fun _ =>
          walkPairs one frames ref raises dirty pairs) := by
  funext walk
  have known : unmet pair.1 walk = .ok false walk := by
    unfold unmet
    rw [plain]
    simp only [reduceCtorEq, false_and, exists_false, decide_false]
  rw [walkPairs, walkPair, bind_assoc, bind_of_ok known, Bool.or_false]
  simp only [bind_assoc, pure_bind]

variable {one : List Frame -> Value -> Walker Unit}
  (clears : forall frames value, value.ref? = none ∨ Straight frames -> Clears (one frames value))

include clears

theorem walkItems_clears {frames : List Frame} (straight : Straight frames) (items : List Value) :
    Clears (walkItems one frames items) := by
  induction items with
  | nil => exact .pure ()
  | cons item items inductionHypothesis =>
      exact (clears frames item (Or.inr straight)).bind fun _ => inductionHypothesis

theorem walkPairs_clears {frames : List Frame} (straight : Straight frames) (ref : Ref)
    (raises : Bool) {pairs : List (Value × Value)}
    (plain : forall pair, pair ∈ pairs -> pair.1.ref? = none) :
    Clears (walkPairs one frames ref raises false pairs) := by
  induction pairs with
  | nil =>
      unfold walkPairs
      split
      · exact .raise _
      · exact emit_clears fun _ _ _ => Token.noConfusion
  | cons pair pairs inductionHypothesis =>
      obtain ⟨first, rest⟩ := List.forall_mem_cons.mp plain
      rw [walkPairs_plain one frames ref raises false first]
      exact (clears _ _ (Or.inl first)).bind fun _ =>
        (clears _ _ (Or.inr (straight.inside ref))).bind fun _ => inductionHypothesis rest

theorem walkContent_clears {frames : List Frame} (straight : Straight frames) (ref : Ref)
    {content : Content} (plain : forall pair, pair ∈ content.entries -> pair.1.ref? = none) :
    Clears (walkContent one frames ref content) := by
  have opens : Clears (emitOpens content.items.length) :=
    fun walk clear => emit_clears (fun _ _ _ => Token.noConfusion) walk clear
  exact opens.bind fun _ => (walkItems_clears clears (straight.inside ref) _).bind fun _ =>
    walkPairs_clears clears straight ref _ plain

end Clears

section Heap

variable {heap : List Content}
  (plain : forall (ref : Ref) (pair : Value × Value),
    pair ∈ (heap.getD ref (.plain [] [])).entries -> pair.1.ref? = none)

include plain

theorem walkOne_clears (rounds : Nat) (frames : List Frame) (value : Value)
    (straight : value.ref? = none ∨ Straight frames) :
    Clears (walkOne (fun _ => none) heap rounds frames value) := by
  induction rounds generalizing frames value with
  | zero => exact .raise _
  | succ rounds inductionHypothesis =>
      change Clears (walkValue (walkOne (fun _ => none) heap rounds) (fun _ => none) heap frames value)
      cases value with
      | closure | other => exact .raise _
      | table ref =>
          have within : Straight frames := straight.resolve_left nofun
          intro walk clear
          change Ends _ _ ((meet frames ref >>= _) walk)
          rcases meet_cases frames ref walk with ⟨level, _, met⟩ | ⟨place, _, _, met⟩ | ⟨_, _, missed⟩
          · rw [bind_of_ok met]
            apply clear.append
            intro _ _ flag same
            cases same
            exact within.clearAt level
          · rw [bind_of_ok met]
            exact clear.append fun _ _ _ => Token.noConfusion
          · rw [bind_of_ok missed]
            exact ((enlist_clears _ ref).bind fun _ =>
              walkContent_clears inductionHypothesis within ref (plain ref)) walk clear
      | nil | boolean | number | string | lightuserdata | cfunction =>
          exact emit_clears fun _ _ _ => Token.noConfusion

theorem walkRoots_clears (rounds : Nat) (values : List Value) :
    Clears (walkRoots (walkOne (fun _ => none) heap rounds) values) := by
  induction values with
  | nil => exact .pure ()
  | cons value values inductionHypothesis =>
      have straight : Straight [] := fun _ absent => absurd absent List.not_mem_nil
      exact (walkOne_clears plain rounds [] value (Or.inr straight)).bind fun _ =>
        inductionHypothesis

end Heap

/-! ## Round trips -/

/-- The place of the table that is made for the table with a number; a table
without one has its place behind them all. -/
def Writer.name (writer : Writer) (ref : Ref) : Ref :=
  match writer.references.numberOf ref with
  | some id => id - 1
  | none => writer.references.objectid

/-- Whenever the decoder uses the number of an ancestor, it finds the table that
is made for the one the encoder found. -/
def InStep (writer : Writer) (reader : Reader) : Prop :=
  reader.ancestors =
    writer.trace.reverse.map fun noted => (noted.1, noted.2.rename writer.name)

instance (writer : Writer) (reader : Reader) : Decidable (InStep writer reader) :=
  inferInstanceAs (Decidable (_ = _))

/-- The graph is packed, and what is unpacked from the buffer is the same graph,
with the decoder in step with the encoder. -/
def RoundTrips (graph : Graph) : Prop :=
  Exists fun buffer => Exists fun writer => Exists fun values => Exists fun reader =>
    seriPack (fun _ => none) graph.heap graph.roots = .ok buffer writer ∧
      seriUnpack granting buffer.2 = .ok values reader ∧
      values.length = graph.roots.length ∧ Isomorphic graph values reader.tables ∧
      InStep writer reader

/-- The encoding is shorter than an `int` can count. -/
def Graph.Short (graph : Graph) : Prop :=
  Ends (fun (buffer : Nat × List UInt8) _ => buffer.2.length < 2 ^ 31) (fun _ _ => True)
    (seriPack (fun _ => none) graph.heap graph.roots)

instance (graph : Graph) : Decidable graph.Short := by
  unfold Graph.Short
  infer_instance

/-- The walk over the graph comes through, and every reference to an ancestor is
clear. -/
def Graph.Clear (graph : Graph) : Prop :=
  Ends (fun _ walk => Seri.Clear walk.tokens) (fun _ _ => False)
    (outline (fun _ => none) graph.heap graph.roots)

/-- Without tables as keys every reference to an ancestor is clear. -/
theorem Graph.PlainKeys.clear {graph : Graph} (plain : graph.PlainKeys)
    (supported : graph.Supported) : graph.Clear := by
  obtain ⟨whole, walked, _⟩ := outline_explored (Graph.heap_supported supported) supported.1
  have clears := walkRoots_clears plain.heap (graph.heap.length + 1) graph.roots ⟨[], []⟩
    fun _ _ _ absent => absurd absent List.not_mem_nil
  change Ends _ _ (outline (fun _ => none) graph.heap graph.roots) at clears
  unfold Graph.Clear
  rw [walked] at clears ⊢
  exact clears

theorem Packed.name_eq {buffer : Nat × List UInt8} {writer : Writer} {whole : Walk}
    (packed : Packed buffer writer whole) : writer.name = whole.name := by
  funext ref
  unfold Writer.name Walk.name
  rw [packed.numbers, packed.count, List.idxOf_eq_getD_idxOf?]
  cases whole.opened.idxOf? ref with
  | none => rfl
  | some place => rfl

/-- The decoder is in step when it finds the ancestors of the walk. -/
theorem Packed.inStep_iff {buffer : Nat × List UInt8} {writer : Writer} {whole : Walk}
    (packed : Packed buffer writer whole) (reader : Reader) :
    InStep writer reader ↔ reader.ancestors = whole.expected whole.tokens := by
  unfold InStep Walk.expected
  rw [packed.noted, packed.name_eq]

section RoundTrips

variable {graph : Graph} (supported : graph.Supported) (short : graph.Short)

include supported short

/-- A graph that fits is packed, and the decoder follows the walk over it. -/
theorem Graph.packed : Exists fun buffer => Exists fun writer => Exists fun whole =>
    seriPack (fun _ => none) graph.heap graph.roots = .ok buffer writer ∧
      outline (fun _ => none) graph.heap graph.roots = .ok () whole ∧
      Packed buffer writer whole ∧
      Outcome whole (fun values reader => values = graph.roots.map (Value.rename whole.name) ∧
        Isomorphic graph values reader.tables ∧ Tracks whole whole reader)
        (seriUnpack granting buffer.2) := by
  obtain ⟨whole, walked, met, explored⟩ :=
    outline_explored (Graph.heap_supported supported) supported.1
  have alike := seriPack_follows (fun _ => none) graph.heap graph.roots
  unfold Graph.Short at short
  rw [walked] at alike
  cases outcome : seriPack (fun _ => none) graph.heap graph.roots with
  | error error writer =>
      rw [outcome] at alike
      exact False.elim alike
  | ok buffer writer =>
      rw [outcome] at alike short
      have packed : Packed buffer writer whole := alike
      have bounds := packed.short short
      refine ⟨buffer, writer, whole, rfl, walked, packed, ?_⟩
      apply (seriUnpack_outcome walked packed bounds graph.heap_lawful).imp
      rintro values reader ⟨rfl, tracks, built⟩
      exact ⟨rfl, isomorphic_of_rebuilt bounds met explored built, tracks⟩

/-- When every reference to an ancestor is clear, the graph arrives. -/
theorem Graph.Clear.roundTrips (clear : graph.Clear) : RoundTrips graph := by
  obtain ⟨buffer, writer, whole, packs, walked, packed, unpacks⟩ := Graph.packed supported short
  unfold Graph.Clear at clear
  rw [walked] at clear
  cases unpacked : seriUnpack granting buffer.2 with
  | error error reader =>
      rw [unpacked] at unpacks
      exact absurd clear unpacks
  | ok values reader =>
      rw [unpacked] at unpacks
      rcases unpacks with ⟨rfl, isomorphic, tracks⟩ | ⟨unclear, _⟩
      · exact ⟨buffer, writer, _, reader, packs, unpacked, List.length_map _, isomorphic,
          (packed.inStep_iff reader).mpr tracks.ancestors⟩
      · exact absurd clear unclear

/-- Whatever the Lua values, the same graph arrives, unless a table is a key. -/
theorem value_graph_round_trip (plain : graph.PlainKeys) : RoundTrips graph :=
  (plain.clear supported).roundTrips supported short

/-- With tables as keys the graph arrives exactly when every reference to an
ancestor is clear: at the first one that is not, the decoder raises or takes
another value for the ancestor. -/
theorem round_trips_iff_clear : RoundTrips graph ↔ graph.Clear := by
  constructor
  · rintro ⟨buffer, writer, values, reader, packs, unpacked, _, _, inStep⟩
    obtain ⟨_, _, whole, same, walked, packed, unpacks⟩ := Graph.packed supported short
    rw [packs] at same
    cases same
    rw [unpacked] at unpacks
    rw [packed.inStep_iff] at inStep
    unfold Graph.Clear
    rw [walked]
    rcases unpacks with ⟨_, _, tracks⟩ | ⟨_, strays⟩
    · exact tracks.clear
    · exact False.elim (strays (inStep ▸ List.prefix_refl _))
  · exact fun clear => clear.roundTrips supported short

end RoundTrips

/-! ## Two graphs -/

/-- The references of a value lie among so many tables. -/
def Value.within (size : Nat) (value : Value) : Bool := value.ref?.all fun ref => decide (ref < size)

theorem Value.lt_of_within {size : Nat} {value : Value} (within : value.within size = true)
    {ref : Ref} (named : value.ref? = some ref) : ref < size := by
  unfold Value.within at within
  rw [named] at within
  exact of_decide_eq_true within

/-- A graph whose references are checked one by one. -/
def Graph.ofChecked (tables : List Table) (roots : List Value)
    (closed : forall table, table ∈ tables -> forall pair, pair ∈ table.pairs ->
      (pair.1.within tables.length && pair.2.within tables.length) = true)
    (rooted : forall root, root ∈ roots -> root.within tables.length = true) : Graph where
  tables
  roots
  closed := by
    intro table member pair inside ref named
    have both := Bool.and_eq_true_iff.mp (closed table member pair inside)
    exact named.elim (Value.lt_of_within both.1) (Value.lt_of_within both.2)
  rooted := fun root member _ named => Value.lt_of_within (rooted root member) named

/-- `{}`. -/
def emptyTable : Table where
  pairs := []
  objlen := 0
  keyed := by decide
  distinct := by decide
  border := by decide

/-- `t = {t, x = u}` with `u = {}`: packed are `t`, `nil`, `u` and `nil`. -/
def sharedGraph : Graph :=
  .ofChecked
    [{  pairs := [(.number (.ofNat 1), .table 0), (.string [120], .table 1)]
        objlen := 1
        keyed := by decide
        distinct := by decide
        border := by decide }, emptyTable]
    [.table 0, .nil, .table 1, .nil] (by decide) (by decide)

/-- A table among its own items, another one shared, and two `nil`. -/
theorem shared_graph_round_trip : sharedGraph.Supported ∧ sharedGraph.Short ∧
    sharedGraph.PlainKeys ∧ RoundTrips sharedGraph :=
  ⟨by decide, by decide +kernel, by decide,
    value_graph_round_trip (by decide) (by decide +kernel) (by decide)⟩

/-- `t = {}; t[{}] = t`. -/
def keyedGraph : Graph :=
  .ofChecked
    [{  pairs := [(.table 1, .table 0)]
        objlen := 0
        keyed := by decide
        distinct := by decide
        border := by decide }, emptyTable]
    [.table 0] (by decide) (by decide)

theorem keyed_graph_iff : keyedGraph.Supported ∧ keyedGraph.Short ∧
    (RoundTrips keyedGraph ↔ keyedGraph.Clear) :=
  ⟨by decide, by decide +kernel, round_trips_iff_clear (by decide) (by decide +kernel)⟩

/-- The graph is packed and unpacked, with the decoder in step. -/
def KeepsStep (graph : Graph) : Prop :=
  Ends (fun (buffer : Nat × List UInt8) writer =>
      Ends (fun _ reader => InStep writer reader) (fun _ _ => False) (seriUnpack granting buffer.2))
    (fun _ _ => False) (seriPack (fun _ => none) graph.heap graph.roots)

instance (graph : Graph) : Decidable (KeepsStep graph) :=
  inferInstanceAs (Decidable (Ends (fun (buffer : Nat × List UInt8) writer =>
      Ends (fun _ reader => InStep writer reader) (fun _ _ => False) (seriUnpack granting buffer.2))
    (fun _ _ => False) (seriPack (fun _ => none) graph.heap graph.roots)))

theorem not_roundTrips {graph : Graph} (strays : ¬KeepsStep graph) : ¬RoundTrips graph := by
  rintro ⟨buffer, writer, values, reader, packs, unpacked, _, _, inStep⟩
  apply strays
  unfold KeepsStep
  rw [packs]
  change Ends _ _ (seriUnpack granting buffer.2)
  rw [unpacked]
  exact inStep

/-- The decoder takes the key for the table itself. -/
theorem keyed_graph_strays : ¬RoundTrips keyedGraph := not_roundTrips (by decide +kernel)

end Seri
end ServiceRuntime
