import ServiceRuntime.Seri.Ancestors
import ServiceRuntime.Seri.Encoding

namespace ServiceRuntime
namespace Seri

open Foundation

/-!
# Packing and unpacking

The decoder follows the tokens of the walk: it makes a table for every table
that is opened, in the same order, and fills it with what the table holds.  It
does so up to the first reference to an ancestor that is not clear.  There it
raises, or notes an ancestor other than the encoder's.
-/

/-- Every reference to an ancestor is clear. -/
def Clear (tokens : List Token) : Prop :=
  forall level ref clear, Token.ancestor level ref clear ∈ tokens -> clear = true

/-- The ancestors the decoder is to find. -/
def Walk.expected (whole : Walk) (tokens : List Token) : List (Nat × Value) :=
  (tokens.filterMap Token.noted?).map fun noted => (noted.1, noted.2.rename whole.name)

/-- The decoder has found an ancestor other than the encoder's. -/
def Strays (whole : Walk) (reader : Reader) : Prop :=
  ¬ reader.ancestors <+: whole.expected whole.tokens

theorem Strays.later {whole : Walk} {before after : Reader} (strays : Strays whole before)
    (logs : before.trace <:+ after.trace) : Strays whole after := by
  intro still
  apply strays
  have grows : before.ancestors <+: after.ancestors := by
    obtain ⟨new, trace⟩ := logs
    unfold Reader.ancestors
    rw [← trace, List.reverse_append, List.filterMap_append]
    exact List.prefix_append _ _
  exact grows.trans still

/-- The decoder comes to a good end, or meets a reference that is not clear. -/
def Outcome {α : Type} (whole : Walk) (good : α -> Reader -> Prop) :
    EStateM.Result UnpackError Reader α -> Prop :=
  Ends (fun value after => good value after ∨ ¬ Clear whole.tokens ∧ Strays whole after)
    (fun _ _ => ¬ Clear whole.tokens)

section Rules

variable {α β : Type} {whole : Walk} {good : β -> Reader -> Prop}

theorem Outcome.of_ok {program : Decoder β} {reader after : Reader} {value : β}
    (outcome : program reader = .ok value after) (fine : good value after) :
    Outcome whole good (program reader) := by
  rw [outcome]
  exact Or.inl fine

theorem Outcome.bind {first : Decoder α} {next : α -> Decoder β} {reader : Reader}
    {between : α -> Reader -> Prop} (starts : Outcome whole between (first reader))
    (follows : forall value middle, between value middle -> Outcome whole good (next value middle))
    (logs : forall value, Logs (next value)) : Outcome whole good ((first >>= next) reader) := by
  apply Ends.bind
  apply Ends.imp starts
  · rintro value middle (fine | ⟨unclear, strays⟩)
    · exact follows value middle fine
    · apply (logs value middle).imp
      · intro _ after later
        exact Or.inr ⟨unclear, strays.later later⟩
      · intro _ _ _
        exact unclear
  · intro _ _ unclear
    exact unclear

theorem Outcome.imp {result : EStateM.Result UnpackError Reader β} {lax : β -> Reader -> Prop}
    (outcome : Outcome whole good result) (weaker : forall value after, good value after ->
      lax value after) : Outcome whole lax result := by
  apply Ends.imp outcome
  · intro value after ends
    exact ends.imp_left (weaker value after)
  · intro _ _ unclear
    exact unclear

end Rules

/-! ## Following the walk -/

/-- The decoder has read the tokens of the walk. -/
structure Tracks (whole walk : Walk) (reader : Reader) : Prop where
  precedes : walk.Precedes whole
  upcoming : forall rest, whole.tokens = walk.tokens ++ rest ->
    Upcoming reader (encodeWith (markedIn whole.tokens) rest)
  objectid : reader.objectid = walk.opened.length
  tables : reader.tables.length = walk.opened.length
  marks : forall place, place < walk.opened.length -> markedIn whole.tokens (place + 1) = true ->
    (reader.refs.getD []).lookup ((place + 1 : Nat) : Int) = some place
  clear : Clear walk.tokens
  ancestors : reader.ancestors = whole.expected walk.tokens

/-- The stream fits an `int`, and so do the numbers of the tables. -/
structure Walk.Short (whole : Walk) : Prop where
  bytes : totalSize whole.tokens < 2 ^ 31
  tables : whole.opened.length < 2 ^ 31

theorem Walk.Precedes.rest {walk whole : Walk} {token : Token}
    (precedes : (Walk.mk (walk.tokens ++ [token]) walk.opened).Precedes whole) :
    Exists fun rest => whole.tokens = walk.tokens ++ token :: rest := by
  obtain ⟨rest, tokens⟩ := precedes.tokens
  refine ⟨rest, ?_⟩
  rw [← tokens, List.append_assoc]
  rfl

/-- The bytes of the token are next. -/
theorem Tracks.next {whole walk : Walk} {reader : Reader} {token : Token} {rest : List Token}
    (tracks : Tracks whole walk reader) (tokens : whole.tokens = walk.tokens ++ token :: rest) :
    Upcoming reader (token.bytes (markedIn whole.tokens) ++
      encodeWith (markedIn whole.tokens) rest) := by
  have upcoming := tracks.upcoming _ tokens
  rw [encodeWith_cons] at upcoming
  exact upcoming

theorem Clear.append {tokens : List Token} {token : Token} (clear : Clear tokens)
    (added : forall level ref flag, token = .ancestor level ref flag -> flag = true) :
    Clear (tokens ++ [token]) := by
  intro level ref flag member
  rcases List.mem_append.mp member with before | last
  · exact clear level ref flag before
  · exact added level ref flag (List.mem_singleton.mp last).symm

/-- Nothing of the stream is read, and there are as many tables. -/
theorem Tracks.still {whole walk : Walk} {before after : Reader} (tracks : Tracks whole walk before)
    (upcoming : forall bytes, Upcoming before bytes -> Upcoming after bytes)
    (objectid : after.objectid = before.objectid)
    (tables : after.tables.length = before.tables.length) (refs : after.refs = before.refs)
    (ancestors : after.ancestors = before.ancestors) : Tracks whole walk after where
  precedes := tracks.precedes
  upcoming := fun rest tokens => upcoming _ (tracks.upcoming rest tokens)
  objectid := objectid.trans tracks.objectid
  tables := tables.trans tracks.tables
  marks := by
    rw [refs]
    exact tracks.marks
  clear := tracks.clear
  ancestors := ancestors.trans tracks.ancestors

/-- One more token is read, and the tables are as they were. -/
theorem Tracks.token {whole walk : Walk} {before after : Reader} {token : Token} {rest : List Token}
    (tracks : Tracks whole walk before) (tokens : whole.tokens = walk.tokens ++ token :: rest)
    (upcoming : Upcoming after (encodeWith (markedIn whole.tokens) rest))
    (objectid : after.objectid = before.objectid) (tables : after.tables = before.tables)
    (refs : after.refs = before.refs)
    (added : forall level ref flag, token = .ancestor level ref flag -> flag = true)
    (noted : after.ancestors = before.ancestors ++ whole.expected [token]) :
    Tracks whole ⟨walk.tokens ++ [token], walk.opened⟩ after where
  precedes := ⟨⟨rest, by rw [tokens, List.append_assoc]; rfl⟩, tracks.precedes.opened⟩
  upcoming := by
    intro other same
    rw [tokens, List.append_assoc] at same
    obtain rfl : rest = other := (List.cons.inj (List.append_cancel_left same)).2
    exact upcoming
  objectid := objectid.trans tracks.objectid
  tables := by rw [tables, tracks.tables]
  marks := by
    rw [refs]
    exact tracks.marks
  clear := tracks.clear.append added
  ancestors := by
    rw [noted, tracks.ancestors]
    unfold Walk.expected
    rw [List.filterMap_append, List.map_append]

/-- The same for a token that is no reference to an ancestor. -/
theorem Tracks.advance {whole walk : Walk} {before after : Reader} {token : Token} {rest : List Token}
    (tracks : Tracks whole walk before) (tokens : whole.tokens = walk.tokens ++ token :: rest)
    (upcoming : Upcoming after (encodeWith (markedIn whole.tokens) rest))
    (advances : Advances before after) (plain : token.noted? = none) :
    Tracks whole ⟨walk.tokens ++ [token], walk.opened⟩ after := by
  apply tracks.token tokens upcoming advances.objectid advances.tables advances.refs
  · rintro level ref flag rfl
    cases plain
  · have nothing : whole.expected [token] = [] := by
      unfold Walk.expected
      rw [List.filterMap_cons, plain]
      rfl
    rw [nothing, List.append_nil]
    exact advances.ancestors

/-- What a part of the decoder leaves as it was: the open tables, where they
are, and the tables that were made before. -/
structure Leaves (before after : Reader) : Prop where
  depth : after.depth = before.depth
  ancestor : forall level, level < before.depth -> after.ancestor level = before.ancestor level
  tables : forall place, place < before.tables.length -> after.tables[place]? = before.tables[place]?

theorem Advances.leaves {before after : Reader} (advances : Advances before after) :
    Leaves before after where
  depth := advances.depth
  ancestor := fun level _ => congrFun advances.ancestor level
  tables := fun place _ => by rw [advances.tables]

/-- If the value is a table, it was not met yet. -/
def Unmet (walk : Walk) (value : Value) : Prop :=
  Exists fun ref => value.ref? = some ref ∧ ref ∉ walk.opened

theorem unmet_eq_ok {key : Value} {walk after : Walk} {fresh : Bool}
    (outcome : unmet key walk = .ok fresh after) :
    after = walk ∧ (fresh = true ↔ Unmet walk key) := by
  cases outcome
  exact ⟨rfl, decide_eq_true_iff⟩

/-- A value has been read. -/
structure Decoded (whole : Walk) (heap : List Content) (frames : List Frame) (stack : List Value)
    (value : Value) (walk after : Walk) (before : Reader) (result : Value) (later : Reader) :
    Prop where
  same : result = value.rename whole.name
  tracks : Tracks whole after later
  leaves : Leaves before later
  made : forall ref, ref ∈ after.opened -> ref ∉ walk.opened ->
    later.tables[whole.name ref]? = some (rebuilt whole.name (heap.getD ref (.plain [] [])))
  met : Met after value
  clear : forall ref level, value.ref? = some ref -> levelOf frames ref = some level ->
    clearAt frames level = true
  known : ¬ Unmet walk value -> later.ancestor = before.ancestor
  fresh : Unmet walk value -> before.depth < maxDepth -> stack.length ≤ later.ancestor before.depth

/-- A value that takes one token, and no table is made. -/
theorem Decoded.of_token {whole walk : Walk} {heap : List Content} {frames : List Frame}
    {stack : List Value} {value result : Value} {token : Token} {before later : Reader}
    (same : result = value.rename whole.name)
    (tracks : Tracks whole ⟨walk.tokens ++ [token], walk.opened⟩ later)
    (leaves : Leaves before later) (ancestor : later.ancestor = before.ancestor)
    (met : ¬ Unmet walk value)
    (clear : forall ref level, value.ref? = some ref -> levelOf frames ref = some level ->
      clearAt frames level = true) :
    Decoded whole heap frames stack value walk ⟨walk.tokens ++ [token], walk.opened⟩ before result
      later where
  same := same
  tracks := tracks
  leaves := leaves
  made := fun _ member absent => absurd member absent
  met := fun ref named => not_not.mp fun absent => met ⟨ref, named, absent⟩
  clear := clear
  known := fun _ => ancestor
  fresh := fun unmet => absurd unmet met

/-! ## Tags -/

/-- The tag is read, and the rest of `push_value` is to come. -/
theorem unpackOne_tag {reader : Reader} {rounds type cookie : Nat} {stack : List Value}
    {bytes rest : List UInt8} (typed : type < 8) (short : cookie < maxCookie)
    (upcoming : Upcoming reader ((combineType type cookie :: bytes) ++ rest)) :
    Exists fun middle => Upcoming middle (bytes ++ rest) ∧ Advances reader middle ∧
      forall body : Decoder Value,
        pushValue granting (unpackOne granting rounds) rounds stack type cookie =
          (enterValue type cookie >>= fun _ => body) ->
        unpackOne granting (rounds + 1) stack reader = body middle := by
  have tag : ReadsOff [combineType type cookie] (readWord 1 768) (type + 8 * cookie) :=
    readTag_readsOff typed short
  rcases tag reader (bytes ++ rest) upcoming with ⟨between, read, left, moved⟩
  rcases enterValue_readsOff type cookie between (bytes ++ rest) left with
    ⟨middle, entered, later, further⟩
  refine ⟨middle, later, moved.trans further, ?_⟩
  intro body shape
  have kind : (type + 8 * cookie) % 8 = type := by omega
  have quotient : (type + 8 * cookie) / 8 = cookie := by omega
  unfold unpackOne
  rw [bind_of_ok read, kind, quotient, shape, bind_of_ok entered]

theorem Tagged.unpackOne {bytes : List UInt8} {rounds : Nat} {stack : List Value} {value : Value}
    (tagged : Tagged bytes (unpackOne granting rounds) rounds stack value) :
    ReadsOff bytes (unpackOne granting (rounds + 1) stack) value := by
  rcases tagged with ⟨type, cookie, payload, typed, short, rfl, reads⟩
  have tag : ReadsOff [combineType type cookie] (readWord 1 768) (type + 8 * cookie) :=
    readTag_readsOff typed short
  have kind : (type + 8 * cookie) % 8 = type := by omega
  have rest : (type + 8 * cookie) / 8 = cookie := by omega
  apply tag.bind
  rw [kind, rest]
  exact reads

/-! ## Single tokens -/

/-- What the encoder finds at a level is an open table. -/
theorem levelOf_frame {frames : List Frame} {ref : Ref} {level : Nat}
    (located : levelOf frames ref = some level) :
    frames.length < maxDepth ∧ Exists fun frame => frames[level]? = some frame ∧ frame.ref = ref := by
  unfold levelOf at located
  split at located
  · cases located
  · rename_i few
    obtain ⟨inside, same, _⟩ := List.idxOf?_eq_some_iff.mp located
    have found := List.getElem?_eq_getElem inside
    rw [same, List.getElem?_map, Option.map_eq_some_iff] at found
    exact ⟨by omega, found⟩

section Tokens

variable {whole walk : Walk} {heap : List Content} {frames : List Frame} {stack : List Value}
  {reader : Reader} {rounds : Nat}

/-- A token of the walk is no longer than the stream. -/
theorem Walk.Short.token {tokens rest : List Token} {token : Token} (short : whole.Short)
    (split : whole.tokens = tokens ++ token :: rest) : token.size < 2 ^ 31 := by
  apply Nat.lt_of_le_of_lt _ short.bytes
  rw [split, totalSize_append]
  change token.size ≤ totalSize tokens + (token.size + totalSize rest)
  omega

theorem scalar_outcome {value : Value} (short : whole.Short) (tracks : Tracks whole walk reader)
    (plain : value.ref? = none) (supported : value.Supported)
    (within : (Walk.mk (walk.tokens ++ [.scalar value]) walk.opened).Precedes whole) :
    Outcome whole (Decoded whole heap frames stack value walk
      ⟨walk.tokens ++ [.scalar value], walk.opened⟩ reader)
      (unpackOne granting (rounds + 1) stack reader) := by
  obtain ⟨rest, tokens⟩ := within.rest
  have reads : ReadsOff (scalarBytes value) (unpackOne granting (rounds + 1) stack) value :=
    (scalar_tagged plain supported (short.token tokens)).unpackOne
  rcases reads reader _ (tracks.next tokens) with ⟨after, read, left, advances⟩
  apply Outcome.of_ok read
  apply Decoded.of_token (Value.rename_of_ref? plain).symm
    (tracks.advance tokens left advances rfl) advances.leaves advances.ancestor
  · rintro ⟨ref, named, _⟩
    rw [plain] at named
    cases named
  · intro ref level named
    rw [plain] at named
    cases named

/-- A reference to a table that was opened. -/
theorem shared_outcome {ref : Ref} {place : Nat} (short : whole.Short)
    (tracks : Tracks whole walk reader) (numbered : walk.opened.idxOf? ref = some place)
    (outside : levelOf frames ref = none)
    (within : (Walk.mk (walk.tokens ++ [.shared (place + 1)]) walk.opened).Precedes whole) :
    Outcome whole (Decoded whole heap frames stack (.table ref) walk
      ⟨walk.tokens ++ [.shared (place + 1)], walk.opened⟩ reader)
      (unpackOne granting (rounds + 1) stack reader) := by
  obtain ⟨rest, tokens⟩ := within.rest
  obtain ⟨inside, found, _⟩ := List.idxOf?_eq_some_iff.mp numbered
  have known := idxOf?_mem numbered
  have few : place + 1 < 2 ^ 31 := by
    have most := tracks.precedes.opened.length_le
    have bound := short.tables
    omega
  have next : Upcoming reader ((combineType typeRef extendNumber :: integerBytes (place + 1 : Nat)) ++
      encodeWith (markedIn whole.tokens) rest) := tracks.next tokens
  rcases @unpackOne_tag reader rounds typeRef extendNumber stack _ _ (by decide) (by decide) next with
    ⟨middle, left, moved, enters⟩
  rcases getExtendInteger_readsOff few middle _ left with ⟨after, read, later, further⟩
  have advances := moved.trans further
  have marked : markedIn whole.tokens (place + 1) = true := by
    apply decide_eq_true
    rw [tokens]
    exact List.mem_append_right _ List.mem_cons_self
  have looked : lookupObject ((place + 1 : Nat) : Int) after = .ok (.table place) after := by
    unfold lookupObject
    rw [advances.refs, tracks.marks place inside marked]
  have wholeRead : unpackOne granting (rounds + 1) stack reader = .ok (.table place) after := by
    rw [enters (getExtendInteger >>= lookupObject) rfl, bind_of_ok read, looked]
  have name : whole.name ref = place := by
    obtain ⟨more, opened⟩ := tracks.precedes.opened
    unfold Walk.name
    rw [← opened, List.idxOf_append_of_mem known]
    rw [List.idxOf_eq_getD_idxOf?, numbered]
    rfl
  apply Outcome.of_ok wholeRead
  apply Decoded.of_token _ (tracks.advance tokens later advances rfl) advances.leaves advances.ancestor
  · rintro ⟨other, named, absent⟩
    cases named
    exact absent known
  · intro other level named located
    cases named
    rw [outside] at located
    cases located
  · rw [Value.rename, name]

/-- The ancestor at a level below the depth is whatever lies at its position. -/
theorem pushAncestor_ok {level : Nat} (below : level < reader.depth) :
    Exists fun after =>
      pushAncestor stack level reader = .ok (stack.getD (reader.ancestor level) .nil) after ∧
        (forall bytes, Upcoming reader bytes -> Upcoming after bytes) ∧
        after.depth = reader.depth ∧ after.objectid = reader.objectid ∧
        after.ancestor = reader.ancestor ∧ after.refs = reader.refs ∧ after.tables = reader.tables ∧
        after.ancestors = reader.ancestors ++ [(level, stack.getD (reader.ancestor level) .nil)] := by
  unfold pushAncestor
  rw [if_neg (Nat.not_le_of_lt below)]
  refine ⟨_, rfl, ?_, rfl, rfl, rfl, rfl, rfl, ?_⟩
  · exact fun _ upcoming => ⟨upcoming.started, upcoming.len, upcoming.bytes⟩
  · exact @Reader.ancestors_noted reader _ (.ancestor level reader.depth _) rfl

/-- A reference for which another value is found leads astray. -/
theorem Tracks.strays {ref : Ref} {level : Nat} {flag : Bool} {rest : List Token} {value : Value}
    {after : Reader} (tracks : Tracks whole walk reader)
    (tokens : whole.tokens = walk.tokens ++ .ancestor level ref flag :: rest)
    (noted : after.ancestors = reader.ancestors ++ [(level, value)])
    (other : value ≠ .table (whole.name ref)) : Strays whole after := by
  intro still
  have split : whole.expected whole.tokens = reader.ancestors ++
      (level, .table (whole.name ref)) :: whole.expected rest := by
    rw [tokens, tracks.ancestors]
    unfold Walk.expected
    rw [List.filterMap_append, List.map_append]
    rfl
  rw [split, noted] at still
  have first := (List.prefix_append_right_inj _).mp still
  exact other (Prod.mk.inj (List.cons_prefix_cons.mp first).1).2

/-- A reference to an open table. -/
theorem ancestor_outcome {ref : Ref} {level : Nat} (tracks : Tracks whole walk reader)
    (around : Around whole frames stack reader) (located : levelOf frames ref = some level)
    (known : ref ∈ walk.opened)
    (within : (Walk.mk (walk.tokens ++ [.ancestor level ref (clearAt frames level)])
      walk.opened).Precedes whole) :
    Outcome whole (Decoded whole heap frames stack (.table ref) walk
      ⟨walk.tokens ++ [.ancestor level ref (clearAt frames level)], walk.opened⟩ reader)
      (unpackOne granting (rounds + 1) stack reader) := by
  obtain ⟨rest, tokens⟩ := within.rest
  obtain ⟨few, frame, standing, rfl⟩ := levelOf_frame located
  have inside := (List.getElem?_eq_some_iff.mp standing).1
  have cookie : level < extendNumber := by
    unfold maxDepth at few
    unfold extendNumber maxCookie
    omega
  have unclear (flag : clearAt frames level = false) : ¬ Clear whole.tokens := by
    intro clear
    have met := clear level frame.ref (clearAt frames level)
      (by rw [tokens]; exact List.mem_append_right _ List.mem_cons_self)
    rw [flag] at met
    cases met
  have next : Upcoming reader ((combineType typeRef level :: []) ++
      encodeWith (markedIn whole.tokens) rest) := tracks.next tokens
  rcases @unpackOne_tag reader rounds typeRef level stack _ _ (by decide)
    (Nat.lt_trans cookie (by decide)) next with ⟨middle, left, moved, enters⟩
  have place : middle.ancestor level = reader.ancestor level := congrFun moved.ancestor level
  rw [enters (unpackRef stack level) rfl, unpackRef, if_neg (Nat.ne_of_lt cookie)]
  by_cases lost : middle.depth ≤ level
  · rw [pushAncestor, if_pos lost]
    apply unclear
    cases flag : clearAt frames level with
    | false => rfl
    | true =>
        have below := lt_depthOf_of_clear inside flag
        rw [← around.depth, ← moved.depth] at below
        omega
  rcases @pushAncestor_ok stack middle level (Nat.lt_of_not_le lost) with
    ⟨after, pushed, later, depth, objectid, ancestor, refs, tables, noted⟩
  rw [moved.ancestors, place] at noted
  rw [moved.depth] at lost
  rw [pushed, place]
  cases flag : clearAt frames level with
  | true =>
      have value : stack.getD (reader.ancestor level) .nil = .table (whole.name frame.ref) := by
        rw [List.getD_eq_getElem?_getD, around.found few level frame standing flag]
        rfl
      rw [← flag]
      refine Or.inl (Decoded.of_token value (tracks.token tokens (later _ left)
        (objectid.trans moved.objectid) (tables.trans moved.tables) (refs.trans moved.refs) ?_ ?_)
        ⟨depth.trans moved.depth, fun _ _ => congrFun (ancestor.trans moved.ancestor) _,
          fun other _ => congrArg (·[other]?) (tables.trans moved.tables)⟩
        (ancestor.trans moved.ancestor) ?_ ?_)
      · intro other table kind same
        cases same
        exact flag
      · rw [noted, value]
        rfl
      · rintro ⟨other, named, absent⟩
        cases named
        exact absent known
      · intro other place named found
        cases named
        rw [located] at found
        cases found
        exact flag
  | false =>
      refine Or.inr ⟨unclear flag, tracks.strays tokens noted ?_⟩
      intro same
      apply around.lost few level frame standing flag (Nat.lt_of_not_le lost)
      rw [List.getD_eq_getElem?_getD] at same
      cases found : stack[reader.ancestor level]? with
      | none =>
          rw [found] at same
          cases same
      | some value =>
          rw [found] at same
          exact congrArg some same

end Tokens

/-! ## Tables -/

/-- `unpack_table` from the first item on. -/
def fillTable (rounds : Nat) (stack : List Value) (table : Ref) (size : Int) : Decoder Value := do
  unpackItems granting (unpackOne granting rounds) stack table size.toNat 1
  surface
  unpackEntries granting (unpackOne granting rounds) stack table rounds
  pure (.table table)

/-- `unpack_table` once the size of the array part is read. -/
def unpackContent (rounds : Nat) (stack : List Value) (type : Nat) (size : Int) : Decoder Value := do
  let id ← nextObject
  request granting
  let table ← createTable granting
  markObject granting type id table
  setAncestor stack.length
  deepen
  fillTable rounds stack table size

/-- A table has been made and is open. -/
structure Entered (stack : List Value) (marked : Bool) (before after : Reader) : Prop where
  depth : after.depth = before.depth + 1
  objectid : after.objectid = before.objectid + 1
  ancestor : forall level, level < before.depth -> after.ancestor level = before.ancestor level
  own : before.depth < maxDepth -> after.ancestor before.depth = stack.length
  tables : after.tables = before.tables ++ [[]]
  refs : after.refs = if marked then
      some ((((before.objectid + 1 : Nat) : Int), before.tables.length) :: before.refs.getD [])
    else before.refs
  ancestors : after.ancestors = before.ancestors
  upcoming : forall bytes, Upcoming before bytes -> Upcoming after bytes

theorem setAncestor_ok (position : Nat) (reader : Reader) :
    setAncestor position reader = .ok () { reader with
      ancestor := fun level => if reader.depth < maxDepth ∧ level = reader.depth then position
        else reader.ancestor level } := by
  unfold setAncestor
  by_cases room : reader.depth < maxDepth
  · rw [if_pos room]
    simp only [room, true_and]
  · rw [if_neg room]
    simp only [room, false_and, if_false]

theorem unpackContent_enters (rounds : Nat) (stack : List Value) (marked : Bool) (size : Int)
    (reader : Reader) : Exists fun after =>
      unpackContent rounds stack (if marked then typeTableMark else typeTable) size reader =
        fillTable rounds stack reader.tables.length size after ∧
      Entered stack marked reader after := by
  unfold unpackContent
  rw [bind_of_ok (by rfl : nextObject reader = _), bind_of_ok (by rfl : request granting _ = _),
    bind_of_ok (by rfl : createTable granting _ = _)]
  cases marked with
  | true =>
      rw [if_pos rfl, bind_of_ok (by rfl : markObject granting typeTableMark _ _ _ = _),
        bind_of_ok (setAncestor_ok _ _), bind_of_ok (by rfl : deepen _ = _)]
      refine ⟨_, rfl, ⟨rfl, rfl, ?_, ?_, rfl, rfl, rfl, ?_⟩⟩
      · intro level below
        exact if_neg fun own => absurd own.2 (Nat.ne_of_lt below)
      · intro room
        exact if_pos ⟨room, rfl⟩
      · exact fun _ upcoming => ⟨upcoming.started, upcoming.len, upcoming.bytes⟩
  | false =>
      rw [if_neg Bool.false_ne_true, bind_of_ok (by rfl : markObject granting typeTable _ _ _ = _),
        bind_of_ok (setAncestor_ok _ _), bind_of_ok (by rfl : deepen _ = _)]
      refine ⟨_, rfl, ⟨rfl, rfl, ?_, ?_, rfl, rfl, rfl, ?_⟩⟩
      · intro level below
        exact if_neg fun own => absurd own.2 (Nat.ne_of_lt below)
      · intro room
        exact if_pos ⟨room, rfl⟩
      · exact fun _ upcoming => ⟨upcoming.started, upcoming.len, upcoming.bytes⟩

/-- An open table holds these pairs so far, and all tables that were opened
since, by `start` and `base`, are complete. -/
structure Filling (whole : Walk) (heap : List Content) (ref : Ref) (start : Walk) (base : Reader)
    (walk : Walk) (reader : Reader) (pairs : List (Value × Value)) : Prop where
  tracks : Tracks whole walk reader
  ancestor : forall level, level < base.depth -> reader.ancestor level = base.ancestor level
  tables : forall place, place < base.tables.length -> reader.tables[place]? = base.tables[place]?
  table : reader.tables[whole.name ref]? = some (pairs.map (renamePair whole.name))
  made : forall other, other ∈ walk.opened -> other ∉ start.opened -> other ≠ ref ->
    reader.tables[whole.name other]? = some (rebuilt whole.name (heap.getD other (.plain [] [])))

section Filling

variable {whole start walk : Walk} {heap : List Content} {ref : Ref} {base reader : Reader}
  {pairs : List (Value × Value)}

/-- Going up and down the tables changes nothing else. -/
theorem Filling.relevel (filling : Filling whole heap ref start base walk reader pairs)
    (depth : Nat) : Filling whole heap ref start base walk { reader with depth } pairs where
  tracks := filling.tracks.still
    (fun _ upcoming => ⟨upcoming.started, upcoming.len, upcoming.bytes⟩) rfl rfl rfl rfl
  ancestor := filling.ancestor
  tables := filling.tables
  table := filling.table
  made := filling.made

/-- A value inside the table has been read. -/
theorem Filling.decoded {frames : List Frame} {stack : List Value} {value result : Value}
    {after : Walk} {later : Reader} (filling : Filling whole heap ref start base walk reader pairs)
    (place : whole.name ref = base.tables.length) (deep : base.depth ≤ reader.depth)
    (decoded : Decoded whole heap frames stack value walk after reader result later) :
    Filling whole heap ref start base after later pairs where
  tracks := decoded.tracks
  ancestor := by
    intro level below
    rw [decoded.leaves.ancestor level (by omega)]
    exact filling.ancestor level below
  tables := by
    intro other below
    have inside := (List.getElem?_eq_some_iff.mp filling.table).1
    rw [place] at inside
    rw [decoded.leaves.tables other (by omega)]
    exact filling.tables other below
  table := by
    have inside := (List.getElem?_eq_some_iff.mp filling.table).1
    rw [decoded.leaves.tables _ inside]
    exact filling.table
  made := by
    intro other member late different
    by_cases before : other ∈ walk.opened
    · have complete := filling.made other before late different
      rw [decoded.leaves.tables _ (List.getElem?_eq_some_iff.mp complete).1]
      exact complete
    · exact decoded.made other member before

/-- A token has been read that stands for no value. -/
theorem Filling.token {token : Token} {rest : List Token} {later : Reader}
    (filling : Filling whole heap ref start base walk reader pairs)
    (tokens : whole.tokens = walk.tokens ++ token :: rest)
    (upcoming : Upcoming later (encodeWith (markedIn whole.tokens) rest))
    (advances : Advances reader later) (plain : token.noted? = none) :
    Filling whole heap ref start base ⟨walk.tokens ++ [token], walk.opened⟩ later pairs where
  tracks := filling.tracks.advance tokens upcoming advances plain
  ancestor := by
    rw [advances.ancestor]
    exact filling.ancestor
  tables := by
    rw [advances.tables]
    exact filling.tables
  table := by
    rw [advances.tables]
    exact filling.table
  made := by
    rw [advances.tables]
    exact filling.made

/-- A pair is stored under a key that is not there. -/
theorem Filling.stored {key value : Value}
    (filling : Filling whole heap ref start base walk reader pairs)
    (place : whole.name ref = base.tables.length) (opened : ref ∈ whole.opened) (keyed : key.IsKey)
    (fresh : forall pair, pair ∈ pairs ->
      (pair.1.rename whole.name).rawEqual (key.rename whole.name) = false) :
    Exists fun later =>
      storePair granting (whole.name ref) (key.rename whole.name) (value.rename whole.name) reader =
        .ok () later ∧
      Filling whole heap ref start base walk later
        (if value = .nil then pairs else pairs ++ [(key, value)]) ∧
      later.depth = reader.depth ∧ later.ancestor = reader.ancestor := by
  have renamed : (key.rename whole.name).IsKey := rename_isKey keyed
  have absent : forall pair, pair ∈ pairs.map (renamePair whole.name) ->
      pair.1.rawEqual (key.rename whole.name) = false := by
    intro pair member
    rcases List.mem_map.mp member with ⟨original, inside, rfl⟩
    exact fresh original inside
  have length : (reader.tables.modify (whole.name ref) fun pairs =>
      rawset pairs (key.rename whole.name) (value.rename whole.name)).length =
        reader.tables.length := List.length_modify _ _ _
  have outcome : storePair granting (whole.name ref) (key.rename whole.name)
      (value.rename whole.name) reader = .ok () { reader with
        requests := reader.requests + 1
        tables := reader.tables.modify (whole.name ref) fun pairs =>
          rawset pairs (key.rename whole.name) (value.rename whole.name) } := by
    unfold storePair
    rw [if_neg (not_not.mpr renamed)]
    rfl
  refine ⟨_, outcome, ?_, rfl, rfl⟩
  constructor
  · exact filling.tracks.still
      (fun _ upcoming => ⟨upcoming.started, upcoming.len, upcoming.bytes⟩) rfl length rfl rfl
  · exact filling.ancestor
  · intro other below
    rw [← filling.tables other below]
    exact List.getElem?_modify_ne _ _ (by rw [place]; exact Nat.ne_of_gt below)
  · change (reader.tables.modify (whole.name ref) _)[whole.name ref]? = _
    rw [List.getElem?_modify_eq, filling.table, Option.map_eq_map, Option.map_some,
      rawset_fresh absent]
    by_cases nothing : value = .nil
    · rw [if_pos nothing, if_pos (Value.rename_eq_nil.mpr nothing)]
    · rw [if_neg nothing, if_neg fun empty => nothing (Value.rename_eq_nil.mp empty),
        List.map_append]
      rfl
  · intro other member late different
    have apart : whole.name ref ≠ whole.name other :=
      fun same => different (whole.name_inj opened same).symm
    rw [← filling.made other member late different]
    exact List.getElem?_modify_ne _ _ apart

end Filling

/-! ## The parts of a table -/

/-- With enough rounds the decoder follows the walk over one value. -/
def FollowsOne (whole : Walk) (heap : List Content) (one : List Frame -> Value -> Walker Unit)
    (rounds : Nat) : Prop :=
  forall (frames : List Frame) (stack : List Value) (value : Value) (walk after : Walk)
    (reader : Reader), one frames value walk = .ok () after -> after.Precedes whole ->
    totalSize whole.tokens < totalSize walk.tokens + rounds ->
    (forall frame, frame ∈ frames -> frame.ref ∈ walk.opened) -> Tracks whole walk reader ->
    Around whole frames stack reader ->
    Outcome whole (Decoded whole heap frames stack value walk after reader)
      (unpackOne granting rounds stack reader)

theorem numbered_append (start : Nat) (items : List Value) (item : Value) :
    numbered start (items ++ [item]) = numbered start items ++
      (if item = .nil then [] else [(.number (.ofNat (start + items.length)), item)]) := by
  induction items generalizing start with
  | nil =>
      rw [List.nil_append, numbered, numbered, List.nil_append]
      split <;> rfl
  | cons first items inductionHypothesis =>
      have shift : start + 1 + items.length = start + (items.length + 1) := by omega
      rw [List.cons_append, numbered, numbered, inductionHypothesis, List.length_cons, shift]
      split <;> rfl

section Parts

variable {whole start : Walk} {heap : List Content} {one : List Frame -> Value -> Walker Unit}
  {rounds : Nat} {frames : List Frame} {stack : List Value} {ref : Ref} {base : Reader}

/-- The open table around the values. -/
structure Within (whole start : Walk) (frames : List Frame) (stack : List Value) (ref : Ref)
    (base : Reader) : Prop where
  around : Around whole frames stack base
  opened : ref ∈ whole.opened
  fresh : ref ∉ frames.map Frame.ref
  place : whole.name ref = base.tables.length
  known : forall frame, frame ∈ frames -> frame.ref ∈ start.opened

/-- The table itself differs from the tables around it. -/
theorem Within.apart (within : Within whole start frames stack ref base) {level : Nat}
    {outer : Frame} (found : frames[level]? = some outer) :
    Value.table (whole.name ref) ≠ .table (whole.name outer.ref) := by
  intro same
  have equal := whole.name_inj within.opened (Value.table.inj same)
  exact within.fresh (equal ▸ List.mem_map_of_mem (List.mem_of_getElem? found))

/-- What the slot of an open table holds: the place of the table itself, until a
table has been read as a key. -/
def Slot (stack : List Value) (base reader : Reader) (dirty : Bool) : Prop :=
  base.depth < maxDepth -> (dirty = false -> reader.ancestor base.depth = stack.length) ∧
    (dirty = true -> stack.length < reader.ancestor base.depth)

/-- A table that is read as a key takes the slot. -/
theorem Slot.keyed {reader later : Reader} {dirty fresh : Bool} {other : List Frame}
    {table key result : Value} {walk after : Walk} (slot : Slot stack base reader dirty)
    (depth : reader.depth = base.depth) (unmet : fresh = true ↔ Unmet walk key)
    (decoded : Decoded whole heap other (stack ++ [table]) key walk after reader result later) :
    Slot stack base later (dirty || fresh) := by
  intro room
  cases fresh with
  | true =>
      have taken := decoded.fresh (unmet.mp rfl) (by omega)
      rw [List.length_append, List.length_singleton, depth] at taken
      rw [Bool.or_true]
      exact ⟨Bool.noConfusion, fun _ => taken⟩
  | false =>
      have known : ¬ Unmet walk key := fun met => Bool.false_ne_true (unmet.mpr met)
      rw [decoded.known known, Bool.or_false]
      exact slot room

/-- Around the values of the array part. -/
theorem Within.inItems (within : Within whole start frames stack ref base) {reader : Reader}
    (depth : reader.depth = base.depth + 1)
    (kept : forall level, level < base.depth -> reader.ancestor level = base.ancestor level)
    (slot : Slot stack base reader false) :
    Around whole (frames ++ [⟨ref, false, false⟩]) (stack ++ [.table (whole.name ref)]) reader := by
  apply within.around.inside within.opened within.fresh depth kept
  · intro _ value member level outer found _
    rw [List.mem_singleton.mp member]
    exact within.apart found
  · intro _ _ room
    rw [(slot room).1 rfl, List.getElem?_concat_length]
  · intro _ _ impossible
    cases impossible

/-- Around a key. -/
theorem Within.onKey (within : Within whole start frames stack ref base) {reader : Reader}
    (depth : reader.depth = base.depth)
    (kept : forall level, level < base.depth -> reader.ancestor level = base.ancestor level)
    (dirty : Bool) :
    Around whole (frames ++ [⟨ref, true, dirty⟩]) (stack ++ [.table (whole.name ref)]) reader := by
  apply within.around.inside within.opened within.fresh depth kept
  · intro _ value member level outer found _
    rw [List.mem_singleton.mp member]
    exact within.apart found
  · intro impossible
    cases impossible
  · intro _ impossible
    cases impossible

theorem rename_eq_table {naming : Ref -> Ref} {value : Value} {table : Ref}
    (same : value.rename naming = .table table) :
    Exists fun ref => value.ref? = some ref ∧ naming ref = table := by
  cases value with
  | table ref => exact ⟨ref, rfl, Value.table.inj same⟩
  | nil | boolean | number | string | lightuserdata | cfunction | closure | other => cases same

/-- A key whose references are clear is none of the tables that are lost. -/
theorem Within.key_apart (within : Within whole start frames stack ref base) {key : Value}
    {dirty : Bool} (few : frames.length + 1 < maxDepth)
    (clear : forall other level, key.ref? = some other ->
      levelOf (frames ++ [⟨ref, true, dirty⟩]) other = some level ->
        clearAt (frames ++ [⟨ref, true, dirty⟩]) level = true) {level : Nat} {outer : Frame}
    (found : (frames ++ [⟨ref, true, dirty⟩])[level]? = some outer)
    (unclear : clearAt (frames ++ [⟨ref, true, dirty⟩]) level = false) :
    key.rename whole.name ≠ .table (whole.name outer.ref) := by
  intro same
  rcases rename_eq_table same with ⟨other, named, equal⟩
  have length : (frames ++ [Frame.mk ref true dirty]).length = frames.length + 1 := List.length_append
  have distinct : ((frames ++ [Frame.mk ref true dirty]).map Frame.ref).Nodup := by
    rw [List.map_append]
    refine List.nodup_append.mpr ⟨within.around.distinct, List.nodup_singleton _, ?_⟩
    rintro one member other last rfl
    have same : one = ref := List.mem_singleton.mp last
    exact within.fresh (same ▸ member)
  have opened : outer.ref ∈ whole.opened := by
    rcases List.mem_append.mp (List.mem_of_getElem? found) with before | last
    · exact within.around.opened outer before
    · rw [List.mem_singleton.mp last]
      exact within.opened
  obtain rfl : outer.ref = other := whole.name_inj opened equal.symm
  have located := levelOf_eq_some distinct (by rw [length]; exact few) found
  rw [clear outer.ref level named located] at unclear
  cases unclear

/-- Around the value of a pair. -/
theorem Within.onValue (within : Within whole start frames stack ref base) {reader : Reader}
    {key : Value} {dirty flag : Bool} (depth : reader.depth = base.depth + 1)
    (kept : forall level, level < base.depth -> reader.ancestor level = base.ancestor level)
    (clear : forall other level, key.ref? = some other ->
      levelOf (frames ++ [⟨ref, true, dirty⟩]) other = some level ->
        clearAt (frames ++ [⟨ref, true, dirty⟩]) level = true)
    (slot : Slot stack base reader flag) :
    Around whole (frames ++ [⟨ref, false, flag⟩])
      (stack ++ [.table (whole.name ref), key.rename whole.name]) reader := by
  have lost (few : frames.length + 1 < maxDepth) {level : Nat} {outer : Frame}
      (found : frames[level]? = some outer) (unclear : clearAt frames level = false) :
      key.rename whole.name ≠ .table (whole.name outer.ref) := by
    have inside := (List.getElem?_eq_some_iff.mp found).1
    apply within.key_apart few clear
    · rw [List.getElem?_append_left inside]
      exact found
    · rw [clearAt_append inside]
      exact unclear
  have itself (few : frames.length + 1 < maxDepth) :
      key.rename whole.name ≠ .table (whole.name ref) := by
    apply within.key_apart few clear List.getElem?_concat_length
    rw [clearAt_last]
    simp only [Bool.not_true, Bool.and_false, Bool.false_and]
  apply within.around.inside within.opened within.fresh depth kept
  · intro few value member level outer found unclear
    rcases List.mem_cons.mp member with table | last
    · rw [table]
      exact within.apart found
    · rw [List.mem_singleton.mp last]
      exact lost few found unclear
  · intro _ clean room
    rw [(slot room).1 clean, List.getElem?_append_right (Nat.le_refl _), Nat.sub_self]
    rfl
  · intro few _ dirty value located
    have shallow := depthOf_le frames
    rw [← within.around.depth] at shallow
    have above := (slot (by omega)).2 dirty
    rw [List.getElem?_append_right (Nat.le_of_lt above)] at located
    have bound := (List.getElem?_eq_some_iff.mp located).1
    rw [List.length_cons, List.length_singleton] at bound
    have last : reader.ancestor base.depth - stack.length = 1 := by omega
    rw [last] at located
    obtain rfl : key.rename whole.name = value := Option.some.inj located
    exact ⟨List.mem_cons_of_mem _ List.mem_cons_self, itself few⟩

/-- The tables around a value inside of an open table were all opened. -/
theorem Within.knows (within : Within whole start frames stack ref base) {walk : Walk}
    (standing : start.Precedes walk) (met : ref ∈ walk.opened) (onKey flag : Bool) :
    forall frame, frame ∈ frames ++ [⟨ref, onKey, flag⟩] -> frame.ref ∈ walk.opened := by
  intro frame member
  rcases List.mem_append.mp member with outer | last
  · exact standing.mem (within.known frame outer)
  · rw [List.mem_singleton.mp last]
    exact met

/-- The values of the array part. -/
theorem unpackItems_outcome (follows : FollowsOne whole heap one rounds)
    (grows : forall frames value, Grows 1 (one frames value))
    (within : Within whole start frames stack ref base) {items earlier : List Value}
    {walk after : Walk} {reader : Reader}
    (walked : walkItems one (frames ++ [⟨ref, false, false⟩]) items walk = .ok () after)
    (precedes : after.Precedes whole) (enough : totalSize whole.tokens < totalSize walk.tokens + rounds)
    (standing : start.Precedes walk) (met : ref ∈ walk.opened)
    (filling : Filling whole heap ref start base walk reader (numbered 1 earlier))
    (depth : reader.depth = base.depth + 1)
    (slot : Slot stack base reader false)
    (small : earlier.length + items.length < 2 ^ 52) :
    Outcome whole (fun _ later =>
        Filling whole heap ref start base after later (numbered 1 (earlier ++ items)) ∧
          later.depth = base.depth + 1 ∧ Slot stack base later false)
      (unpackItems granting (unpackOne granting rounds) stack (whole.name ref) items.length
        (earlier.length + 1) reader) := by
  induction items generalizing earlier walk reader with
  | nil =>
      cases walked
      rw [List.append_nil]
      exact Or.inl ⟨filling, depth, slot⟩
  | cons item items inductionHypothesis =>
      rcases bind_eq_ok walked with ⟨_, between, first, rest⟩
      have grown := (grows _ _).of_ok first
      have later := (walkItems_grows grows _ items).of_ok rest
      have inside := within.inItems depth filling.ancestor slot
      have decodes := follows _ _ item walk between reader first (later.1.trans precedes) enough
        (within.knows standing met false false) filling.tracks inside
      rw [List.length_cons] at small
      apply decodes.bind
      · intro value middle decoded
        have filled := filling.decoded within.place (by omega) decoded
        have absent : forall pair, pair ∈ numbered 1 earlier ->
            (pair.1.rename whole.name).rawEqual
              ((Value.number (.ofNat (earlier.length + 1))).rename whole.name) = false := by
          intro pair member
          rcases mem_numbered.mp member with ⟨offset, place, _, key⟩
          have below := (List.getElem?_eq_some_iff.mp place).1
          rw [key]
          exact ofNat_distinct (by omega) (by omega) (by omega)
        rcases @Filling.stored _ _ _ _ _ _ _ _ (.number (.ofNat (earlier.length + 1))) item filled
          within.place within.opened (Double.isNaN_ofNat (by omega) (by omega)) absent with
          ⟨filledAfter, stored, complete, level, ancestor⟩
        have kept : storePair granting (whole.name ref) (.number (.ofNat (earlier.length + 1)))
            (item.rename whole.name) middle = .ok () filledAfter := stored
        rw [decoded.same, bind_of_ok kept]
        have next : (if item = .nil then numbered 1 earlier
            else numbered 1 earlier ++ [(.number (.ofNat (earlier.length + 1)), item)]) =
              numbered 1 (earlier ++ [item]) := by
          rw [numbered_append, Nat.add_comm 1]
          split
          · rw [List.append_nil]
          · rfl
        rw [next] at complete
        have deep : filledAfter.depth = base.depth + 1 := by rw [level, decoded.leaves.depth, depth]
        have slotKept : Slot stack base filledAfter false := by
          unfold Slot
          rw [ancestor, decoded.leaves.ancestor _ (by omega)]
          exact slot
        have tail := @inductionHypothesis (earlier ++ [item]) between filledAfter rest (by omega)
          (standing.trans grown.1) (grown.1.mem met) complete deep slotKept (by
            rw [List.length_append, List.length_singleton]
            omega)
        rw [List.length_append, List.length_singleton, List.append_assoc] at tail
        exact tail
      · intro value
        exact (storePair_logs _ _ _).bind fun _ => unpackItems_logs (unpackOne_logs rounds) _ _ _ _

/-- What `unpack_table` does once it has a key: the value is read and stored. -/
def unpackEntry (rounds : Nat) (stack : List Value) (table : Ref) (key : Value) : Decoder Unit := do
  deepen
  let value ← unpackOne granting rounds (stack ++ [.table table, key])
  surface
  storePair granting table key value

theorem unpackEntry_logs (rounds : Nat) (stack : List Value) (table : Ref) (key : Value) :
    Logs (unpackEntry rounds stack table key) :=
  deepen_logs.bind fun _ => (unpackOne_logs _ _).bind fun _ => surface_logs.bind fun _ =>
    storePair_logs _ _ _

theorem unpackEntries_succ (rounds left : Nat) (stack : List Value) (table : Ref) :
    unpackEntries granting (unpackOne granting rounds) stack table (left + 1) =
      (unpackOne granting rounds (stack ++ [.table table]) >>= fun key =>
        if key = .nil then pure ()
        else unpackEntry rounds stack table key >>= fun _ =>
          unpackEntries granting (unpackOne granting rounds) stack table left) := by
  rw [unpackEntries]
  unfold unpackEntry
  simp only [bind_assoc]

/-- The value of a pair, when the key has been read. -/
theorem unpackEntry_outcome (follows : FollowsOne whole heap one rounds)
    (within : Within whole start frames stack ref base) {pair : Value × Value}
    {done : List (Value × Value)} {dirty flag : Bool} {walk after : Walk} {reader : Reader}
    (onValue : one (frames ++ [⟨ref, false, flag⟩]) pair.2 walk = .ok () after)
    (precedes : after.Precedes whole) (enough : totalSize whole.tokens < totalSize walk.tokens + rounds)
    (standing : start.Precedes walk) (met : ref ∈ walk.opened)
    (filling : Filling whole heap ref start base walk reader done)
    (depth : reader.depth = base.depth) (slot : Slot stack base reader flag)
    (clear : forall other level, pair.1.ref? = some other ->
      levelOf (frames ++ [⟨ref, true, dirty⟩]) other = some level ->
        clearAt (frames ++ [⟨ref, true, dirty⟩]) level = true)
    (keyed : pair.1.IsKey) (filled : pair.2 ≠ .nil)
    (fresh : forall earlier, earlier ∈ done ->
      (earlier.1.rename whole.name).rawEqual (pair.1.rename whole.name) = false) :
    Outcome whole (fun _ later => Filling whole heap ref start base after later (done ++ [pair]) ∧
        later.depth = base.depth ∧ Slot stack base later flag)
      (unpackEntry rounds stack (whole.name ref) (pair.1.rename whole.name) reader) := by
  have deep : reader.depth + 1 = base.depth + 1 := by rw [depth]
  have deeper := filling.relevel (reader.depth + 1)
  have decodes := follows _ _ pair.2 walk after _ onValue precedes enough
    (within.knows standing met false flag) deeper.tracks (within.onValue deep deeper.ancestor clear slot)
  unfold unpackEntry
  rw [bind_of_ok (by rfl : deepen reader = _)]
  apply decodes.bind
  · intro value second decoded
    have filledValue := (deeper.decoded within.place (by
      change base.depth ≤ reader.depth + 1
      omega) decoded).relevel (second.depth - 1)
    rcases @Filling.stored _ _ _ _ _ _ _ _ pair.1 pair.2 filledValue within.place within.opened keyed
      fresh with ⟨later, stored, complete, level, ancestor⟩
    rw [if_neg filled] at complete
    rw [bind_of_ok (by rfl : surface second = _), decoded.same, stored]
    refine Or.inl ⟨complete, ?_, ?_⟩
    · rw [level]
      change second.depth - 1 = base.depth
      rw [decoded.leaves.depth]
      exact Nat.sub_eq_of_eq_add deep
    · unfold Slot
      rw [ancestor]
      change base.depth < maxDepth -> (_ -> second.ancestor base.depth = _) ∧
        (_ -> _ < second.ancestor base.depth)
      rw [decoded.leaves.ancestor base.depth (by
        change base.depth < reader.depth + 1
        omega)]
      exact slot
  · exact fun _ => surface_logs.bind fun _ => storePair_logs _ _ _

/-- The pairs behind the array part. -/
theorem unpackEntries_outcome (follows : FollowsOne whole heap one rounds)
    (grows : forall frames value, Grows 1 (one frames value))
    (within : Within whole start frames stack ref base) {pairs done : List (Value × Value)}
    {dirty : Bool} {left : Nat} {walk after : Walk} {reader : Reader}
    (walked : walkPairs one frames ref false dirty pairs walk = .ok () after)
    (precedes : after.Precedes whole) (enough : totalSize whole.tokens < totalSize walk.tokens + rounds)
    (rest : totalSize whole.tokens < totalSize walk.tokens + left) (standing : start.Precedes walk)
    (met : ref ∈ walk.opened) (filling : Filling whole heap ref start base walk reader done)
    (depth : reader.depth = base.depth) (slot : Slot stack base reader dirty)
    (keyed : forall pair, pair ∈ pairs -> pair.1.IsKey ∧ pair.2 ≠ .nil)
    (distinct : (done ++ pairs).Pairwise fun first second => first.1.rawEqual second.1 = false) :
    Outcome whole (fun _ later => Filling whole heap ref start base after later (done ++ pairs) ∧
        later.depth = base.depth ∧
        (base.depth < maxDepth -> stack.length ≤ later.ancestor base.depth))
      (unpackEntries granting (unpackOne granting rounds) stack (whole.name ref) left reader) := by
  have growth := filling.tracks.precedes.totalSize_le
  obtain ⟨left, rfl⟩ : Exists fun less => left = less + 1 := ⟨left - 1, by omega⟩
  induction pairs generalizing done dirty left walk reader with
  | nil =>
      cases walked
      obtain ⟨more, tokens⟩ := precedes.rest
      obtain ⟨rounds, rfl⟩ : Exists fun less => rounds = less + 1 := ⟨rounds - 1, by omega⟩
      have reads : ReadsOff (Token.closes.bytes (markedIn whole.tokens))
          (unpackOne granting (rounds + 1) (stack ++ [.table (whole.name ref)])) .nil :=
        Tagged.unpackOne (@scalar_tagged _ _ _ .nil rfl trivial (by decide))
      rcases reads reader _ (filling.tracks.next tokens) with ⟨later, read, upcoming, advances⟩
      rw [unpackEntries_succ, bind_of_ok read, if_pos rfl, List.append_nil]
      refine Or.inl ⟨filling.token tokens upcoming advances rfl, advances.depth.trans depth, ?_⟩
      intro room
      rw [advances.ancestor]
      cases dirty with
      | false => exact Nat.le_of_eq ((slot room).1 rfl).symm
      | true => exact Nat.le_of_lt ((slot room).2 rfl)
  | cons pair pairs inductionHypothesis =>
      rcases bind_eq_ok walked with ⟨flag, between, paired, last⟩
      rcases bind_eq_ok paired with ⟨fresh, same, looked, both⟩
      obtain ⟨unmoved, isFresh⟩ := unmet_eq_ok looked
      rw [unmoved] at both
      rcases bind_eq_ok both with ⟨_, middleWalk, onKey, second⟩
      rcases bind_eq_ok second with ⟨_, _, onValue, returned⟩
      cases returned
      have keyGrows := (grows _ _).of_ok onKey
      have valueGrows := (grows _ _).of_ok onValue
      have restGrows := (walkPairs_grows grows frames ref false _ pairs).of_ok last
      have valueInside := restGrows.1.trans precedes
      have keyInside := valueGrows.1.trans valueInside
      have grown := keyGrows.1.trans valueGrows.1
      obtain ⟨⟨isKey, filled⟩, keyedRest⟩ := List.forall_mem_cons.mp keyed
      have notNil : pair.1 ≠ .nil := by
        intro nothing
        rw [nothing] at isKey
        exact isKey
      have decodesKey := follows _ _ pair.1 walk middleWalk reader onKey keyInside enough
        (within.knows standing met true dirty) filling.tracks (within.onKey depth filling.ancestor dirty)
      rw [unpackEntries_succ]
      apply decodesKey.bind
      · intro key second decodedKey
        have absent : forall earlier, earlier ∈ done ->
            (earlier.1.rename whole.name).rawEqual (pair.1.rename whole.name) = false := by
          intro earlier member
          apply rename_rawEqual
          · intro one two _ named same
            have opened := keyInside.mem (decodedKey.met two named)
            exact (whole.name_inj opened same.symm).symm
          · exact (List.pairwise_append.mp distinct).2.2 earlier member pair List.mem_cons_self
        have filledKey := filling.decoded within.place (Nat.le_of_eq depth.symm) decodedKey
        have shallow : second.depth = base.depth := decodedKey.leaves.depth.trans depth
        rw [decodedKey.same, if_neg fun nothing => notNil (Value.rename_eq_nil.mp nothing)]
        have entry := unpackEntry_outcome follows within onValue valueInside (by omega)
          (standing.trans keyGrows.1) (keyGrows.1.mem met) filledKey shallow
          (slot.keyed depth isFresh decodedKey) decodedKey.clear isKey filled absent
        apply entry.bind
        · rintro _ third ⟨complete, level, kept⟩
          have sizes := valueInside.totalSize_le
          obtain ⟨left, rfl⟩ : Exists fun less => left = less + 1 := ⟨left - 1, by omega⟩
          have tail := @inductionHypothesis (done ++ [pair]) (dirty || fresh) between third last
            (by omega) (standing.trans grown) (grown.mem met) complete level kept keyedRest
            (by rw [List.append_assoc]; exact distinct) sizes left (by omega)
          rw [List.append_assoc] at tail
          exact tail
        · exact fun _ => unpackEntries_logs (unpackOne_logs rounds) _ _ _
      · intro key
        exact .split (.pure _) ((unpackEntry_logs _ _ _ _).bind fun _ =>
          unpackEntries_logs (unpackOne_logs rounds) _ _ _)

/-- All that is inside of a table. -/
theorem fillTable_outcome (follows : FollowsOne whole heap one rounds)
    (grows : forall frames value, Grows 1 (one frames value))
    (within : Within whole start frames stack ref base) {content : Content}
    (lawful : content.Lawful) (small : content.items.length < 2 ^ 52) {walk middle after : Walk}
    {reader : Reader}
    (items : walkItems one (frames ++ [⟨ref, false, false⟩]) content.items walk = .ok () middle)
    (entries : walkPairs one frames ref false false content.entries middle = .ok () after)
    (precedes : after.Precedes whole) (enough : totalSize whole.tokens < totalSize walk.tokens + rounds)
    (standing : start.Precedes walk) (met : ref ∈ walk.opened)
    (filling : Filling whole heap ref start base walk reader [])
    (depth : reader.depth = base.depth + 1) (slot : Slot stack base reader false) :
    Outcome whole (fun result later => result = .table (whole.name ref) ∧
        Filling whole heap ref start base after later (numbered 1 content.items ++ content.entries) ∧
        later.depth = base.depth ∧
        (base.depth < maxDepth -> stack.length ≤ later.ancestor base.depth))
      (fillTable rounds stack (whole.name ref) (content.items.length : Nat) reader) := by
  have itemsGrow := (walkItems_grows grows _ _).of_ok items
  have entriesGrow := (walkPairs_grows grows _ _ _ _ _).of_ok entries
  have first := @unpackItems_outcome whole start heap one rounds frames stack ref base follows grows
    within content.items [] walk middle reader items (entriesGrow.1.trans precedes) enough standing met
    filling depth slot (by simpa using small)
  unfold fillTable
  rw [Int.toNat_natCast]
  apply first.bind
  · rintro _ second ⟨filled, deep, kept⟩
    rw [bind_of_ok (by rfl : surface second = _)]
    have shallow : second.depth - 1 = base.depth := Nat.sub_eq_of_eq_add deep
    rw [List.nil_append] at filled
    have rest := unpackEntries_outcome follows grows within entries precedes (by omega)
      (show totalSize whole.tokens < totalSize middle.tokens + rounds by omega)
      (standing.trans itemsGrow.1) (itemsGrow.1.mem met) (filled.relevel (second.depth - 1)) shallow kept
      lawful.keyed lawful.distinct
    apply rest.bind
    · rintro _ third ends
      exact Or.inl ⟨rfl, ends⟩
    · exact fun _ => .pure _
  · intro _
    exact surface_logs.bind fun _ =>
      (unpackEntries_logs (unpackOne_logs rounds) _ _ _).bind fun _ => .pure _

end Parts

/-! ## A table that was not met -/

theorem Walk.name_fresh {whole walk : Walk} {ref : Ref} (fresh : ref ∉ walk.opened)
    (precedes : walk.opened ++ [ref] <+: whole.opened) : whole.name ref = walk.opened.length := by
  obtain ⟨more, opened⟩ := precedes
  unfold Walk.name
  rw [← opened, List.append_assoc, List.idxOf_append_of_notMem fresh, List.singleton_append,
    List.idxOf_cons_self, Nat.add_zero]

section Tables

variable {whole walk : Walk} {heap : List Content} {frames : List Frame} {stack : List Value}
  {ref : Ref} {rounds size : Nat} {reader : Reader}

/-- The tag and the size are read, and the table is made. -/
theorem unpackOne_opens (short : size < 2 ^ 31) {marked : Nat -> Bool} {id : Nat} {bytes : List UInt8}
    (upcoming : Upcoming reader ((Token.opens id size).bytes marked ++ bytes)) :
    Exists fun middle => Exists fun after =>
      unpackOne granting (rounds + 1) stack reader =
        fillTable rounds stack reader.tables.length (size : Nat) after ∧
      Upcoming after bytes ∧ Advances reader middle ∧ Entered stack (marked id) middle after := by
  have typed : (if marked id then typeTableMark else typeTable) < 8 := by
    split <;> decide
  rw [Token.bytes_opens, headBytes] at upcoming
  rcases @unpackOne_tag reader rounds _ _ stack _ _ typed (cookie_min size) upcoming with
    ⟨between, left, moved, enters⟩
  rcases extent_readsOff short between bytes left with ⟨middle, read, later, further⟩
  rcases unpackContent_enters rounds stack (marked id) (size : Nat) middle with ⟨after, filled, entered⟩
  have advances := moved.trans further
  refine ⟨middle, after, ?_, entered.upcoming bytes later, advances, entered⟩
  rw [enters (unpackTable granting (unpackOne granting rounds) rounds stack (min size extendNumber)
    (if marked id then typeTableMark else typeTable)) (by cases marked id <;> rfl)]
  change (extent (min size extendNumber) >>= unpackContent rounds stack _) between = _
  rw [bind_of_ok read, filled, advances.tables]

/-- The table that was made is empty. -/
theorem Filling.begin {middle after : Reader} {rest : List Token}
    (tracks : Tracks whole walk reader) (fresh : ref ∉ walk.opened)
    (opened : walk.opened ++ [ref] <+: whole.opened)
    (tokens : whole.tokens = walk.tokens ++ .opens (walk.opened.length + 1) size :: rest)
    (upcoming : Upcoming after (encodeWith (markedIn whole.tokens) rest))
    (advances : Advances reader middle)
    (entered : Entered stack (markedIn whole.tokens (walk.opened.length + 1)) middle after) :
    Filling whole heap ref walk reader
      ⟨walk.tokens ++ [.opens (walk.opened.length + 1) size], walk.opened ++ [ref]⟩ after [] := by
  have made : after.tables = reader.tables ++ [[]] := by rw [entered.tables, advances.tables]
  have count : reader.tables.length = walk.opened.length := tracks.tables
  constructor
  · refine ⟨⟨⟨rest, by rw [tokens, List.append_assoc]; rfl⟩, opened⟩, ?_, ?_, ?_, ?_, ?_, ?_⟩
    · intro other same
      rw [tokens, List.append_assoc] at same
      obtain rfl : rest = other := (List.cons.inj (List.append_cancel_left same)).2
      exact upcoming
    · rw [entered.objectid, advances.objectid, tracks.objectid, List.length_append]
      rfl
    · rw [made, List.length_append, List.length_append, count]
      rfl
    · intro place inside marked
      rw [List.length_append, List.length_singleton] at inside
      rw [entered.refs, advances.objectid, advances.tables, advances.refs, tracks.objectid, count]
      by_cases last : place = walk.opened.length
      · rw [last] at marked ⊢
        rw [if_pos marked, Option.getD_some, List.lookup_cons_self]
      · have older := tracks.marks place (by omega) marked
        split
        · have apart : (((place + 1 : Nat) : Int) == ((walk.opened.length + 1 : Nat) : Int)) = false := by
            apply beq_false_of_ne
            omega
          rw [Option.getD_some, List.lookup_cons, apart]
          exact older
        · exact older
    · apply tracks.clear.append
      intro level other flag impossible
      cases impossible
    · rw [entered.ancestors, advances.ancestors, tracks.ancestors]
      unfold Walk.expected
      rw [List.filterMap_append, List.map_append]
      exact (List.append_nil _).symm
  · intro level below
    rw [entered.ancestor level (by rw [advances.depth]; exact below), advances.ancestor]
  · intro place below
    rw [made, List.getElem?_append_left below]
  · rw [made, Walk.name_fresh fresh opened, ← count, List.getElem?_concat_length]
    rfl
  · intro other member absent different
    rcases List.mem_append.mp member with before | last
    · exact absurd before absent
    · exact absurd (List.mem_singleton.mp last) different

/-- The contents of the tables are lawful, as far as their sizes fit. -/
def LawfulHeap (heap : List Content) : Prop :=
  forall ref, (heap.getD ref (.plain [] [])).items.length < 2 ^ 31 ->
    (heap.getD ref (.plain [] [])).Lawful

theorem table_outcome {one : List Frame -> Value -> Walker Unit} {after : Walk} (short : whole.Short)
    (lawful : LawfulHeap heap) (follows : FollowsOne whole heap one rounds)
    (grows : forall frames value, Grows 1 (one frames value))
    (walked : walkTable one (fun _ => none) heap frames ref walk = .ok () after)
    (precedes : after.Precedes whole)
    (enough : totalSize whole.tokens < totalSize walk.tokens + (rounds + 1))
    (known : forall frame, frame ∈ frames -> frame.ref ∈ walk.opened)
    (tracks : Tracks whole walk reader) (around : Around whole frames stack reader)
    (outside : levelOf frames ref = none) (fresh : ref ∉ walk.opened) :
    Outcome whole (Decoded whole heap frames stack (.table ref) walk after reader)
      (unpackOne granting (rounds + 1) stack reader) := by
  rcases bind_eq_ok walked with ⟨_, listed, enlisted, content⟩
  cases enlisted
  rcases bind_eq_ok content with ⟨_, opened, emitted, rest⟩
  rcases bind_eq_ok rest with ⟨_, middle, items, entries⟩
  have opens := (emitOpens_grows _).of_ok emitted
  have itemsGrow := (walkItems_grows grows _ _).of_ok items
  have entriesGrow := (walkPairs_grows grows _ _ _ _ _).of_ok entries
  have length : (walk.opened ++ [ref]).length = walk.opened.length + 1 := List.length_append
  -- the table itself is opened
  have begun : opened = ⟨walk.tokens ++ [.opens (walk.opened.length + 1)
      (heap.getD ref (.plain [] [])).items.length], walk.opened ++ [ref]⟩ := by
    cases emitted
    rw [← length]
  have inside := entriesGrow.1.trans precedes
  have started := itemsGrow.1.trans inside
  have small : (heap.getD ref (.plain [] [])).items.length < 2 ^ 31 := by
    have most := inside.totalSize_le
    have bound := short.bytes
    omega
  have kept := lawful ref small
  rw [begun] at started items itemsGrow opens
  obtain ⟨more, tokens⟩ := started.tokens
  have split : whole.tokens = walk.tokens ++ .opens (walk.opened.length + 1)
      (heap.getD ref (.plain [] [])).items.length :: more := by
    rw [← tokens, List.append_assoc]
    rfl
  rcases @unpackOne_opens stack rounds _ reader small _ _ _ (tracks.next split) with
    ⟨between, inner, enters, upcoming, advances, entered⟩
  have filling := @Filling.begin whole walk heap stack ref _ reader between inner more tracks fresh
    started.opened split upcoming advances entered
  have unmet : ref ∉ frames.map Frame.ref := by
    intro member
    rcases List.mem_map.mp member with ⟨frame, outer, same⟩
    exact fresh (same ▸ known frame outer)
  have place : whole.name ref = reader.tables.length := by
    rw [Walk.name_fresh fresh started.opened, tracks.tables]
  have present : ref ∈ walk.opened ++ [ref] := List.mem_append_right _ (List.mem_singleton_self ref)
  have within : Within whole walk frames stack ref reader :=
    ⟨around, started.mem present, unmet, place, known⟩
  have depth : inner.depth = reader.depth + 1 := by rw [entered.depth, advances.depth]
  have slot : Slot stack reader inner false := by
    intro room
    rw [← advances.depth] at room ⊢
    exact ⟨fun _ => entered.own room, Bool.noConfusion⟩
  have width : totalSize walk.tokens + 1 ≤ totalSize (walk.tokens ++ [.opens (walk.opened.length + 1)
      (heap.getD ref (.plain [] [])).items.length]) := opens.2
  rw [kept.unraised] at entries
  have filled := fillTable_outcome follows grows within kept (by omega) items entries precedes
    (by dsimp only; omega) ⟨opens.1.tokens, List.prefix_append _ _⟩ present filling depth slot
  rw [enters, ← place]
  apply filled.imp
  rintro result later ⟨same, complete, shallow, own⟩
  constructor
  · exact same
  · exact complete.tracks
  · exact ⟨shallow, complete.ancestor, complete.tables⟩
  · intro other member absent
    by_cases itself : other = ref
    · rw [itself]
      exact complete.table
    · exact complete.made other member absent itself
  · intro other named
    cases named
    exact (itemsGrow.1.trans entriesGrow.1).mem present
  · intro other level named located
    cases named
    rw [outside] at located
    cases located
  · exact fun met => absurd ⟨ref, rfl, fresh⟩ met
  · exact fun _ room => own room

/-- The decoder follows the walk over one value. -/
theorem followsOne (short : whole.Short) (lawful : LawfulHeap heap) (levels rounds : Nat) :
    FollowsOne whole heap (walkOne (fun _ => none) heap levels) rounds := by
  induction levels generalizing rounds with
  | zero =>
      intro frames stack value walk after reader walked
      cases walked
  | succ levels inductionHypothesis =>
      intro frames stack value walk after reader walked precedes enough known tracks around
      have growth := tracks.precedes.totalSize_le
      obtain ⟨rounds, rfl⟩ : Exists fun less => rounds = less + 1 := ⟨rounds - 1, by omega⟩
      change walkValue (walkOne (fun _ => none) heap levels) (fun _ => none) heap frames value walk =
        .ok () after at walked
      cases value with
      | closure | other => cases walked
      | table ref =>
          change (meet frames ref >>= _) walk = _ at walked
          rcases meet_cases frames ref walk with
            ⟨level, located, met⟩ | ⟨place, outside, numbered, met⟩ | ⟨outside, fresh, missed⟩
          · rw [bind_of_ok met] at walked
            cases walked
            rcases List.mem_map.mp (levelOf_mem located) with ⟨frame, member, rfl⟩
            exact ancestor_outcome tracks around located (known frame member) precedes
          · rw [bind_of_ok met] at walked
            cases walked
            exact shared_outcome short tracks numbered outside precedes
          · rw [bind_of_ok missed] at walked
            exact table_outcome short lawful (inductionHypothesis rounds)
              (walkOne_grows (fun _ => none) heap levels) walked precedes enough known tracks around
              outside fresh
      | nil | boolean | number | string | lightuserdata | cfunction =>
          cases walked
          exact scalar_outcome short tracks rfl trivial precedes

end Tables

end Seri
end ServiceRuntime
