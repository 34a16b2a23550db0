import ServiceRuntime.Seri.Tokens

namespace ServiceRuntime
namespace Seri

open Foundation

/-!
# The encoder follows the walk

`Agrees` says what the blocks, the references and the notes of the encoder are,
given the tokens of the walk; `Surrounds` says where the open tables lie on the
Lua stack.  Every function of the encoder keeps both, and raises when the walk
breaks off.
-/

/-! ## Plain writing -/

/-- Some bytes are written, and nothing else changes. -/
structure Writes (before after : Writer) (bytes : List UInt8) : Prop where
  sound : after.blocks.Sound
  settled : after.blocks.Settled
  contents : after.blocks.contents = before.blocks.contents ++ bytes
  references : after.references = before.references
  depth : after.depth = before.depth
  ancestor : after.ancestor = before.ancestor
  trace : after.trace = before.trace

theorem push_writes {writer : Writer} (sound : writer.blocks.Sound) {bytes : List UInt8}
    (filled : bytes ≠ []) : Writes writer (writer.push bytes) bytes where
  sound := sound.wbPush bytes
  settled := sound.wbPush_settled filled
  contents := sound.wbPush_contents bytes
  references := rfl
  depth := rfl
  ancestor := rfl
  trace := rfl

theorem Writes.trans {first second third : Writer} {bytes more : List UInt8}
    (begins : Writes first second bytes) (ends : Writes second third more) :
    Writes first third (bytes ++ more) where
  sound := ends.sound
  settled := ends.settled
  contents := by rw [ends.contents, begins.contents, List.append_assoc]
  references := ends.references.trans begins.references
  depth := ends.depth.trans begins.depth
  ancestor := ends.ancestor.trans begins.ancestor
  trace := ends.trace.trans begins.trace

theorem Writes.push {before after : Writer} {bytes more : List UInt8}
    (begins : Writes before after bytes) (filled : more ≠ []) :
    Writes before (after.push more) (bytes ++ more) :=
  begins.trans (push_writes begins.sound filled)

theorem littleEndian_ne_nil (width number : Nat) : littleEndian (width + 1) number ≠ [] :=
  List.cons_ne_nil _ _

section Scalars

variable {writer : Writer} (sound : writer.blocks.Sound)

include sound

theorem wbInteger_writes (value : Int) :
    Writes writer (writer.wbInteger value) (integerBytes value) := by
  have tagged (cookie : Nat) : Writes writer (writer.push [combineType typeNumber cookie])
      [combineType typeNumber cookie] := push_writes sound (List.cons_ne_nil _ _)
  unfold Writer.wbInteger integerBytes
  split
  · exact tagged _
  split
  · exact (tagged _).push (littleEndian_ne_nil 7 _)
  split
  · exact (tagged _).push (littleEndian_ne_nil 3 _)
  split
  · exact (tagged _).push (littleEndian_ne_nil 0 _)
  split
  · exact (tagged _).push (littleEndian_ne_nil 1 _)
  · exact (tagged _).push (littleEndian_ne_nil 3 _)

theorem wbString_writes (bytes : List UInt8) :
    Writes writer (writer.wbString bytes) (stringBytes bytes) := by
  unfold Writer.wbString stringBytes
  split
  · have tagged : Writes writer (writer.push [combineType typeShortString bytes.length])
        [combineType typeShortString bytes.length] := push_writes sound (List.cons_ne_nil _ _)
    dsimp only
    split
    · rename_i filled
      exact tagged.push (List.length_pos_iff.mp filled)
    · rename_i empty
      rw [List.length_eq_zero_iff.mp (Nat.eq_zero_of_not_pos empty)]
      rw [List.length_eq_zero_iff.mp (Nat.eq_zero_of_not_pos empty)] at tagged
      exact tagged
  · rename_i long
    have filled : bytes ≠ [] := by
      intro empty
      rw [empty] at long
      exact long (Nat.succ_pos 31)
    have tagged (cookie : Nat) : Writes writer (writer.push [combineType typeLongString cookie])
        [combineType typeLongString cookie] := push_writes sound (List.cons_ne_nil _ _)
    split
    · exact ((tagged _).push (littleEndian_ne_nil 1 _)).push filled
    · exact ((tagged _).push (littleEndian_ne_nil 3 _)).push filled

theorem openArray_writes (size : Nat) :
    Writes writer (writer.openArray size) (headBytes typeTable size) := by
  unfold Writer.openArray headBytes
  split
  · rename_i extended
    have tagged : Writes writer (writer.push [combineType typeTable extendNumber])
        [combineType typeTable extendNumber] := push_writes sound (List.cons_ne_nil _ _)
    rw [Nat.min_eq_right extended]
    exact tagged.trans (wbInteger_writes tagged.sound size)
  · rename_i short
    rw [Nat.min_eq_left (Nat.le_of_not_le short)]
    exact push_writes sound (List.cons_ne_nil _ _)

end Scalars

/-! ## The relation between the encoder and the walk -/

/-- What the encoder notes about an ancestor. -/
def Token.noted? : Token -> Option (Nat × Value)
  | ancestor level ref _ => some (level, .table ref)
  | scalar _ | shared _ | opens _ _ | closes => none

/-- The address that is kept with a number: that of the tag, while it is not
marked. -/
def Placed (tokens : List Token) (placed : Nat -> Option Address) (id : Nat) : Prop :=
  if Token.shared id ∈ tokens then placed id = none
  else
    Exists fun address => Exists fun before => Exists fun size => Exists fun after =>
      placed id = some address ∧ address.offset < blockSize ∧
        tokens = before ++ .opens id size :: after ∧ address.place = totalSize before

/-- The encoder has written what the walk says. -/
structure Agrees (writer : Writer) (walk : Walk) : Prop where
  sound : writer.blocks.Sound
  settled : writer.blocks.Settled
  contents : writer.blocks.contents = encode walk.tokens
  references : Exists fun placed => writer.references.Hold walk.opened placed ∧
    forall place, place < walk.opened.length -> Placed walk.tokens placed (place + 1)
  numbered : walk.tokens.filterMap Token.number? = List.range' 1 walk.opened.length
  known : forall id, .shared id ∈ walk.tokens -> 1 ≤ id ∧ id ≤ walk.opened.length
  noted : writer.trace.reverse = walk.tokens.filterMap Token.noted?

/-- The open tables lie on the stack where the encoder has noted it. -/
structure Surrounds (writer : Writer) (stack : List Value) (refs : List Ref) (walk : Walk) :
    Prop where
  depth : writer.depth = refs.length
  ancestor : forall level ref, refs[level]? = some ref -> level < maxDepth ->
    stack.getD (writer.ancestor level) .nil = .table ref
  distinct : refs.Nodup
  opened : forall ref, ref ∈ refs -> ref ∈ walk.opened

/-- The error has left the blocks as they must be. -/
def Gentle (error : PackError) (walk : Walk) : Prop :=
  (Exists fun typename => error = .unsupported typename) ∨
    totalSize walk.tokens + (if error = .memory then 1 else 0) ≤ blockSize

/-- How the encoder leaves the blocks when it raises. -/
def Spoils (error : PackError) (writer : Writer) (walk : Walk) : Prop :=
  writer.blocks.Released [] ↔ Gentle error walk

/-- What a function of the encoder leaves alone. -/
structure Keeps (before : Writer) (earlier : Walk) (after : Writer) (later : Walk) : Prop where
  depth : after.depth = before.depth
  ancestor : forall level, level < before.depth -> after.ancestor level = before.ancestor level
  opened : forall ref, ref ∈ earlier.opened -> ref ∈ later.opened

theorem Keeps.refl (writer : Writer) (walk : Walk) : Keeps writer walk writer walk :=
  ⟨rfl, fun _ _ => rfl, fun _ member => member⟩

theorem Keeps.trans {first second third : Writer} {one two three : Walk}
    (begins : Keeps first one second two) (ends : Keeps second two third three) :
    Keeps first one third three where
  depth := ends.depth.trans begins.depth
  ancestor := by
    intro level below
    rw [ends.ancestor level (by rw [begins.depth]; exact below), begins.ancestor level below]
  opened := fun ref member => ends.opened ref (begins.opened ref member)

/-- The open tables are where they were. -/
theorem Surrounds.kept {before after : Writer} {earlier later : Walk} {stack : List Value}
    {refs : List Ref} (surrounds : Surrounds before stack refs earlier)
    (keeps : Keeps before earlier after later) : Surrounds after stack refs later where
  depth := keeps.depth.trans surrounds.depth
  ancestor := by
    intro level ref standing below
    have inside := (List.getElem?_eq_some_iff.mp standing).1
    rw [keeps.ancestor level (by rw [surrounds.depth]; exact inside)]
    exact surrounds.ancestor level ref standing below
  distinct := surrounds.distinct
  opened := fun ref member => keeps.opened ref (surrounds.opened ref member)

/-- What is pushed lies above the open tables. -/
theorem Surrounds.pushed {writer : Writer} {walk : Walk} {stack : List Value} {refs : List Ref}
    (surrounds : Surrounds writer stack refs walk) (more : List Value) :
    Surrounds writer (stack ++ more) refs walk where
  depth := surrounds.depth
  ancestor := by
    intro level ref standing below
    have found := surrounds.ancestor level ref standing below
    rw [List.getD_eq_getElem?_getD] at found ⊢
    rw [List.getElem?_append_left]
    · exact found
    · by_contra outside
      rw [List.getElem?_eq_none (Nat.le_of_not_lt outside)] at found
      cases found
  distinct := surrounds.distinct
  opened := surrounds.opened

/-- A function of the encoder follows a part of the walk. -/
def Follows {α β : Type} (stack : List Value) (refs : List Ref) (pack : Encoder α)
    (walker : Walker β) : Prop :=
  forall writer walk, Agrees writer walk -> Surrounds writer stack refs walk ->
    EndsAlike (fun _ _ after later => Agrees after later ∧ Keeps writer walk after later) Spoils
      (pack writer) (walker walk)

section Rules

variable {α α' β β' : Type} {stack : List Value} {refs : List Ref}

theorem Follows.pure (value : α) (value' : β) :
    Follows stack refs (pure value : Encoder α) (pure value' : Walker β) :=
  fun writer walk agrees _ => ⟨agrees, Keeps.refl writer walk⟩

theorem Follows.bind {first : Encoder α} {first' : Walker α'} {next : α -> Encoder β}
    {next' : α' -> Walker β'} (starts : Follows stack refs first first')
    (continues : forall value value', Follows stack refs (next value) (next' value')) :
    Follows stack refs (first >>= next) (first' >>= next') := by
  intro writer walk agrees surrounds
  apply EndsAlike.bind
  apply (starts writer walk agrees surrounds).imp
  intro value value' between betweenWalk ⟨agreesBetween, keeps⟩
  apply (continues value value' between betweenWalk agreesBetween (surrounds.kept keeps)).imp
  intro _ _ after later ⟨agreesAfter, rest⟩
  exact ⟨agreesAfter, keeps.trans rest⟩

theorem Follows.pushed {pack : Encoder α} {walker : Walker β} {more : List Value}
    (follows : Follows (stack ++ more) refs pack walker) : Follows stack refs pack walker :=
  fun writer walk agrees surrounds => follows writer walk agrees (surrounds.pushed more)

end Rules

/-- As long as nothing was freed, an error leaves the blocks that were added. -/
theorem Agrees.spoils {writer : Writer} {walk : Walk} (agrees : Agrees writer walk)
    {error : PackError} (supported : forall typename, error ≠ .unsupported typename)
    (granted : error ≠ .memory) : Spoils error writer walk := by
  unfold Spoils Gentle
  rw [agrees.sound.released_settled agrees.settled, agrees.contents, length_encode,
    if_neg granted, Nat.add_zero]
  constructor
  · exact Or.inr
  · rintro (⟨typename, same⟩ | few)
    · exact absurd same (supported typename)
    · exact few

/-! ## Single tokens -/

theorem Placed.append {tokens : List Token} {placed : Nat -> Option Address} {id : Nat}
    (holds : Placed tokens placed id) {token : Token} (other : token ≠ .shared id) :
    Placed (tokens ++ [token]) placed id := by
  unfold Placed at *
  by_cases marked : Token.shared id ∈ tokens
  · rw [if_pos marked] at holds
    rw [if_pos (List.mem_append_left _ marked)]
    exact holds
  · have absent : Token.shared id ∉ tokens ++ [token] := by
      intro member
      rcases List.mem_append.mp member with early | last
      · exact marked early
      · exact other (List.mem_singleton.mp last).symm
    rw [if_neg marked] at holds
    rw [if_neg absent]
    obtain ⟨address, before, size, after, kept, offset, split, place⟩ := holds
    exact ⟨address, before, size, after ++ [token], kept, offset, by
      rw [split, List.append_assoc, List.cons_append], place⟩

/-- A token that neither opens a table nor refers to a number. -/
theorem Agrees.token {writer after : Writer} {walk : Walk} (agrees : Agrees writer walk)
    {token : Token} (plain : forall id, token ≠ .shared id) (closed : token.number? = none)
    (sound : after.blocks.Sound) (settled : after.blocks.Settled)
    (contents : after.blocks.contents =
      writer.blocks.contents ++ token.bytes (markedIn walk.tokens))
    (references : after.references = writer.references)
    (noted : after.trace.reverse = writer.trace.reverse ++ token.noted?.toList) :
    Agrees after { walk with tokens := walk.tokens ++ [token] } where
  sound := sound
  settled := settled
  contents := by rw [contents, agrees.contents, encode_append plain]
  references := by
    obtain ⟨placed, hold, places⟩ := agrees.references
    refine ⟨placed, ?_, ?_⟩
    · rw [references]
      exact hold
    · intro place inside
      exact (places place inside).append (plain _)
  numbered := by
    rw [List.filterMap_append, agrees.numbered, List.filterMap_cons, closed]
    exact List.append_nil _
  known := by
    intro id member
    rcases List.mem_append.mp member with early | last
    · exact agrees.known id early
    · exact absurd (List.mem_singleton.mp last).symm (plain id)
  noted := by
    rw [noted, agrees.noted, List.filterMap_append]
    congr 1

theorem Placed.congr {tokens : List Token} {placed other : Nat -> Option Address} {id : Nat}
    (holds : Placed tokens placed id) (same : other id = placed id) : Placed tokens other id := by
  unfold Placed at *
  rw [same]
  exact holds

/-- The address of a marked tag is forgotten. -/
theorem Placed.marked {tokens : List Token} {placed : Nat -> Option Address} {id : Nat}
    (marked : Token.shared id ∈ tokens) (forgotten : placed id = none) :
    Placed tokens placed id := by
  unfold Placed
  rw [if_pos marked]
  exact forgotten

theorem write_follows {stack : List Value} {refs : List Ref} {token : Token}
    {change : Writer -> Writer} (plain : forall id, token ≠ .shared id)
    (closed : token.number? = none) (unnoted : token.noted? = none)
    (writes : forall writer marked, writer.blocks.Sound ->
      Writes writer (change writer) (token.bytes marked)) :
    Follows stack refs (write change) (emit token) := by
  intro writer walk agrees surrounds
  have written := writes writer (markedIn walk.tokens) agrees.sound
  have noted : (change writer).trace.reverse = writer.trace.reverse ++ token.noted?.toList := by
    rw [written.trace, unnoted]
    exact (List.append_nil _).symm
  exact ⟨agrees.token plain closed written.sound written.settled written.contents
    written.references noted, ⟨written.depth, fun level _ => congrFun written.ancestor level,
    fun _ member => member⟩⟩

/-! ## Ancestors -/

/-- The search for an ancestor finds the level of the table. -/
theorem Surrounds.findAncestor {writer : Writer} {walk : Walk} {stack : List Value}
    {frames : List Frame} (surrounds : Surrounds writer stack (frames.map Frame.ref) walk)
    (ref : Ref) : writer.findAncestor stack ref = levelOf frames ref := by
  have depth := surrounds.depth
  rw [List.length_map] at depth
  unfold Writer.findAncestor levelOf
  rw [depth]
  split
  · rfl
  · rename_i searched
    rw [not_or] at searched
    have shallow := Nat.lt_of_not_le searched.2
    have hit (level : Nat) (inside : level < (frames.map Frame.ref).length) :
        stack.getD (writer.ancestor level) .nil = .table ref ↔
          (frames.map Frame.ref)[level] = ref := by
      rw [List.length_map] at inside
      rw [surrounds.ancestor level _ (List.getElem?_eq_getElem _) (Nat.lt_trans inside shallow),
        Value.table.injEq]
    cases located : (frames.map Frame.ref).idxOf? ref with
    | none =>
        apply List.find?_eq_none.mpr
        intro level member found
        have inside := List.mem_range.mp (List.mem_reverse.mp member)
        rw [← List.length_map Frame.ref] at inside
        apply List.idxOf?_eq_none_iff.mp located
        rw [← (hit level inside).mp (of_decide_eq_true found)]
        exact List.getElem_mem inside
    | some place =>
        obtain ⟨inside, same, _⟩ := List.idxOf?_eq_some_iff.mp located
        have present : place ∈ (List.range frames.length).reverse := by
          rw [List.length_map] at inside
          exact List.mem_reverse.mpr (List.mem_range.mpr inside)
        cases search : (List.range frames.length).reverse.find? fun level =>
            decide (stack.getD (writer.ancestor level) .nil = .table ref) with
        | none =>
            have missed := List.find?_eq_none.mp search place present
            exact absurd (decide_eq_true ((hit place inside).mpr same)) missed
        | some level =>
            have found := List.find?_some search
            have member := List.mem_of_find?_eq_some search
            have within := List.mem_range.mp (List.mem_reverse.mp member)
            rw [← List.length_map Frame.ref] at within
            have equal := (hit level within).mp (of_decide_eq_true found)
            rw [(surrounds.distinct.getElem_inj_iff).mp (equal.trans same.symm)]

/-- A reference to an ancestor. -/
theorem refAncestor_found {writer : Writer} {walk : Walk} {stack : List Value}
    {frames : List Frame} {ref : Ref} {level : Nat} (agrees : Agrees writer walk)
    (surrounds : Surrounds writer stack (frames.map Frame.ref) walk)
    (found : levelOf frames ref = some level) :
    Exists fun after => refAncestor stack ref writer = .ok true after ∧
      Agrees after { walk with
        tokens := walk.tokens ++ [.ancestor level ref (clearAt frames level)] } ∧
      after.depth = writer.depth ∧ after.ancestor = writer.ancestor := by
  have search := surrounds.findAncestor ref
  rw [found] at search
  have value : stack.getD (writer.ancestor level) .nil = .table ref := by
    unfold Writer.findAncestor at search
    split at search
    · cases search
    · exact of_decide_eq_true (@List.find?_some _ (fun level =>
        decide (stack.getD (writer.ancestor level) .nil = .table ref)) _ _ search)
  have written : Writes writer (writer.push [combineType typeRef level])
      [combineType typeRef level] := push_writes agrees.sound (List.cons_ne_nil _ _)
  refine ⟨{ writer.push [combineType typeRef level] with
    trace := (level, stack.getD (writer.ancestor level) .nil) :: writer.trace }, ?_, ?_,
    written.depth, written.ancestor⟩
  · unfold refAncestor
    rw [search]
  · have noted : ((level, stack.getD (writer.ancestor level) .nil) :: writer.trace).reverse =
        writer.trace.reverse ++ [(level, .table ref)] := by
      rw [List.reverse_cons, value]
    have contents : (writer.push [combineType typeRef level]).blocks.contents =
        writer.blocks.contents ++ (Token.ancestor level ref (clearAt frames level)).bytes
          (markedIn walk.tokens) := written.contents
    exact agrees.token (fun _ => Token.noConfusion) rfl written.sound written.settled contents
      written.references noted

/-! ## References to numbers -/

/-- The tokens around the opening of a table do not open it again. -/
theorem Agrees.alone {writer : Writer} {walk : Walk} (agrees : Agrees writer walk)
    {before after : List Token} {id size : Nat}
    (split : walk.tokens = before ++ .opens id size :: after) :
    (forall token, token ∈ before -> token.number? ≠ some id) ∧
      forall token, token ∈ after -> token.number? ≠ some id := by
  have numbered := agrees.numbered
  have nodup : (walk.tokens.filterMap Token.number?).Nodup := by
    rw [numbered]
    exact List.nodup_range'
  rw [split, List.filterMap_append] at nodup
  have parts := List.nodup_append.mp nodup
  have opened : (Token.opens id size :: after).filterMap Token.number? =
      id :: after.filterMap Token.number? := rfl
  rw [opened] at parts
  constructor
  · intro token member same
    exact parts.2.2 id (List.mem_filterMap.mpr ⟨token, member, same⟩) id List.mem_cons_self rfl
  · intro token member same
    exact (List.nodup_cons.mp parts.2.1).1 (List.mem_filterMap.mpr ⟨token, member, same⟩)

/-- The tag of a table that is not referred to. -/
theorem encode_tag {before after : List Token} {id size : Nat}
    (unmarked : Token.shared id ∉ before ++ .opens id size :: after) :
    (encode (before ++ .opens id size :: after))[totalSize before]? =
      some (combineType typeTable (min size extendNumber)) := by
  have clear : markedIn (before ++ .opens id size :: after) id = false := decide_eq_false unmarked
  unfold encode
  rw [encodeWith_append, encodeWith_cons,
    List.getElem?_append_right (Nat.le_of_eq (length_encodeWith _ _)), length_encodeWith,
    Nat.sub_self, Token.bytes_opens, clear]
  rfl

theorem encode_tag_inside {before after : List Token} {id size : Nat}
    (unmarked : Token.shared id ∉ before ++ .opens id size :: after) :
    totalSize before < (encode (before ++ .opens id size :: after)).length :=
  (List.getElem?_eq_some_iff.mp (encode_tag unmarked)).1

theorem cookie_min (size : Nat) : min size extendNumber < maxCookie :=
  Nat.lt_of_le_of_lt (Nat.min_le_right _ _) (Nat.lt_succ_self 31)

/-- What `lookup_ref` leaves behind for a table it finds: the blocks to which
the reference is written. -/
structure Marked (writer : Writer) (walk : Walk) (id : Nat) (after : Writer) : Prop where
  sound : after.blocks.Sound
  contents : after.blocks.contents ++ (Token.shared id).bytes (fun _ => false) =
    encode (walk.tokens ++ [.shared id])
  references : Exists fun placed => after.references.Hold walk.opened placed ∧
    forall place, place < walk.opened.length ->
      Placed (walk.tokens ++ [.shared id]) placed (place + 1)
  depth : after.depth = writer.depth
  ancestor : after.ancestor = writer.ancestor
  trace : after.trace = writer.trace

theorem markFound_again {writer : Writer} {walk : Walk} {place : Nat}
    (agrees : Agrees writer walk) (inside : place < walk.opened.length)
    (marked : Token.shared (place + 1) ∈ walk.tokens) :
    Exists fun after => markFound (place + 1) writer = .ok () after ∧
      Marked writer walk (place + 1) after := by
  obtain ⟨placed, hold, places⟩ := agrees.references
  have absent := places place inside
  unfold Placed at absent
  rw [if_pos marked] at absent
  refine ⟨writer, ?_, agrees.sound, ?_, ⟨placed, hold, ?_⟩, rfl, rfl, rfl⟩
  · unfold markFound
    rw [hold.addressOf inside, absent]
  · rw [agrees.contents, encode_again marked]
  · intro other within
    by_cases same : other = place
    · rw [same]
      exact Placed.marked (List.mem_append_left _ marked) absent
    · exact (places other within).append fun equal =>
        same (Nat.succ.inj (Token.shared.inj equal)).symm

theorem markFound_first {writer : Writer} {walk : Walk} {place : Nat}
    (agrees : Agrees writer walk) (inside : place < walk.opened.length)
    (unmarked : Token.shared (place + 1) ∉ walk.tokens) :
    Exists fun after => markFound (place + 1) writer = .ok () after ∧
      Marked writer walk (place + 1) after := by
  obtain ⟨placed, hold, places⟩ := agrees.references
  have kept := places place inside
  unfold Placed at kept
  rw [if_neg unmarked] at kept
  obtain ⟨address, before, size, following, found, offset, split, stands⟩ := kept
  obtain ⟨aloneBefore, aloneAfter⟩ := agrees.alone split
  rw [split] at unmarked
  have tag := encode_tag unmarked
  have written := encode_tag_inside unmarked
  rw [← split, ← agrees.contents, ← stands] at tag written
  have byte := agrees.sound.byteAt_eq offset written
  rw [tag] at byte
  have value := combineType_toNat (show typeTable < 8 by decide) (cookie_min size)
  have type : (combineType typeTable (min size extendNumber)).toNat % 8 = typeTable := by
    rw [value]
    unfold typeTable
    omega
  have cookie : (combineType typeTable (min size extendNumber)).toNat / 8 =
      min size extendNumber := by
    rw [value]
    unfold typeTable
    omega
  have changed : changeMark address writer = .ok () { writer with
      blocks := writer.blocks.patch address
        (combineType typeTableMark (min size extendNumber)) } := by
    unfold changeMark
    rw [byte]
    dsimp only
    rw [if_pos type, cookie]
  refine ⟨{ writer with
    blocks := writer.blocks.patch address (combineType typeTableMark (min size extendNumber))
    references := writer.references.forget (place + 1) }, ?_, ?_, ?_,
    ⟨fun id => if id = place + 1 then none else placed id, hold.forget, ?_⟩, rfl, rfl, rfl⟩
  · unfold markFound
    rw [hold.addressOf inside, found]
    dsimp only
    rw [bind_of_ok changed]
    rfl
  · exact agrees.sound.patch offset written _
  · have marked := encode_mark unmarked aloneBefore aloneAfter
    rw [← split, ← agrees.contents, ← stands] at marked
    rw [marked, ← agrees.sound.patch_contents offset written]
  · intro other within
    by_cases same : other = place
    · rw [same]
      exact Placed.marked (List.mem_append_right _ (List.mem_singleton_self _)) (if_pos rfl)
    · have apart : Token.shared (place + 1) ≠ .shared (other + 1) := fun equal =>
        same (Nat.succ.inj (Token.shared.inj equal)).symm
      exact ((places other within).append apart).congr
        (if_neg fun equal => same (Nat.succ.inj equal))

/-- A reference to a table that was met before. -/
theorem refObject_found {writer : Writer} {walk : Walk} {ref : Ref} {place : Nat}
    (agrees : Agrees writer walk) (found : walk.opened.idxOf? ref = some place) :
    Exists fun after => refObject ref writer = .ok true after ∧
      Agrees after { walk with tokens := walk.tokens ++ [.shared (place + 1)] } ∧
      after.depth = writer.depth ∧ after.ancestor = writer.ancestor := by
  obtain ⟨inside, _, _⟩ := List.idxOf?_eq_some_iff.mp found
  have number : writer.references.numberOf ref = some (place + 1) := by
    obtain ⟨placed, hold, _⟩ := agrees.references
    rw [hold.numberOf ref, found]
    rfl
  obtain ⟨between, run, marked⟩ : Exists fun between =>
      markFound (place + 1) writer = .ok () between ∧ Marked writer walk (place + 1) between := by
    by_cases before : Token.shared (place + 1) ∈ walk.tokens
    · exact markFound_again agrees inside before
    · exact markFound_first agrees inside before
  have looked : lookupRef ref writer = .ok (some (place + 1)) between := by
    unfold lookupRef
    rw [number]
    dsimp only
    rw [bind_of_ok run]
    rfl
  have tagged : Writes between (between.push [combineType typeRef extendNumber])
      [combineType typeRef extendNumber] := push_writes marked.sound (List.cons_ne_nil _ _)
  have written := tagged.trans (wbInteger_writes tagged.sound ((place + 1 : Nat) : Int))
  refine ⟨(between.push [combineType typeRef extendNumber]).wbInteger ((place + 1 : Nat) : Int),
    ?_, ?_, written.depth.trans marked.depth, written.ancestor.trans marked.ancestor⟩
  · unfold refObject
    rw [bind_of_ok looked]
    rfl
  · refine ⟨written.sound, written.settled, ?_, ?_, ?_, ?_, ?_⟩
    · have contents := marked.contents
      rw [Token.bytes_shared] at contents
      rw [written.contents, contents]
    · obtain ⟨placed, hold, places⟩ := marked.references
      exact ⟨placed, by rw [written.references]; exact hold, places⟩
    · rw [List.filterMap_append, agrees.numbered]
      exact List.append_nil _
    · intro id member
      rcases List.mem_append.mp member with early | last
      · exact agrees.known id early
      · rw [Token.shared.inj (List.mem_singleton.mp last)]
        exact ⟨Nat.succ_pos _, inside⟩
    · rw [written.trace, marked.trace, agrees.noted, List.filterMap_append]
      exact (List.append_nil _).symm

theorem refObject_missed {writer : Writer} {walk : Walk} {ref : Ref}
    (agrees : Agrees writer walk) (fresh : ref ∉ walk.opened) :
    refObject ref writer = .ok false writer := by
  have missed : lookupRef ref writer = .ok none writer := by
    obtain ⟨placed, hold, _⟩ := agrees.references
    unfold lookupRef
    rw [hold.numberOf ref, List.idxOf?_eq_none_iff.mpr fresh]
    rfl
  unfold refObject
  rw [bind_of_ok missed]
  rfl

/-! ## Opening a table -/

/-- The tag of a new table is written where room was made for it. -/
theorem Agrees.opens {writer marked after : Writer} {walk : Walk} {ref : Ref} {size : Nat}
    (agrees : Agrees writer walk) (fresh : ref ∉ walk.opened)
    (blocks : marked.blocks = writer.blocks.makeRoom)
    (references : marked.references = writer.references.add ref writer.blocks.makeRoom.address)
    (trace : marked.trace = writer.trace) (writes : Writes marked after (headBytes typeTable size)) :
    Agrees after
      ⟨walk.tokens ++ [.opens (walk.opened.length + 1) size], walk.opened ++ [ref]⟩ := by
  have length : (walk.opened ++ [ref]).length = walk.opened.length + 1 := List.length_append
  have unreferred : Token.shared (walk.opened.length + 1) ∉ walk.tokens := fun member =>
    Nat.not_succ_le_self _ (agrees.known _ member).2
  have plain (id : Nat) : Token.opens (walk.opened.length + 1) size ≠ .shared id :=
    Token.noConfusion
  have room := Blocks.makeRoom_contents writer.blocks
  obtain ⟨placed, hold, places⟩ := agrees.references
  refine ⟨writes.sound, writes.settled, ?_, ?_, ?_, ?_, ?_⟩
  · have unmarked : markedIn walk.tokens (walk.opened.length + 1) = false :=
      decide_eq_false unreferred
    rw [writes.contents, blocks, room, agrees.contents, encode_append plain, Token.bytes_opens,
      unmarked]
    rfl
  · refine ⟨_, by rw [writes.references, references]; exact hold.add fresh _, ?_⟩
    intro place inside
    rw [length] at inside
    by_cases last : place = walk.opened.length
    · have absent : Token.shared (place + 1) ∉
          walk.tokens ++ [.opens (walk.opened.length + 1) size] := by
        rw [last]
        intro member
        rcases List.mem_append.mp member with early | tail
        · exact unreferred early
        · exact Token.noConfusion (List.mem_singleton.mp tail)
      unfold Placed
      rw [if_neg absent, last]
      refine ⟨_, walk.tokens, size, [], if_pos rfl, agrees.sound.makeRoom_short, rfl, ?_⟩
      rw [agrees.sound.makeRoom.address_place, room, agrees.contents, length_encode]
    · exact ((places place (by omega)).append (plain (place + 1))).congr
        (if_neg fun equal => last (Nat.succ.inj equal))
  · rw [List.filterMap_append, agrees.numbered, length, List.range'_1_concat, Nat.add_comm 1]
    rfl
  · intro id member
    rw [length]
    rcases List.mem_append.mp member with early | tail
    · have bounds := agrees.known id early
      exact ⟨bounds.1, Nat.le_succ_of_le bounds.2⟩
    · exact Token.noConfusion (List.mem_singleton.mp tail)
  · rw [writes.trace, trace, agrees.noted, List.filterMap_append]
    exact (List.append_nil _).symm

theorem Agrees.congr {writer other : Writer} {walk : Walk} (agrees : Agrees writer walk)
    (blocks : other.blocks = writer.blocks) (references : other.references = writer.references)
    (trace : other.trace = writer.trace) : Agrees other walk where
  sound := by
    rw [blocks]
    exact agrees.sound
  settled := by
    rw [blocks]
    exact agrees.settled
  contents := by rw [blocks, agrees.contents]
  references := by
    rw [references]
    exact agrees.references
  numbered := agrees.numbered
  known := agrees.known
  noted := by rw [trace, agrees.noted]

/-- One level deeper, with the place of the table kept while there is room. -/
theorem enterTable_ok (writer : Writer) (index : Nat) :
    Exists fun deeper => enterTable index writer = .ok () deeper ∧
      deeper.blocks = writer.blocks ∧ deeper.references = writer.references ∧
      deeper.trace = writer.trace ∧ deeper.depth = writer.depth + 1 ∧
      (forall level, level < writer.depth -> deeper.ancestor level = writer.ancestor level) ∧
      (writer.depth < maxDepth -> deeper.ancestor writer.depth = index) := by
  unfold enterTable
  dsimp only
  split
  · refine ⟨_, rfl, rfl, rfl, rfl, rfl, ?_, ?_⟩
    · intro level below
      exact if_neg (Nat.ne_of_lt below)
    · exact fun _ => if_pos rfl
  · refine ⟨_, rfl, rfl, rfl, rfl, rfl, fun _ _ => rfl, ?_⟩
    intro room
    exact absurd room ‹_›

/-- A table that is entered is the innermost one. -/
theorem Surrounds.entered {writer marked : Writer} {walk : Walk} {stack : List Value}
    {refs : List Ref} {ref : Ref} {index : Nat} {tokens : List Token}
    (surrounds : Surrounds writer stack refs walk) (fresh : ref ∉ walk.opened)
    (value : stack.getD index .nil = .table ref) (depth : marked.depth = writer.depth + 1)
    (outer : forall level, level < writer.depth -> marked.ancestor level = writer.ancestor level)
    (inner : writer.depth < maxDepth -> marked.ancestor writer.depth = index) :
    Surrounds marked stack (refs ++ [ref]) ⟨tokens, walk.opened ++ [ref]⟩ where
  depth := by
    rw [depth, surrounds.depth, List.length_append]
    rfl
  ancestor := by
    intro level other standing below
    rcases Nat.lt_trichotomy level refs.length with before | last | beyond
    · rw [List.getElem?_append_left before] at standing
      rw [outer level (by rw [surrounds.depth]; exact before)]
      exact surrounds.ancestor level other standing below
    · rw [last, List.getElem?_concat_length] at standing
      rw [last, ← surrounds.depth] at below ⊢
      rw [inner below, value, Option.some.inj standing]
    · have inside := (List.getElem?_eq_some_iff.mp standing).1
      rw [List.length_append, List.length_singleton] at inside
      exact absurd beyond (by omega)
  distinct := List.nodup_append.mpr ⟨surrounds.distinct, List.nodup_singleton ref,
    fun other member _ last same =>
      fresh (List.mem_singleton.mp last ▸ same ▸ surrounds.opened other member)⟩
  opened := by
    intro other member
    rcases List.mem_append.mp member with early | last
    · exact List.mem_append_left _ (surrounds.opened other early)
    · exact List.mem_append_right _ last

/-! ## The recursion -/

/-- The walk goes on with an answer the encoder does not need. -/
theorem Follows.andPure {α β γ : Type} {stack : List Value} {refs : List Ref} {pack : Encoder α}
    {walker : Walker β} (follows : Follows stack refs pack walker) (value : γ) :
    Follows stack refs pack (walker >>= fun _ => Pure.pure value) := by
  have both := follows.bind fun answer _ => Follows.pure answer value
  rw [bind_pure] at both
  exact both

section Recursion

variable {pack : List Value -> Nat -> Encoder Unit} {one : List Frame -> Value -> Walker Unit}
  (follows : forall stack index frames, Follows stack (frames.map Frame.ref) (pack stack index)
    (one frames (stack.getD index .nil)))

include follows

theorem packItems_follows (stack : List Value) (frames : List Frame) (items : List Value) :
    Follows stack (frames.map Frame.ref) (packItems pack stack items)
      (walkItems one frames items) := by
  induction items with
  | nil => exact Follows.pure () ()
  | cons item items inductionHypothesis =>
      have value : (stack ++ [item]).getD stack.length .nil = item := by
        rw [List.getD_eq_getElem?_getD, List.getElem?_concat_length, Option.getD_some]
      have first := follows (stack ++ [item]) stack.length frames
      rw [value] at first
      exact first.pushed.bind fun _ _ => inductionHypothesis

theorem packPair_follows (stack : List Value) (frames : List Frame) (ref : Ref) (dirty : Bool)
    (pair : Value × Value) :
    Follows stack (frames.map Frame.ref ++ [ref]) (packPair pack stack pair)
      (walkPair one frames ref dirty pair) := by
  have refs (onKey flag : Bool) : (frames ++ [Frame.mk ref onKey flag]).map Frame.ref =
      frames.map Frame.ref ++ [ref] := List.map_append
  have key : (stack ++ [pair.1, pair.2]).getD stack.length .nil = pair.1 := by
    rw [List.getD_eq_getElem?_getD, List.getElem?_append_right (Nat.le_refl _), Nat.sub_self]
    rfl
  have value : (stack ++ [pair.1, pair.2]).getD (stack.length + 1) .nil = pair.2 := by
    rw [List.getD_eq_getElem?_getD, List.getElem?_append_right (Nat.le_add_right _ _),
      Nat.add_sub_cancel_left]
    rfl
  intro writer walk agrees surrounds
  unfold packPair walkPair
  rw [bind_of_ok (by rfl : unmet pair.1 walk = _)]
  have first := follows (stack ++ [pair.1, pair.2]) stack.length (frames ++ [⟨ref, true, dirty⟩])
  rw [key, refs] at first
  refine (first.pushed.bind fun _ _ => ?_) writer walk agrees surrounds
  generalize (dirty || decide (Exists fun ref => pair.1.ref? = some ref ∧ ref ∉ walk.opened)) = later
  have second := follows (stack ++ [pair.1, pair.2]) (stack.length + 1)
    (frames ++ [⟨ref, false, later⟩])
  rw [value, refs] at second
  exact second.pushed.andPure later

omit follows in
theorem closes_follows (stack : List Value) (refs : List Ref) :
    Follows stack refs (write Writer.wbNil) (emit .closes) :=
  write_follows (fun _ => Token.noConfusion) rfl rfl fun _ _ sound =>
    push_writes sound (List.cons_ne_nil _ _)

theorem wbTableHash_follows (stack : List Value) (frames : List Frame) (ref : Ref)
    (arraySize : Nat) (dirty : Bool) (pairs : List (Value × Value)) :
    Follows stack (frames.map Frame.ref ++ [ref]) (wbTableHash pack stack arraySize pairs)
      (walkPairs one frames ref false dirty
        (pairs.filter fun pair => !inArray arraySize pair.1)) := by
  induction pairs generalizing dirty with
  | nil => exact closes_follows stack _
  | cons pair pairs inductionHypothesis =>
      unfold wbTableHash
      cases skipped : inArray arraySize pair.1 with
      | true =>
          rw [if_pos rfl, List.filter_cons, skipped]
          exact inductionHypothesis dirty
      | false =>
          rw [if_neg Bool.false_ne_true, List.filter_cons, skipped]
          exact (packPair_follows follows stack frames ref dirty pair).bind fun _ dirty =>
            inductionHypothesis dirty

theorem packYields_follows (stack : List Value) (frames : List Frame) (ref : Ref) (raises dirty : Bool)
    (yields : List (Value × Value)) :
    Follows stack (frames.map Frame.ref ++ [ref]) (packYields pack stack raises yields)
      (walkPairs one frames ref
        (raises && yields.all fun pair => decide (pair.1 ≠ .nil)) dirty
        (yields.takeWhile fun pair => decide (pair.1 ≠ .nil))) := by
  induction yields generalizing dirty with
  | nil =>
      rw [List.all_nil, Bool.and_true, List.takeWhile_nil]
      unfold packYields walkPairs
      cases raises with
      | true =>
          intro writer walk agrees _
          exact ⟨rfl, agrees.spoils (fun _ => PackError.noConfusion) PackError.noConfusion⟩
      | false => exact closes_follows stack _
  | cons pair yields inductionHypothesis =>
      unfold packYields
      by_cases ended : pair.1 = .nil
      · rw [if_pos ended, List.all_cons, List.takeWhile_cons, decide_eq_false (not_not.mpr ended),
          Bool.false_and, Bool.and_false]
        exact closes_follows stack _
      · rw [if_neg ended, List.all_cons, List.takeWhile_cons, decide_eq_true ended, Bool.true_and]
        exact (packPair_follows follows stack frames ref dirty pair).bind fun _ dirty =>
          inductionHypothesis dirty

/-- The contents of a table, from its tag on. -/
theorem packContent_follows {writer marked : Writer} {walk : Walk} {stack : List Value}
    {frames : List Frame} {ref : Ref} (agrees : Agrees writer walk) (fresh : ref ∉ walk.opened)
    (blocks : marked.blocks = writer.blocks.makeRoom)
    (references : marked.references = writer.references.add ref writer.blocks.makeRoom.address)
    (trace : marked.trace = writer.trace)
    (surrounds : Surrounds marked stack (frames.map Frame.ref ++ [ref])
      ⟨walk.tokens, walk.opened ++ [ref]⟩) (content : Content) :
    EndsAlike (fun _ _ after later => Agrees after later ∧
        Keeps marked ⟨walk.tokens, walk.opened ++ [ref]⟩ after later) Spoils
      (packContent pack stack content marked)
      (walkContent one frames ref content ⟨walk.tokens, walk.opened ++ [ref]⟩) := by
  have sound : marked.blocks.Sound := by
    rw [blocks]
    exact agrees.sound.makeRoom
  have length : (walk.opened ++ [ref]).length = walk.opened.length + 1 := List.length_append
  have emitted (size : Nat) : emitOpens size ⟨walk.tokens, walk.opened ++ [ref]⟩ = .ok ()
      ⟨walk.tokens ++ [.opens (walk.opened.length + 1) size], walk.opened ++ [ref]⟩ := by
    unfold emitOpens
    rw [length]
    rfl
  have opened {after : Writer} {size : Nat} (writes : Writes marked after (headBytes typeTable size)) :
      Keeps marked ⟨walk.tokens, walk.opened ++ [ref]⟩ after
        ⟨walk.tokens ++ [.opens (walk.opened.length + 1) size], walk.opened ++ [ref]⟩ :=
    ⟨writes.depth, fun level _ => congrFun writes.ancestor level, fun _ member => member⟩
  have finish {after : Writer} {size : Nat} {next : Encoder Unit} {next' : Walker Unit}
      (writes : Writes marked after (headBytes typeTable size))
      (rest : Follows stack (frames.map Frame.ref ++ [ref]) next next') :
      EndsAlike (fun _ _ after later => Agrees after later ∧
          Keeps marked ⟨walk.tokens, walk.opened ++ [ref]⟩ after later) Spoils (next after)
        (next' ⟨walk.tokens ++ [.opens (walk.opened.length + 1) size], walk.opened ++ [ref]⟩) := by
    apply (rest after _ (agrees.opens fresh blocks references trace writes)
      (surrounds.kept (opened writes))).imp
    intro _ _ last later ⟨agreesAfter, keeps⟩
    exact ⟨agreesAfter, (opened writes).trans keeps⟩
  cases content with
  | plain items pairs =>
      have writes := openArray_writes sound items.length
      have itemsFollow := packItems_follows follows stack (frames ++ [⟨ref, false, false⟩]) items
      rw [List.map_append] at itemsFollow
      unfold walkContent
      rw [packContent, wbTableArray, bind_assoc, bind_of_ok (by rfl : write _ marked = _)]
      change EndsAlike _ _ _ ((emitOpens items.length >>= _) _)
      rw [bind_of_ok (emitted items.length)]
      exact finish writes (itemsFollow.bind fun _ _ =>
        wbTableHash_follows follows stack frames ref items.length false pairs)
  | metapairs iterator state yields raises =>
      have writes : Writes marked (marked.push [combineType typeTable 0]) (headBytes typeTable 0) :=
        push_writes sound (List.cons_ne_nil _ _)
      have yieldsFollow := (packYields_follows follows (stack ++ [iterator, state]) frames ref raises
        false yields).pushed
      unfold walkContent
      rw [packContent, bind_of_ok (by rfl : write _ marked = _)]
      change EndsAlike _ _ _ ((emitOpens 0 >>= _) _)
      rw [bind_of_ok (emitted 0)]
      exact finish writes yieldsFollow

variable {grants : Nat -> Option Refusal} {heap : List Content}

/-- A table that was not met. -/
theorem packTable_follows {writer : Writer} {walk : Walk} {stack : List Value} {index : Nat}
    {frames : List Frame} {ref : Ref} (agrees : Agrees writer walk)
    (surrounds : Surrounds writer stack (frames.map Frame.ref) walk) (fresh : ref ∉ walk.opened)
    (value : stack.getD index .nil = .table ref) :
    EndsAlike (fun _ _ after later => Agrees after later ∧ Keeps writer walk after later) Spoils
      (packTable pack grants heap stack index ref writer)
      (walkTable one grants heap frames ref walk) := by
  obtain ⟨deeper, entered, blocks, references, trace, depth, outer, inner⟩ :=
    enterTable_ok writer index
  obtain ⟨_, hold, _⟩ := agrees.references
  have count : deeper.references.objectid = walk.opened.length := by
    rw [references, hold.count]
  have same : Agrees deeper walk := agrees.congr blocks references trace
  unfold packTable walkTable wbTable
  rw [bind_of_ok entered]
  by_cases overflows : grants walk.opened.length = some .stack
  · have refused : checkTable grants deeper = .error .stack deeper := by
      unfold checkTable
      rw [count, if_pos overflows]
    have broken : enlist grants ref walk = .error .stack walk := by
      unfold enlist
      rw [if_pos overflows]
    rw [bind_of_error (bind_of_error refused), bind_of_error broken]
    exact ⟨rfl, same.spoils (fun _ => PackError.noConfusion) PackError.noConfusion⟩
  have checked : checkTable grants deeper = .ok () deeper := by
    unfold checkTable
    rw [count, if_neg overflows]
  by_cases memory : grants walk.opened.length = some .memory
  · have refused : markTable grants ref deeper =
        .error .memory { deeper with blocks := deeper.blocks.makeRoom } := by
      unfold markTable
      dsimp only
      rw [count, if_pos memory]
    have broken : enlist grants ref walk = .error .memory walk := by
      unfold enlist
      rw [if_neg overflows, if_pos memory]
    rw [bind_of_error (by rw [bind_of_ok checked, bind_of_error refused]), bind_of_error broken]
    refine ⟨rfl, ?_⟩
    change deeper.blocks.makeRoom.Released [] ↔ Gentle .memory walk
    rw [same.sound.released_makeRoom, same.contents, length_encode]
    unfold Gentle
    rw [if_pos rfl]
    constructor
    · exact Or.inr
    · rintro (⟨typename, impossible⟩ | few)
      · cases impossible
      · exact few
  · have marks : markTable grants ref deeper = .ok () { deeper with
        blocks := deeper.blocks.makeRoom
        references := deeper.references.add ref deeper.blocks.makeRoom.address } := by
      unfold markTable
      dsimp only
      rw [count, if_neg memory]
    have admitted : enlist grants ref walk = .ok () ⟨walk.tokens, walk.opened ++ [ref]⟩ := by
      unfold enlist
      rw [if_neg overflows, if_neg memory]
    rw [bind_of_ok admitted, ← bind_pure (walkContent one frames ref _)]
    apply EndsAlike.bind
    rw [bind_of_ok checked, bind_of_ok marks]
    have content := @packContent_follows pack one follows deeper { deeper with
        blocks := deeper.blocks.makeRoom
        references := deeper.references.add ref deeper.blocks.makeRoom.address }
      walk stack frames ref same fresh rfl rfl rfl
      (surrounds.entered fresh value depth outer inner) (heap.getD ref (.plain [] []))
    apply content.imp
    intro _ _ after later ⟨agreesAfter, keeps⟩
    refine ⟨agreesAfter.congr rfl rfl rfl, ?_, ?_, ?_⟩
    · change after.depth - 1 = writer.depth
      rw [keeps.depth]
      exact Nat.sub_eq_of_eq_add depth
    · intro level below
      change after.ancestor level = writer.ancestor level
      rw [keeps.ancestor level (by
        change level < deeper.depth
        omega)]
      exact outer level below
    · exact fun other member => keeps.opened other (List.mem_append_left _ member)

/-- The encoder follows the walk over one value. -/
theorem packValue_follows (stack : List Value) (index : Nat) (frames : List Frame) :
    Follows stack (frames.map Frame.ref) (packValue pack grants heap stack index)
      (walkValue one grants heap frames (stack.getD index .nil)) := by
  unfold packValue
  cases content : stack.getD index .nil with
  | nil =>
      exact write_follows (fun _ => Token.noConfusion) rfl rfl fun _ _ sound =>
        push_writes sound (List.cons_ne_nil _ _)
  | boolean bool =>
      exact write_follows (fun _ => Token.noConfusion) rfl rfl fun _ _ sound =>
        push_writes sound (List.cons_ne_nil _ _)
  | number bits =>
      exact write_follows (fun _ => Token.noConfusion) rfl rfl fun _ _ sound =>
        (push_writes sound (List.cons_ne_nil _ _)).push (littleEndian_ne_nil 7 _)
  | string bytes =>
      exact write_follows (fun _ => Token.noConfusion) rfl rfl fun _ _ sound =>
        wbString_writes sound bytes
  | lightuserdata pointer =>
      exact write_follows (fun _ => Token.noConfusion) rfl rfl fun _ _ sound =>
        (push_writes sound (List.cons_ne_nil _ _)).push (littleEndian_ne_nil 7 _)
  | cfunction pointer =>
      exact write_follows (fun _ => Token.noConfusion) rfl rfl fun _ _ sound =>
        (push_writes sound (List.cons_ne_nil _ _)).push (littleEndian_ne_nil 7 _)
  | closure =>
      intro writer walk agrees _
      exact ⟨rfl, agrees.spoils (fun _ => PackError.noConfusion) PackError.noConfusion⟩
  | other typename =>
      intro writer walk agrees _
      refine ⟨rfl, ?_⟩
      constructor
      · exact fun _ => Or.inl ⟨typename, rfl⟩
      · exact fun _ => agrees.sound.released
  | table ref =>
      intro writer walk agrees surrounds
      change EndsAlike _ _ ((refAncestor stack ref >>= _) writer) ((meet frames ref >>= _) walk)
      cases located : levelOf frames ref with
      | some level =>
          obtain ⟨after, found, agreesAfter, depth, ancestor⟩ :=
            refAncestor_found agrees surrounds located
          have met : meet frames ref walk = .ok true { walk with
              tokens := walk.tokens ++ [.ancestor level ref (clearAt frames level)] } := by
            unfold meet
            rw [located]
            rfl
          rw [bind_of_ok found, bind_of_ok met]
          exact ⟨agreesAfter, depth, fun other _ => congrFun ancestor other,
            fun _ member => member⟩
      | none =>
          have missed : refAncestor stack ref writer = .ok false writer := by
            unfold refAncestor
            rw [surrounds.findAncestor ref, located]
          rw [bind_of_ok missed]
          change EndsAlike _ _ ((refObject ref >>= _) writer) ((meet frames ref >>= _) walk)
          cases numbered : walk.opened.idxOf? ref with
          | some place =>
              obtain ⟨after, found, agreesAfter, depth, ancestor⟩ := refObject_found agrees numbered
              have met : meet frames ref walk = .ok true { walk with
                  tokens := walk.tokens ++ [.shared (place + 1)] } := by
                unfold meet
                rw [located]
                dsimp only
                rw [numbered]
                rfl
              rw [bind_of_ok found, bind_of_ok met]
              exact ⟨agreesAfter, depth, fun other _ => congrFun ancestor other,
                fun _ member => member⟩
          | none =>
              have fresh := List.idxOf?_eq_none_iff.mp numbered
              have met : meet frames ref walk = .ok false walk := by
                unfold meet
                rw [located]
                dsimp only
                rw [numbered]
              rw [bind_of_ok (refObject_missed agrees fresh), bind_of_ok met]
              exact packTable_follows follows agrees surrounds fresh content

end Recursion

/-- `pack_one` follows the walk, as long as the recursion is not cut off earlier. -/
theorem packOne_follows (grants : Nat -> Option Refusal) (heap : List Content) (rounds : Nat)
    (stack : List Value) (index : Nat) (frames : List Frame) :
    Follows stack (frames.map Frame.ref) (packOne grants heap rounds stack index)
      (walkOne grants heap rounds frames (stack.getD index .nil)) := by
  induction rounds generalizing stack index frames with
  | zero =>
      intro writer walk agrees _
      exact ⟨rfl, agrees.spoils (fun _ => PackError.noConfusion) PackError.noConfusion⟩
  | succ rounds inductionHypothesis => exact packValue_follows inductionHypothesis stack index frames

theorem packFrom_follows (grants : Nat -> Option Refusal) (heap : List Content) (rounds : Nat)
    (before values slots : List Value) :
    Follows (before ++ values ++ slots) [] (packFrom (packOne grants heap rounds)
      (before ++ values ++ slots) values.length before.length)
      (walkRoots (walkOne grants heap rounds) values) := by
  induction values generalizing before with
  | nil => exact Follows.pure () ()
  | cons value values inductionHypothesis =>
      have found : (before ++ value :: values ++ slots).getD before.length .nil = value := by
        rw [List.getD_eq_getElem?_getD, List.append_assoc,
          List.getElem?_append_right (Nat.le_refl _), Nat.sub_self]
        rfl
      have first := packOne_follows grants heap rounds (before ++ value :: values ++ slots)
        before.length []
      rw [found] at first
      have later := inductionHypothesis (before ++ [value])
      rw [List.append_assoc before, List.singleton_append, List.length_append,
        List.length_singleton] at later
      exact first.bind fun _ _ => later

theorem wbInit_agrees : Agrees wbInit ⟨[], []⟩ where
  sound := Blocks.init_sound
  settled := fun more => absurd rfl more
  contents := rfl
  references := ⟨fun _ => none, References.init_hold _, fun _ inside =>
    absurd inside (Nat.not_lt_zero _)⟩
  numbered := rfl
  known := fun _ absent => absurd absent List.not_mem_nil
  noted := rfl

theorem wbInit_surrounds (stack : List Value) : Surrounds wbInit stack [] ⟨[], []⟩ where
  depth := rfl
  ancestor := fun _ _ absent => nomatch absent
  distinct := List.nodup_nil
  opened := fun _ absent => absurd absent List.not_mem_nil

/-- The buffer holds the tokens of the walk behind their length, nothing else
stays allocated, and the tables were numbered as they were opened. -/
structure Packed (buffer : Nat × List UInt8) (after : Writer) (walk : Walk) : Prop where
  bytes : buffer.2 = littleEndian 4 (encode walk.tokens).length ++ encode walk.tokens
  released : after.blocks.Released [buffer.1]
  noted : after.trace.reverse = walk.tokens.filterMap Token.noted?
  count : after.references.objectid = walk.opened.length
  numbers : forall ref, after.references.numberOf ref = (walk.opened.idxOf? ref).map Nat.succ
  numbered : walk.tokens.filterMap Token.number? = List.range' 1 walk.opened.length

/-- What `seri_pack` returns, and how it raises. -/
theorem seriPack_follows (grants : Nat -> Option Refusal) (heap : List Content)
    (values : List Value) :
    EndsAlike (fun buffer _ after walk => Packed buffer after walk) Spoils
      (seriPack grants heap values) (outline grants heap values) := by
  have follows := packFrom_follows grants heap (heap.length + 1) [] values [Value.nil, Value.nil]
  unfold seriPack outline
  rw [← bind_pure (walkRoots _ values)]
  apply EndsAlike.bind
  apply (follows wbInit ⟨[], []⟩ wbInit_agrees (wbInit_surrounds _)).imp
  intro _ _ after later ⟨agrees, _⟩
  obtain ⟨_, hold, _⟩ := agrees.references
  refine ⟨?_, agrees.sound.seri_released, agrees.noted, hold.count, hold.numberOf,
    agrees.numbered⟩
  rw [agrees.sound.seri_bytes, agrees.contents]

end Seri
end ServiceRuntime
