import ServiceRuntime.Seri.Walk

namespace ServiceRuntime
namespace Seri

open Foundation

/-!
# The bytes of the tokens

What a walk stands for in bytes: token by token, where the tag of a table is
marked when there is a reference to its number.
-/

/-- What `wb_integer` writes. -/
def integerBytes (value : Int) : List UInt8 :=
  if value = 0 then [combineType typeNumber numberZero]
  else if value ≠ value.bmod (2 ^ 32) then
    combineType typeNumber numberQword :: littleEndian 8 (value % 2 ^ 64).toNat
  else if value < 0 then
    combineType typeNumber numberDword :: littleEndian 4 (value % 2 ^ 32).toNat
  else if value < 0x100 then combineType typeNumber numberByte :: littleEndian 1 value.toNat
  else if value < 0x10000 then combineType typeNumber numberWord :: littleEndian 2 value.toNat
  else combineType typeNumber numberDword :: littleEndian 4 value.toNat

/-- What `wb_string` writes. -/
def stringBytes (bytes : List UInt8) : List UInt8 :=
  if bytes.length < maxCookie then combineType typeShortString bytes.length :: bytes
  else if bytes.length < 0x10000 then
    combineType typeLongString 2 :: littleEndian 2 bytes.length ++ bytes
  else combineType typeLongString 4 :: littleEndian 4 bytes.length ++ bytes

/-- What is written for a value that is no table. -/
def scalarBytes : Value -> List UInt8
  | .nil => [combineType typeBoolean booleanNil]
  | .boolean bool => [combineType typeBoolean (if bool then booleanTrue else booleanFalse)]
  | .number bits => combineType typeNumber numberReal :: littleEndian 8 bits.toNat
  | .string bytes => stringBytes bytes
  | .lightuserdata pointer =>
      combineType typeUserdata userdataPointer :: littleEndian 8 pointer.toNat
  | .cfunction pointer =>
      combineType typeUserdata userdataCfunction :: littleEndian 8 pointer.toNat
  | .table _ | .closure | .other _ => []

/-- The head of a table, with its tag in front. -/
def headBytes (type size : Nat) : List UInt8 :=
  combineType type (min size extendNumber) ::
    if extendNumber ≤ size then integerBytes size else []

/-- The bytes of a token, when the numbers that are referred to are known. -/
def Token.bytes (marked : Nat -> Bool) : Token -> List UInt8
  | scalar value => scalarBytes value
  | ancestor level _ _ => [combineType typeRef level]
  | shared id => combineType typeRef extendNumber :: integerBytes id
  | opens id size => headBytes (if marked id then typeTableMark else typeTable) size
  | closes => [combineType typeBoolean booleanNil]

/-- The number of a table that is opened. -/
def Token.number? : Token -> Option Nat
  | opens id _ => some id
  | scalar _ | ancestor _ _ _ | shared _ | closes => none

/-- How many bytes a token takes up. -/
def Token.size (token : Token) : Nat := (token.bytes fun _ => false).length

/-- The numbers that are referred to. -/
def markedIn (tokens : List Token) (id : Nat) : Bool := decide (Token.shared id ∈ tokens)

def encodeWith (marked : Nat -> Bool) (tokens : List Token) : List UInt8 :=
  tokens.flatMap (Token.bytes marked)

/-- The bytes of a walk. -/
def encode (tokens : List Token) : List UInt8 := encodeWith (markedIn tokens) tokens

def totalSize (tokens : List Token) : Nat := (tokens.map Token.size).sum

theorem Token.length_bytes (token : Token) (marked : Nat -> Bool) :
    (token.bytes marked).length = token.size := by
  cases token with
  | opens id size => rfl
  | scalar value | ancestor level ref clear | shared id | closes => rfl

theorem length_encodeWith (marked : Nat -> Bool) (tokens : List Token) :
    (encodeWith marked tokens).length = totalSize tokens := by
  induction tokens with
  | nil => rfl
  | cons token tokens inductionHypothesis =>
      unfold encodeWith totalSize at *
      rw [List.flatMap_cons, List.length_append, inductionHypothesis, Token.length_bytes,
        List.map_cons, List.sum_cons]

theorem length_encode (tokens : List Token) : (encode tokens).length = totalSize tokens :=
  length_encodeWith _ _

@[simp] theorem Token.bytes_opens (marked : Nat -> Bool) (id size : Nat) :
    (Token.opens id size).bytes marked =
      headBytes (if marked id then typeTableMark else typeTable) size := rfl

theorem Token.bytes_shared (marked : Nat -> Bool) (id : Nat) :
    (Token.shared id).bytes marked =
      [combineType typeRef extendNumber] ++ integerBytes id := rfl

@[simp] theorem encodeWith_nil (marked : Nat -> Bool) : encodeWith marked [] = [] := rfl

@[simp] theorem encodeWith_cons (marked : Nat -> Bool) (token : Token) (tokens : List Token) :
    encodeWith marked (token :: tokens) = token.bytes marked ++ encodeWith marked tokens :=
  List.flatMap_cons

theorem encodeWith_append (marked : Nat -> Bool) (before after : List Token) :
    encodeWith marked (before ++ after) = encodeWith marked before ++ encodeWith marked after :=
  List.flatMap_append

/-- Only the numbers of the tables that are opened matter. -/
theorem encodeWith_congr {marked other : Nat -> Bool} {tokens : List Token}
    (same : forall token id, token ∈ tokens -> token.number? = some id -> marked id = other id) :
    encodeWith marked tokens = encodeWith other tokens := by
  unfold encodeWith
  rw [List.flatMap_congr]
  intro token member
  cases token with
  | opens id size =>
      rw [Token.bytes_opens, Token.bytes_opens, same _ id member rfl]
  | scalar value | ancestor level ref clear | shared id | closes => rfl

/-- A token that refers to no number leaves the marks as they are. -/
theorem encode_append {tokens : List Token} {token : Token}
    (plain : forall id, token ≠ .shared id) :
    encode (tokens ++ [token]) = encode tokens ++ token.bytes (markedIn tokens) := by
  have marks : markedIn (tokens ++ [token]) = markedIn tokens := by
    funext id
    unfold markedIn
    apply decide_eq_decide.mpr
    rw [List.mem_append, List.mem_singleton]
    exact or_iff_left fun same => plain id same.symm
  unfold encode
  rw [marks, encodeWith_append, encodeWith_cons, encodeWith_nil, List.append_nil]

theorem combineType_toNat {type cookie : Nat} (typed : type < 8) (short : cookie < maxCookie) :
    (combineType type cookie).toNat = type + 8 * cookie := by
  unfold maxCookie at short
  unfold combineType
  rw [UInt8.toNat_ofNat']
  omega

theorem headBytes_change (type other size : Nat) :
    headBytes other size = (headBytes type size).set 0 (combineType other (min size extendNumber)) :=
  rfl

/-- The first reference to a number marks the tag of its table, and nothing else. -/
theorem encode_mark {before after : List Token} {id size : Nat}
    (unmarked : Token.shared id ∉ before ++ .opens id size :: after)
    (aloneBefore : forall token, token ∈ before -> token.number? ≠ some id)
    (aloneAfter : forall token, token ∈ after -> token.number? ≠ some id) :
    encode ((before ++ .opens id size :: after) ++ [.shared id]) =
      (encode (before ++ .opens id size :: after)).set (totalSize before)
        (combineType typeTableMark (min size extendNumber)) ++
      (Token.shared id).bytes (fun _ => false) := by
  have marks (other : Nat) (apart : other ≠ id) :
      markedIn ((before ++ .opens id size :: after) ++ [.shared id]) other =
        markedIn (before ++ .opens id size :: after) other := by
    unfold markedIn
    apply decide_eq_decide.mpr
    rw [List.mem_append, List.mem_singleton]
    exact or_iff_left fun same => apart (Token.shared.inj same)
  have marked : markedIn ((before ++ .opens id size :: after) ++ [.shared id]) id = true :=
    decide_eq_true (List.mem_append_right _ (List.mem_singleton_self _))
  have unmarked : markedIn (before ++ .opens id size :: after) id = false :=
    decide_eq_false unmarked
  generalize markedBefore : markedIn (before ++ .opens id size :: after) = early at *
  generalize markedAfter : markedIn ((before ++ .opens id size :: after) ++ [.shared id]) = late at *
  have first : encodeWith late before = encodeWith early before := by
    apply encodeWith_congr
    intro token number member opened
    exact marks number fun same => aloneBefore token member (same ▸ opened)
  have last : encodeWith late after = encodeWith early after := by
    apply encodeWith_congr
    intro token number member opened
    exact marks number fun same => aloneAfter token member (same ▸ opened)
  have width := length_encodeWith early before
  have head : (Token.opens id size).bytes late =
      ((Token.opens id size).bytes early).set 0
        (combineType typeTableMark (min size extendNumber)) := by
    rw [Token.bytes_opens, Token.bytes_opens, marked, unmarked]
    exact headBytes_change _ _ _
  have filled : 0 < ((Token.opens id size).bytes early).length := Nat.succ_pos _
  unfold encode
  rw [markedBefore, markedAfter, encodeWith_append, encodeWith_append, encodeWith_append,
    List.set_append_right _ _ (Nat.le_of_eq width), width, Nat.sub_self]
  simp only [encodeWith_cons, encodeWith_nil]
  rw [first, last, head, List.set_append_left _ _ filled, List.append_nil]
  rfl

/-- Any later reference marks nothing. -/
theorem encode_again {tokens : List Token} {id : Nat} (marked : Token.shared id ∈ tokens) :
    encode (tokens ++ [.shared id]) = encode tokens ++ (Token.shared id).bytes fun _ => false := by
  have marks : markedIn (tokens ++ [.shared id]) = markedIn tokens := by
    funext other
    unfold markedIn
    apply decide_eq_decide.mpr
    rw [List.mem_append, List.mem_singleton]
    constructor
    · rintro (present | same)
      · exact present
      · exact same ▸ marked
    · exact Or.inl
  unfold encode
  rw [marks, encodeWith_append, encodeWith_cons, encodeWith_nil, List.append_nil]
  rfl

end Seri
end ServiceRuntime
