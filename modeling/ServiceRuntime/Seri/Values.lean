import Mathlib.Data.List.Pairwise
import Mathlib.Data.List.Perm.Basic
import Mathlib.Tactic.Ring
import ServiceRuntime.Foundation.Bytes

namespace ServiceRuntime
namespace Seri

/-!
# The Lua values the serializer works on

Numbers are the 64-bit patterns of `lua_Number`; two patterns are the same
table key when they are equal as doubles.  Tables are finite lists of pairs in
the order in which `lua_next` visits them.  The structures carry what Lua
guarantees of any table: keys are neither `nil` nor NaN and pairwise different,
no value is `nil`, and `lua_objlen` answers some border.
-/

/-- The bit pattern of a `lua_Number`. -/
abbrev Double := UInt64

namespace Double

/-- Rounding to the nearest multiple, ties to even. -/
def roundQuotient (number divisor : Nat) : Nat :=
  if divisor < 2 * (number % divisor) ∨
      2 * (number % divisor) = divisor ∧ number / divisor % 2 = 1 then
    number / divisor + 1
  else number / divisor

/-- `(lua_Number)n` for a non-negative integer.  The significand keeps its
leading bit, which adds one to the exponent below it. -/
def ofNat (number : Nat) : Double :=
  if number = 0 then 0
  else
    let exponent := Nat.log2 number
    let significand :=
      if exponent ≤ 52 then number * 2 ^ (52 - exponent)
      else roundQuotient number (2 ^ (exponent - 52))
    UInt64.ofNat ((1022 + exponent) * 2 ^ 52 + significand)

/-- `(lua_Number)n` for any integer: the sign is the topmost bit. -/
def ofInt (number : Int) : Double :=
  if number < 0 then UInt64.ofNat (2 ^ 63 + (ofNat number.natAbs).toNat) else ofNat number.natAbs

/-- The positive integer a pattern stands for, as far as it is at most
`2 ^ 53`.  The quotient by `2 ^ 52` is the exponent together with the sign. -/
def index? (number : Double) : Option Nat :=
  let exponent := number.toNat / 2 ^ 52
  let fraction := number.toNat % 2 ^ 52
  if 1023 ≤ exponent ∧ exponent ≤ 1075 ∧ fraction % 2 ^ (1075 - exponent) = 0 then
    some ((2 ^ 52 + fraction) / 2 ^ (1075 - exponent))
  else none

/-- Not a number: the exponent is all ones and the fraction is not zero. -/
def isNaN (number : Double) : Bool :=
  decide (number.toNat / 2 ^ 52 % 2048 = 2047 ∧ number.toNat % 2 ^ 52 ≠ 0)

/-- Either zero. -/
def isZero (number : Double) : Bool := decide (number.toNat % 2 ^ 63 = 0)

/-- Equality of doubles. -/
def equal (first second : Double) : Bool :=
  !first.isNaN && (first == second || first.isZero && second.isZero)

private theorem toNat_ofNat_of_le {number : Nat} (positive : 0 < number)
    (small : Nat.log2 number ≤ 52) :
    (ofNat number).toNat =
      (1022 + Nat.log2 number) * 2 ^ 52 + number * 2 ^ (52 - Nat.log2 number) := by
  have above : number < 2 ^ (Nat.log2 number + 1) := Nat.lt_log2_self
  have bound : number * 2 ^ (52 - Nat.log2 number) < 2 ^ 53 := by
    calc number * 2 ^ (52 - Nat.log2 number)
        < 2 ^ (Nat.log2 number + 1) * 2 ^ (52 - Nat.log2 number) :=
          Nat.mul_lt_mul_of_pos_right above (Nat.two_pow_pos _)
      _ = 2 ^ 53 := by rw [← pow_add]; congr 1; omega
  simp only [ofNat, Nat.ne_of_gt positive, if_false, small, if_true, UInt64.toNat_ofNat']
  apply Nat.mod_eq_of_lt
  have : (1022 + Nat.log2 number) * 2 ^ 52 ≤ 1074 * 2 ^ 52 := Nat.mul_le_mul_right _ (by omega)
  omega

theorem index?_ofNat {number : Nat} (positive : 0 < number) (small : number < 2 ^ 53) :
    index? (ofNat number) = some number := by
  have exponent : Nat.log2 number ≤ 52 :=
    Nat.le_of_lt_succ ((Nat.log2_lt (Nat.ne_of_gt positive)).mpr small)
  have least : 2 ^ Nat.log2 number ≤ number := Nat.log2_self_le (Nat.ne_of_gt positive)
  have value := toNat_ofNat_of_le positive exponent
  have above : number < 2 ^ (Nat.log2 number + 1) := Nat.lt_log2_self
  generalize scale : Nat.log2 number = k at exponent least value above
  obtain ⟨shift, rest⟩ : Exists fun shift => 52 = k + shift := ⟨52 - k, by omega⟩
  have power : 2 ^ 52 = 2 ^ k * 2 ^ shift := by rw [← pow_add, ← rest]
  have lower : 2 ^ 52 ≤ number * 2 ^ shift := by
    rw [power]
    exact Nat.mul_le_mul_right _ least
  have upper : number * 2 ^ shift < 2 ^ 53 := by
    calc number * 2 ^ shift < 2 ^ (k + 1) * 2 ^ shift :=
          Nat.mul_lt_mul_of_pos_right above (Nat.two_pow_pos _)
      _ = 2 ^ 53 := by rw [← pow_add]; congr 1; omega
  have width : 52 - k = shift := by omega
  rw [width] at value
  have quotient : (ofNat number).toNat / 2 ^ 52 = 1023 + k := by omega
  have remainder : (ofNat number).toNat % 2 ^ 52 = number * 2 ^ shift - 2 ^ 52 := by omega
  have place : 1075 - (1023 + k) = shift := by omega
  have divides : (number * 2 ^ shift - 2 ^ 52) % 2 ^ shift = 0 := by
    rw [power, ← Nat.sub_mul, Nat.mul_mod_left]
  have restored : (2 ^ 52 + (number * 2 ^ shift - 2 ^ 52)) / 2 ^ shift = number := by
    rw [Nat.add_sub_cancel' lower, Nat.mul_div_cancel _ (Nat.two_pow_pos _)]
  simp only [index?, quotient, remainder, place, divides, restored]
  rw [if_pos ⟨by omega, by omega, trivial⟩]

theorem ofNat_of_index? {number : Double} {index : Nat} (found : number.index? = some index) :
    number = ofNat index := by
  simp only [index?] at found
  split at found
  · rename_i bounds
    obtain ⟨least, most, divides⟩ := bounds
    have split := Nat.div_add_mod number.toNat (2 ^ 52)
    have short : number.toNat % 2 ^ 52 < 2 ^ 52 := Nat.mod_lt _ (Nat.two_pow_pos _)
    generalize number.toNat / 2 ^ 52 = exponent at *
    generalize number.toNat % 2 ^ 52 = fraction at *
    obtain ⟨k, rfl⟩ : Exists fun k => exponent = 1023 + k := ⟨exponent - 1023, by omega⟩
    obtain ⟨shift, rest⟩ : Exists fun shift => 52 = k + shift := ⟨52 - k, by omega⟩
    have place : 1075 - (1023 + k) = shift := by omega
    rw [place] at divides found
    obtain ⟨quotient, rfl⟩ := Nat.dvd_of_mod_eq_zero divides
    have power : 2 ^ 52 = 2 ^ k * 2 ^ shift := by rw [← pow_add, ← rest]
    have whole : 2 ^ 52 + 2 ^ shift * quotient = (2 ^ k + quotient) * 2 ^ shift := by
      rw [power]
      ring
    have small : quotient < 2 ^ k := by
      apply @Nat.lt_of_mul_lt_mul_left (2 ^ shift)
      calc 2 ^ shift * quotient < 2 ^ 52 := short
        _ = 2 ^ shift * 2 ^ k := by rw [power, Nat.mul_comm]
    rw [whole, Nat.mul_div_cancel _ (Nat.two_pow_pos _)] at found
    have same : index = 2 ^ k + quotient := (Option.some.inj found).symm
    have positive : 0 < index := by
      rw [same]
      exact Nat.add_pos_left (Nat.two_pow_pos _) _
    have log : Nat.log2 index = k := by
      rw [Nat.log2_eq_iff (Nat.ne_of_gt positive), same, pow_succ]
      omega
    apply UInt64.toNat.inj
    rw [toNat_ofNat_of_le positive (by omega), log, same, show 52 - k = shift by omega, ← split,
      ← whole]
    omega
  · cases found

theorem index?_pos {number : Double} {index : Nat} (found : number.index? = some index) :
    0 < index := by
  simp only [index?] at found
  split at found
  · rename_i bounds
    obtain rfl := Option.some.inj found
    have wide : 2 ^ (1075 - number.toNat / 2 ^ 52) ≤ 2 ^ 52 :=
      Nat.pow_le_pow_right Nat.two_pos (by omega)
    exact Nat.div_pos (Nat.le_add_right_of_le wide) (Nat.two_pow_pos _)
  · cases found

theorem isZero_ofNat {number : Nat} (positive : 0 < number) (small : number < 2 ^ 53) :
    (ofNat number).isZero = false := by
  have found := index?_ofNat positive small
  simp only [index?] at found
  split at found
  · rename_i bounds
    simp only [isZero, decide_eq_false_iff_not]
    omega
  · cases found

theorem isNaN_ofNat {number : Nat} (positive : 0 < number) (small : number < 2 ^ 53) :
    (ofNat number).isNaN = false := by
  have found := index?_ofNat positive small
  simp only [index?] at found
  split at found
  · rename_i bounds
    simp only [isNaN, decide_eq_false_iff_not, not_and_or]
    omega
  · cases found

end Double

/-- A table, named by its place in the heap. -/
abbrev Ref := Nat

/-- A Lua value.  A light C function is its address; `closure` is every other
function, `other` the remaining types with the name `lua_typename` gives. -/
inductive Value where
  | nil
  | boolean (bool : Bool)
  | number (bits : Double)
  | string (bytes : List UInt8)
  | lightuserdata (pointer : UInt64)
  | cfunction (pointer : UInt64)
  | table (ref : Ref)
  | closure
  | other (typename : String)
  deriving DecidableEq, Repr

namespace Value

/-- `rawequal`. -/
def rawEqual : Value -> Value -> Bool
  | .number first, .number second => first.equal second
  | first, second => decide (first = second)

/-- What may stand as a key in a table. -/
def IsKey : Value -> Prop
  | .nil => False
  | .number bits => bits.isNaN = false
  | _ => True

instance : (value : Value) -> Decidable value.IsKey
  | .nil => inferInstanceAs (Decidable False)
  | .number bits => inferInstanceAs (Decidable (bits.isNaN = false))
  | .boolean _ | .string _ | .lightuserdata _ | .cfunction _ | .table _ | .closure | .other _ =>
      inferInstanceAs (Decidable True)

/-- What `pack_one` can write. -/
def Supported : Value -> Prop
  | .closure => False
  | .other _ => False
  | _ => True

instance : (value : Value) -> Decidable value.Supported
  | .closure | .other _ => inferInstanceAs (Decidable False)
  | .nil | .boolean _ | .number _ | .string _ | .lightuserdata _ | .cfunction _ | .table _ =>
      inferInstanceAs (Decidable True)

/-- The table a value is, if it is one. -/
def ref? : Value -> Option Ref
  | .table ref => some ref
  | _ => none

/-- The same value with tables renamed. -/
def rename (naming : Ref -> Ref) : Value -> Value
  | .table ref => .table (naming ref)
  | value => value

theorem rename_of_ref? {naming : Ref -> Ref} {value : Value} (plain : value.ref? = none) :
    value.rename naming = value := by
  cases value with
  | table ref => cases plain
  | nil | boolean bool | number bits | string bytes | lightuserdata pointer
  | cfunction pointer | closure | other typename => rfl

@[simp] theorem rename_eq_nil {naming : Ref -> Ref} {value : Value} :
    value.rename naming = .nil ↔ value = .nil := by
  cases value <;> simp only [rename, reduceCtorEq]

theorem rawEqual_refl_of_isKey {value : Value} (key : value.IsKey) :
    value.rawEqual value = true := by
  cases value with
  | number bits =>
      have real : bits.isNaN = false := key
      simp only [rawEqual, Double.equal, real, Bool.not_false, beq_self_eq_true, Bool.true_or,
        Bool.and_self]
  | nil | boolean bool | string bytes | lightuserdata pointer | cfunction pointer | table ref
  | closure | other typename => simp only [rawEqual, decide_true]

theorem rawEqual_symm {first second : Value} (keyed : second.IsKey)
    (equal : first.rawEqual second = true) : second.rawEqual first = true := by
  cases first with
  | number one =>
      cases second with
      | number other =>
          have real : other.isNaN = false := keyed
          simp only [rawEqual, Double.equal, real, Bool.not_false, Bool.true_and,
            Bool.and_eq_true, Bool.or_eq_true, beq_iff_eq] at equal ⊢
          exact equal.2.imp Eq.symm And.symm
      | nil | boolean bool | string bytes | lightuserdata pointer | cfunction pointer | table ref
      | closure | other typename => simp only [rawEqual, reduceCtorEq, decide_false,
          Bool.false_eq_true] at equal
  | nil | boolean bool | string bytes | lightuserdata pointer | cfunction pointer | table ref
  | closure | other typename =>
      have same := of_decide_eq_true equal
      rw [← same]
      simp only [rawEqual, decide_true]

end Value

/-! ## Tables -/

/-- `lua_rawget`. -/
def rawget (pairs : List (Value × Value)) (key : Value) : Value :=
  match pairs.find? fun pair => pair.1.rawEqual key with
  | some pair => pair.2
  | none => .nil

/-- `lua_rawgeti`. -/
def rawgeti (pairs : List (Value × Value)) (index : Nat) : Value :=
  rawget pairs (.number (.ofNat index))

/-- `lua_rawset` with a key that may be one.  Storing `nil` removes the key. -/
def rawset (pairs : List (Value × Value)) (key value : Value) : List (Value × Value) :=
  if value = .nil then pairs.filter fun pair => !pair.1.rawEqual key
  else if pairs.any fun pair => pair.1.rawEqual key then
    pairs.map fun pair => if pair.1.rawEqual key then (pair.1, value) else pair
  else pairs ++ [(key, value)]

/-- A border in the sense of the length operator. -/
def IsBorder (pairs : List (Value × Value)) (length : Nat) : Prop :=
  (length = 0 ∨ rawgeti pairs length ≠ .nil) ∧ rawgeti pairs (length + 1) = .nil

instance (pairs : List (Value × Value)) (length : Nat) : Decidable (IsBorder pairs length) :=
  inferInstanceAs (Decidable (_ ∧ _))

/-- A table without `__pairs`: its pairs in the order of `lua_next`, and the
border `lua_objlen` answers. -/
structure Table where
  pairs : List (Value × Value)
  objlen : Nat
  keyed : forall pair, pair ∈ pairs -> pair.1.IsKey ∧ pair.2 ≠ .nil
  distinct : pairs.Pairwise fun first second => first.1.rawEqual second.1 = false
  border : IsBorder pairs objlen

/-- The keys `wb_table_hash` skips: integers from one up to `array_size`. -/
def inArray (arraySize : Nat) : Value -> Bool
  | .number bits =>
      match bits.index? with
      | some index => decide (index ≤ arraySize)
      | none => false
  | _ => false

/-- The pairs an array part stands for, from a first index on. -/
def numbered : Nat -> List Value -> List (Value × Value)
  | _, [] => []
  | index, value :: rest =>
      if value = .nil then numbered (index + 1) rest
      else (.number (.ofNat index), value) :: numbered (index + 1) rest

namespace Table

/-- What `wb_table_array` writes. -/
def items (table : Table) : List Value :=
  (List.range table.objlen).map fun index => rawgeti table.pairs (index + 1)

/-- What `wb_table_hash` writes. -/
def entries (table : Table) : List (Value × Value) :=
  table.pairs.filter fun pair => !inArray table.objlen pair.1

@[simp] theorem items_length (table : Table) : table.items.length = table.objlen := by
  simp only [items, List.length_map, List.length_range]

end Table

theorem rawEqual_ofNat {value : Value} {index : Nat} (positive : 0 < index)
    (small : index < 2 ^ 53) (equal : value.rawEqual (.number (.ofNat index)) = true) :
    value = .number (.ofNat index) := by
  cases value with
  | number bits =>
      simp only [Value.rawEqual, Double.equal, Double.isZero_ofNat positive small, Bool.and_false,
        Bool.or_false, Bool.and_eq_true, beq_iff_eq] at equal
      rw [equal.2]
  | nil | boolean bool | string bytes | lightuserdata pointer | cfunction pointer | table ref
  | closure | other typename => exact of_decide_eq_true equal

theorem rawget_mem {pairs : List (Value × Value)} {key : Value} (found : rawget pairs key ≠ .nil) :
    Exists fun pair => pair ∈ pairs ∧ pair.1.rawEqual key = true ∧ pair.2 = rawget pairs key := by
  unfold rawget at found ⊢
  split at found
  · rename_i pair present
    exact ⟨pair, List.mem_of_find?_eq_some present,
      @List.find?_some _ (fun pair : Value × Value => pair.1.rawEqual key) _ _ present, rfl⟩
  · exact False.elim (found rfl)

theorem Table.rawget_of_mem (table : Table) {pair : Value × Value} (member : pair ∈ table.pairs) :
    rawget table.pairs pair.1 = pair.2 := by
  have same := Value.rawEqual_refl_of_isKey (table.keyed pair member).1
  have distinct := table.distinct
  generalize table.pairs = pairs at member distinct
  unfold rawget
  induction pairs with
  | nil => cases member
  | cons first rest inductionHypothesis =>
      obtain ⟨apart, later⟩ := List.pairwise_cons.mp distinct
      rcases List.mem_cons.mp member with rfl | member
      · rw [@List.find?_cons_of_pos _ (fun other => other.1.rawEqual pair.1) pair rest same]
      · rw [List.find?_cons_of_neg]
        · exact inductionHypothesis member later
        · rw [apart pair member]
          exact Bool.false_ne_true

theorem mem_numbered {start : Nat} {values : List Value} {pair : Value × Value} :
    pair ∈ numbered start values ↔ Exists fun offset =>
      values[offset]? = some pair.2 ∧ pair.2 ≠ .nil ∧
        pair.1 = .number (.ofNat (start + offset)) := by
  induction values generalizing start with
  | nil => simp only [numbered, List.not_mem_nil, List.getElem?_nil, reduceCtorEq, false_and,
      exists_false]
  | cons value rest inductionHypothesis =>
      have shift (offset : Nat) : start + 1 + offset = start + (offset + 1) := by omega
      constructor
      · intro member
        rw [numbered] at member
        split at member
        · obtain ⟨offset, listed, stored, key⟩ := inductionHypothesis.mp member
          exact ⟨offset + 1, listed, stored, by rw [key, shift]⟩
        · rename_i filled
          rcases List.mem_cons.mp member with rfl | member
          · exact ⟨0, rfl, filled, rfl⟩
          · obtain ⟨offset, listed, stored, key⟩ := inductionHypothesis.mp member
            exact ⟨offset + 1, listed, stored, by rw [key, shift]⟩
      · rintro ⟨offset, listed, stored, key⟩
        cases offset with
        | zero =>
            have same : value = pair.2 := Option.some.inj listed
            rw [numbered, if_neg (same ▸ stored)]
            apply List.mem_cons.mpr (Or.inl _)
            rw [same]
            exact Prod.ext key rfl
        | succ offset =>
            have later : pair ∈ numbered (start + 1) rest :=
              inductionHypothesis.mpr ⟨offset, listed, stored, by rw [key, shift]⟩
            rw [numbered]
            split
            · exact later
            · exact List.mem_cons_of_mem _ later

theorem numbered_nodup {start : Nat} {values : List Value} (positive : 0 < start)
    (small : start + values.length ≤ 2 ^ 53) : (numbered start values).Nodup := by
  induction values generalizing start with
  | nil => exact List.nodup_nil
  | cons value rest inductionHypothesis =>
      have later : (numbered (start + 1) rest).Nodup := by
        apply inductionHypothesis (Nat.succ_pos _)
        rw [List.length_cons] at small
        omega
      rw [numbered]
      split
      · exact later
      · refine List.nodup_cons.mpr ⟨?_, later⟩
        intro member
        obtain ⟨offset, listed, _, key⟩ := mem_numbered.mp member
        have inside : offset < rest.length := (List.getElem?_eq_some_iff.mp listed).1
        rw [List.length_cons] at small
        -- two different indices have different patterns
        have first := Double.index?_ofNat positive (by omega : start < 2 ^ 53)
        have second : Double.index? (.ofNat (start + 1 + offset)) = some (start + 1 + offset) :=
          Double.index?_ofNat (by omega) (by omega)
        rw [← Value.number.inj key, first] at second
        have := Option.some.inj second
        omega

theorem inArray_ofNat {index arraySize : Nat} (positive : 0 < index) (small : index < 2 ^ 53)
    (inside : index ≤ arraySize) : inArray arraySize (.number (.ofNat index)) = true := by
  have found := Double.index?_ofNat positive small
  simp only [inArray, found, decide_eq_true_eq]
  exact inside

theorem Table.mem_filter_of_numbered (table : Table) (small : table.objlen < 2 ^ 52)
    {pair : Value × Value} (member : pair ∈ numbered 1 table.items) :
    pair ∈ table.pairs.filter fun pair => inArray table.objlen pair.1 := by
  obtain ⟨offset, place, filled, key⟩ := mem_numbered.mp member
  obtain ⟨inside, value⟩ := List.getElem?_eq_some_iff.mp place
  rw [items_length] at inside
  simp only [items, List.getElem_map, List.getElem_range, rawgeti] at value
  have present : rawget table.pairs (.number (.ofNat (offset + 1))) ≠ .nil := by
    rw [value]
    exact filled
  obtain ⟨found, stored, equal, content⟩ := rawget_mem present
  have bound : offset + 1 < 2 ^ 53 :=
    Nat.lt_trans (Nat.lt_of_le_of_lt inside small) (Nat.pow_lt_pow_right Nat.one_lt_two (by decide))
  rw [Nat.add_comm] at key
  have same : found = pair :=
    Prod.ext ((rawEqual_ofNat (Nat.succ_pos _) bound equal).trans key.symm)
      (content.trans value)
  apply List.mem_filter.mpr
  refine ⟨same ▸ stored, ?_⟩
  rw [key]
  exact inArray_ofNat (Nat.succ_pos _) bound inside

theorem Table.mem_numbered_of_filter (table : Table) {pair : Value × Value}
    (member : pair ∈ table.pairs.filter fun pair => inArray table.objlen pair.1) :
    pair ∈ numbered 1 table.items := by
  obtain ⟨member, inside⟩ := List.mem_filter.mp member
  have content := table.rawget_of_mem member
  cases key : pair.1 with
  | number bits =>
      rw [key] at inside content
      simp only [inArray] at inside
      split at inside
      · rename_i index found
        have within : index ≤ table.objlen := of_decide_eq_true inside
        have positive := Double.index?_pos found
        rw [Double.ofNat_of_index? found] at key content
        refine mem_numbered.mpr ⟨index - 1, ?_, (table.keyed pair member).2, ?_⟩
        · rw [List.getElem?_eq_getElem (by rw [items_length]; omega)]
          simp only [items, List.getElem_map, List.getElem_range, Nat.sub_add_cancel positive]
          rw [rawgeti, content]
        · rw [Nat.add_sub_cancel' positive, key]
      · cases inside
  | nil | boolean bool | string bytes | lightuserdata pointer | cfunction pointer | table ref
  | closure | other typename =>
      rw [key] at inside
      cases inside

/-- A table is its array part together with the pairs of its hash part. -/
theorem Table.pairs_perm (table : Table) (small : table.objlen < 2 ^ 52) :
    (numbered 1 table.items ++ table.entries).Perm table.pairs := by
  have nodup : table.pairs.Nodup := by
    refine List.Pairwise.imp_of_mem ?_ table.distinct
    intro first second member _ apart same
    rw [← same, Value.rawEqual_refl_of_isKey (table.keyed first member).1] at apart
    cases apart
  have indices : 1 + table.items.length ≤ 2 ^ 53 := by
    rw [items_length]
    omega
  have array : (numbered 1 table.items).Perm
      (table.pairs.filter fun pair => inArray table.objlen pair.1) := by
    refine (List.perm_ext_iff_of_nodup (numbered_nodup Nat.one_pos indices) (nodup.filter _)).mpr ?_
    exact fun pair => ⟨table.mem_filter_of_numbered small, table.mem_numbered_of_filter⟩
  exact (array.append_right _).trans (List.filter_append_perm _ _)

/-- A list of values and the tables it is built from. -/
structure Graph where
  tables : List Table
  roots : List Value
  closed : forall table, table ∈ tables -> forall pair, pair ∈ table.pairs ->
    forall ref, pair.1.ref? = some ref ∨ pair.2.ref? = some ref -> ref < tables.length
  rooted : forall root, root ∈ roots -> forall ref, root.ref? = some ref -> ref < tables.length

/-- Only values `pack_one` can write. -/
def Graph.Supported (graph : Graph) : Prop :=
  (forall root, root ∈ graph.roots -> root.Supported) ∧
    forall table, table ∈ graph.tables -> forall pair, pair ∈ table.pairs ->
      pair.1.Supported ∧ pair.2.Supported

instance (graph : Graph) : Decidable graph.Supported :=
  inferInstanceAs (Decidable ((forall root, root ∈ graph.roots -> root.Supported) ∧
    forall table, table ∈ graph.tables -> forall pair, pair ∈ table.pairs ->
      pair.1.Supported ∧ pair.2.Supported))

/-- No table is used as a key. -/
def Graph.PlainKeys (graph : Graph) : Prop :=
  forall table, table ∈ graph.tables -> forall pair, pair ∈ table.pairs -> pair.1.ref? = none

instance (graph : Graph) : Decidable graph.PlainKeys :=
  inferInstanceAs (Decidable (forall table, table ∈ graph.tables -> forall pair,
    pair ∈ table.pairs -> pair.1.ref? = none))

end Seri
end ServiceRuntime
