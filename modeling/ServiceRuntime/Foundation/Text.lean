import Mathlib.Data.List.Forall2
import Mathlib.Data.List.Induction
import Mathlib.Data.List.TakeWhile
import Mathlib.Algebra.Ring.Nat
import Mathlib.Tactic.Ring

namespace ServiceRuntime
namespace Foundation

universe u

/-!
# Texts

Patterns in the manner of Lua, anchored at both ends, with captures and greedy
repetition that gives back what the rest of the pattern needs; and decimal
numbers of fixed width.
-/

/-! ## Patterns -/

/-- One position of a pattern. -/
inductive Item (Letter : Type u) where
  | one (accepts : Letter -> Bool)
  | star (accepts : Letter -> Bool)
  | opening
  | closing

variable {Letter : Type u}

/-- The first success, from the longest candidate down to none. -/
def longest {Result : Type u} (attempt : Nat -> Option Result) : Nat -> Option Result
  | 0 => attempt 0
  | length + 1 =>
      match attempt (length + 1) with
      | some result => some result
      | none => longest attempt length

/-- The captures of a whole text: those closed before, and the open one. -/
def captures : List (Item Letter) -> List (List Letter) -> List Letter -> List Letter ->
    Option (List (List Letter))
  | [], done, _, [] => some done
  | [], _, _, _ :: _ => none
  | .one _ :: _, _, _, [] => none
  | .one accepts :: items, done, current, letter :: text =>
      if accepts letter then captures items done (current ++ [letter]) text else none
  | .star accepts :: items, done, current, text =>
      longest (fun length => captures items done (current ++ text.take length) (text.drop length))
        (text.takeWhile accepts).length
  | .opening :: items, done, _, text => captures items done [] text
  | .closing :: items, done, current, text => captures items (done ++ [current]) [] text

/-- What `string.match` returns for a pattern between `^` and `$`. -/
def Item.captures (items : List (Item Letter)) (text : List Letter) : Option (List (List Letter)) :=
  Foundation.captures items [] [] text

theorem longest_of_isSome {Result : Type u} {attempt : Nat -> Option Result} {length : Nat}
    (succeeds : (attempt length).isSome = true) : longest attempt length = attempt length := by
  cases length with
  | zero => rfl
  | succ length =>
      rcases Option.isSome_iff_exists.mp succeeds with ⟨result, found⟩
      rw [longest, found]

/-- Every position accepts its letter. -/
def Accepted (positions : List (Letter -> Bool)) (letters : List Letter) : Prop :=
  List.Forall₂ (fun accepts letter => accepts letter = true) positions letters

theorem Accepted.append {first second : List (Letter -> Bool)} {left right : List Letter}
    (before : Accepted first left) (after : Accepted second right) :
    Accepted (first ++ second) (left ++ right) :=
  List.rel_append before after

theorem Accepted.split {first second : List (Letter -> Bool)} {text : List Letter}
    (accepted : Accepted (first ++ second) text) :
    Exists fun left => Exists fun right =>
      text = left ++ right ∧ Accepted first left ∧ Accepted second right := by
  induction first generalizing text with
  | nil => exact ⟨[], text, rfl, .nil, accepted⟩
  | cons accepts rest inductionHypothesis =>
      cases accepted with
      | @cons _ letter _ letters fits others =>
          rcases inductionHypothesis others with ⟨left, right, rfl, before, after⟩
          exact ⟨letter :: left, right, rfl, .cons fits before, after⟩

theorem accepted_one {accepts : Letter -> Bool} {text : List Letter} :
    Accepted [accepts] text <-> Exists fun letter => text = [letter] ∧ accepts letter = true := by
  constructor
  · intro accepted
    cases accepted with
    | @cons _ letter _ letters fits others =>
        cases others
        exact ⟨letter, rfl, fits⟩
  · rintro ⟨letter, rfl, fits⟩
    exact .cons fits .nil

theorem accepted_replicate {accepts : Letter -> Bool} {count : Nat} {text : List Letter} :
    Accepted (List.replicate count accepts) text <->
      text.length = count ∧ forall letter, letter ∈ text -> accepts letter = true := by
  constructor
  · intro accepted
    refine ⟨(List.Forall₂.length_eq accepted).symm.trans List.length_replicate, ?_⟩
    induction count generalizing text with
    | zero =>
        cases accepted
        exact fun _ member => absurd member List.not_mem_nil
    | succ count inductionHypothesis =>
        cases accepted with
        | cons fits others =>
            exact List.forall_mem_cons.mpr ⟨fits, inductionHypothesis others⟩
  · rintro ⟨rfl, all⟩
    induction text with
    | nil => exact .nil
    | cons letter text inductionHypothesis =>
        rcases List.forall_mem_cons.mp all with ⟨fits, others⟩
        exact .cons fits (inductionHypothesis others)

/-- Plain positions, outside or inside a capture. -/
def Item.plain (positions : List (Letter -> Bool)) : List (Item Letter) :=
  positions.map .one

/-- A capture of plain positions. -/
def Item.captured (positions : List (Letter -> Bool)) : List (Item Letter) :=
  .opening :: (Item.plain positions ++ [.closing])

/-- The capture `(.*)`. -/
def Item.remainder : List (Item Letter) :=
  [.opening, .star fun _ => true, .closing]

section

variable {positions : List (Letter -> Bool)} {items : List (Item Letter)}
  {done result : List (List Letter)} {current left right text : List Letter}

theorem captures_plain (accepted : Accepted positions left) :
    captures (Item.plain positions ++ items) done current (left ++ right) =
      captures items done (current ++ left) right := by
  induction accepted generalizing current with
  | nil => rw [List.append_nil]; rfl
  | @cons accepts letter rest letters fits _ inductionHypothesis =>
      have step := @inductionHypothesis (current ++ [letter])
      rw [List.append_assoc] at step
      exact (if_pos fits).trans step

theorem captures_plain_eq_some
    (matched : captures (Item.plain positions ++ items) done current text = some result) :
    Exists fun left => Exists fun right => text = left ++ right ∧ Accepted positions left ∧
      captures items done (current ++ left) right = some result := by
  induction positions generalizing current text with
  | nil => exact ⟨[], text, rfl, .nil, by rw [List.append_nil]; exact matched⟩
  | cons accepts rest inductionHypothesis =>
      cases text with
      | nil => cases matched
      | cons letter letters =>
          by_cases fits : accepts letter = true
          · rcases inductionHypothesis ((if_pos fits).symm.trans matched) with
              ⟨left, right, rfl, accepted, later⟩
            refine ⟨letter :: left, right, rfl, .cons fits accepted, ?_⟩
            rw [List.append_assoc] at later
            exact later
          · cases (if_neg fits).symm.trans matched

theorem captures_captured (accepted : Accepted positions left) :
    captures (Item.captured positions ++ items) done current (left ++ right) =
      captures items (done ++ [left]) [] right := by
  have plain := @captures_plain _ positions (.closing :: items) done [] left right accepted
  rw [List.nil_append] at plain
  unfold Item.captured
  rw [List.cons_append, List.append_assoc]
  exact plain

theorem captures_captured_eq_some
    (matched : captures (Item.captured positions ++ items) done current text = some result) :
    Exists fun left => Exists fun right => text = left ++ right ∧ Accepted positions left ∧
      captures items (done ++ [left]) [] right = some result := by
  unfold Item.captured at matched
  rw [List.cons_append, List.append_assoc] at matched
  exact @captures_plain_eq_some _ positions (.closing :: items) done result [] text matched

end

/-- Repetition takes all it can when the rest of the pattern matches there. -/
theorem captures_star {accepts : Letter -> Bool} {items : List (Item Letter)}
    {done : List (List Letter)} {current text : List Letter} {result : List (List Letter)}
    (rest : captures items done (current ++ text.takeWhile accepts) (text.dropWhile accepts) =
      some result) :
    captures (.star accepts :: items) done current text = some result := by
  have whole := @List.takeWhile_append_dropWhile _ accepts text
  have taken : text.take (text.takeWhile accepts).length = text.takeWhile accepts :=
    (congrArg (List.take _) whole.symm).trans (List.take_left ..)
  have dropped : text.drop (text.takeWhile accepts).length = text.dropWhile accepts :=
    (congrArg (List.drop _) whole.symm).trans (List.drop_left ..)
  rw [captures, longest_of_isSome]
  · rw [taken, dropped, rest]
  · rw [taken, dropped, rest]
    rfl

/-- A capture of everything that is left always matches. -/
theorem captures_remainder (done : List (List Letter)) (current text : List Letter) :
    captures Item.remainder done current text = some (done ++ [text]) := by
  have all : text.takeWhile (fun _ => true) = text := by
    rw [List.takeWhile_eq_self_iff]
    exact fun _ _ => rfl
  have none_left : text.dropWhile (fun _ => true) = [] := by
    rw [List.dropWhile_eq_nil_iff]
    exact fun _ _ => rfl
  rw [Item.remainder, captures]
  apply captures_star
  rw [all, none_left]
  rfl

/-! ## Decimal numbers -/

/-- A letter of the basic character set. -/
def byteOf (letter : Char) : UInt8 :=
  UInt8.ofNat letter.toNat

/-- `isdigit`. -/
def isDigit (byte : UInt8) : Bool :=
  decide (48 ≤ byte) && decide (byte ≤ 57)

/-- The number a string of digits denotes. -/
def ofDecimal (digits : List UInt8) : Nat :=
  digits.foldl (fun number digit => number * 10 + (digit.toNat - 48)) 0

/-- The low digits of a number, most significant first, `width` of them. -/
def decimal : Nat -> Nat -> List UInt8
  | 0, _ => []
  | width + 1, number => decimal width (number / 10) ++ [UInt8.ofNat (48 + number % 10)]

@[simp] theorem decimal_length (width number : Nat) : (decimal width number).length = width := by
  induction width generalizing number with
  | zero => rfl
  | succ width inductionHypothesis =>
      rw [decimal, List.length_append, inductionHypothesis, List.length_singleton]

theorem toNat_digit (number : Nat) : (UInt8.ofNat (48 + number % 10)).toNat = 48 + number % 10 := by
  have small := Nat.mod_lt number (show 0 < 10 by decide)
  rw [UInt8.toNat_ofNat', Nat.mod_eq_of_lt (by omega)]

theorem isDigit_iff {byte : UInt8} : isDigit byte = true <-> 48 ≤ byte.toNat ∧ byte.toNat ≤ 57 := by
  unfold isDigit
  rw [Bool.and_eq_true, decide_eq_true_eq, decide_eq_true_eq, UInt8.le_iff_toNat_le,
    UInt8.le_iff_toNat_le]
  rfl

theorem isDigit_of_mem_decimal {width number : Nat} {byte : UInt8}
    (member : byte ∈ decimal width number) : isDigit byte = true := by
  induction width generalizing number with
  | zero => cases member
  | succ width inductionHypothesis =>
      rcases List.mem_append.mp member with high | low
      · exact inductionHypothesis high
      · rw [List.mem_singleton.mp low, isDigit_iff, toNat_digit]
        omega

theorem ofDecimal_append (digits : List UInt8) (digit : UInt8) :
    ofDecimal (digits ++ [digit]) = ofDecimal digits * 10 + (digit.toNat - 48) := by
  unfold ofDecimal
  rw [List.foldl_append, List.foldl_cons, List.foldl_nil]

/-- Reading what was written gives the number back when it fits. -/
theorem ofDecimal_decimal {width number : Nat} (fits : number < 10 ^ width) :
    ofDecimal (decimal width number) = number := by
  induction width generalizing number with
  | zero =>
      rw [pow_zero, Nat.lt_one_iff] at fits
      rw [fits]
      rfl
  | succ width inductionHypothesis =>
      have high : number / 10 < 10 ^ width := by
        rw [pow_succ] at fits
        exact Nat.div_lt_of_lt_mul (by rwa [mul_comm])
      rw [decimal, ofDecimal_append, inductionHypothesis high, toNat_digit]
      omega

/-- Digits are what the number they denote is written as. -/
theorem decimal_ofDecimal {digits : List UInt8}
    (all : forall digit, digit ∈ digits -> isDigit digit = true) :
    decimal digits.length (ofDecimal digits) = digits := by
  induction digits using List.reverseRecOn with
  | nil => rfl
  | append_singleton digits digit inductionHypothesis =>
      have last := isDigit_iff.mp (all digit (List.mem_append_right _ (List.mem_singleton_self _)))
      have high : (ofDecimal digits * 10 + (digit.toNat - 48)) / 10 = ofDecimal digits := by omega
      have low : 48 + (ofDecimal digits * 10 + (digit.toNat - 48)) % 10 = digit.toNat := by omega
      rw [List.length_append, List.length_singleton, decimal, ofDecimal_append, high, low,
        inductionHypothesis fun other member => all other (List.mem_append_left _ member),
        UInt8.ofNat_toNat]

theorem ofDecimal_lt {digits : List UInt8}
    (all : forall digit, digit ∈ digits -> isDigit digit = true) :
    ofDecimal digits < 10 ^ digits.length := by
  induction digits using List.reverseRecOn with
  | nil => exact Nat.one_pos
  | append_singleton digits digit inductionHypothesis =>
      have last := isDigit_iff.mp (all digit (List.mem_append_right _ (List.mem_singleton_self _)))
      have before := inductionHypothesis fun other member => all other (List.mem_append_left _ member)
      rw [ofDecimal_append, List.length_append, List.length_singleton, pow_succ]
      omega

end Foundation
end ServiceRuntime
