import Mathlib.Algebra.BigOperators.Group.List.Basic
import Mathlib.Algebra.Order.Ring.Int
import Mathlib.Data.Nat.Find
import Mathlib.Tactic.IntervalCases

namespace ServiceRuntime
namespace Foundation

/-!
# The proleptic Gregorian calendar

Days are numbered from the first of January 1970, years run through all
integers.  A date's day number is the sum of the lengths of the years and the
months before it; the day of the month may lie outside its month, and then
counts on into the neighbouring ones.
-/

structure CivilDate where
  year : Int
  month : Int
  day : Int
  deriving DecidableEq, Repr

def isLeap (year : Int) : Bool :=
  decide (year % 4 = 0) && (decide (year % 100 ≠ 0) || decide (year % 400 = 0))

def yearLength (year : Int) : Int :=
  if isLeap year then 366 else 365

def monthLength (year month : Int) : Int :=
  if month = 2 then if isLeap year then 29 else 28
  else if month = 4 ∨ month = 6 ∨ month = 9 ∨ month = 11 then 30
  else 31

/-- The days of the years from one on, as many as given. -/
def yearsLength (year : Int) (count : Nat) : Int :=
  ((List.range count).map fun passed : Nat => yearLength (year + passed)).sum

/-- The day number of the first of January: the years since 1970, or less those
until 1970. -/
def yearStart (year : Int) : Int :=
  yearsLength 1970 (year - 1970).toNat - yearsLength year (1970 - year).toNat

/-- The days of a year before the month after the given number of months. -/
def monthsLength (year : Int) : Nat -> Int
  | 0 => 0
  | months + 1 => monthsLength year months + monthLength year (months + 1)

namespace CivilDate

structure Valid (date : CivilDate) : Prop where
  month : 1 ≤ date.month ∧ date.month ≤ 12
  day : 1 ≤ date.day ∧ date.day ≤ monthLength date.year date.month

def dayNumber (date : CivilDate) : Int :=
  yearStart date.year + monthsLength date.year (date.month - 1).toNat + (date.day - 1)

end CivilDate

/-! ## Years -/

theorem yearStart_epoch : yearStart 1970 = 0 := rfl

theorem yearsLength_last (year : Int) (count : Nat) :
    yearsLength year (count + 1) = yearsLength year count + yearLength (year + count) := by
  unfold yearsLength
  rw [List.range_succ, List.map_append, List.sum_append, List.map_singleton, List.sum_singleton]

theorem yearsLength_first (year : Int) (count : Nat) :
    yearsLength year (count + 1) = yearLength year + yearsLength (year + 1) count := by
  unfold yearsLength
  rw [List.range_succ_eq_map, List.map_cons, List.sum_cons, List.map_map, Nat.cast_zero, add_zero]
  congr 2
  apply List.map_congr_left
  intro passed _
  dsimp only [Function.comp]
  rw [Nat.succ_eq_add_one, Nat.cast_add, Nat.cast_one, add_right_comm, add_assoc]

theorem yearStart_succ (year : Int) : yearStart (year + 1) = yearStart year + yearLength year := by
  unfold yearStart
  rcases le_or_gt 1970 year with past | before
  · obtain ⟨count, rfl⟩ := Int.le.dest past
    have since : (1970 + (count : Int) - 1970).toNat = count := by omega
    have after : (1970 + (count : Int) + 1 - 1970).toNat = count + 1 := by omega
    have none_until : (1970 - (1970 + (count : Int))).toNat = 0 := by omega
    have none_after : (1970 - (1970 + (count : Int) + 1)).toNat = 0 := by omega
    have empty : forall start, yearsLength start 0 = 0 := fun _ => rfl
    rw [since, after, none_until, none_after, empty, empty, yearsLength_last]
    omega
  · obtain ⟨count, ahead⟩ : Exists fun count : Nat => 1970 - year = count + 1 :=
      ⟨(1969 - year).toNat, by omega⟩
    have none_since : (year - 1970).toNat = 0 := by omega
    have none_after : (year + 1 - 1970).toNat = 0 := by omega
    have left : (1970 - year).toNat = count + 1 := by omega
    have less : (1970 - (year + 1)).toNat = count := by omega
    rw [none_since, none_after, left, less, yearsLength_first]
    omega

/-- The leap years make the closed form. -/
def daysBeforeYear (year : Int) : Int :=
  365 * (year - 1970) + ((year - 1) / 4 - (year - 1) / 100 + (year - 1) / 400 - 477)

theorem isLeap_iff {year : Int} :
    isLeap year = true <-> year % 4 = 0 ∧ (year % 100 ≠ 0 ∨ year % 400 = 0) := by
  simp only [isLeap, Bool.and_eq_true, Bool.or_eq_true, decide_eq_true_eq]

theorem yearLength_cases (year : Int) :
    (year % 4 = 0 ∧ (year % 100 ≠ 0 ∨ year % 400 = 0) ∧ yearLength year = 366) ∨
    (¬ (year % 4 = 0 ∧ (year % 100 ≠ 0 ∨ year % 400 = 0)) ∧ yearLength year = 365) := by
  unfold yearLength
  by_cases leap : isLeap year = true
  · have divides := isLeap_iff.mp leap
    exact Or.inl ⟨divides.1, divides.2, if_pos leap⟩
  · exact Or.inr ⟨fun divides => leap (isLeap_iff.mpr divides), if_neg leap⟩

theorem daysBeforeYear_succ (year : Int) :
    daysBeforeYear (year + 1) = daysBeforeYear year + yearLength year := by
  unfold daysBeforeYear
  rcases yearLength_cases year with ⟨fourth, century, length⟩ | ⟨common, length⟩
  · rw [length]
    omega
  · rw [length]
    omega

theorem yearStart_eq (year : Int) : yearStart year = daysBeforeYear year := by
  refine Int.inductionOn' year 1970 yearStart_epoch ?_ ?_
  · intro year _ inductionHypothesis
    rw [yearStart_succ, daysBeforeYear_succ, inductionHypothesis]
  · intro year _ inductionHypothesis
    have starts := yearStart_succ (year - 1)
    have closed := daysBeforeYear_succ (year - 1)
    rw [sub_add_cancel] at starts closed
    omega

/-- Four centuries have the same number of days, wherever they begin. -/
theorem daysBeforeYear_cycle (year cycles : Int) :
    daysBeforeYear (year + 400 * cycles) = daysBeforeYear year + 146097 * cycles := by
  unfold daysBeforeYear
  omega

/-! ## Months -/

theorem monthLength_february (year : Int) :
    monthLength year 2 = if isLeap year then 29 else 28 := rfl

theorem monthsLength_year (year : Int) : monthsLength year 12 = yearLength year := by
  unfold yearLength
  simp only [monthsLength, monthLength]
  norm_num
  split <;> rfl

/-! ## The order of the dates -/

theorem yearLength_pos (year : Int) : 0 < yearLength year := by
  rcases yearLength_cases year with ⟨_, _, length⟩ | ⟨_, length⟩
  · rw [length]
    decide
  · rw [length]
    decide

theorem yearStart_le {year later : Int} (order : year ≤ later) : yearStart year ≤ yearStart later := by
  induction later, order using Int.leInduction with
  | base => exact Int.le_refl _
  | succ later _ inductionHypothesis =>
      rw [yearStart_succ]
      have positive := yearLength_pos later
      omega

theorem monthLength_pos (year month : Int) : 0 < monthLength year month := by
  unfold monthLength
  split_ifs <;> decide

theorem monthsLength_through (year : Int) {month : Int} (positive : 1 ≤ month) :
    monthsLength year month.toNat = monthsLength year (month - 1).toNat + monthLength year month := by
  obtain ⟨months, rfl⟩ : Exists fun months : Nat => month = months + 1 :=
    ⟨(month - 1).toNat, by omega⟩
  have before : ((months : Int) + 1 - 1).toNat = months := by omega
  have through : ((months : Int) + 1).toNat = months + 1 := by omega
  rw [before, through, monthsLength]

theorem monthsLength_le (year : Int) {months later : Nat} (order : months ≤ later) :
    monthsLength year months ≤ monthsLength year later := by
  induction order with
  | refl => exact Int.le_refl _
  | @step later _ inductionHypothesis =>
      have positive := monthLength_pos year (later + 1)
      rw [monthsLength]
      omega

namespace CivilDate

/-- The order of the calendar: by year, then by month, then by day. -/
def Earlier (first second : CivilDate) : Prop :=
  first.year < second.year ∨ first.year = second.year ∧
    (first.month < second.month ∨ first.month = second.month ∧ first.day < second.day)

theorem earlier_trichotomy (first second : CivilDate) :
    first.Earlier second ∨ first = second ∨ second.Earlier first := by
  rcases first with ⟨year, month, day⟩
  rcases second with ⟨otherYear, otherMonth, otherDay⟩
  simp only [Earlier, mk.injEq]
  omega

/-- A day lies between the first of its month and the first of the next. -/
theorem Valid.within_month {date : CivilDate} (valid : date.Valid) :
    yearStart date.year + monthsLength date.year (date.month - 1).toNat ≤ date.dayNumber ∧
      date.dayNumber < yearStart date.year + monthsLength date.year date.month.toNat := by
  have days := valid.day
  unfold dayNumber
  rw [monthsLength_through date.year valid.month.1]
  omega

theorem Valid.dayNumber_lt {first second : CivilDate} (valid : first.Valid)
    (secondValid : second.Valid) (earlier : first.Earlier second) :
    first.dayNumber < second.dayNumber := by
  have ends := valid.within_month.2
  have begins := secondValid.within_month.1
  have months := valid.month
  have laterMonths := secondValid.month
  rcases earlier with year | ⟨year, month | ⟨month, day⟩⟩
  · have restOfYear := monthsLength_le first.year (show first.month.toNat ≤ 12 by omega)
    have years := yearStart_le (Int.add_one_le_of_lt year)
    have fromJanuary := monthsLength_le second.year (Nat.zero_le (second.month - 1).toNat)
    rw [monthsLength_year] at restOfYear
    rw [yearStart_succ] at years
    rw [monthsLength] at fromJanuary
    omega
  · have between := monthsLength_le first.year
      (show first.month.toNat ≤ (second.month - 1).toNat by omega)
    rw [← year] at begins
    omega
  · unfold dayNumber
    rw [year, month]
    omega

end CivilDate

/-! ## The date of a day -/

/-- A search for the last step not past a point stops right before it. -/
theorem findGreatest_step {start : Nat -> Int} {point : Int} {bound : Nat} (first : start 0 ≤ point)
    (last : point < start (bound + 1)) :
    start (Nat.findGreatest (fun index => start index ≤ point) bound) ≤ point ∧
      point < start (Nat.findGreatest (fun index => start index ≤ point) bound + 1) := by
  constructor
  · exact @Nat.findGreatest_spec 0 (fun index => start index ≤ point) _ bound (Nat.zero_le _) first
  · by_contra reached
    have within := @Nat.findGreatest_le (fun index => start index ≤ point) _ bound
    rcases Nat.lt_or_eq_of_le within with inside | atEnd
    · exact Nat.findGreatest_is_greatest (Nat.lt_succ_self _) inside (not_lt.mp reached)
    · rw [atEnd] at reached
      exact reached last

/-- The days from the beginning of 2000 to the beginning of a year of its cycle. -/
def yearOfCycleStart (years : Nat) : Int :=
  daysBeforeYear (2000 + years) - daysBeforeYear 2000

/-- The year a day is in. -/
def yearOf (number : Int) : Int :=
  let days := number - daysBeforeYear 2000
  2000 + Nat.findGreatest (fun years => yearOfCycleStart years ≤ days % 146097) 399 +
    400 * (days / 146097)

theorem yearOf_spec (number : Int) :
    daysBeforeYear (yearOf number) ≤ number ∧ number < daysBeforeYear (yearOf number + 1) := by
  have atStart : yearOfCycleStart 0 ≤ (number - daysBeforeYear 2000) % 146097 := by
    have nonneg := Int.emod_nonneg (number - daysBeforeYear 2000) (show (146097 : Int) ≠ 0 by decide)
    simpa [yearOfCycleStart] using nonneg
  have atEnd : (number - daysBeforeYear 2000) % 146097 < yearOfCycleStart (399 + 1) := by
    have small := Int.emod_lt_of_pos (number - daysBeforeYear 2000) (show 0 < (146097 : Int) by decide)
    have length : yearOfCycleStart (399 + 1) = 146097 := by decide
    rw [length]
    exact small
  rcases findGreatest_step atStart atEnd with ⟨reached, notPassed⟩
  unfold yearOf
  dsimp only
  generalize Nat.findGreatest (fun years => yearOfCycleStart years ≤
    (number - daysBeforeYear 2000) % 146097) 399 = years at reached notPassed ⊢
  unfold yearOfCycleStart at reached notPassed
  rw [add_right_comm _ _ 1, daysBeforeYear_cycle, daysBeforeYear_cycle]
  push_cast at notPassed
  rw [← add_assoc] at notPassed
  omega

/-- How many months of the year are over. -/
def monthsOver (year dayOfYear : Int) : Nat :=
  Nat.findGreatest (fun months => monthsLength year months ≤ dayOfYear) 11

theorem monthsOver_spec {year dayOfYear : Int} (nonneg : 0 ≤ dayOfYear)
    (inside : dayOfYear < yearLength year) :
    monthsLength year (monthsOver year dayOfYear) ≤ dayOfYear ∧
      dayOfYear < monthsLength year (monthsOver year dayOfYear + 1) := by
  apply @findGreatest_step (monthsLength year) dayOfYear 11 nonneg
  rw [monthsLength_year]
  exact inside

theorem monthsOver_le (year dayOfYear : Int) : monthsOver year dayOfYear ≤ 11 :=
  Nat.findGreatest_le _

/-- The date with the given day number. -/
def ofDayNumber (number : Int) : CivilDate :=
  let year := yearOf number
  let dayOfYear := number - daysBeforeYear year
  let months := monthsOver year dayOfYear
  ⟨year, months + 1, dayOfYear - monthsLength year months + 1⟩

theorem ofDayNumber_valid (number : Int) : (ofDayNumber number).Valid := by
  rcases yearOf_spec number with ⟨started, notOver⟩
  rw [daysBeforeYear_succ] at notOver
  rcases @monthsOver_spec (yearOf number) (number - daysBeforeYear (yearOf number)) (by omega)
    (by omega) with ⟨begun, unfinished⟩
  have months := monthsOver_le (yearOf number) (number - daysBeforeYear (yearOf number))
  rw [monthsLength] at unfinished
  unfold ofDayNumber
  constructor
  · dsimp only
    omega
  · dsimp only
    omega

theorem dayNumber_ofDayNumber (number : Int) : (ofDayNumber number).dayNumber = number := by
  unfold ofDayNumber CivilDate.dayNumber
  dsimp only
  rw [yearStart_eq, add_sub_cancel_right, Int.toNat_natCast]
  omega

end Foundation
end ServiceRuntime
