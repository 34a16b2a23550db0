import Mathlib.Logic.Function.Iterate
import ServiceRuntime.Scheduler.Timestamp

namespace ServiceRuntime
namespace Scheduler

open Foundation

/-!
# Counting days

`days_from_civil` computes with eras of 400 years and a linear approximation of
the months.  Here it is set against going through the calendar day by day, with
the source's own table of the months: the next day is one day more, so the
number of a day is how often the day after has to be taken from the epoch on, or
to come to it.
-/

/-- A date there is, by the source's table of the months. -/
structure InCalendar (date : CivilDate) : Prop where
  month : 1 ≤ date.month ∧ date.month ≤ 12
  day : 1 ≤ date.day ∧ date.day ≤ daysInMonth date.year date.month

/-- The day after, by the source's table of the months. -/
def nextDay (date : CivilDate) : CivilDate :=
  if date.day < daysInMonth date.year date.month then { date with day := date.day + 1 }
  else if date.month < 12 then ⟨date.year, date.month + 1, 1⟩
  else ⟨date.year + 1, 1, 1⟩

def epoch : CivilDate := ⟨1970, 1, 1⟩

def civilDays (date : CivilDate) : Int :=
  daysFromCivil date.year date.month date.day

namespace InCalendar

variable {date other : CivilDate}

theorem valid (inside : InCalendar date) : date.Valid where
  month := inside.month
  day := by
    rw [← daysInMonth_eq inside.month]
    exact inside.day

theorem civilDays_eq (inside : InCalendar date) : civilDays date = date.dayNumber :=
  daysFromCivil_eq date inside.month

theorem ofFirst {year month : Int} (inYear : 1 ≤ month ∧ month ≤ 12) :
    InCalendar ⟨year, month, 1⟩ where
  month := inYear
  day := by
    dsimp only
    rw [daysInMonth_eq inYear]
    exact ⟨Int.le_refl 1, monthLength_pos year month⟩

theorem epoch : InCalendar epoch := ofFirst ⟨Int.le_refl 1, by decide⟩

/-- The day after is in the calendar, and one day later. -/
theorem next (inside : InCalendar date) :
    InCalendar (nextDay date) ∧ civilDays (nextDay date) = civilDays date + 1 := by
  have months := inside.month
  have days := inside.day
  have length := @daysInMonth_eq date.year date.month months
  have through := monthsLength_through date.year months.1
  unfold nextDay
  split_ifs with within december
  · have later : InCalendar { date with day := date.day + 1 } :=
      ⟨months, by dsimp only; omega⟩
    refine ⟨later, ?_⟩
    rw [later.civilDays_eq, inside.civilDays_eq]
    unfold CivilDate.dayNumber
    dsimp only
    omega
  · have later : InCalendar ⟨date.year, date.month + 1, 1⟩ := ofFirst (by omega)
    refine ⟨later, ?_⟩
    rw [later.civilDays_eq, inside.civilDays_eq]
    unfold CivilDate.dayNumber
    dsimp only
    rw [add_sub_cancel_right]
    omega
  · have later : InCalendar ⟨date.year + 1, 1, 1⟩ := ofFirst (by decide)
    have last : date.month = 12 := by omega
    have whole := monthsLength_year date.year
    refine ⟨later, ?_⟩
    rw [later.civilDays_eq, inside.civilDays_eq]
    unfold CivilDate.dayNumber
    dsimp only
    rw [yearStart_succ]
    rw [last] at through length days within ⊢
    change monthsLength date.year 12 = _ at through
    change _ + monthsLength date.year 0 + _ = _
    rw [monthsLength]
    omega

theorem civilDays_lt (inside : InCalendar date) (otherInside : InCalendar other)
    (earlier : date.Earlier other) : civilDays date < civilDays other := by
  rw [inside.civilDays_eq, otherInside.civilDays_eq]
  exact inside.valid.dayNumber_lt otherInside.valid earlier

theorem eq_of_civilDays (inside : InCalendar date) (otherInside : InCalendar other)
    (same : civilDays date = civilDays other) : date = other := by
  rcases date.earlier_trichotomy other with earlier | equal | later
  · exact absurd same (ne_of_lt (inside.civilDays_lt otherInside earlier))
  · exact equal
  · exact absurd same (ne_of_gt (otherInside.civilDays_lt inside later))

/-- Every day taken adds one. -/
theorem iterate (inside : InCalendar date) (days : Nat) :
    InCalendar (nextDay^[days] date) ∧ civilDays (nextDay^[days] date) = civilDays date + days := by
  induction days with
  | zero => exact ⟨inside, (Int.add_zero _).symm⟩
  | succ days inductionHypothesis =>
      have next := inductionHypothesis.1.next
      rw [Function.iterate_succ_apply']
      refine ⟨next.1, ?_⟩
      rw [next.2, inductionHypothesis.2, Int.add_assoc]
      rfl

theorem epoch_eq : civilDays Scheduler.epoch = 0 := rfl

/-- From one day on to another that is not earlier, there are as many days as the difference. -/
theorem iterate_eq (inside : InCalendar date) (otherInside : InCalendar other) {days : Nat}
    (difference : civilDays other = civilDays date + days) : nextDay^[days] date = other := by
  have reached := inside.iterate days
  exact reached.1.eq_of_civilDays otherInside (reached.2.trans difference.symm)

/-- The number of a day is counted one by one from the epoch. -/
theorem counted (inside : InCalendar date) :
    Exists fun days : Nat =>
      nextDay^[days] Scheduler.epoch = date ∧ civilDays date = days ∨
      nextDay^[days] date = Scheduler.epoch ∧ civilDays date = -days := by
  rcases Int.le_total 0 (civilDays date) with since | earlier
  · have number := (Int.toNat_of_nonneg since).symm
    refine ⟨(civilDays date).toNat, Or.inl ⟨?_, number⟩⟩
    apply epoch.iterate_eq inside
    rw [epoch_eq, Int.zero_add]
    exact number
  · have number := Int.toNat_of_nonneg (Int.neg_nonneg_of_nonpos earlier)
    refine ⟨(-civilDays date).toNat, Or.inr ⟨?_, by omega⟩⟩
    apply inside.iterate_eq epoch
    rw [epoch_eq, number]
    omega

end InCalendar

/-- The formula counts the days of the calendar: one more for the next day, none
for the epoch, and so in the order of the calendar, each day its own number. -/
theorem days_from_civil :
    (forall date, InCalendar date -> civilDays (nextDay date) = civilDays date + 1) ∧
    daysFromCivil 1970 1 1 = 0 ∧
    (forall first second, InCalendar first -> InCalendar second -> first.Earlier second ->
      civilDays first < civilDays second) ∧
    (forall first second, InCalendar first -> InCalendar second ->
      civilDays first = civilDays second -> first = second) ∧
    forall date, InCalendar date -> Exists fun days : Nat =>
      nextDay^[days] epoch = date ∧ civilDays date = days ∨
      nextDay^[days] date = epoch ∧ civilDays date = -days :=
  ⟨fun _ inside => inside.next.2, rfl, fun _ _ inside otherInside => inside.civilDays_lt otherInside,
    fun _ _ inside otherInside => inside.eq_of_civilDays otherInside, fun _ inside => inside.counted⟩

end Scheduler
end ServiceRuntime
